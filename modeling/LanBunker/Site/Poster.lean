import LanBunker.Utf16.Replace
import LanBunker.Utf16.Units

/-!
# The poster for the door

The poster is one SVG with the name of the event and the check-in link as text.  `escape` makes a
text safe there.
-/

namespace LanBunker
namespace Poster

open Utf16

/-- The `Char` production of XML 1.0, on a code point of the string. -/
def isXmlText (code : Nat) : Bool :=
  code == 0x09 || code == 0x0a || code == 0x0d || (0x20 ≤ code && code ≤ 0xd7ff) ||
    (0xe000 ≤ code && code ≤ 0xfffd) || 0x10000 ≤ code

/-- The unit of an ASCII character. -/
def unit (c : Char) : UInt16 := .ofNat c.toNat

/-- A character with a meaning in markup, and the entity that stands for it behind an `&`. -/
structure Entity where
  mark : UInt16
  name : List UInt16
  deriving DecidableEq

def Entity.spelled (entity : Entity) : List UInt16 := unit '&' :: entity.name

def amp : Entity := ⟨unit '&', ofChars ['a', 'm', 'p', ';']⟩
def lt : Entity := ⟨unit '<', ofChars ['l', 't', ';']⟩
def gt : Entity := ⟨unit '>', ofChars ['g', 't', ';']⟩
def quot : Entity := ⟨unit '"', ofChars ['q', 'u', 'o', 't', ';']⟩

/-- `.replaceAll(mark, entity)`. -/
def Entity.replaceMark (entity : Entity) (text : List UInt16) : List UInt16 :=
  replaceAll (.single entity.mark entity.spelled) text

/-- Text safe inside the SVG: the markup escaped, what XML refuses removed. -/
def escape (text : List UInt16) : List UInt16 :=
  quot.replaceMark (gt.replaceMark (lt.replaceMark (amp.replaceMark
    (units ((points text).filter isXmlText)))))

/-! ## What a reader of the poster gets back -/

/-- The `Char` production of XML 1.0. -/
def IsXmlChar (point : Nat) : Prop :=
  point = 0x9 ∨ point = 0xA ∨ point = 0xD ∨ 0x20 ≤ point ∧ point ≤ 0xD7FF ∨
    0xE000 ≤ point ∧ point ≤ 0xFFFD ∨ 0x10000 ≤ point ∧ point ≤ 0x10FFFF

instance : DecidablePred IsXmlChar := fun point =>
  inferInstanceAs (Decidable (point = 0x9 ∨ point = 0xA ∨ point = 0xD ∨
    0x20 ≤ point ∧ point ≤ 0xD7FF ∨ 0xE000 ≤ point ∧ point ≤ 0xFFFD ∨
    0x10000 ≤ point ∧ point ≤ 0x10FFFF))

def entities : List Entity := [amp, lt, gt, quot]

/-- The rule that puts the character back for its entity. -/
def Entity.back (entity : Entity) : Rule UInt16 := ⟨unit '&', entity.name, [entity.mark]⟩

/-- What a reader of XML makes of a text: every entity is its character. -/
def unescape (text : List UInt16) : List UInt16 := rewriteAll (entities.map Entity.back) text

/-- The four replacements undone, the last one first. -/
def replaceBack (text : List UInt16) : List UInt16 :=
  replaceAll amp.back (replaceAll lt.back (replaceAll gt.back (replaceAll quot.back text)))

/-- What stands for one unit after the escape. -/
def escaped (listed : List Entity) (item : UInt16) : List UInt16 :=
  (listed.find? fun entity => entity.mark = item).elim [item] Entity.spelled

/-! ## One unit after the escape -/

/-- What is left of a text before the markup is escaped. -/
def kept (text : List UInt16) : List UInt16 := units ((points text).filter isXmlText)

/-- A unit is a character with an entity, or it stays. -/
theorem escaped_cases (listed : List Entity) (item : UInt16) :
    (∃ entity ∈ listed, entity.mark = item ∧ escaped listed item = entity.spelled) ∨
      (∀ entity ∈ listed, entity.mark ≠ item) ∧ escaped listed item = [item] := by
  cases found : listed.find? fun entity => entity.mark = item with
  | none =>
      right
      rw [List.find?_eq_none] at found
      refine ⟨fun entity member => by simpa using found entity member, ?_⟩
      rw [escaped, List.find?_eq_none.mpr found, Option.elim_none]
  | some entity =>
      left
      refine ⟨entity, List.mem_of_find?_eq_some found, ?_, ?_⟩
      · simpa using List.find?_some found
      · rw [escaped, found, Option.elim_some]

theorem name_ne_ampersand : ∀ entity ∈ entities, unit '&' ∉ entity.name := by decide

theorem spelled_ne_mark {entity : Entity} (listed : entity ∈ entities) {item : UInt16}
    (member : item ∈ entity.spelled) : item ∉ [unit '<', unit '>', unit '"'] := by
  have checked : (entities.all fun entity => entity.spelled.all fun item =>
      decide (item ∉ [unit '<', unit '>', unit '"'])) = true := by decide
  exact of_decide_eq_true
    (List.all_eq_true.mp (List.all_eq_true.mp checked entity listed) item member)

theorem spelled_xml {entity : Entity} (listed : entity ∈ entities) {item : UInt16}
    (member : item ∈ entity.spelled) : IsXmlChar item.toNat := by
  have checked : (entities.all fun entity => entity.spelled.all fun item =>
      decide (IsXmlChar item.toNat)) = true := by decide
  exact of_decide_eq_true
    (List.all_eq_true.mp (List.all_eq_true.mp checked entity listed) item member)

/-- The four replacements work on every unit by itself. -/
theorem escape_eq (text : List UInt16) : escape text = (kept text).flatMap (escaped entities) := by
  simp only [escape, Entity.replaceMark, replaceAll_single, List.flatMap_assoc]
  refine List.flatMap_congr fun item member => ?_
  by_cases is_amp : item = amp.mark
  · subst is_amp
    decide
  by_cases is_lt : item = lt.mark
  · subst is_lt
    decide
  by_cases is_gt : item = gt.mark
  · subst is_gt
    decide
  by_cases is_quot : item = quot.mark
  · subst is_quot
    decide
  have stays : escaped entities item = [item] := by
    rcases escaped_cases entities item with ⟨entity, listed, same, -⟩ | ⟨-, stays⟩
    · simp only [entities, List.mem_cons, List.not_mem_nil, or_false] at listed
      rcases listed with rfl | rfl | rfl | rfl
      · exact absurd same.symm is_amp
      · exact absurd same.symm is_lt
      · exact absurd same.symm is_gt
      · exact absurd same.symm is_quot
    · exact stays
  rw [stays]
  simp [is_amp, is_lt, is_gt, is_quot]

/-! ## The characters of the escaped text -/

theorem isXmlText_iff {point : Nat} (bounded : point < 0x110000) :
    isXmlText point = true ↔ IsXmlChar point := by
  simp only [isXmlText, IsXmlChar, Bool.or_eq_true, Bool.and_eq_true, beq_iff_eq,
    decide_eq_true_eq]
  omega

theorem IsXmlChar.isScalar {point : Nat} (xml : IsXmlChar point) : IsScalar point := by
  simp only [IsXmlChar] at xml
  simp only [IsScalar]
  omega

theorem filter_isXmlText (text : List UInt16) :
    (points text).filter isXmlText = (points text).filter IsXmlChar := by
  refine List.filter_congr fun point member => ?_
  rw [Bool.eq_iff_iff, isXmlText_iff (points_lt member), decide_eq_true_iff]

theorem mark_small : ∀ entity ∈ entities, entity.mark.toNat < 0xD800 := by decide

/-- Units that are characters of XML by themselves. -/
theorem exists_points_of_units {items : List UInt16}
    (xml : ∀ item ∈ items, IsXmlChar item.toNat) :
    ∃ points, items = units points ∧ ∀ point ∈ points, IsXmlChar point := by
  refine ⟨items.map UInt16.toNat, ?_, fun point member => ?_⟩
  · induction items with
    | nil => rfl
    | cons item items ih =>
        rw [List.map_cons, units_cons, unitsOf_unit,
          ← ih fun other member => xml other (List.mem_cons_of_mem item member)]
        rfl
  · obtain ⟨item, listed, rfl⟩ := List.mem_map.mp member
    exact xml item listed

/-- A character of XML is escaped to characters of XML. -/
theorem exists_points_of_escaped {point : Nat} (xml : IsXmlChar point) :
    ∃ points, (unitsOf point).flatMap (escaped entities) = units points ∧
      ∀ other ∈ points, IsXmlChar other := by
  by_cases is_mark : ∃ entity ∈ entities, entity.mark.toNat = point
  · obtain ⟨entity, listed, rfl⟩ := is_mark
    refine exists_points_of_units fun item member => ?_
    rw [unitsOf_unit, List.flatMap_singleton] at member
    rcases escaped_cases entities entity.mark with ⟨other, other_listed, -, spelled⟩ | ⟨none, -⟩
    · rw [spelled] at member
      exact spelled_xml other_listed member
    · exact absurd rfl (none entity listed)
  · have bounded : point < 0x110000 := by
      simp only [IsXmlChar] at xml
      omega
    have stays : (unitsOf point).flatMap (escaped entities) = unitsOf point := by
      conv_rhs => rw [← List.flatMap_singleton' (unitsOf point)]
      refine List.flatMap_congr fun item member => ?_
      rcases escaped_cases entities item with ⟨entity, listed, same, -⟩ | ⟨-, stays⟩
      · subst same
        rcases of_mem_unitsOf bounded member with whole | surrogate
        · exact absurd ⟨entity, listed, whole⟩ is_mark
        · exact absurd (mark_small entity listed) (Nat.not_lt.mpr surrogate)
      · exact stays
    refine ⟨[point], ?_, fun other member => ?_⟩
    · rw [stays, units_cons, units_nil, List.append_nil]
    · rwa [List.mem_singleton.mp member]

theorem exists_points_of_flatMap {source : List Nat} (xml : ∀ point ∈ source, IsXmlChar point) :
    ∃ points, (units source).flatMap (escaped entities) = units points ∧
      ∀ point ∈ points, IsXmlChar point := by
  induction source with
  | nil => exact ⟨[], rfl, by simp⟩
  | cons point source ih =>
      obtain ⟨here, here_eq, here_xml⟩ := exists_points_of_escaped (xml point List.mem_cons_self)
      obtain ⟨later, later_eq, later_xml⟩ :=
        ih fun other member => xml other (List.mem_cons_of_mem point member)
      refine ⟨here ++ later, ?_, fun other member => ?_⟩
      · rw [units_cons, List.flatMap_append, here_eq, later_eq, units_append]
      · rcases List.mem_append.mp member with first | second
        · exact here_xml other first
        · exact later_xml other second

theorem xml_of_mem_escape {text : List UInt16} {point : Nat}
    (member : point ∈ points (escape text)) : IsXmlChar point := by
  have kept_xml : ∀ point ∈ (points text).filter IsXmlChar, IsXmlChar point := by
    intro point member
    simpa using (List.mem_filter.mp member).2
  obtain ⟨spelled, whole, xml⟩ := exists_points_of_flatMap kept_xml
  rw [escape_eq, kept, filter_isXmlText, whole,
    points_units fun other listed => (xml other listed).isScalar] at member
  exact xml point member

theorem not_mark_of_mem_escape {text : List UInt16} {item : UInt16}
    (member : item ∈ escape text) : item ∉ [unit '<', unit '>', unit '"'] := by
  rw [escape_eq] at member
  obtain ⟨source, -, spelled⟩ := List.mem_flatMap.mp member
  rcases escaped_cases entities source with ⟨entity, listed, -, whole⟩ | ⟨none, whole⟩
  · rw [whole] at spelled
    exact spelled_ne_mark listed spelled
  · rw [whole, List.mem_singleton] at spelled
    subst spelled
    intro is_mark
    simp only [List.mem_cons, List.not_mem_nil, or_false] at is_mark
    rcases is_mark with is_lt | is_gt | is_quot
    · exact none lt (by decide) is_lt.symm
    · exact none gt (by decide) is_gt.symm
    · exact none quot (by decide) is_quot.symm

/-! ## Every ampersand starts an entity -/

/-- An ampersand in what stands for one unit starts an entity there. -/
theorem entity_of_escaped {item : UInt16} {before after : List UInt16}
    (split : escaped entities item = before ++ unit '&' :: after) :
    ∃ entity ∈ entities, entity.spelled = unit '&' :: after := by
  rcases escaped_cases entities item with ⟨entity, listed, -, whole⟩ | ⟨none, whole⟩
  · rw [whole] at split
    cases before with
    | nil => exact ⟨entity, listed, split⟩
    | cons first before =>
        rw [Entity.spelled, List.cons_append, List.cons.injEq] at split
        have inside : unit '&' ∈ entity.name := by
          rw [split.2]
          exact List.mem_append_right before List.mem_cons_self
        exact absurd inside (name_ne_ampersand entity listed)
  · rw [whole] at split
    have here : unit '&' ∈ [item] := by
      rw [split]
      exact List.mem_append_right before List.mem_cons_self
    rw [List.mem_singleton] at here
    exact absurd here (none amp (by decide))

theorem entity_of_flatMap {items before after : List UInt16}
    (split : items.flatMap (escaped entities) = before ++ unit '&' :: after) :
    ∃ entity ∈ entities, entity.spelled <+: unit '&' :: after := by
  induction items generalizing before with
  | nil => simp at split
  | cons item items ih =>
      rw [List.flatMap_cons, List.append_eq_append_iff] at split
      rcases split with ⟨later, -, rest⟩ | ⟨later, here, rest⟩
      · exact ih rest
      · cases later with
        | nil => exact ih (show _ = [] ++ unit '&' :: after from rest.symm)
        | cons first later =>
            rw [List.cons_append, List.cons.injEq] at rest
            obtain ⟨rfl, rest⟩ := rest
            obtain ⟨entity, listed, whole⟩ := entity_of_escaped here
            refine ⟨entity, listed, items.flatMap (escaped entities), ?_⟩
            rw [whole, rest]
            rfl

/-! ## Reading the text back -/

theorem back_found : ∀ entity ∈ entities, ∀ rest,
    (entities.map Entity.back).find? (fun rule =>
      rule.pattern.isPrefixOf (entity.back.pattern ++ rest)) = some entity.back := by
  intro entity listed rest
  simp only [entities, List.mem_cons, List.not_mem_nil, or_false] at listed
  rcases listed with rfl | rfl | rfl | rfl <;> rfl

/-- A reader of XML gets the text that was left to escape. -/
theorem unescape_escape (text : List UInt16) : unescape (escape text) = kept text := by
  rw [escape_eq, unescape]
  conv_rhs => rw [← List.flatMap_singleton' (kept text)]
  refine rewriteAll_flatMap fun item member rest => ?_
  rcases escaped_cases entities item with ⟨entity, listed, rfl, spelled⟩ | ⟨none, stays⟩
  · rw [spelled]
    exact rewriteAll_of_find (back_found entity listed rest)
  · have starts_none : ∀ here ∈ [item], ∀ rule ∈ entities.map Entity.back,
        rule.first ≠ here := by
      intro here is_item rule is_rule
      obtain ⟨entity, -, rfl⟩ := List.mem_map.mp is_rule
      rw [List.mem_singleton.mp is_item]
      exact none amp (by decide)
    rw [stays]
    exact rewriteAll_append starts_none rest

theorem name_ne_nil : ∀ entity ∈ entities, entity.name ≠ [] := by decide

/-- Entities whose names start with different letters. -/
theorem not_spelled_prefix {entity other : Entity} (known : entity ∈ entities)
    (other_known : other ∈ entities) (differs : entity.name.head? ≠ other.name.head?)
    (rest : List UInt16) : ¬ entity.spelled <+: other.spelled ++ rest := by
  rw [Entity.spelled, Entity.spelled, List.cons_append, List.cons_prefix_cons]
  rintro ⟨-, starts⟩
  obtain ⟨letter, name, spelled⟩ := List.exists_cons_of_ne_nil (name_ne_nil entity known)
  obtain ⟨other_letter, other_name, other_spelled⟩ :=
    List.exists_cons_of_ne_nil (name_ne_nil other other_known)
  rw [spelled, other_spelled, List.cons_append, List.cons_prefix_cons] at starts
  refine differs ?_
  rw [spelled, other_spelled, List.head?_cons, List.head?_cons, starts.1]

/-- One replacement undone.  The other entities have another letter behind the `&`. -/
theorem replaceAll_back (earlier : List Entity) (entity : Entity)
    (known : ∀ other ∈ earlier ++ [entity], other ∈ entities)
    (differs : ∀ other ∈ earlier, entity.name.head? ≠ other.name.head?)
    (has_amp : amp ∈ earlier ++ [entity]) (items : List UInt16) :
    replaceAll entity.back (items.flatMap (escaped (earlier ++ [entity]))) =
      items.flatMap (escaped earlier) := by
  have entity_known : entity ∈ entities :=
    known entity (List.mem_append_right earlier List.mem_cons_self)
  refine rewriteAll_flatMap fun item member rest => ?_
  cases found : earlier.find? fun other => other.mark = item with
  | some other =>
      have listed : other ∈ earlier := List.mem_of_find?_eq_some found
      have other_known := known other (List.mem_append_left [entity] listed)
      have before : escaped (earlier ++ [entity]) item = other.spelled := by
        rw [escaped, List.find?_append, found, Option.some_or, Option.elim_some]
      have after : escaped earlier item = other.spelled := by
        rw [escaped, found, Option.elim_some]
      have none_starts : ∀ rule ∈ [entity.back],
          ¬ rule.pattern <+: unit '&' :: (other.name ++ rest) := by
        intro rule is_rule
        rw [List.mem_singleton.mp is_rule]
        exact not_spelled_prefix entity_known other_known (differs other listed) rest
      have name_stays : ∀ letter ∈ other.name, ∀ rule ∈ [entity.back], rule.first ≠ letter := by
        intro letter in_name rule is_rule same
        rw [List.mem_singleton.mp is_rule] at same
        rw [← same] at in_name
        exact name_ne_ampersand other other_known in_name
      rw [before, after, Entity.spelled, List.cons_append, rewriteAll_of_none none_starts,
        rewriteAll_append name_stays]
      rfl
  | none =>
      have after : escaped earlier item = [item] := by rw [escaped, found, Option.elim_none]
      have last : escaped (earlier ++ [entity]) item =
          if entity.mark = item then entity.spelled else [item] := by
        rw [escaped, List.find?_append, found, Option.none_or, List.find?_cons]
        by_cases same : entity.mark = item <;> simp [same]
      by_cases same : entity.mark = item
      · have starts : [entity.back].find? (fun rule =>
            rule.pattern.isPrefixOf (entity.back.pattern ++ rest)) = some entity.back := by
          simp
        rw [last, if_pos same, after, ← same]
        exact rewriteAll_of_find starts
      · have starts_none : ∀ here ∈ [item], ∀ rule ∈ [entity.back], rule.first ≠ here := by
          intro here is_item rule is_rule ampersand
          rw [List.mem_singleton.mp is_item, List.mem_singleton.mp is_rule] at ampersand
          rcases List.mem_append.mp has_amp with is_earlier | is_last
          · exact absurd (decide_eq_true ampersand) (List.find?_eq_none.mp found amp is_earlier)
          · rw [← List.mem_singleton.mp is_last] at same
            exact same ampersand
        rw [last, if_neg same, after]
        exact rewriteAll_append starts_none rest

/-- The four replacements undone, the last one first, give the text that was left to escape. -/
theorem replaceBack_escape (text : List UInt16) : replaceBack (escape text) = kept text := by
  have quot_back := replaceAll_back [amp, lt, gt] quot (by decide) (by decide) (by decide)
    (kept text)
  have gt_back := replaceAll_back [amp, lt] gt (by decide) (by decide) (by decide) (kept text)
  have lt_back := replaceAll_back [amp] lt (by decide) (by decide) (by decide) (kept text)
  have amp_back := replaceAll_back [] amp (by decide) (by decide) (by decide) (kept text)
  simp only [List.cons_append, List.nil_append] at quot_back gt_back lt_back amp_back
  rw [replaceBack, escape_eq, entities, quot_back, gt_back, lt_back, amp_back]
  exact List.flatMap_singleton' (kept text)

/-- The escaped text has only characters of XML and no markup, every ampersand in it starts an
entity, and the entities put back give the text without what XML refuses. -/
theorem escape_faithful (text : List UInt16) :
    (∀ point ∈ points (escape text), IsXmlChar point) ∧
      (∀ item ∈ escape text, item ∉ [unit '<', unit '>', unit '"']) ∧
      (∀ before after, escape text = before ++ unit '&' :: after →
        ∃ entity ∈ entities, entity.spelled <+: unit '&' :: after) ∧
      unescape (escape text) = units ((points text).filter IsXmlChar) ∧
      replaceBack (escape text) = units ((points text).filter IsXmlChar) := by
  have kept_eq : kept text = units ((points text).filter IsXmlChar) := by
    rw [kept, filter_isXmlText]
  refine ⟨fun point member => xml_of_mem_escape member,
    fun item member => not_mark_of_mem_escape member, fun before after split => ?_, ?_, ?_⟩
  · rw [escape_eq] at split
    exact entity_of_flatMap split
  · rw [unescape_escape, kept_eq]
  · rw [replaceBack_escape, kept_eq]

/-- A lone surrogate and a control character go, an ampersand is escaped once. -/
example : escape (ofChars ['&', 'l', 't', ';'] ++ [0xD83D, 7] ++ ofChars ['<']) =
    ofChars ['&', 'a', 'm', 'p', ';', 'l', 't', ';', '&', 'l', 't', ';'] := by decide

end Poster
end LanBunker
