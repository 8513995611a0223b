import LanBunker.Ecma.Numbers
import LanBunker.Models.Pagination
import LanBunker.Models.Wire

/-!
# Links to a list

A list page reads `?page=` and `?q=` of its URL and asks the API for that page and that search.
-/

namespace LanBunker
namespace Paging

open Utf16 Ecma

/-- `url.searchParams`, in the order of the URL. -/
abbrev Query := List (List Char × List Char)

/-- `searchParams.get`: the first value, `none` being `null`. -/
def Query.get (query : Query) (name : List Char) : Option (List Char) := List.lookup name query

/-- `PAGE_SIZE`. -/
def pageSize : Nat := 20

/-- `SEARCH_MAX`, the longest handle. -/
def searchMax : Nat := 20

/-- The search of a URL.  Blank is no search, and a longer term is cut. -/
def searchFrom (query : Query) : Option (List UInt16) :=
  let term := (Ecma.trim (ofChars ((query.get ['q']).getD []))).take searchMax
  if term.isEmpty then none else some term

/-- `Number(value)`: `null` is zero. -/
def number (value : Option (List Char)) : Number :=
  value.elim (.finite 0) fun text => .ofString (ofChars text)

/-- The page of a URL.  Anything that is not a positive integer becomes page 1. -/
def pageFrom (query : Query) : Nat :=
  match number (query.get ['p', 'a', 'g', 'e']) with
  | .finite raw => if raw.isInt && 1 ≤ raw then raw.num.toNat else 1
  | .infinite _ => 1
  | .nan => 1

/-- The query that the list page asks for.  No search is no key. -/
def listQuery (query : Query) : List (List Char × List UInt16) :=
  (['p', 'a', 'g', 'e'], ofChars (wholeText (pageFrom query))) ::
    (['p', 'a', 'g', 'e', 'S', 'i', 'z', 'e'], ofChars (wholeText pageSize)) ::
      (searchFrom query).toList.map fun term => (['q'], term)

/-- The client that writes a value into the request and the reader that takes it out again.  A
value without lone surrogates arrives as it is. -/
structure Wire where
  carry : List UInt16 → Option (List Char)
  whole : ∀ chars, carry (ofChars chars) = some chars

/-- The request of the list page, as the API reads it. -/
def request (wire : Wire) (query : Query) : Option RosterQuery :=
  ((listQuery query).mapM fun pair => (wire.carry pair.2).map fun value => (pair.1, value)).bind
    RosterQuery.parse

/-! ## What the API takes -/

/-- The API takes the page, the search and the request of a URL. -/
structure Takes (wire : Wire) (query : Query) : Prop where
  page : (PageNumber.tryNew (pageFrom query)).isSome
  term : ∀ term, searchFrom query = some term →
    (Text.ofUnits term : Option SearchTerm).isSome
  request : (request wire query).isSome

/-- `?page=` does not spell a whole number that 32 bits cannot hold. -/
def PageFits (query : Query) : Prop :=
  ∀ text, query.get ['p', 'a', 'g', 'e'] = some text →
    ∀ value : ℕ, Number.ofString (ofChars text) = .finite value → value < 2 ^ 32

/-- `?q=` without the space around it. -/
def asked (query : Query) : List UInt16 := Ecma.trim (ofChars ((query.get ['q']).getD []))

/-- `?q=` is blank, or its first 20 units hold more than white space and do not end between the
two units of one character. -/
def TermFits (query : Query) : Prop :=
  asked query = [] ∨
    (∃ index < searchMax, ∃ unit, (asked query)[index]? = some unit ∧ isWhite unit = false) ∧
      ∀ unit, (asked query)[searchMax - 1]? = some unit → isHigh unit = false

/-! ## The page -/

theorem isSome_tryNew_page {raw : Nat} :
    (PageNumber.tryNew raw).isSome ↔ 1 ≤ raw ∧ raw < 2 ^ 32 := by
  rw [PageNumber.tryNew, Option.isSome_dite]

/-- A positive whole number is a natural number. -/
theorem eq_natCast {raw : ℚ} (whole : raw.isInt) (positive : 1 ≤ raw) :
    raw = (raw.num.toNat : ℕ) ∧ 1 ≤ raw.num.toNat := by
  have same : (raw.num : ℚ) = raw := Rat.den_eq_one_iff raw |>.mp (by simpa [Rat.isInt] using whole)
  have num_pos : 1 ≤ raw.num := by
    rw [← same] at positive
    exact_mod_cast positive
  have cast : ((raw.num.toNat : ℕ) : ℤ) = raw.num := Int.toNat_of_nonneg (by omega)
  constructor
  · rw [← Int.cast_natCast, cast, same]
  · omega

/-- The page is the whole number that the URL spells, or the first. -/
theorem pageFrom_cases (query : Query) :
    (∃ value : ℕ, 1 ≤ value ∧ number (query.get ['p', 'a', 'g', 'e']) = .finite value ∧
      pageFrom query = value) ∨
    pageFrom query = 1 ∧
      ∀ value : ℕ, 1 ≤ value → number (query.get ['p', 'a', 'g', 'e']) ≠ .finite value := by
  rw [pageFrom]
  cases number (query.get ['p', 'a', 'g', 'e']) with
  | nan => exact .inr ⟨rfl, fun _ _ same => by cases same⟩
  | infinite negative => exact .inr ⟨rfl, fun _ _ same => by cases same⟩
  | finite raw =>
      by_cases positive : raw.isInt && decide (1 ≤ raw)
      · obtain ⟨whole, from_one⟩ : raw.isInt ∧ 1 ≤ raw := by
          rwa [Bool.and_eq_true, decide_eq_true_eq] at positive
        obtain ⟨same, one_le⟩ := eq_natCast whole from_one
        exact .inl ⟨raw.num.toNat, one_le, congrArg Number.finite same, if_pos positive⟩
      · refine .inr ⟨if_neg positive, fun value one_le same => positive ?_⟩
        obtain rfl := Number.finite.inj same
        rw [Bool.and_eq_true, decide_eq_true_eq]
        exact ⟨rfl, by exact_mod_cast one_le⟩

theorem one_le_pageFrom (query : Query) : 1 ≤ pageFrom query := by
  rcases pageFrom_cases query with ⟨value, one_le, -, same⟩ | ⟨same, -⟩
  · rwa [same]
  · exact same.ge

/-- The API takes the page exactly when the URL spells none that is too large. -/
theorem isSome_page_iff (query : Query) :
    (PageNumber.tryNew (pageFrom query)).isSome ↔ PageFits query := by
  rw [isSome_tryNew_page, and_iff_right (one_le_pageFrom query)]
  constructor
  · intro fits text given value spelled
    rcases pageFrom_cases query with ⟨page, -, read, same⟩ | ⟨-, other⟩
    · rw [number, given, Option.elim_some, spelled, Number.finite.injEq, Nat.cast_inj] at read
      omega
    · by_contra large
      refine other value (by omega) ?_
      rw [number, given, Option.elim_some, spelled]
  · intro fits
    rcases pageFrom_cases query with ⟨page, one_le, read, same⟩ | ⟨same, -⟩
    · rw [same]
      cases given : query.get ['p', 'a', 'g', 'e'] with
      | none =>
          rw [number, given, Option.elim_none, Number.finite.injEq] at read
          have zero : page = 0 := by exact_mod_cast read.symm
          omega
      | some text =>
          rw [number, given, Option.elim_some] at read
          exact fits text given page read
    · rw [same]
      omega

/-! ## The search -/

/-- The text that is asked for spells characters. -/
theorem exists_asked (query : Query) : ∃ chars, asked query = ofChars chars :=
  ⟨_, trim_ofChars _⟩

/-- A search that is there is the first units of what is asked for. -/
theorem searchFrom_eq_some_iff {query : Query} {term : List UInt16} :
    searchFrom query = some term ↔ asked query ≠ [] ∧ (asked query).take searchMax = term := by
  have cut : ((asked query).take searchMax).isEmpty = true ↔ asked query = [] := by
    rw [List.isEmpty_iff, List.take_eq_nil_iff, or_iff_right (by decide)]
  change (if ((asked query).take searchMax).isEmpty then none
    else some ((asked query).take searchMax)) = some term ↔ _
  by_cases blank : asked query = []
  · rw [if_pos (cut.mpr blank)]
    simp [blank]
  · rw [if_neg (mt cut.mp blank), Option.some.injEq, and_iff_right blank]

/-- The first units hold a unit of this kind. -/
theorem exists_mem_take_iff {text : List UInt16} {count : Nat} {wanted : UInt16 → Prop} :
    (∃ unit ∈ text.take count, wanted unit) ↔
      ∃ index < count, ∃ unit, text[index]? = some unit ∧ wanted unit := by
  constructor
  · rintro ⟨unit, member, is_wanted⟩
    obtain ⟨index, found⟩ := List.mem_iff_getElem?.mp member
    rw [List.getElem?_take] at found
    split at found
    · exact ⟨index, ‹_›, unit, found, is_wanted⟩
    · cases found
  · rintro ⟨index, before, unit, found, is_wanted⟩
    refine ⟨unit, List.mem_iff_getElem?.mpr ⟨index, ?_⟩, is_wanted⟩
    rw [List.getElem?_take_of_lt before, found]

/-- The API takes the search exactly when it is blank or a term is left of it. -/
theorem takes_search_iff (query : Query) :
    (∀ term, searchFrom query = some term →
      (Text.ofUnits term : Option SearchTerm).isSome) ↔ TermFits query := by
  obtain ⟨chars, spelled⟩ := exists_asked query
  have short : ((asked query).take searchMax).length ≤ searchMax := List.length_take_le _ _
  have complete : (chars? ((asked query).take searchMax)).isSome ↔
      ∀ unit, (asked query)[searchMax - 1]? = some unit → isHigh unit = false := by
    rw [spelled]
    exact isSome_chars?_take chars 19
  rw [TermFits, ← complete, ← exists_mem_take_iff]
  constructor
  · intro all
    by_cases blank : asked query = []
    · exact .inl blank
    · right
      have taken := all _ (searchFrom_eq_some_iff.mpr ⟨blank, rfl⟩)
      exact ((Text.isSome_ofUnits_one short).mp taken).symm
  · rintro (blank | ⟨more, whole⟩) term found
    · exact absurd blank (searchFrom_eq_some_iff.mp found).1
    · obtain ⟨-, rfl⟩ := searchFrom_eq_some_iff.mp found
      exact (Text.isSome_ofUnits_one short).mpr ⟨whole, more⟩

/-! ## The request -/

theorem wholeText_of_lt {value : Nat} (positive : 0 < value) (fits : value < 2 ^ 32) :
    wholeText value = Nat.toDigits 10 value := by
  have same : shortest value = value := shortest_of_lt positive (by omega)
  rw [wholeText, same, if_pos (by omega)]

theorem parseU32_wholeText {value : Nat} (positive : 0 < value) (fits : value < 2 ^ 32) :
    parseU32 (wholeText value) = some value := by
  rw [wholeText_of_lt positive fits, parseU32_toDigits, if_pos fits]

theorem read_page {fields : RosterFields} (absent : fields.page = none) {page : Nat}
    (one_le : 1 ≤ page) (fits : page < 2 ^ 32) :
    fields.read (['p', 'a', 'g', 'e'], wholeText page) =
      some { fields with page := some ⟨page, one_le, fits⟩ } := by
  rw [RosterFields.read, if_pos rfl, absent, Option.isSome_none, if_neg Bool.false_ne_true,
    parseU32_wholeText one_le fits, Option.bind_some, PageNumber.tryNew, dif_pos ⟨one_le, fits⟩,
    Option.map_some]

theorem read_pageSize {fields : RosterFields} (absent : fields.pageSize = none) :
    fields.read (['p', 'a', 'g', 'e', 'S', 'i', 'z', 'e'], wholeText pageSize) =
      some { fields with pageSize := some .default } := by
  rw [RosterFields.read, if_neg (by decide), if_pos rfl, absent, Option.isSome_none,
    if_neg Bool.false_ne_true, parseU32_wholeText (by decide) (by decide), Option.bind_some]
  rfl

theorem read_q {fields : RosterFields} (absent : fields.q = none) {chars : List Char}
    {term : SearchTerm} (taken : Text.tryNew chars = some term) :
    fields.read (['q'], chars) = some { fields with q := some term } := by
  rw [RosterFields.read, if_neg (by simp), if_neg (by simp), if_pos rfl, absent,
    Option.isSome_none, if_neg Bool.false_ne_true, taken, Option.map_some]

/-- The page and the page size of the request, read. -/
def begun (page : PageNumber) : RosterFields := ⟨some page, some .default, none⟩

theorem foldlM_read {page : Nat} (one_le : 1 ≤ page) (fits : page < 2 ^ 32)
    (rest : List (List Char × List Char)) :
    ((['p', 'a', 'g', 'e'], wholeText page) ::
      (['p', 'a', 'g', 'e', 'S', 'i', 'z', 'e'], wholeText pageSize) :: rest).foldlM
        RosterFields.read RosterFields.start =
      rest.foldlM RosterFields.read (begun ⟨page, one_le, fits⟩) := by
  rw [List.foldlM_cons, read_page rfl one_le fits, Option.bind_eq_bind, Option.bind_some,
    List.foldlM_cons, read_pageSize rfl, Option.bind_eq_bind, Option.bind_some]
  rfl

/-- Pairs without lone surrogates arrive as they are. -/
theorem Wire.mapM_carry (wire : Wire) (pairs : List (List Char × List Char)) :
    (pairs.map fun pair => (pair.1, ofChars pair.2)).mapM (fun pair =>
      (wire.carry pair.2).map fun value => (pair.1, value)) = some pairs := by
  induction pairs with
  | nil => rfl
  | cons pair pairs ih =>
      rw [List.map_cons, List.mapM_cons, ih, wire.whole]
      rfl

/-- A page and a search that the API takes make a request that it takes. -/
theorem isSome_request (wire : Wire) {query : Query}
    (page : (PageNumber.tryNew (pageFrom query)).isSome)
    (search : ∀ term, searchFrom query = some term →
      (Text.ofUnits term : Option SearchTerm).isSome) :
    (request wire query).isSome := by
  obtain ⟨one_le, fits⟩ := isSome_tryNew_page.mp page
  cases found : searchFrom query with
  | none =>
      have listed : listQuery query =
          [(['p', 'a', 'g', 'e'], wholeText (pageFrom query)),
            (['p', 'a', 'g', 'e', 'S', 'i', 'z', 'e'], wholeText pageSize)].map fun pair =>
              (pair.1, ofChars pair.2) := by
        rw [listQuery, found]
        rfl
      rw [request, listed, wire.mapM_carry, Option.bind_some, RosterQuery.parse,
        foldlM_read one_le fits]
      rfl
  | some term =>
      obtain ⟨text, taken⟩ := Option.isSome_iff_exists.mp (search term found)
      obtain ⟨chars, read, built⟩ := Option.bind_eq_some_iff.mp taken
      obtain rfl := chars?_eq_some_iff.mp read
      have listed : listQuery query =
          [(['p', 'a', 'g', 'e'], wholeText (pageFrom query)),
            (['p', 'a', 'g', 'e', 'S', 'i', 'z', 'e'], wholeText pageSize), (['q'], chars)].map
              fun pair => (pair.1, ofChars pair.2) := by
        rw [listQuery, found]
        rfl
      rw [request, listed, wire.mapM_carry, Option.bind_some, RosterQuery.parse,
        foldlM_read one_le fits, List.foldlM_cons, read_q rfl built]
      rfl

/-- A link is read without an error exactly when its page fits in 32 bits and its search is
blank or more than white space that is not cut in the middle of a character. -/
theorem takes_iff (wire : Wire) (query : Query) :
    Takes wire query ↔ PageFits query ∧ TermFits query := by
  rw [← isSome_page_iff, ← takes_search_iff]
  constructor
  · intro takes
    exact ⟨takes.page, takes.term⟩
  · rintro ⟨page, search⟩
    exact ⟨page, search, isSome_request wire page search⟩

/-- The wire that carries what spells characters. -/
def Wire.utf8 : Wire := ⟨chars?, chars?_ofChars⟩

/-- `?page=4294967296`. -/
def farLink : Query :=
  [(['p', 'a', 'g', 'e'], ['4', '2', '9', '4', '9', '6', '7', '2', '9', '6'])]

theorem not_takes_farLink : ¬ Takes Wire.utf8 farLink := by
  intro takes
  have fits := (isSome_page_iff farLink).mp takes.page
  have spelled : Number.ofString (ofChars (Nat.toDigits 10 4294967296)) =
      .finite (4294967296 : ℕ) := Number.ofString_toDigits (by omega)
  exact absurd (fits (Nat.toDigits 10 4294967296) rfl 4294967296 spelled) (by omega)

end Paging
end LanBunker
