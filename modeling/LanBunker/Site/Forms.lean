import LanBunker.Site.Schemas

/-!
# What the API makes of a form

A form that the site accepts, field by field, and when the API accepts the body that is sent.
-/

namespace LanBunker
namespace Schemas

open Utf16 Ecma

/-! ## Conditions on a field -/

namespace Value

/-- A condition on the text of a field that is a text. -/
theorem forall_text {units : List UInt16} {wanted : List UInt16 → Prop} :
    (∀ other, Value.text units = .text other → wanted other) ↔ wanted units := by
  constructor
  · intro all
    exact all units rfl
  · rintro holds other same
    cases same
    exact holds

/-- Without the space around it the text has no lone surrogate. -/
def Spells (value : Value) : Prop :=
  ∀ units, value = .text units → (chars? (Ecma.trim units)).isSome

/-- Without the space around it the text also has a unit that is no Unicode white space. -/
def Holds (value : Value) : Prop :=
  ∀ units, value = .text units →
    (chars? (Ecma.trim units)).isSome ∧ ∃ unit ∈ Ecma.trim units, isWhite unit = false

/-- The text has no lone surrogate and eight characters or more. -/
def IsLong (value : Value) : Prop :=
  ∀ units, value = .text units → ∃ chars, chars? units = some chars ∧ 8 ≤ chars.length

/-- A colon follows the hours and the minutes of the moment. -/
def HasSeconds (value : Value) : Prop :=
  ∀ chars, value = .text (ofChars chars) → chars[16]? = some ':'

/-- The first of two moments is before the second, where a fraction of a second is not spelled in
milliseconds. -/
def IsBefore (first second : Value) : Prop :=
  ∀ starts ends : Timestamp, first = .text (ofChars starts.text) →
    second = .text (ofChars ends.text) →
      starts.IsMillis ∧ ends.IsMillis ∨ starts.instant < ends.instant

/-- A text that is not empty begins with a letter or a digit. -/
def StartsAlphanum (value : Value) : Prop :=
  ∀ first rest, value = .text (first :: rest) → isAlphanumUnit first

end Value

/-! ## The fields -/

theorem string_eq_some_iff {value : Value} {units : List UInt16} :
    string value = some units ↔ value = .text units := by
  cases value <;> simp [string]

theorem between_eq_some_iff {least most : Nat} {units kept : List UInt16} :
    between least most units = some kept ↔
      (least ≤ units.length ∧ units.length ≤ most) ∧ units = kept := by
  rw [between]
  split <;> simp_all

/-- What a character of a name is, unit by unit. -/
theorem name_code : ∀ code < 128, isNameUnit (.ofNat code) = true →
    isHandleChar (Char.ofNat code) = true ∧ isWhitespace (Char.ofNat code) = false ∧
      (Char.ofNat code).isAlphanum = isAlphanumUnit (.ofNat code) := by
  decide

theorem isNameUnit_lt {unit : UInt16} (named : isNameUnit unit) : unit.toNat < 128 := by
  simp only [isNameUnit, isAlphanumUnit, isUnit, Bool.or_eq_true, Bool.and_eq_true,
    decide_eq_true_eq, beq_iff_eq, Char.reduceToNat] at named
  omega

theorem name_unit {unit : UInt16} (named : isNameUnit unit) :
    isHandleChar (Char.ofNat unit.toNat) = true ∧ isWhitespace (Char.ofNat unit.toNat) = false ∧
      (Char.ofNat unit.toNat).isAlphanum = isAlphanumUnit unit := by
  have known := name_code unit.toNat (isNameUnit_lt named)
  rw [UInt16.ofNat_toNat] at known
  exact known named

/-- A text of name units is read unit by unit. -/
theorem chars?_of_name {units : List UInt16} (named : units.all isNameUnit) :
    chars? units = some (units.map fun unit => Char.ofNat unit.toNat) := by
  rw [List.all_eq_true] at named
  refine chars?_of_small fun unit member => ?_
  exact Nat.lt_trans (isNameUnit_lt (named unit member)) (by decide)

theorem trim_of_name {units : List UInt16} (named : units.all isNameUnit) :
    LanBunker.trim (units.map fun unit => Char.ofNat unit.toNat) =
      units.map fun unit => Char.ofNat unit.toNat := by
  rw [List.all_eq_true] at named
  refine trim_of_all fun c member => ?_
  obtain ⟨unit, listed, rfl⟩ := List.mem_map.mp member
  exact (name_unit (named unit listed)).2.1

/-- A handle of the site is a handle of the API. -/
theorem handle_taken {value : Value} {text : List UInt16} (accepted : handle value = some text) :
    ((chars? text).bind Handle.tryNew).isSome := by
  obtain ⟨units, -, accepted⟩ := Option.bind_eq_some_iff.mp accepted
  obtain ⟨trimmed, fits, accepted⟩ := Option.bind_eq_some_iff.mp accepted
  obtain ⟨⟨long_enough, short_enough⟩, rfl⟩ := between_eq_some_iff.mp fits
  rw [Option.ite_none_right_eq_some, Bool.and_eq_true] at accepted
  obtain ⟨⟨-, named⟩, same⟩ := accepted
  obtain rfl := Option.some.inj same
  rw [chars?_of_name named, Option.bind_some, Handle.tryNew, dif_pos]
  · rfl
  · rw [trim_of_name named, List.length_map, List.all_map]
    refine ⟨?_, long_enough, short_enough⟩
    rw [List.all_eq_true] at named ⊢
    exact fun unit member => (name_unit (named unit member)).1

/-- A password of the site is one of the API when it is long enough in characters. -/
theorem password_taken_iff {value : Value} {text : List UInt16}
    (accepted : password value = some text) :
    ((chars? text).bind Password.tryNew).isSome ↔ value.IsLong := by
  obtain ⟨units, is_text, fits⟩ := Option.bind_eq_some_iff.mp accepted
  obtain ⟨⟨-, short_enough⟩, rfl⟩ := between_eq_some_iff.mp fits
  obtain rfl := string_eq_some_iff.mp is_text
  rw [Value.IsLong, Value.forall_text]
  cases read : chars? units with
  | none => simp
  | some chars =>
      have few : chars.length ≤ 128 := Nat.le_trans (length_le_of_chars? read) short_enough
      rw [Option.bind_some, Password.tryNew]
      by_cases enough : 8 ≤ chars.length
      · rw [dif_pos enough, dif_pos few]
        exact iff_of_true rfl ⟨chars, rfl, enough⟩
      · rw [dif_neg enough]
        simp [enough]

theorem requiredText_taken_iff {most : Nat} {value : Value} {text : List UInt16}
    (accepted : requiredText most value = some text) :
    (Text.ofUnits text : Option (Text 1 most)).isSome ↔ value.Holds := by
  obtain ⟨units, is_text, fits⟩ := Option.bind_eq_some_iff.mp accepted
  obtain ⟨⟨-, short_enough⟩, rfl⟩ := between_eq_some_iff.mp fits
  obtain rfl := string_eq_some_iff.mp is_text
  rw [Text.isSome_ofUnits_one short_enough, Value.Holds, Value.forall_text]

theorem length_trim_le (units : List UInt16) : (Ecma.trim units).length ≤ units.length :=
  Nat.le_trans (List.rdropWhile_prefix _ _).length_le (List.dropWhile_suffix _).length_le

theorem optionalText_taken_iff {most : Nat} {value : Value} {text : List UInt16}
    (accepted : optionalText most value = some text) :
    (Text.ofUnits text : Option (Text 0 most)).isSome ↔ value.Spells := by
  cases value with
  | undefined =>
      obtain rfl := Option.some.inj accepted
      exact iff_of_true rfl fun _ same => by cases same
  | null =>
      obtain rfl := Option.some.inj accepted
      exact iff_of_true rfl fun _ same => by cases same
  | text units =>
      obtain ⟨kept, fits, rfl⟩ := Option.map_eq_some_iff.mp accepted
      obtain ⟨⟨-, short_enough⟩, rfl⟩ := between_eq_some_iff.mp fits
      rw [Text.isSome_ofUnits_zero (Nat.le_trans (length_trim_le units) short_enough),
        Value.Spells, Value.forall_text]

theorem amount_taken {value : Value} {raw : Int} (accepted : amount value = some raw) :
    (Amount.tryNew raw).isSome := by
  rw [amount] at accepted
  cases read : number value with
  | nan =>
      rw [read] at accepted
      cases accepted
  | infinite negative =>
      rw [read] at accepted
      cases accepted
  | finite exact =>
      rw [read] at accepted
      simp only [Bool.and_eq_true, decide_eq_true_eq, bne_iff_ne, ne_eq,
        Option.ite_none_right_eq_some, Option.some.injEq] at accepted
      obtain ⟨⟨⟨⟨-, low⟩, high⟩, nonzero⟩, rfl⟩ := accepted
      rw [Amount.tryNew, dif_pos ⟨nonzero, low, high⟩]
      rfl

/-- A cover of the API begins with a letter or a digit. -/
theorem isSome_imageName {units : List UInt16} (nonempty : 1 ≤ units.length)
    (short_enough : units.length ≤ 80) (named : units.all isNameUnit) :
    ((chars? units).bind ImageName.tryNew).isSome ↔ units.head?.any isAlphanumUnit := by
  have chars_named : ∀ unit ∈ units, isNameUnit unit := List.all_eq_true.mp named
  have charset : ((units.map fun unit => Char.ofNat unit.toNat).all fun c =>
      c.isAlphanum || c == '.' || c == '_' || c == '-') = true := by
    rw [List.all_map, List.all_eq_true]
    intro unit member
    have known := (name_unit (chars_named unit member)).1
    simp only [isHandleChar, Bool.or_eq_true] at known
    simp only [Function.comp_apply, Bool.or_eq_true]
    tauto
  have first : ((units.map fun unit => Char.ofNat unit.toNat).head?.any Char.isAlphanum) =
      units.head?.any isAlphanumUnit := by
    cases units with
    | nil => rfl
    | cons unit rest => exact (name_unit (chars_named unit List.mem_cons_self)).2.2
  rw [chars?_of_name named, Option.bind_some, ImageName.isSome_tryNew, trim_of_name named,
    List.length_map, first, and_iff_right nonempty, and_iff_right short_enough,
    and_iff_left charset]

theorem image_taken_iff {value : Value} {kept : Option (List UInt16)}
    (accepted : image value = some kept) :
    (kept.mapM fun text => (chars? text).bind ImageName.tryNew).isSome ↔
      value.StartsAlphanum := by
  have no_cover : kept = none → (∀ first rest, value ≠ .text (first :: rest)) →
      ((kept.mapM fun text => (chars? text).bind ImageName.tryNew).isSome ↔
        value.StartsAlphanum) := by
    rintro rfl empty
    exact iff_of_true rfl fun first rest same => absurd same (empty first rest)
  cases value with
  | undefined => exact no_cover (Option.some.inj accepted).symm fun _ _ same => by cases same
  | null => exact no_cover (Option.some.inj accepted).symm fun _ _ same => by cases same
  | text units =>
      cases units with
      | nil => exact no_cover (Option.some.inj accepted).symm fun _ _ same => by cases same
      | cons first rest =>
          rw [image, Option.ite_none_right_eq_some] at accepted
          · obtain ⟨⟨nonempty, short_enough, named⟩, same⟩ := accepted
            obtain rfl := Option.some.inj same
            have taken := isSome_imageName nonempty short_enough named
            have starts : (Value.text (first :: rest)).StartsAlphanum ↔ isAlphanumUnit first := by
              constructor
              · intro all
                exact all first rest rfl
              · intro holds other more same
                cases same
                exact holds
            rw [List.head?_cons, Option.any_some] at taken
            rw [starts, ← taken]
            cases built : (chars? (first :: rest)).bind ImageName.tryNew with
            | none => simp [built]
            | some name => simp [built]
          · intro same
            cases same

/-! ## Days and moments -/

section Readers

variable {readers : Readers}

theorem isoDate_taken {value : Value} {text : List UInt16}
    (accepted : readers.isoDate value = some text) :
    ((chars? text).bind readers.date).isSome := by
  obtain ⟨units, -, accepted⟩ := Option.bind_eq_some_iff.mp accepted
  obtain ⟨is_date, same⟩ := Option.ite_none_right_eq_some.mp accepted
  obtain rfl := Option.some.inj same
  obtain ⟨day, year_nonneg, rfl⟩ := (readers.isDate_iff units).mp is_date
  rw [chars?_ofChars, Option.bind_some, readers.date_formatDay day year_nonneg]
  rfl

/-- A moment of the site is the text of one. -/
theorem exists_moment {value : Value} {text : List UInt16}
    (accepted : readers.isoDateTime value = some text) :
    ∃ moment : Timestamp, text = ofChars moment.text ∧ value = .text text := by
  obtain ⟨units, is_text, accepted⟩ := Option.bind_eq_some_iff.mp accepted
  obtain ⟨is_moment, same⟩ := Option.ite_none_right_eq_some.mp accepted
  obtain rfl := Option.some.inj same
  obtain ⟨moment, spelled⟩ := (readers.isDateTime_iff units).mp is_moment
  exact ⟨moment, spelled.symm, string_eq_some_iff.mp is_text⟩

theorem hasSeconds_iff (moment : Timestamp) :
    (Value.text (ofChars moment.text)).HasSeconds ↔ moment.seconds.isSome := by
  rw [← moment.colon_iff]
  constructor
  · intro all
    exact all _ rfl
  · intro colon chars same
    rwa [← ofChars_injective (Value.text.inj same)]

/-- The API reads a moment with seconds, and no other. -/
theorem dateTime_ofChars (moment : Timestamp) :
    (chars? (ofChars moment.text)).bind readers.dateTime =
      if moment.seconds.isSome then some moment.instant else none := by
  rw [chars?_ofChars, Option.bind_some, readers.dateTime_text]

theorem isoDateTime_taken_iff {value : Value} {text : List UInt16}
    (accepted : readers.isoDateTime value = some text) :
    ((chars? text).bind readers.dateTime).isSome ↔ value.HasSeconds := by
  obtain ⟨moment, rfl, rfl⟩ := exists_moment accepted
  rw [dateTime_ofChars, hasSeconds_iff]
  cases moment.seconds with
  | none => exact Iff.rfl
  | some seconds => exact Iff.rfl

/-- Moments in order by the millisecond are in order. -/
theorem instant_lt {starts ends : Timestamp} (first : starts.IsMillis) (second : ends.IsMillis)
    (ordered : readers.inOrder (ofChars starts.text) (ofChars ends.text)) :
    starts.instant < ends.instant := by
  rw [Readers.inOrder, readers.getTime_text starts first, readers.getTime_text ends second]
    at ordered
  have by_millis : starts.instant / 1000000 < ends.instant / 1000000 := of_decide_eq_true ordered
  by_contra not_less
  exact absurd (Int.ediv_le_ediv (by decide) (not_lt.mp not_less)) (not_le.mpr by_millis)

/-- Two moments that the site finds in order are a window of the API when they are. -/
theorem isSome_window {starts ends : Timestamp}
    (ordered : readers.inOrder (ofChars starts.text) (ofChars ends.text)) :
    (EventWindow.tryNew starts.instant ends.instant).isSome ↔
      (Value.text (ofChars starts.text)).IsBefore (.text (ofChars ends.text)) := by
  rw [EventWindow.tryNew, Option.isSome_dite]
  constructor
  · intro less first second same_first same_second
    obtain rfl := Timestamp.text_injective (ofChars_injective (Value.text.inj same_first))
    obtain rfl := Timestamp.text_injective (ofChars_injective (Value.text.inj same_second))
    exact Or.inr less
  · intro before
    rcases before starts ends rfl rfl with ⟨first, second⟩ | less
    · exact instant_lt first second ordered
    · exact less

/-- Two moments that the site finds in order are a window of the API when both have seconds and
they are in order. -/
theorem window_taken_iff {first second : Value} {startsAt endsAt : List UInt16}
    (starts_accepted : readers.isoDateTime first = some startsAt)
    (ends_accepted : readers.isoDateTime second = some endsAt)
    (ordered : readers.inOrder startsAt endsAt) :
    (∃ starts, (chars? startsAt).bind readers.dateTime = some starts ∧
      ∃ ends, (chars? endsAt).bind readers.dateTime = some ends ∧
        (EventWindow.tryNew starts ends).isSome) ↔
      first.HasSeconds ∧ second.HasSeconds ∧ first.IsBefore second := by
  rw [← isoDateTime_taken_iff starts_accepted, ← isoDateTime_taken_iff ends_accepted]
  obtain ⟨starts, rfl, rfl⟩ := exists_moment starts_accepted
  obtain ⟨ends, rfl, rfl⟩ := exists_moment ends_accepted
  have window := isSome_window ordered
  rw [dateTime_ofChars, dateTime_ofChars]
  constructor
  · rintro ⟨_, starts_read, _, ends_read, taken⟩
    refine ⟨Option.isSome_of_eq_some starts_read, Option.isSome_of_eq_some ends_read, ?_⟩
    obtain ⟨-, same_start⟩ := Option.ite_none_right_eq_some.mp starts_read
    obtain ⟨-, same_end⟩ := Option.ite_none_right_eq_some.mp ends_read
    rw [← Option.some.inj same_start, ← Option.some.inj same_end] at taken
    exact window.mp taken
  · rintro ⟨starts_read, ends_read, before⟩
    rw [Option.isSome_ite] at starts_read ends_read
    rw [if_pos starts_read, if_pos ends_read]
    exact ⟨_, rfl, _, rfl, window.mpr before⟩

/-! ## The forms -/

theorem AdjustmentBody.isSome_read {body : AdjustmentBody} : body.read.isSome ↔
    (Amount.tryNew body.amount).isSome ∧ (Text.ofUnits body.note : Option Note).isSome := by
  simp only [AdjustmentBody.read, Option.bind_eq_bind, Option.isSome_iff_exists,
    Option.bind_eq_some_iff, Option.some.injEq]
  constructor
  · rintro ⟨-, amount, amount_read, note, note_read, -⟩
    exact ⟨⟨amount, amount_read⟩, note, note_read⟩
  · rintro ⟨⟨amount, amount_read⟩, note, note_read⟩
    exact ⟨_, amount, amount_read, note, note_read, rfl⟩

theorem TournamentBody.isSome_read {body : TournamentBody} : (body.read readers).isSome ↔
    (Text.ofUnits body.name : Option TournamentName).isSome ∧
      (Text.ofUnits body.game : Option GameName).isSome ∧
      (Text.ofUnits body.mode : Option GameMode).isSome ∧
      (Text.ofUnits body.description : Option Description).isSome ∧
      ((chars? body.date).bind readers.date).isSome ∧
      ((chars? body.registrationClosesAt).bind readers.dateTime).isSome := by
  simp only [TournamentBody.read, Option.bind_eq_bind, Option.isSome_iff_exists]
  constructor
  · rintro ⟨tournament, built⟩
    obtain ⟨name, name_read, built⟩ := Option.bind_eq_some_iff.mp built
    obtain ⟨game, game_read, built⟩ := Option.bind_eq_some_iff.mp built
    obtain ⟨mode, mode_read, built⟩ := Option.bind_eq_some_iff.mp built
    obtain ⟨description, description_read, built⟩ := Option.bind_eq_some_iff.mp built
    obtain ⟨date, date_read, built⟩ := Option.bind_eq_some_iff.mp built
    obtain ⟨closes, closes_read, -⟩ := Option.bind_eq_some_iff.mp built
    exact ⟨⟨name, name_read⟩, ⟨game, game_read⟩, ⟨mode, mode_read⟩,
      ⟨description, description_read⟩, ⟨date, date_read⟩, closes, closes_read⟩
  · rintro ⟨⟨name, name_read⟩, ⟨game, game_read⟩, ⟨mode, mode_read⟩,
      ⟨description, description_read⟩, ⟨date, date_read⟩, closes, closes_read⟩
    rw [name_read, game_read, mode_read, description_read, date_read, closes_read]
    exact ⟨_, rfl⟩

/-- A body is read when every text of it is and the moments are in order. -/
theorem EventBody.isSome_read {body : EventBody} : (body.read readers).isSome ↔
    (Text.ofUnits body.name : Option EventName).isSome ∧
      (Text.ofUnits body.location : Option Location).isSome ∧
      (Text.ofUnits body.games : Option Games).isSome ∧
      (Text.ofUnits body.description : Option Description).isSome ∧
      (body.image.mapM fun text => (chars? text).bind ImageName.tryNew).isSome ∧
      ∃ startsAt, (chars? body.startsAt).bind readers.dateTime = some startsAt ∧
        ∃ endsAt, (chars? body.endsAt).bind readers.dateTime = some endsAt ∧
          (EventWindow.tryNew startsAt endsAt).isSome := by
  simp only [EventBody.read, Option.bind_eq_bind, Option.isSome_iff_exists]
  constructor
  · rintro ⟨fields, built⟩
    obtain ⟨name, name_read, built⟩ := Option.bind_eq_some_iff.mp built
    obtain ⟨location, location_read, built⟩ := Option.bind_eq_some_iff.mp built
    obtain ⟨games, games_read, built⟩ := Option.bind_eq_some_iff.mp built
    obtain ⟨description, description_read, built⟩ := Option.bind_eq_some_iff.mp built
    obtain ⟨image, image_read, built⟩ := Option.bind_eq_some_iff.mp built
    obtain ⟨startsAt, starts_read, built⟩ := Option.bind_eq_some_iff.mp built
    obtain ⟨endsAt, ends_read, built⟩ := Option.bind_eq_some_iff.mp built
    obtain ⟨window, window_built, -⟩ := Option.bind_eq_some_iff.mp built
    exact ⟨⟨name, name_read⟩, ⟨location, location_read⟩, ⟨games, games_read⟩,
      ⟨description, description_read⟩, ⟨image, image_read⟩, startsAt, starts_read, endsAt,
      ends_read, window, window_built⟩
  · rintro ⟨⟨name, name_read⟩, ⟨location, location_read⟩, ⟨games, games_read⟩,
      ⟨description, description_read⟩, ⟨image, image_read⟩, startsAt, starts_read, endsAt,
      ends_read, window, window_built⟩
    rw [name_read, location_read, games_read, description_read, image_read, starts_read, ends_read]
    simp only [Option.bind_some, window_built]
    exact ⟨_, rfl⟩

end Readers

/-- When the API takes what the site sends for a form. -/
def Form.Fits : Form → Prop
  | .handle _ => True
  | .password value => value.IsLong
  | .adjustment form => form.note.Holds
  | .tournament form =>
      form.name.Holds ∧ form.game.Holds ∧ form.mode.Holds ∧ form.description.Spells ∧
        form.registrationClosesAt.HasSeconds
  | .event form =>
      form.name.Holds ∧ form.location.Spells ∧ form.games.Spells ∧ form.description.Spells ∧
        form.image.StartsAlphanum ∧ form.startsAt.HasSeconds ∧ form.endsAt.HasSeconds ∧
        form.startsAt.IsBefore form.endsAt

variable {readers : Readers}

theorem adjustment_taken_iff {form : AdjustmentForm} {body : AdjustmentBody}
    (accepted : adjustmentInput readers form = some body) :
    body.read.isSome ↔ form.note.Holds := by
  obtain ⟨-, -, accepted⟩ := Option.bind_eq_some_iff.mp accepted
  obtain ⟨-, -, accepted⟩ := Option.bind_eq_some_iff.mp accepted
  obtain ⟨amount, amount_accepted, accepted⟩ := Option.bind_eq_some_iff.mp accepted
  obtain ⟨note, note_accepted, accepted⟩ := Option.bind_eq_some_iff.mp accepted
  obtain rfl := Option.some.inj accepted
  rw [AdjustmentBody.isSome_read, and_iff_right (amount_taken amount_accepted),
    requiredText_taken_iff note_accepted]

theorem tournament_taken_iff {form : TournamentForm} {body : TournamentBody}
    (accepted : tournamentInput readers form = some body) :
    (body.read readers).isSome ↔ (Form.tournament form).Fits := by
  obtain ⟨name, name_accepted, accepted⟩ := Option.bind_eq_some_iff.mp accepted
  obtain ⟨game, game_accepted, accepted⟩ := Option.bind_eq_some_iff.mp accepted
  obtain ⟨mode, mode_accepted, accepted⟩ := Option.bind_eq_some_iff.mp accepted
  obtain ⟨description, description_accepted, accepted⟩ := Option.bind_eq_some_iff.mp accepted
  obtain ⟨date, date_accepted, accepted⟩ := Option.bind_eq_some_iff.mp accepted
  obtain ⟨closes, closes_accepted, accepted⟩ := Option.bind_eq_some_iff.mp accepted
  obtain rfl := Option.some.inj accepted
  rw [TournamentBody.isSome_read, requiredText_taken_iff name_accepted,
    requiredText_taken_iff game_accepted, requiredText_taken_iff mode_accepted,
    optionalText_taken_iff description_accepted, and_iff_right (isoDate_taken date_accepted),
    isoDateTime_taken_iff closes_accepted, Form.Fits]

theorem event_taken_iff {form : EventForm} {body : EventBody}
    (accepted : eventInput readers form = some body) :
    (body.read readers).isSome ↔ (Form.event form).Fits := by
  obtain ⟨name, name_accepted, accepted⟩ := Option.bind_eq_some_iff.mp accepted
  obtain ⟨location, location_accepted, accepted⟩ := Option.bind_eq_some_iff.mp accepted
  obtain ⟨games, games_accepted, accepted⟩ := Option.bind_eq_some_iff.mp accepted
  obtain ⟨description, description_accepted, accepted⟩ := Option.bind_eq_some_iff.mp accepted
  obtain ⟨image, image_accepted, accepted⟩ := Option.bind_eq_some_iff.mp accepted
  obtain ⟨startsAt, starts_accepted, accepted⟩ := Option.bind_eq_some_iff.mp accepted
  obtain ⟨endsAt, ends_accepted, accepted⟩ := Option.bind_eq_some_iff.mp accepted
  obtain ⟨ordered, same⟩ := Option.ite_none_right_eq_some.mp accepted
  obtain rfl := Option.some.inj same
  rw [EventBody.isSome_read, requiredText_taken_iff name_accepted,
    optionalText_taken_iff location_accepted, optionalText_taken_iff games_accepted,
    optionalText_taken_iff description_accepted, image_taken_iff image_accepted,
    window_taken_iff starts_accepted ends_accepted ordered, Form.Fits]

/-- A form that the site accepts is taken by the API exactly when it fits. -/
theorem isTaken_iff {form : Form} {body : Body} (accepted : form.check readers = some body) :
    body.isTaken readers ↔ form.Fits := by
  cases form with
  | handle value =>
      obtain ⟨text, checked, rfl⟩ := Option.map_eq_some_iff.mp accepted
      exact iff_of_true (handle_taken checked) trivial
  | password value =>
      obtain ⟨text, checked, rfl⟩ := Option.map_eq_some_iff.mp accepted
      exact password_taken_iff checked
  | adjustment form =>
      obtain ⟨sent, checked, rfl⟩ := Option.map_eq_some_iff.mp accepted
      exact adjustment_taken_iff checked
  | tournament form =>
      obtain ⟨sent, checked, rfl⟩ := Option.map_eq_some_iff.mp accepted
      exact tournament_taken_iff checked
  | event form =>
      obtain ⟨sent, checked, rfl⟩ := Option.map_eq_some_iff.mp accepted
      exact event_taken_iff checked

/-! ## Readers that read -/

/-- A day that is spelled as it is read. -/
def isDayText (text : List UInt16) : Bool :=
  (chars? text).any fun chars => (parseDay chars).any fun day =>
    0 ≤ day.year && formatDay day == chars

/-- A moment that is spelled as it is read. -/
def isTimestampText (text : List UInt16) : Bool :=
  (chars? text).any fun chars => (Timestamp.read chars).any fun moment => moment.text == chars

theorem isDayText_iff (text : List UInt16) : isDayText text = true ↔
    ∃ day : Date, 0 ≤ day.year ∧ ofChars (formatDay day) = text := by
  rw [isDayText, Option.any_eq_true]
  constructor
  · rintro ⟨chars, read, is_day⟩
    obtain ⟨day, -, spelled⟩ := (Option.any_eq_true _ _).mp is_day
    rw [Bool.and_eq_true, decide_eq_true_eq, beq_iff_eq] at spelled
    refine ⟨day, spelled.1, ?_⟩
    rw [spelled.2]
    exact chars?_eq_some_iff.mp read
  · rintro ⟨day, year_nonneg, rfl⟩
    refine ⟨formatDay day, chars?_ofChars _, ?_⟩
    simp [parseDay_formatDay day year_nonneg, year_nonneg]

theorem isTimestampText_iff (text : List UInt16) : isTimestampText text = true ↔
    ∃ moment : Timestamp, ofChars moment.text = text := by
  rw [isTimestampText, Option.any_eq_true]
  constructor
  · rintro ⟨chars, read, is_moment⟩
    obtain ⟨moment, -, spelled⟩ := (Option.any_eq_true _ _).mp is_moment
    refine ⟨moment, ?_⟩
    rw [beq_iff_eq.mp spelled]
    exact chars?_eq_some_iff.mp read
  · rintro ⟨moment, rfl⟩
    refine ⟨moment.text, chars?_ofChars _, ?_⟩
    simp [moment.read_text]

/-- The readers, written out. -/
def Readers.plain : Readers where
  isUuid text := text.length = 36
  isDate := isDayText
  isDateTime := isTimestampText
  getTime text := ((chars? text).bind Timestamp.read).map fun moment => moment.instant / 1000000
  date := parseDay
  dateTime chars := (Timestamp.read chars).bind fun moment =>
    if moment.seconds.isSome then some moment.instant else none
  isDate_iff := isDayText_iff
  isDateTime_iff := isTimestampText_iff
  getTime_text moment _ := by
    rw [chars?_ofChars, Option.bind_some, moment.read_text, Option.map_some]
  date_formatDay := parseDay_formatDay
  dateTime_text moment := by rw [moment.read_text, Option.bind_some]

/-- A tournament whose registration closes at a moment without seconds. -/
def cupForm : Form := .tournament
  { name := .text (ofChars ['c', 'u', 'p']), game := .text (ofChars ['q', '3'])
    mode := .text (ofChars ['1', 'v', '1']), description := .null
    date := .text (ofChars ['2', '0', '2', '6', '-', '0', '5', '-', '0', '1'])
    registrationClosesAt := .text (ofChars ['2', '0', '2', '6', '-', '0', '5', '-', '0', '1', 'T',
      '1', '0', ':', '0', '0', 'Z']) }

theorem isTaken_iff_cupForm : ∃ body, cupForm.check .plain = some body ∧
    (body.isTaken .plain ↔ cupForm.Fits) :=
  ⟨_, rfl, isTaken_iff rfl⟩

/-- Four characters of two units each are eight units. -/
def fourFaces : Form := .password (.text (ofChars ['😀', '😀', '😀', '😀']))

theorem not_isTaken_fourFaces : ∃ body, fourFaces.check .plain = some body ∧
    body.isTaken .plain = false :=
  ⟨_, rfl, by decide⟩

end Schemas
end LanBunker
