import Mathlib.Algebra.Order.Ring.Int
import LanBunker.Models.Text
import LanBunker.Ordered.Groups
import LanBunker.Relational.Windows

/-!
# Pages

The window of a list route and one page of its answer.  The pages of one list, read in turn, are
the list.
-/

namespace LanBunker

open Relational

/-- `PAGE_SIZE_MAX`. -/
def pageSizeMax : Nat := 100

theorem one_le_pageSizeMax : 1 ≤ pageSizeMax := Nat.le_add_left 1 99

/-- A page index from 1, in 32 bits. -/
structure PageNumber where
  value : Nat
  one_le : 1 ≤ value
  fits : value < 2 ^ 32
  deriving Repr

/-- The number of items in one page. -/
structure PageSize where
  value : Nat
  one_le : 1 ≤ value
  le_max : value ≤ pageSizeMax
  deriving Repr

/-- The constructor: a whole number from 1. -/
def PageNumber.tryNew (raw : Nat) : Option PageNumber :=
  if fits : 1 ≤ raw ∧ raw < 2 ^ 32 then some ⟨raw, fits.1, fits.2⟩ else none

def PageNumber.default : PageNumber := ⟨1, Nat.one_pos, Nat.one_lt_two_pow (Nat.succ_ne_zero 31)⟩

/-- The constructor: from 1 to the largest page a client can ask for. -/
def PageSize.tryNew (raw : Nat) : Option PageSize :=
  if fits : 1 ≤ raw ∧ raw ≤ pageSizeMax then some ⟨raw, fits.1, fits.2⟩ else none

def PageSize.default : PageSize := ⟨20, Nat.le_add_left 1 19, Nat.le_add_right 20 80⟩

/-- The smallest page. -/
def PageSize.one : PageSize := ⟨1, Nat.one_pos, one_le_pageSizeMax⟩

structure PageQuery where
  page : PageNumber
  pageSize : PageSize
  deriving Repr

namespace PageQuery

/-- A page of one row. -/
def one (number : Nat) (one_le : 1 ≤ number) (fits : number < 2 ^ 32) : PageQuery :=
  ⟨⟨number, one_le, fits⟩, .one⟩

def limit (query : PageQuery) : Nat := query.pageSize.value

def offset (query : PageQuery) : Nat := (query.page.value - 1) * query.pageSize.value

end PageQuery

/-- A piece of a handle to look for.  A term longer than a handle is refused. -/
abbrev SearchTerm := Text 1 20

/-- The query string of a player list: a page and an optional search. -/
structure RosterQuery where
  page : PageNumber
  pageSize : PageSize
  q : Option SearchTerm
  deriving Repr

namespace RosterQuery

/-- `page()`. -/
def pageQuery (query : RosterQuery) : PageQuery := ⟨query.page, query.pageSize⟩

def term (query : RosterQuery) : Option (List Char) := query.q.map Text.chars

end RosterQuery

/-- The query string of the backoffice roster. -/
structure AdminRosterQuery where
  page : PageNumber
  pageSize : PageSize
  q : Option SearchTerm
  /-- `none` lists every player. -/
  active : Option Bool
  deriving Repr

namespace AdminRosterQuery

/-- `page()`. -/
def pageQuery (query : AdminRosterQuery) : PageQuery := ⟨query.page, query.pageSize⟩

def term (query : AdminRosterQuery) : Option (List Char) := query.q.map Text.chars

end AdminRosterQuery

/-! ## The query string of a list -/

/-- `str::parse::<u32>`: decimal digits, with or without a `+` in front. -/
def parseU32 (raw : List Char) : Option Nat :=
  let digits := if raw.head? = some '+' then raw.tail else raw
  if !digits.isEmpty && digits.all Char.isDigit then
    let value := Nat.ofDigitChars 10 digits 0
    if value < 2 ^ 32 then some value else none
  else none

/-- The keys of a list route read so far. -/
structure RosterFields where
  page : Option PageNumber
  pageSize : Option PageSize
  q : Option SearchTerm

namespace RosterFields

/-- No key read. -/
def start : RosterFields := ⟨none, none, none⟩

/-- One key and its value.  A key read twice and an unknown one are errors. -/
def read (fields : RosterFields) (pair : List Char × List Char) : Option RosterFields :=
  if pair.1 = ['p', 'a', 'g', 'e'] then
    if fields.page.isSome then none
    else ((parseU32 pair.2).bind PageNumber.tryNew).map fun page =>
      { fields with page := some page }
  else if pair.1 = ['p', 'a', 'g', 'e', 'S', 'i', 'z', 'e'] then
    if fields.pageSize.isSome then none
    else ((parseU32 pair.2).bind PageSize.tryNew).map fun pageSize =>
      { fields with pageSize := some pageSize }
  else if pair.1 = ['q'] then
    if fields.q.isSome then none
    else (Text.tryNew pair.2).map fun term => { fields with q := some term }
  else none

end RosterFields

/-- The query string: every key at most once, and a default for a page that is not there. -/
def RosterQuery.parse (pairs : List (List Char × List Char)) : Option RosterQuery :=
  (pairs.foldlM RosterFields.read RosterFields.start).map fun fields =>
    { page := fields.page.getD .default
      pageSize := fields.pageSize.getD .default
      q := fields.q }

/-- The digits of a number are read back when 32 bits hold it. -/
theorem parseU32_toDigits (value : Nat) :
    parseU32 (Nat.toDigits 10 value) = if value < 2 ^ 32 then some value else none := by
  have digits : ∀ c ∈ Nat.toDigits 10 value, c.isDigit := fun c member =>
    Nat.isDigit_of_mem_toDigits (by decide) (Nat.le_refl 10) member
  have no_sign : (Nat.toDigits 10 value).head? ≠ some '+' := by
    intro sign
    exact absurd (digits '+' (List.mem_of_mem_head? sign)) (by decide)
  have accepted : (!(Nat.toDigits 10 value).isEmpty &&
      (Nat.toDigits 10 value).all Char.isDigit) = true := by
    rw [Bool.and_eq_true, Bool.not_eq_true', List.isEmpty_eq_false_iff, List.all_eq_true]
    exact ⟨Nat.toDigits_ne_nil, digits⟩
  rw [parseU32, if_neg no_sign, if_pos accepted, Nat.ofDigitChars_ten_toDigits]

/-- One page of results, and the totals a client needs for a pager. -/
structure Paginated (α : Type) where
  items : List α
  /-- Every row that matches, ignoring the window. -/
  total : Nat
  page : PageNumber
  pageSize : PageSize
  totalPages : Nat
  deriving Repr

/-- `div_ceil` for the pages. -/
def Paginated.new {α : Type} (items : List α) (total : Nat) (query : PageQuery) : Paginated α :=
  { items, total, page := query.page, pageSize := query.pageSize
    totalPages := (total + query.pageSize.value - 1) / query.pageSize.value }

/-! ## Every page of a list -/

/-- How many pages a list of `total` rows has. -/
def pageCount (total : Nat) (size : PageSize) : Nat := (total + size.value - 1) / size.value

/-- The queries ask for the pages from the first to the last, in turn, in one size. -/
structure AsksAll (queries : List PageQuery) (size : PageSize) (pages : Nat) : Prop where
  pages : queries.map (fun query => query.page.value) = List.range' 1 pages
  sizes : ∀ query ∈ queries, query.pageSize = size

namespace AsksAll

/-- Two rows take two pages of one row. -/
theorem two_rows : AsksAll [.one 1 (by decide) (by decide), .one 2 (by decide) (by decide)] .one
    (pageCount 2 .one) := by
  refine ⟨by decide, fun query member => ?_⟩
  rcases List.mem_pair.mp member with rfl | rfl
  · rfl
  · rfl

variable {α β ε : Type} {rows : List α} {queries : List PageQuery} {size : PageSize}

/-- The windows of all pages are the rows. -/
theorem flatMap_window
    (asks : AsksAll queries size (pageCount rows.length size)) :
    (queries.flatMap fun query => window query.limit query.offset rows) = rows := by
  have enough : rows.length ≤ pageCount rows.length size * size.value := by
    have size_pos : 0 < size.value := size.one_le
    have covered : rows.length + size.value - 1 <
        pageCount rows.length size * size.value + size.value := Nat.lt_div_mul_add size_pos
    omega
  have by_number : (queries.flatMap fun query => window query.limit query.offset rows) =
      (queries.map fun query => query.page.value).flatMap fun number =>
        window size.value ((number - 1) * size.value) rows := by
    rw [List.flatMap_map]
    refine List.flatMap_congr fun query member => ?_
    rw [PageQuery.limit, PageQuery.offset, asks.sizes query member]
  rw [by_number, asks.pages, List.range'_eq_map_range, List.flatMap_map]
  simp only [Nat.add_sub_cancel_left]
  rw [Relational.flatMap_window, List.take_of_length_le enough]

/-- The items of all pages are the rows, converted. -/
theorem mapM_eq_ok {convert : α → Except ε β} {pages : List (Paginated β)}
    (asks : AsksAll queries size (pageCount rows.length size))
    (read : List.Forall₂ (fun query page =>
      (window query.limit query.offset rows).mapM convert = .ok page.items) queries pages) :
    rows.mapM convert = .ok (pages.flatMap Paginated.items) := by
  rw [Ordered.mapM_eq_ok_iff]
  have together : List.Forall₂ (fun row item => convert row = .ok item)
      (queries.flatMap fun query => window query.limit query.offset rows)
      (pages.flatMap Paginated.items) :=
    List.rel_flatMap read fun _ _ done => Ordered.mapM_eq_ok_iff.mp done
  rwa [asks.flatMap_window] at together

/-- The same for a conversion that cannot fail. -/
theorem items_eq {convert : α → β} {pages : List (Paginated β)}
    (asks : AsksAll queries size (pageCount rows.length size))
    (read : List.Forall₂ (fun query page =>
      page.items = (window query.limit query.offset rows).map convert) queries pages) :
    pages.flatMap Paginated.items = rows.map convert := by
  have each : pages.map Paginated.items =
      queries.map fun query => (window query.limit query.offset rows).map convert := by
    rw [← List.forall₂_eq_eq_eq, List.forall₂_map_left_iff, List.forall₂_map_right_iff]
    exact read.flip
  rw [List.flatMap_def, each, ← List.flatMap_def, ← List.map_flatMap, asks.flatMap_window]

end AsksAll

/-! ## A whole list -/

/-- A list route over its rows in one state: every page is there with the right totals, and the
pages together show each row once, in a strict order. -/
structure Listing {Row Item ε : Type} (rows : List Row) (shows : Row → Item → Prop)
    (before : Item → Item → Prop) (read : PageQuery → Except ε (Paginated Item)) : Prop where
  reads : ∀ query, ∃ page, read query = .ok page ∧ page.total = rows.length ∧
    page.totalPages = pageCount rows.length query.pageSize
  whole : ∀ queries size pages, AsksAll queries size (pageCount rows.length size) →
    List.Forall₂ (fun query page => read query = .ok page) queries pages →
      (pages.flatMap Paginated.items).Pairwise before ∧
        ∃ listed, listed.Perm rows ∧ List.Forall₂ shows listed (pages.flatMap Paginated.items)

/-- Windows of sorted rows no two of which compare equal are a listing. -/
theorem Listing.of_sorted {Row Item ε : Type} {rows : List Row} {shows : Row → Item → Prop}
    {before : Item → Item → Prop} {cmp : Row → Row → Ordering} [Std.TransCmp cmp]
    {convert : Row → Except ε Item}
    (distinct : rows.Pairwise fun left right => cmp left right ≠ .eq)
    (converts : ∀ row ∈ rows, ∃ item, convert row = .ok item ∧ shows row item)
    (ordered : ∀ left right first second, cmp left right = .lt → convert left = .ok first →
      convert right = .ok second → before first second) :
    Listing rows shows before fun query =>
      ((window query.limit query.offset (Ordered.sortBy cmp rows)).mapM convert).map fun items =>
        .new items rows.length query := by
  have perm := Ordered.sortBy_perm cmp rows
  constructor
  · intro query
    obtain ⟨items, shown⟩ : ∃ items,
        (window query.limit query.offset (Ordered.sortBy cmp rows)).mapM convert = .ok items := by
      refine Ordered.exists_mapM_eq_ok fun row member => ?_
      have listed := perm.subset (List.mem_of_mem_drop (List.mem_of_mem_take member))
      obtain ⟨item, made, -⟩ := converts row listed
      exact ⟨item, made⟩
    exact ⟨.new items rows.length query, by rw [shown]; rfl, rfl, rfl⟩
  · intro queries size pages asks read
    have windows : List.Forall₂ (fun query page =>
        (window query.limit query.offset (Ordered.sortBy cmp rows)).mapM convert = .ok page.items)
          queries pages := by
      refine read.imp fun query page answered => ?_
      cases shown : (window query.limit query.offset (Ordered.sortBy cmp rows)).mapM convert with
      | error error =>
          rw [shown] at answered
          cases answered
      | ok items =>
          rw [shown] at answered
          obtain rfl := Except.ok.inj answered
          rfl
    rw [← perm.length_eq] at asks
    have shown := asks.mapM_eq_ok windows
    refine ⟨Ordered.pairwise_of_mapM_ok ordered shown (Ordered.pairwise_lt_sortBy distinct),
      Ordered.sortBy cmp rows, perm, ?_⟩
    have made := (List.forall₂_and_left _ _).mpr
      ⟨fun row member => converts row (perm.subset member), Ordered.mapM_eq_ok_iff.mp shown⟩
    refine made.imp ?_
    rintro row item ⟨⟨other, made_other, shown_other⟩, made_item⟩
    obtain rfl := Except.ok.inj (made_other.symm.trans made_item)
    exact shown_other

end LanBunker
