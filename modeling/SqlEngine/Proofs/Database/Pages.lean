import Mathlib
import SqlEngine.Proofs.Database.Tables
import SqlEngine.Proofs.Table.Arrangement

/-!
# What queries show, at once and page by page

A query that succeeds shows a slice of the live rows of its condition, arranged as it asks for and reduced to its columns; so it
does with any limit and offset that are not negative, however large. Its pages, shown one after the other up to the first that is
empty, therefore come to what it shows without limit and offset (`queries_answered_exactly`).
-/

namespace SqlEngine

/-- The query for one page of the rows of a query, which leaves out as many rows as there are on the pages before. -/
def Query.page (query : Query) (size : Int64) (index : Nat) : Query :=
  { query with limit := some size, offset := some (.ofNat (index * size.toInt.toNat)) }

/-- A page shows its share of what the query shows without limit and offset. -/
theorem Query.shown_page (query : Query) (schema : Schema) (entries : List (Nat × Row)) {size : Int64} {index : Nat}
    (hrange : index * size.toInt.toNat < 2 ^ 63) : (query.page size index).shown schema entries =
      (({ query with limit := none, offset := none : Query }.shown schema entries).drop (index * size.toInt.toNat)).take
        size.toInt.toNat := by
  have hoffset : (Int64.ofNat (index * size.toInt.toNat)).toInt.toNat = index * size.toInt.toNat := by
    rw [Int64.toInt_ofNat_of_lt hrange, Int.toNat_natCast]
  simp only [shown, page, slice, Option.elim_some, Option.elim_none, hoffset, List.drop_zero, List.map_take, List.map_drop]

namespace Database

/-- The offset of a page is within the range of integers, and the query for the page shows the rows. -/
def PageShows [Pattern.Compiler] (database : Database) (query : Query) (size : Int64) (index : Nat) (rows : List Row) : Prop :=
  index * size.toInt.toNat < 2 ^ 63 ∧ (run (.select (query.page size index))).result database = .ok rows

/-- The pages from one on, up to the first that is empty, show the rows one after the other. -/
inductive Pages [Pattern.Compiler] (database : Database) (query : Query) (size : Int64) : Nat → List Row → Prop where
  | last {index : Nat} (h : database.PageShows query size index []) : Pages database query size index []
  | more {index : Nat} {shown later : List Row} (h : database.PageShows query size index shown) (hne : shown ≠ [])
      (hlater : Pages database query size (index + 1) later) : Pages database query size index (shown ++ later)

section

variable [Pattern.Compiler] {database : Database} {query : Query} {size : Int64} {all : List Row} (hsize : 0 < size.toInt.toNat)
  (hpages : ∀ index, index * size.toInt.toNat < 2 ^ 63 → (run (.select (query.page size index))).result database =
    .ok ((all.drop (index * size.toInt.toNat)).take size.toInt.toNat))

include hsize hpages

/-- Where each page shows its share of a list, the pages from one on come to all of the list that is not on the pages before. -/
theorem Pages.eq_drop {index : Nat} {found : List Row} (h : database.Pages query size index found) :
    found = all.drop (index * size.toInt.toNat) := by
  induction h with
  | last h =>
    obtain ⟨hrange, hresult⟩ := h
    rw [hpages _ hrange, Except.ok.injEq, List.take_eq_nil_iff] at hresult
    exact (hresult.resolve_left hsize.ne').symm
  | more h hne hlater ih =>
    obtain ⟨hrange, hresult⟩ := h
    rw [hpages _ hrange, Except.ok.injEq] at hresult
    rw [ih, ← hresult, Nat.succ_mul, ← List.drop_drop, List.take_append_drop]

/-- Where each page shows its share of a list, there is an empty page, and so an end to the pages, if some page whose offset is
within the range lies beyond the list. -/
theorem pages_drop {last : Nat} (hlast : all.length ≤ last * size.toInt.toNat) (hrange : last * size.toInt.toNat < 2 ^ 63)
    {index : Nat} (hindex : index ≤ last) : database.Pages query size index (all.drop (index * size.toInt.toNat)) := by
  induction hindex using Nat.decreasingInduction with
  | self =>
    have hempty := hpages last hrange
    rw [List.drop_eq_nil_of_le hlast, List.take_nil] at hempty
    rw [List.drop_eq_nil_of_le hlast]
    exact .last ⟨hrange, hempty⟩
  | of_succ index hlt ih =>
    have hbefore : index * size.toInt.toNat < 2 ^ 63 := (Nat.mul_le_mul_right _ hlt.le).trans_lt hrange
    have hpage := hpages index hbefore
    by_cases hend : all.length ≤ index * size.toInt.toNat
    · rw [List.drop_eq_nil_of_le hend, List.take_nil] at hpage
      rw [List.drop_eq_nil_of_le hend]
      exact .last ⟨hbefore, hpage⟩
    · have hne : (all.drop (index * size.toInt.toNat)).take size.toInt.toNat ≠ [] := by
        rw [ne_eq, List.take_eq_nil_iff, List.drop_eq_nil_iff]
        exact not_or.mpr ⟨hsize.ne', hend⟩
      have hmore := Pages.more ⟨hbefore, hpage⟩ hne ih
      rwa [Nat.succ_mul, ← List.drop_drop, List.take_append_drop] at hmore

end

/-- A query that succeeds on a database of sound tables has a table, and with any limit and offset that are not negative, its own among
them, it shows a slice of the entries that it arranges there. -/
theorem result_select_sliced [Pattern.Compiler] {database : Database} (h : database.Sound) {query : Query} {rows : List Row}
    (hrows : (run (.select query)).result database = .ok rows) :
    ∃ table entries, database.table? query.table = some table ∧ query.Arranges table entries ∧
      (∀ n ∈ query.limit, 0 ≤ n) ∧ (∀ n ∈ query.offset, 0 ≤ n) ∧
      ∀ limit offset, (∀ n ∈ limit, 0 ≤ n) → (∀ n ∈ offset, 0 ≤ n) →
        (run (.select { query with limit, offset })).result database =
          .ok ({ query with limit, offset : Query }.shown table.schema entries) := by
  rw [run, result_fromTable, onFound] at hrows
  cases htable : database.table? query.table with
  | none =>
    rw [htable] at hrows
    cases hrows
  | some table =>
    rw [htable] at hrows
    obtain ⟨entries, harranges, hlimit, hoffset, hsliced⟩ := Table.result_select_sliced (h.of_table? htable) hrows
    refine ⟨table, entries, rfl, harranges, hlimit, hoffset, fun limit offset hlimit hoffset => ?_⟩
    rw [run, result_fromTable, onFound, htable]
    exact hsliced limit offset hlimit hoffset

/-- A page whose offset is within the range of integers may be asked for: neither its limit nor its offset is negative. -/
theorem page_nonneg {size : Int64} (hsize : 0 < size) {index : Nat} (hrange : index * size.toInt.toNat < 2 ^ 63) :
    (∀ n ∈ some size, 0 ≤ n) ∧ ∀ n ∈ some (Int64.ofNat (index * size.toInt.toNat)), 0 ≤ n := by
  refine ⟨?_, ?_⟩
  · rintro _ ⟨⟩
    exact Int64.le_of_lt hsize
  · rintro _ ⟨⟩
    rw [Int64.le_iff_toInt_le, Int64.toInt_ofNat_of_lt hrange]
    exact Int.natCast_nonneg _

/-- In any database that statements lead to, a query that succeeds has a table, and the live rows of its condition are arranged in
the one way that it asks for. The query shows its slice of these, reduced to its columns, and with any other limit and offset that
are not negative it shows that slice. Page by page, with pages of any size but none, it shows what it shows without limit and
offset: so it does whenever the pages come to an end, and they do if the offset of some page beyond the rows is within the range of
integers. -/
theorem queries_answered_exactly [Pattern.Compiler] (statements : List Statement) (query : Query) (rows : List Row)
    (hrows : (run (.select query)).result (empty.ran statements) = .ok rows) :
    ∃ table entries, (empty.ran statements).table? query.table = some table ∧ query.Arranges table entries ∧
      (∀ others, query.Arranges table others → others = entries) ∧
      (∀ n ∈ query.limit, 0 ≤ n) ∧ (∀ n ∈ query.offset, 0 ≤ n) ∧ rows = query.shown table.schema entries ∧
      (∀ limit offset, (∀ n ∈ limit, 0 ≤ n) → (∀ n ∈ offset, 0 ≤ n) →
        (run (.select { query with limit, offset })).result (empty.ran statements) =
          .ok ({ query with limit, offset : Query }.shown table.schema entries)) ∧
      ∃ all, (run (.select { query with limit := none, offset := none })).result (empty.ran statements) = .ok all ∧
        ∀ size, 0 < size → (∀ found, (empty.ran statements).Pages query size 0 found → found = all) ∧
          ∀ last, all.length ≤ last * size.toInt.toNat → last * size.toInt.toNat < 2 ^ 63 →
            (empty.ran statements).Pages query size 0 all := by
  obtain ⟨table, entries, htable, harranges, hlimit, hoffset, hslices⟩ :=
    result_select_sliced (sound_ran sound_empty statements) hrows
  refine ⟨table, entries, htable, harranges, fun others => harranges.unique, hlimit, hoffset, ?_, hslices, _,
    hslices none none nofun nofun, fun size hsize => ?_⟩
  · exact Except.ok.inj (hrows.symm.trans (hslices _ _ hlimit hoffset))
  · have hpositive : 0 < size.toInt.toNat := by
      rw [Int64.lt_iff_toInt_lt] at hsize
      exact Int.lt_toNat.mpr hsize
    have hpages : ∀ index, index * size.toInt.toNat < 2 ^ 63 →
        (run (.select (query.page size index))).result (empty.ran statements) =
          .ok ((({ query with limit := none, offset := none : Query }.shown table.schema entries).drop
            (index * size.toInt.toNat)).take size.toInt.toNat) := by
      intro index hrange
      obtain ⟨hsome, hstart⟩ := page_nonneg hsize hrange
      rw [← Query.shown_page query table.schema entries hrange]
      exact hslices _ _ hsome hstart
    refine ⟨fun found hfound => ?_, fun last hlast hrange => ?_⟩
    · simpa using hfound.eq_drop hpositive hpages
    · simpa using pages_drop hpositive hpages hlast hrange (Nat.zero_le last)

/-- A table of players and their points, where three of them have five and two have seven, and a sixth was taken away. -/
def scores : List Statement :=
  [.createTable "scores" [⟨"player", .text⟩, ⟨"team", .int⟩, ⟨"points", .int⟩],
    .insert "scores" [.text "ann", .int 1, .int 5], .insert "scores" [.text "bob", .int 2, .int 7],
    .insert "scores" [.text "cy", .int 1, .int 5], .insert "scores" [.text "dan", .int 1, .int 6],
    .insert "scores" [.text "eve", .int 1, .int 7], .insert "scores" [.text "flo", .int 2, .int 5],
    .delete "scores" (some (.ofPredicate ⟨"player", .eq, .text "dan"⟩))]

/-- Two players after the best one, with their teams; the points that they are sorted on are not shown. -/
def runnersUp : Query :=
  { table := "scores", projection := .columns ["team", "player", "team"], condition := none,
    sort := some ⟨"points", .descending⟩, limit := some 2, offset := some 1 }

/-- Players with the same points are in the order in which they came, from the best to the worst; by twos, the pages come to all of
them. -/
theorem queries_answered_exactly_scores :
    letI : Pattern.Compiler := .unbounded
    (run (.select runnersUp)).result (empty.ran scores) = .ok [[.text "eve", .int 1], [.text "ann", .int 1]] ∧
      (∃ table entries, (empty.ran scores).table? "scores" = some table ∧ runnersUp.Arranges table entries) ∧
      (empty.ran scores).Pages runnersUp 2 0 [[.text "bob", .int 2], [.text "eve", .int 1], [.text "ann", .int 1],
        [.text "cy", .int 1], [.text "flo", .int 2]] := by
  let : Pattern.Compiler := .unbounded
  have hrows : (run (.select runnersUp)).result (empty.ran scores) =
      .ok [[.text "eve", .int 1], [.text "ann", .int 1]] := by cbv
  have hall : (run (.select { runnersUp with limit := none, offset := none })).result (empty.ran scores) =
      .ok [[.text "bob", .int 2], [.text "eve", .int 1], [.text "ann", .int 1], [.text "cy", .int 1], [.text "flo", .int 2]] := by
    cbv
  obtain ⟨table, entries, htable, harranges, -, -, -, -, -, all, hresult, hpages⟩ :=
    queries_answered_exactly scores runnersUp _ hrows
  obtain rfl := Except.ok.inj (hresult.symm.trans hall)
  exact ⟨hrows, ⟨table, entries, htable, harranges⟩, (hpages 2 (by decide)).2 3 (by decide) (by decide)⟩

end Database

end SqlEngine
