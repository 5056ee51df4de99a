/-!
# Sets of offsets

Rows are addressed by offset, and a condition is resolved to the set of offsets of its rows. A set is kept as its list in
ascending order, so that equal sets are equal lists and a walk through a set goes through the table from front to back. Each
operation is pinned down by what it does to membership.
-/

namespace SqlEngine

/-- A finite set of offsets, in ascending order and each once. -/
structure Offsets where
  toList : List Nat
  ascending : toList.Pairwise (· < ·)
  deriving DecidableEq, Repr

namespace Offsets

instance : Membership Nat Offsets := ⟨fun offsets offset => offset ∈ offsets.toList⟩

theorem mem_def {offset : Nat} {offsets : Offsets} : offset ∈ offsets ↔ offset ∈ offsets.toList := Iff.rfl

instance (offset : Nat) (offsets : Offsets) : Decidable (offset ∈ offsets) :=
  inferInstanceAs (Decidable (offset ∈ offsets.toList))

/-- No offset. -/
def empty : Offsets := ⟨[], .nil⟩

instance : EmptyCollection Offsets := ⟨empty⟩

theorem not_mem_empty (offset : Nat) : offset ∉ (∅ : Offsets) := List.not_mem_nil

/-- The number of offsets. -/
def size (offsets : Offsets) : Nat := offsets.toList.length

/-- Whether there is no offset. -/
def isEmpty (offsets : Offsets) : Bool := offsets.toList.isEmpty

/-- An ascending list with one more number in its place. -/
def insertInto (offset : Nat) : List Nat → List Nat
  | [] => [offset]
  | first :: rest =>
    if offset < first then offset :: first :: rest
    else if offset = first then first :: rest
    else first :: insertInto offset rest

theorem mem_insertInto {offset other : Nat} {list : List Nat} :
    other ∈ insertInto offset list ↔ other = offset ∨ other ∈ list := by
  induction list with
  | nil => simp [insertInto]
  | cons first rest ih =>
    unfold insertInto
    split
    · simp
    · split
      · next heq => simp [heq]
      · simp only [List.mem_cons, ih]
        exact or_left_comm

theorem ascending_insertInto {offset : Nat} {list : List Nat} (h : list.Pairwise (· < ·)) :
    (insertInto offset list).Pairwise (· < ·) := by
  induction list with
  | nil => simp [insertInto]
  | cons first rest ih =>
    have habove := (List.pairwise_cons.mp h).1
    unfold insertInto
    split
    · next hlt =>
      refine List.pairwise_cons.mpr ⟨fun other hother => ?_, h⟩
      rcases List.mem_cons.mp hother with rfl | hrest
      · exact hlt
      · exact Nat.lt_trans hlt (habove other hrest)
    · split
      · exact h
      · refine List.pairwise_cons.mpr ⟨fun other hother => ?_, ih (List.pairwise_cons.mp h).2⟩
        rcases mem_insertInto.mp hother with rfl | hrest
        · omega
        · exact habove other hrest

/-- The set with one more offset. -/
def insert (offsets : Offsets) (offset : Nat) : Offsets :=
  ⟨insertInto offset offsets.toList, ascending_insertInto offsets.ascending⟩

@[simp] theorem mem_insert {offsets : Offsets} {offset other : Nat} :
    other ∈ offsets.insert offset ↔ other = offset ∨ other ∈ offsets :=
  mem_insertInto

/-- The offsets of a set that pass a test. -/
def filter (offsets : Offsets) (keep : Nat → Bool) : Offsets :=
  ⟨offsets.toList.filter keep, offsets.ascending.filter keep⟩

@[simp] theorem mem_filter {offsets : Offsets} {keep : Nat → Bool} {offset : Nat} :
    offset ∈ offsets.filter keep ↔ offset ∈ offsets ∧ keep offset = true :=
  List.mem_filter

/-- The set without one offset. -/
def erase (offsets : Offsets) (offset : Nat) : Offsets :=
  offsets.filter (· != offset)

@[simp] theorem mem_erase {offsets : Offsets} {offset other : Nat} :
    other ∈ offsets.erase offset ↔ other ∈ offsets ∧ other ≠ offset := by
  simp [erase]

/-- The offsets of the first set that are in the second. -/
def inter (offsets others : Offsets) : Offsets :=
  offsets.filter (decide <| · ∈ others)

@[simp] theorem mem_inter {offsets others : Offsets} {offset : Nat} :
    offset ∈ offsets.inter others ↔ offset ∈ offsets ∧ offset ∈ others := by
  simp [inter]

/-- A set with all numbers of a list added. -/
def insertAll (offsets : Offsets) (list : List Nat) : Offsets :=
  list.foldr (fun offset set => set.insert offset) offsets

@[simp] theorem mem_insertAll {offsets : Offsets} {list : List Nat} {offset : Nat} :
    offset ∈ offsets.insertAll list ↔ offset ∈ list ∨ offset ∈ offsets := by
  induction list with
  | nil => simp [insertAll]
  | cons first rest ih =>
    rw [insertAll, List.foldr_cons, mem_insert, ← insertAll, ih, List.mem_cons, or_assoc]

/-- The set of the numbers of a list. -/
def ofList (list : List Nat) : Offsets := insertAll ∅ list

@[simp] theorem mem_ofList {list : List Nat} {offset : Nat} : offset ∈ ofList list ↔ offset ∈ list := by
  simp [ofList, not_mem_empty]

/-- The offsets that are in either set. -/
def union (offsets others : Offsets) : Offsets := offsets.insertAll others.toList

@[simp] theorem mem_union {offsets others : Offsets} {offset : Nat} :
    offset ∈ offsets.union others ↔ offset ∈ offsets ∨ offset ∈ others :=
  mem_insertAll.trans or_comm

/-- The offsets that are in some set of a list. -/
def unionAll (sets : List Offsets) : Offsets := ofList (sets.flatMap toList)

@[simp] theorem mem_unionAll {sets : List Offsets} {offset : Nat} :
    offset ∈ unionAll sets ↔ ∃ set ∈ sets, offset ∈ set :=
  mem_ofList.trans List.mem_flatMap

end Offsets

end SqlEngine
