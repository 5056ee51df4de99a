import Mathlib.Logic.Basic

/-!
# Computations that may fail

When steps in a row, checks of a list and maps over a list end well (`bind_eq_ok_iff`, `forM_eq_ok_iff`, `mapM_eq_ok_iff`),
when they fail (`fails_bind_iff`, `fails_forM_iff`, `fails_mapM_iff`), and with which errors they may fail (`FailsOnly`).
-/

namespace SqlEngine

namespace ExceptAux

variable {ε α β : Type}

/-- What follows a result goes on with it. -/
@[simp] theorem ok_bind (value : α) (next : α → Except ε β) : (Except.ok value >>= next) = next value := rfl

/-- Nothing follows an error. -/
@[simp] theorem error_bind (cause : ε) (next : α → Except ε β) : (Except.error cause >>= next) = .error cause := rfl

@[simp] theorem pure_eq_ok (value : α) : (pure value : Except ε α) = .ok value := rfl

@[simp] theorem map_ok (f : α → β) (value : α) : f <$> (Except.ok value : Except ε α) = .ok (f value) := rfl

/-- Two steps end well exactly when the first ends in a value with which the second ends well. -/
theorem bind_eq_ok_iff {first : Except ε α} {next : α → Except ε β} {value : β} :
    (first >>= next) = .ok value ↔ ∃ between, first = .ok between ∧ next between = .ok value := by
  cases first with
  | error cause => simp
  | ok between => simp

/-- A function of the value changes no error. -/
theorem map_eq_error_iff {result : Except ε α} {f : α → β} {cause : ε} : result.map f = .error cause ↔ result = .error cause := by
  cases result with
  | error other => exact ⟨fun h => congrArg _ (Except.error.inj h), fun h => congrArg _ (Except.error.inj h)⟩
  | ok value => exact iff_of_false nofun nofun

/-- What follows a check ends well exactly when the check passes and it does. -/
theorem check_bind_eq_ok_iff {check : Except ε Unit} {next : Unit → Except ε β} {value : β} :
    (check >>= next) = .ok value ↔ check = .ok () ∧ next () = .ok value := by
  rw [bind_eq_ok_iff]
  exact ⟨fun ⟨_, h⟩ => h, fun h => ⟨(), h⟩⟩

/-- Two steps fail exactly when the first fails, or else the second does on what the first ended in. -/
theorem bind_eq_error_iff {first : Except ε α} {next : α → Except ε β} {cause : ε} :
    (first >>= next) = .error cause ↔
      first = .error cause ∨ ∃ between, first = .ok between ∧ next between = .error cause := by
  cases first with
  | error other => simp
  | ok between => simp

/-- A check of every member of a list passes exactly when it passes for each of them. -/
theorem forM_eq_ok_iff {list : List α} {check : α → Except ε Unit} :
    forM list check = .ok () ↔ ∀ member ∈ list, check member = .ok () := by
  induction list with
  | nil => simp [pure, Except.pure]
  | cons first rest ih =>
    rw [List.forM_cons, bind_eq_ok_iff, List.forall_mem_cons]
    constructor
    · rintro ⟨_, hfirst, hrest⟩
      exact ⟨hfirst, ih.mp hrest⟩
    · rintro ⟨hfirst, hrest⟩
      exact ⟨(), hfirst, ih.mpr hrest⟩

/-- A list is mapped to results exactly when each member is mapped to the result in its place. -/
theorem mapM_eq_ok_iff {f : α → Except ε β} {list : List α} :
    ∀ {results : List β}, list.mapM f = .ok results ↔ list.map f = results.map .ok := by
  induction list with
  | nil =>
    intro results
    rw [List.mapM_nil, List.map_nil, eq_comm (a := []), List.map_eq_nil_iff]
    exact Except.ok.injEq [] results ▸ eq_comm
  | cons first rest ih =>
    intro results
    rw [List.mapM_cons, bind_eq_ok_iff, List.map_cons]
    constructor
    · rintro ⟨result, hfirst, hrest⟩
      obtain ⟨others, hothers, heq⟩ := bind_eq_ok_iff.mp hrest
      obtain rfl := Except.ok.inj heq
      rw [hfirst, ih.mp hothers, List.map_cons]
    · intro h
      cases results with
      | nil => exact nomatch h
      | cons result others =>
        rw [List.map_cons, List.cons.injEq] at h
        exact ⟨result, h.1, bind_eq_ok_iff.mpr ⟨others, ih.mpr h.2, rfl⟩⟩

/-! ## Failing -/

/-- The computation ends in an error. -/
def Fails (result : Except ε α) : Prop := ∃ cause, result = .error cause

theorem not_fails_ok (value : α) : ¬Fails (.ok value : Except ε α) := nofun

theorem fails_error (cause : ε) : Fails (.error cause : Except ε α) := ⟨cause, rfl⟩

/-- Either a check passes, or it fails. -/
theorem fails_iff_ne_ok {check : Except ε Unit} : Fails check ↔ check ≠ .ok () := by
  cases check with
  | error cause => exact iff_of_true (fails_error cause) nofun
  | ok _ => exact iff_of_false (not_fails_ok ()) fun h => h rfl

/-- Two steps fail exactly when the first fails, or else the second does on what the first ended in. -/
theorem fails_bind_iff {first : Except ε α} {next : α → Except ε β} :
    Fails (first >>= next) ↔ Fails first ∨ ∃ between, first = .ok between ∧ Fails (next between) := by
  cases first with
  | error cause => exact iff_of_true (fails_error cause) (Or.inl (fails_error cause))
  | ok between => simp [not_fails_ok]

/-- Where it does not depend on the first step whether the second fails, two steps fail exactly when one of them does. -/
theorem fails_bind_iff_or {first : Except ε α} {next : α → Except ε β} {second : Prop}
    (h : ∀ value, Fails (next value) ↔ second) : Fails (first >>= next) ↔ Fails first ∨ second := by
  cases first with
  | error cause => exact iff_of_true (fails_error cause) (Or.inl (fails_error cause))
  | ok value => rw [ok_bind, h, or_iff_right (not_fails_ok value)]

/-- A step that never fails does not make another one fail. -/
theorem fails_map_iff {first : Except ε α} {f : α → β} : Fails (first >>= fun value => .ok (f value)) ↔ Fails first := by
  cases first with
  | error cause => exact iff_of_true (fails_error cause) (fails_error cause)
  | ok value => exact iff_of_false (not_fails_ok _) (not_fails_ok _)

/-- A check of every member of a list fails exactly when that of some member does. -/
theorem fails_forM_iff {list : List α} {check : α → Except ε Unit} :
    Fails (forM list check) ↔ ∃ member ∈ list, Fails (check member) := by
  simp only [fails_iff_ne_ok, ne_eq, forM_eq_ok_iff, not_forall, exists_prop]

/-- Mapping a list fails exactly when mapping some member does. -/
theorem fails_mapM_iff {list : List α} {f : α → Except ε β} :
    Fails (list.mapM f) ↔ ∃ member ∈ list, Fails (f member) := by
  induction list with
  | nil => exact iff_of_false (not_fails_ok []) nofun
  | cons first rest ih =>
    simp only [List.mapM_cons, List.mem_cons, or_and_right, exists_or, exists_eq_left, ← ih]
    exact fails_bind_iff_or fun result => fails_map_iff

/-- Every error that the computation may end in has the property. -/
def FailsOnly (P : ε → Prop) (result : Except ε α) : Prop :=
  ∀ cause, result = .error cause → P cause

namespace FailsOnly

variable {P : ε → Prop}

theorem ok (value : α) : FailsOnly P (.ok value) := nofun

theorem error {cause : ε} (h : P cause) : FailsOnly P (.error cause : Except ε α) := by
  intro cause' heq
  obtain rfl := Except.error.inj heq
  exact h

/-- Two steps fail only as one of them does. -/
theorem bind {first : Except ε α} {next : α → Except ε β} (hfirst : FailsOnly P first)
    (hnext : ∀ value, first = .ok value → FailsOnly P (next value)) : FailsOnly P (first >>= next) := by
  intro cause hcause
  rcases bind_eq_error_iff.mp hcause with herror | ⟨value, hvalue, herror⟩
  · exact hfirst cause herror
  · exact hnext value hvalue cause herror

theorem map {result : Except ε α} (h : FailsOnly P result) (f : α → β) : FailsOnly P (result.map f) := by
  cases result with
  | ok value => exact ok (f value)
  | error cause => exact error (h cause rfl)

/-- A check of a list fails only as that of some member does. -/
theorem forM_of_each {list : List α} {check : α → Except ε Unit} (h : ∀ member ∈ list, FailsOnly P (check member)) :
    FailsOnly P (forM list check) := by
  induction list with
  | nil => exact ok ()
  | cons first rest ih =>
    obtain ⟨hfirst, hrest⟩ := List.forall_mem_cons.mp h
    rw [List.forM_cons]
    exact bind hfirst fun _ _ => ih hrest

/-- Mapping a list fails only as mapping some member does. -/
theorem mapM_of_each {list : List α} {f : α → Except ε β} (h : ∀ member ∈ list, FailsOnly P (f member)) :
    FailsOnly P (list.mapM f) := by
  induction list with
  | nil => exact ok []
  | cons first rest ih =>
    obtain ⟨hfirst, hrest⟩ := List.forall_mem_cons.mp h
    rw [List.mapM_cons]
    exact bind hfirst fun _ _ => bind (ih hrest) fun _ _ => ok _

end FailsOnly

end ExceptAux

end SqlEngine
