import SqlEngine.Outcome
import SqlEngine.Proofs.Except

/-!
# What a computation ends in

`Outcome.result` takes an outcome to what it ended in and forgets the events, and it takes every step of an outcome to the
same step of an `Except`. An action is seen through two functions of the state that it starts from: `Action.result`, what it
ends in, and `Action.after`, the state that it leaves. Each primitive action and each way to combine actions has one
equation for either function, so that statements about actions need not speak of events.
-/

namespace SqlEngine

namespace Outcome

variable {α β : Type}

@[simp] theorem result_pure (value : α) : (pure value : Outcome α).result = .ok value := rfl

@[simp] theorem result_report (event : Event) : (report event).result = .ok () := rfl

@[simp] theorem result_liftM (result : Except Error α) : (liftM result : Outcome α).result = result := rfl

@[simp] theorem result_bind (first : Outcome α) (next : α → Outcome β) :
    (first >>= next).result = first.result >>= fun value => (next value).result := by
  obtain ⟨events, result⟩ := first
  cases result <;> rfl

end Outcome

namespace Action

variable {σ α β : Type}

/-- What an action ends in when it starts from a state. -/
def result (action : Action σ α) (state : σ) : Except Error α := (action.run state).1.result

/-- The state that an action leaves when it starts from a state, whether it ended well or not. -/
def after (action : Action σ α) (state : σ) : σ := (action.run state).2

@[simp] theorem result_pure (value : α) (state : σ) : (pure value : Action σ α).result state = .ok value := rfl

@[simp] theorem after_pure (value : α) (state : σ) : (pure value : Action σ α).after state = state := rfl

@[simp] theorem result_state (state : σ) : (Action.state : Action σ σ).result state = .ok state := rfl

@[simp] theorem after_state (state : σ) : (Action.state : Action σ σ).after state = state := rfl

@[simp] theorem result_put (new state : σ) : (put new).result state = .ok () := rfl

@[simp] theorem after_put (new state : σ) : (put new).after state = new := rfl

@[simp] theorem result_fail (cause : Error) (state : σ) : (fail cause : Action σ α).result state = .error cause := rfl

@[simp] theorem after_fail (cause : Error) (state : σ) : (fail cause : Action σ α).after state = state := rfl

@[simp] theorem result_liftOutcome (outcome : Outcome α) (state : σ) :
    (liftM outcome : Action σ α).result state = outcome.result := rfl

@[simp] theorem after_liftOutcome (outcome : Outcome α) (state : σ) : (liftM outcome : Action σ α).after state = state := rfl

@[simp] theorem result_liftExcept (result : Except Error α) (state : σ) :
    (liftM result : Action σ α).result state = result := rfl

@[simp] theorem after_liftExcept (result : Except Error α) (state : σ) :
    (liftM result : Action σ α).after state = state := rfl

/-- What two actions in a row end in. -/
@[simp] theorem result_bind (first : Action σ α) (next : α → Action σ β) (state : σ) :
    (first >>= next).result state = first.result state >>= fun value => (next value).result (first.after state) := by
  show (Action.bind first next state).1.result = _
  unfold Action.bind result after run
  rcases first state with ⟨⟨events, result⟩, between⟩
  cases result <;> rfl

/-- The state that two actions in a row leave; the second does nothing after an error of the first. -/
theorem after_bind (first : Action σ α) (next : α → Action σ β) (state : σ) :
    (first >>= next).after state =
      match first.result state with
      | .error _ => first.after state
      | .ok value => (next value).after (first.after state) := by
  show (Action.bind first next state).2 = _
  unfold Action.bind result after run
  rcases first state with ⟨⟨events, result⟩, between⟩
  cases result <;> rfl

/-- The state after an action that ended well and another one. -/
theorem after_bind_of_ok {first : Action σ α} {next : α → Action σ β} {state : σ} {value : α}
    (h : first.result state = .ok value) : (first >>= next).after state = (next value).after (first.after state) := by
  rw [after_bind, h]

/-- The state after an action that failed. -/
theorem after_bind_of_error {first : Action σ α} {next : α → Action σ β} {state : σ} {cause : Error}
    (h : first.result state = .error cause) : (first >>= next).after state = first.after state := by
  rw [after_bind, h]

/-- An action that begins by looking at the state goes on with the state that it starts from. -/
@[simp] theorem result_state_bind (next : σ → Action σ α) (state : σ) :
    (Action.state >>= next).result state = (next state).result state := by
  rw [result_bind, result_state, ExceptAux.ok_bind, after_state]

@[simp] theorem after_state_bind (next : σ → Action σ α) (state : σ) :
    (Action.state >>= next).after state = (next state).after state := by
  rw [after_bind_of_ok (result_state state), after_state]

/-- To make something else of what an action ends in leaves the same state. -/
@[simp] theorem after_bind_pure (action : Action σ α) (f : α → β) (state : σ) :
    (action >>= fun value => pure (f value)).after state = action.after state := by
  rw [after_bind]
  split <;> rfl

/-- Not to look at what an action ends in leaves the same state. -/
@[simp] theorem after_discard (action : Action σ α) (state : σ) :
    (discard action : Action σ Unit).after state = action.after state :=
  after_bind_pure action (fun _ => ()) state

/-- What every step of a list of actions preserves, the list preserves, whether or not it runs to its end. -/
theorem forM_preserves {P : σ → Prop} {list : List α} {step : α → Action σ Unit}
    (h : ∀ member ∈ list, ∀ state, P state → P ((step member).after state)) :
    ∀ {state : σ}, P state → P ((forM list step).after state) := by
  induction list with
  | nil =>
    intro state hstate
    exact hstate
  | cons first rest ih =>
    intro state hstate
    have hfirst := h first List.mem_cons_self state hstate
    rw [List.forM_cons, after_bind]
    split
    · exact hfirst
    · exact ih (fun member hmember => h member (List.mem_cons_of_mem _ hmember)) hfirst

/-- Checks in a row, of which none changes the state, end in what the checks alone do. -/
theorem result_forM_check (list : List α) (check : α → Except Error Unit) (state : σ) :
    (forM list fun member => (liftM (check member) : Action σ Unit)).result state = forM list check := by
  induction list with
  | nil => rfl
  | cons first rest ih =>
    rw [List.forM_cons, List.forM_cons, result_bind, result_liftExcept, after_liftExcept, ih]

/-- Checks in a row leave the state alone. -/
theorem after_forM_check (list : List α) (check : α → Except Error Unit) (state : σ) :
    (forM list fun member => (liftM (check member) : Action σ Unit)).after state = state := by
  refine forM_preserves (P := (· = state)) ?_ rfl
  intro member _ between hbetween
  exact hbetween

/-- The state after a list of actions, each of which is run whether or not those before it failed. -/
def afterEach (step : α → Action σ β) (list : List α) (state : σ) : σ :=
  list.foldl (fun state member => (step member).after state) state

/-- What every action preserves, a list of actions preserves. -/
theorem afterEach_preserves {P : σ → Prop} {step : α → Action σ β}
    (h : ∀ member state, P state → P ((step member).after state)) (list : List α) :
    ∀ {state : σ}, P state → P (afterEach step list state) := by
  induction list with
  | nil =>
    intro state hstate
    exact hstate
  | cons first rest ih =>
    intro state hstate
    exact ih (h first state hstate)

/-- A list of actions runs to its end if each of them, in any state that the list before it may leave, does; what is known
of a state may speak of the actions that are still to come. -/
theorem forM_succeeds {P : List α → σ → Prop} (step : α → Action σ Unit)
    (h : ∀ member rest state, P (member :: rest) state →
      (step member).result state = .ok () ∧ P rest ((step member).after state)) (list : List α) :
    ∀ {state : σ}, P list state → (forM list step).result state = .ok () ∧ P [] ((forM list step).after state) := by
  induction list with
  | nil =>
    intro state hstate
    exact ⟨rfl, hstate⟩
  | cons first rest ih =>
    intro state hstate
    obtain ⟨hresult, hafter⟩ := h first rest state hstate
    rw [List.forM_cons, result_bind, hresult, ExceptAux.ok_bind, after_bind_of_ok hresult]
    exact ih hafter

end Action

end SqlEngine
