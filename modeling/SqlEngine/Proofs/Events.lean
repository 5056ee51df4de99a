import SqlEngine.Proofs.Outcome

/-!
# What a computation reports

The events that an action reports are, like what it ends in and what it leaves, a function of the state that it starts from
(`Action.events`). Actions in a row report what each of them reports, up to the first that fails. What the steps of a list of
actions keep true of all events so far and of the state, the list keeps true (`Action.forM_accumulates`).
-/

namespace SqlEngine

namespace Outcome

variable {α β : Type}

/-- What two computations in a row report; the second reports nothing after an error of the first. -/
theorem events_bind (first : Outcome α) (next : α → Outcome β) : (first >>= next).events = first.events ++
    match first.result with
    | .error _ => []
    | .ok value => (next value).events := by
  obtain ⟨events, result⟩ := first
  cases result with
  | error cause => exact (List.append_nil events).symm
  | ok value => rfl

/-- All events that the computation reports are of the kind. -/
def ReportsOnly (P : Event → Prop) (outcome : Outcome α) : Prop := ∀ event ∈ outcome.events, P event

/-- Computations in a row report events of a kind if both of them do. -/
theorem ReportsOnly.bind {P : Event → Prop} {first : Outcome α} {next : α → Outcome β} (h : first.ReportsOnly P)
    (hnext : ∀ value, (next value).ReportsOnly P) : (first >>= next).ReportsOnly P := by
  intro event hevent
  rw [events_bind] at hevent
  rcases List.mem_append.mp hevent with hfirst | hrest
  · exact h event hfirst
  · split at hrest
    next => exact nomatch hrest
    next value _ => exact hnext value event hrest

end Outcome

namespace Action

variable {σ α β : Type}

/-- The events that an action reports when it starts from a state. -/
def events (action : Action σ α) (state : σ) : List Event := (action.run state).1.events

@[simp] theorem events_pure (value : α) (state : σ) : (pure value : Action σ α).events state = [] := rfl

@[simp] theorem events_liftExcept (result : Except Error α) (state : σ) : (liftM result : Action σ α).events state = [] := rfl

/-- What two actions in a row report; the second reports nothing after an error of the first. -/
theorem events_bind (first : Action σ α) (next : α → Action σ β) (state : σ) : (first >>= next).events state =
    first.events state ++
      match first.result state with
      | .error _ => []
      | .ok value => (next value).events (first.after state) := by
  show (Action.bind first next state).1.events = _
  unfold Action.bind events result after run
  rcases first state with ⟨⟨events, result⟩, between⟩
  cases result with
  | error cause => exact (List.append_nil events).symm
  | ok value => rfl

/-- What an action that ended well and another one report. -/
theorem events_bind_of_ok {first : Action σ α} {next : α → Action σ β} {state : σ} {value : α}
    (h : first.result state = .ok value) :
    (first >>= next).events state = first.events state ++ (next value).events (first.after state) := by
  rw [events_bind, h]

/-- What an action that failed reports. -/
theorem events_bind_of_error {first : Action σ α} {next : α → Action σ β} {state : σ} {cause : Error}
    (h : first.result state = .error cause) : (first >>= next).events state = first.events state := by
  rw [events_bind, h, List.append_nil]

@[simp] theorem events_state_bind (next : σ → Action σ α) (state : σ) :
    (Action.state >>= next).events state = (next state).events state := by
  rw [events_bind_of_ok (result_state state), after_state]
  rfl

/-- To make something else of what an action ends in reports the same. -/
@[simp] theorem events_bind_pure (action : Action σ α) (f : α → β) (state : σ) :
    (action >>= fun value => pure (f value)).events state = action.events state := by
  rw [events_bind]
  split <;> exact List.append_nil _

/-- What every step of a list of actions keeps true of the events so far and the state, the list keeps true, whether or not it
runs to its end. -/
theorem forM_accumulates {P : List Event → σ → Prop} {list : List α} {step : α → Action σ Unit}
    (h : ∀ member ∈ list, ∀ events state, P events state → P (events ++ (step member).events state) ((step member).after state)) :
    ∀ {events : List Event} {state : σ}, P events state →
      P (events ++ (forM list step).events state) ((forM list step).after state) := by
  induction list with
  | nil =>
    intro events state hstate
    rw [List.forM_nil, events_pure, List.append_nil]
    exact hstate
  | cons first rest ih =>
    intro events state hstate
    have hfirst := h first List.mem_cons_self events state hstate
    rw [List.forM_cons]
    cases hresult : (step first).result state with
    | error cause =>
      rw [events_bind_of_error hresult, after_bind_of_error hresult]
      exact hfirst
    | ok _ =>
      rw [events_bind_of_ok hresult, after_bind_of_ok hresult, ← List.append_assoc]
      exact ih (fun member hmember => h member (List.mem_cons_of_mem _ hmember)) hfirst

/-- A list of actions that run to its end reports what they report in a row. -/
theorem forM_reports {P : List α → σ → Prop} {step : α → Action σ Unit} {reported : α → Event}
    (h : ∀ member rest state, P (member :: rest) state → (step member).result state = .ok () ∧
      (step member).events state = [reported member] ∧ P rest ((step member).after state)) (list : List α) :
    ∀ {state : σ}, P list state → (forM list step).events state = list.map reported := by
  induction list with
  | nil => exact fun _ => rfl
  | cons first rest ih =>
    intro state hstate
    obtain ⟨hresult, hevents, hafter⟩ := h first rest state hstate
    rw [List.forM_cons, events_bind_of_ok hresult, hevents, ih hafter, List.map_cons, List.singleton_append]

/-- A list of actions none of which reports anything reports nothing. -/
theorem events_forM_eq_nil {list : List α} {step : α → Action σ Unit}
    (h : ∀ member ∈ list, ∀ state, (step member).events state = []) (state : σ) : (forM list step).events state = [] := by
  refine forM_accumulates (P := fun events _ => events = []) ?_ (rfl : ([] : List Event) = [])
  intro member hmember events between hevents
  rw [hevents, h member hmember between, List.append_nil]

end Action

end SqlEngine
