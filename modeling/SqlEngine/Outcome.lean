import SqlEngine.Event

/-!
# Outcomes and actions

A computation of the engine reports events and ends in a result or an error: that is its `Outcome`. An `Action` also changes a
state. Events that were reported and changes that were made before an error stay; nothing is taken back, so that an action which
is to change all or nothing has to check everything first.
-/

namespace SqlEngine

/-- The events that a computation reported, in order, and what it ended in. -/
structure Outcome (α : Type) where
  events : List Event
  result : Except Error α

namespace Outcome

/-- Goes on with the result of the first computation; an error ends both. -/
protected def bind {α β : Type} (first : Outcome α) (next : α → Outcome β) : Outcome β :=
  match first.result with
  | .error cause => ⟨first.events, .error cause⟩
  | .ok value => ⟨first.events ++ (next value).events, (next value).result⟩

instance : Monad Outcome where
  pure value := ⟨[], .ok value⟩
  bind := Outcome.bind

/-- Reports one event. -/
def report (event : Event) : Outcome Unit := ⟨[event], .ok ()⟩

/-- The outcome of a computation that reports nothing. -/
def ofExcept {α : Type} (result : Except Error α) : Outcome α := ⟨[], result⟩

instance : MonadLift (Except Error) Outcome := ⟨ofExcept⟩

instance : LawfulMonad Outcome :=
  LawfulMonad.mk' Outcome
    (fun outcome => by
      obtain ⟨events, result⟩ := outcome
      cases result <;> simp [Functor.map, Outcome.bind])
    (fun value next => by simp [bind, pure, Outcome.bind])
    (fun outcome next last => by
      obtain ⟨events, result⟩ := outcome
      cases result with
      | error cause => simp [bind, Outcome.bind]
      | ok value => cases h : (next value).result <;> simp [bind, Outcome.bind, h])

end Outcome

/-- A computation that changes a state of type `σ` and has an outcome. -/
def Action (σ α : Type) : Type := σ → Outcome α × σ

namespace Action

variable {σ τ α β : Type}

/-- The outcome on a state, and the state after it. -/
def run (action : Action σ α) (state : σ) : Outcome α × σ := action state

/-- Goes on with the result of the first action in the state after it; an error ends both. -/
protected def bind (first : Action σ α) (next : α → Action σ β) : Action σ β := fun state =>
  let (outcome, after) := first state
  match outcome.result with
  | .error cause => (⟨outcome.events, .error cause⟩, after)
  | .ok value =>
    let (following, last) := next value after
    (⟨outcome.events ++ following.events, following.result⟩, last)

instance : Monad (Action σ) where
  pure value := fun state => (pure value, state)
  bind := Action.bind

instance : LawfulMonad (Action σ) :=
  LawfulMonad.mk' (Action σ)
    (fun action => by
      funext state
      rcases h : action state with ⟨⟨events, result⟩, after⟩
      cases result <;> simp [Functor.map, Action.bind, pure, Function.comp, h])
    (fun value next => by
      funext state
      simp [bind, pure, Action.bind])
    (fun action next last => by
      funext state
      rcases h : action state with ⟨⟨events, result⟩, after⟩
      cases result with
      | error cause => simp [bind, Action.bind, h]
      | ok value =>
        rcases h' : next value after with ⟨⟨events', result'⟩, after'⟩
        cases result' <;> simp [bind, Action.bind, h, h'])

/-- The outcome of a computation that leaves the state alone. -/
def ofOutcome (outcome : Outcome α) : Action σ α := fun state => (outcome, state)

instance : MonadLift Outcome (Action σ) := ⟨ofOutcome⟩

/-- The state. -/
def state : Action σ σ := fun state => (pure state, state)

/-- Puts another state in place. -/
def put (state : σ) : Action σ Unit := fun _ => (pure (), state)

/-- Ends with an error. -/
def fail (cause : Error) : Action σ α := ofOutcome (.ofExcept (.error cause))

end Action

end SqlEngine
