import Mathlib.Data.List.Basic
import SqlEngine.Proofs.Cursor

/-!
# Calls on a cursor

A cursor may be asked whether it stands at its end, told to advance, and asked for the next offset, in any order and as often as
one likes. Every answer is settled by the offsets that remain (`answer_spec`): a step hands out the first of them, and nothing else
moves the cursor. So whatever the calls are, the offsets that they have handed out and those that remain are the live ones of the
range, and once none remains, every later call says so (`calls_hand_out_live`).
-/

namespace SqlEngine

namespace Cursor

/-- What one may ask of a cursor. -/
inductive Call where
  | atEnd | advance | next
  deriving DecidableEq, Repr

/-- What a cursor answers to a call. -/
inductive Answer where
  | atEnd (reached : Bool)
  | advance (result : Except Error Nat)
  | next (offset : Option Nat)

/-- The call moves the cursor on, if there is anything left. -/
def Call.isStep : Call → Bool
  | .atEnd => false
  | .advance | .next => true

/-- The offset that an answer hands out. -/
def Answer.offset? : Answer → Option Nat
  | .advance (.ok offset) => some offset
  | .next (some offset) => some offset
  | _ => none

/-- The answer says that nothing is left; to advance is then an error of consistency. -/
inductive Answer.SaysEnd : Answer → Prop where
  | atEnd : SaysEnd (.atEnd true)
  | advance {cause : Error} (h : cause.kind = .consistency) : SaysEnd (.advance (.error cause))
  | next : SaysEnd (.next none)

/-- The answer to a call, and the cursor after it; a step that fails leaves the cursor where it is. -/
def answer (cursor : Cursor) : Call → Answer × Cursor
  | .atEnd => (.atEnd cursor.atEnd, cursor)
  | .advance =>
    match cursor.advance with
    | .ok (offset, after) => (.advance (.ok offset), after)
    | .error cause => (.advance (.error cause), cursor)
  | .next =>
    match cursor.next? with
    | some (offset, after) => (.next (some offset), after)
    | none => (.next none, cursor)

/-- The answers to calls made one after the other, and the cursor after them. -/
def answers (cursor : Cursor) : List Call → List Answer × Cursor
  | [] => ([], cursor)
  | call :: rest =>
    let (first, between) := cursor.answer call
    let (later, last) := between.answers rest
    (first :: later, last)

/-- The offsets that answers hand out, in order. -/
def handedOut (given : List Answer) : List Nat := given.filterMap Answer.offset?

/-! ## One call -/

/-- A settled cursor has nothing left and gives nothing, or it gives the first offset that remains. -/
theorem next?_cases {cursor : Cursor} (h : cursor.Settled) :
    (cursor.remaining = [] ∧ cursor.next? = none) ∨
      ∃ offset after, cursor.remaining = offset :: after.remaining ∧ after.Settled ∧ cursor.next? = some (offset, after) := by
  have hstep := next?_spec h
  cases hnext : cursor.next? with
  | none =>
    rw [hnext] at hstep
    exact Or.inl ⟨hstep, rfl⟩
  | some found =>
    rw [hnext] at hstep
    exact Or.inr ⟨found.1, found.2, hstep.1, hstep.2, rfl⟩

/-- A settled cursor stands at its end exactly when nothing remains. -/
theorem atEnd_iff {cursor : Cursor} (h : cursor.Settled) : cursor.atEnd = true ↔ cursor.remaining = [] := by
  have hend : cursor.atEnd = true ↔ cursor.next? = none := by
    unfold next?
    split
    next hend => exact iff_of_true hend rfl
    next hend => exact iff_of_false hend nofun
  rw [hend]
  rcases next?_cases h with ⟨hnil, hnext⟩ | ⟨offset, after, hcons, -, hnext⟩
  · exact iff_of_true hnext hnil
  · rw [hnext, hcons]
    exact iff_of_false nofun nofun

/-- What remains settles the answer to a call: a step hands out the first offset, if there is one, and leaves the others; to ask
for the end takes nothing away. Where nothing remains, the answer says so. -/
theorem answer_spec {cursor : Cursor} (h : cursor.Settled) (call : Call) :
    (cursor.answer call).2.Settled ∧
      (cursor.answer call).2.remaining = (if call.isStep then cursor.remaining.tail else cursor.remaining) ∧
      (cursor.answer call).1.offset? = (if call.isStep then cursor.remaining.head? else none) ∧
      (cursor.remaining = [] → (cursor.answer call).1.SaysEnd) := by
  have hend := atEnd_iff h
  rcases next?_cases h with ⟨hnil, hnext⟩ | ⟨offset, after, hcons, hsettled, hnext⟩
  · cases call with
    | atEnd =>
      rw [answer, hend.mpr hnil]
      exact ⟨h, rfl, rfl, fun _ => .atEnd⟩
    | advance =>
      simp only [answer, advance, hnext, hnil]
      exact ⟨h, rfl, rfl, fun _ => .advance rfl⟩
    | next =>
      simp only [answer, hnext, hnil]
      exact ⟨h, rfl, rfl, fun _ => .next⟩
  · have hleft : cursor.remaining ≠ [] := by
      rw [hcons]
      exact List.cons_ne_nil _ _
    cases call with
    | atEnd => exact ⟨h, rfl, rfl, fun hnil => absurd hnil hleft⟩
    | advance =>
      simp only [answer, advance, hnext, hcons]
      exact ⟨hsettled, rfl, rfl, nofun⟩
    | next =>
      simp only [answer, hnext, hcons]
      exact ⟨hsettled, rfl, rfl, nofun⟩

/-! ## Many calls -/

/-- Calls hand out as many of the offsets that remain as there are steps among them, from the front, and leave the others. -/
theorem answers_spec (calls : List Call) : ∀ {cursor : Cursor}, cursor.Settled →
    (cursor.answers calls).2.Settled ∧
      (cursor.answers calls).2.remaining = cursor.remaining.drop (calls.countP Call.isStep) ∧
      handedOut (cursor.answers calls).1 = cursor.remaining.take (calls.countP Call.isStep) := by
  induction calls with
  | nil => exact fun h => ⟨h, rfl, rfl⟩
  | cons call rest ih =>
    intro cursor h
    obtain ⟨hsettled, hremaining, hoffset, -⟩ := answer_spec h call
    obtain ⟨hlast, hleft, hlater⟩ := ih hsettled
    rw [hremaining] at hleft hlater
    refine ⟨hlast, ?_, ?_⟩
    · rw [answers, List.countP_cons, hleft]
      cases call.isStep <;> simp [List.drop_tail]
    · rw [answers, List.countP_cons, handedOut, List.filterMap_cons, hoffset, ← handedOut, hlater]
      cases call.isStep <;> cases cursor.remaining <;> simp

/-- Where nothing remains, every answer says so. -/
theorem saysEnd_of_mem_answers (calls : List Call) : ∀ {cursor : Cursor}, cursor.Settled → cursor.remaining = [] →
    ∀ given ∈ (cursor.answers calls).1, given.SaysEnd := by
  induction calls with
  | nil => exact fun _ _ _ hmem => absurd hmem List.not_mem_nil
  | cons call rest ih =>
    intro cursor h hnil
    obtain ⟨hsettled, hremaining, -, hend⟩ := answer_spec h call
    have hleft : (cursor.answer call).2.remaining = [] := by
      rw [hremaining, hnil, List.tail_nil, ite_self]
    exact List.forall_mem_cons.mpr ⟨hend hnil, ih hsettled hleft⟩

/-- The offsets of a range that are not marked as deleted are handed out in ascending order and each once, one by each step,
whatever is called in between. At every point the cursor stands at its end exactly when none is left, and from then on every answer
says so. -/
theorem calls_hand_out_live (start stop : Nat) (deleted : List Bool) :
    ∃ live : List Nat, live.Pairwise (· < ·) ∧
      (∀ offset, offset ∈ live ↔ start ≤ offset ∧ offset < stop ∧ deleted[offset]? ≠ some true) ∧
      ∀ calls : List Call,
        let given := (new start stop deleted).answers calls
        let left := live.drop (calls.countP Call.isStep)
        handedOut given.1 ++ left = live ∧
          (given.2.atEnd = true ↔ left = []) ∧
          (left = [] → ∀ later, ∀ answer ∈ (given.2.answers later).1, answer.SaysEnd) := by
  have hsettled : (new start stop deleted).Settled := settled_settle _ _ _
  refine ⟨(new start stop deleted).remaining, ?_, fun offset => ?_, fun calls => ?_⟩
  · rw [← rest_eq_remaining hsettled, rest_new]
    exact (List.pairwise_lt_range' 1).filter _
  · rw [← rest_eq_remaining hsettled, rest_new, List.mem_filter, List.mem_range'_1, and_assoc]
    refine and_congr_right fun hle => and_congr (by omega) ?_
    rcases deleted[offset]? with _ | _ | _ <;> simp
  · obtain ⟨hlast, hleft, hhanded⟩ := answers_spec calls hsettled
    dsimp only
    refine ⟨?_, ?_, fun hnil later => ?_⟩
    · rw [hhanded, List.take_append_drop]
    · rw [atEnd_iff hlast, hleft]
    · exact saysEnd_of_mem_answers later hlast (hleft.trans hnil)

end Cursor

end SqlEngine
