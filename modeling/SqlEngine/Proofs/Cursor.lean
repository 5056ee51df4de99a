import SqlEngine.Cursor

/-!
# What a cursor hands out

The offsets that a cursor has still to hand out are those of its range that its marks do not call deleted
(`Cursor.remaining`). Every step hands out the first of them and leaves the others, so that draining a new cursor gives the
offsets of its range that are not deleted, in ascending order (`rest_new`).
-/

namespace SqlEngine

namespace Cursor

/-- The offsets of the range that are not marked as deleted, in ascending order; offsets past the marks are not deleted. -/
def remaining (cursor : Cursor) : List Nat :=
  (List.range' cursor.position (cursor.stop - cursor.position)).filter fun offset =>
    !(cursor.deleted[offset - cursor.position]?.getD false)

/-- The cursor stands at the end or on an offset that is not deleted. -/
def Settled (cursor : Cursor) : Prop :=
  cursor.position < cursor.stop → cursor.deleted.headD false = false

/-- At the end nothing remains. -/
theorem remaining_eq_nil_of_le {cursor : Cursor} (h : cursor.stop ≤ cursor.position) : cursor.remaining = [] := by
  rw [remaining, Nat.sub_eq_zero_of_le h, List.range'_zero, List.filter_nil]

/-- Before the end the offset at the position remains unless it is deleted, and the rest is what remains from the next on. -/
theorem remaining_of_lt {position stop : Nat} (h : position < stop) (deleted : List Bool) :
    remaining ⟨position, stop, deleted⟩ =
      if deleted.headD false then remaining ⟨position + 1, stop, deleted.tail⟩
      else position :: remaining ⟨position + 1, stop, deleted.tail⟩ := by
  have hcount : stop - position = stop - (position + 1) + 1 := by omega
  have hlater : ∀ offset ∈ List.range' (position + 1) (stop - (position + 1)),
      deleted[offset - position]? = deleted.tail[offset - (position + 1)]? := by
    intro offset hoffset
    have hle : position + 1 ≤ offset := (List.mem_range'_1.mp hoffset).1
    rw [List.getElem?_tail, show offset - (position + 1) + 1 = offset - position by omega]
  have hfilter : (List.range' (position + 1) (stop - (position + 1))).filter
      (fun offset => !(deleted[offset - position]?.getD false)) = remaining ⟨position + 1, stop, deleted.tail⟩ := by
    refine List.filter_congr ?_
    intro offset hoffset
    rw [hlater offset hoffset]
  have hhead : deleted[0]?.getD false = deleted.headD false := by
    cases deleted <;> rfl
  rw [← hfilter, remaining]
  dsimp only
  rw [hcount, List.range'_succ, List.filter_cons, Nat.sub_self, hhead]
  cases deleted.headD false <;> rfl

/-- Settling passes over deleted offsets only. -/
theorem remaining_settle (position stop : Nat) (deleted : List Bool) :
    (settle position stop deleted).remaining = remaining ⟨position, stop, deleted⟩ := by
  induction deleted generalizing position with
  | nil => rfl
  | cons mark rest ih =>
    cases mark with
    | false => rfl
    | true =>
      rw [settle]
      split
      next hlt =>
        rw [ih, remaining_of_lt hlt]
        rfl
      next => rfl

/-- Settling ends at the end or on an offset that is not deleted. -/
theorem settled_settle (position stop : Nat) (deleted : List Bool) : (settle position stop deleted).Settled := by
  induction deleted generalizing position with
  | nil => exact fun _ => rfl
  | cons mark rest ih =>
    cases mark with
    | false => exact fun _ => rfl
    | true =>
      rw [settle]
      split
      next => exact ih (position + 1)
      next hge => exact fun hlt => absurd hlt hge

/-- A step of a settled cursor hands out the first offset that remains and leaves the others; there is none exactly when
nothing remains. -/
theorem next?_spec {cursor : Cursor} (h : cursor.Settled) :
    match cursor.next? with
    | none => cursor.remaining = []
    | some (offset, after) => cursor.remaining = offset :: after.remaining ∧ after.Settled := by
  obtain ⟨position, stop, deleted⟩ := cursor
  unfold next? atEnd
  by_cases hend : stop ≤ position
  · simp only [hend, decide_true, if_true]
    exact remaining_eq_nil_of_le hend
  · have hlt : position < stop := Nat.lt_of_not_le hend
    have hhead : deleted.headD false = false := h hlt
    simp only [hend, decide_false, Bool.false_eq_true, if_false]
    rw [remaining_of_lt hlt, remaining_settle, hhead]
    exact ⟨rfl, settled_settle _ _ _⟩

/-- Enough steps of a settled cursor hand out all that remains. -/
theorem take_of_length_le (steps : Nat) : ∀ {cursor : Cursor}, cursor.Settled → cursor.remaining.length ≤ steps →
    (cursor.take steps).1 = cursor.remaining := by
  induction steps with
  | zero =>
    intro cursor _ hlength
    exact (List.length_eq_zero_iff.mp (Nat.le_zero.mp hlength)).symm
  | succ steps ih =>
    intro cursor h hlength
    have hstep := next?_spec h
    unfold take
    cases hnext : cursor.next? with
    | none =>
      rw [hnext] at hstep
      exact hstep.symm
    | some found =>
      obtain ⟨offset, after⟩ := found
      rw [hnext] at hstep
      obtain ⟨hremaining, hsettled⟩ := hstep
      rw [hremaining, List.length_cons] at hlength
      rw [hremaining, ← ih hsettled (Nat.le_of_succ_le_succ hlength)]

/-- No more remains than the range is long. -/
theorem length_remaining_le (cursor : Cursor) : cursor.remaining.length ≤ cursor.stop - cursor.position := by
  have hlength := List.length_filter_le (fun offset => !(cursor.deleted[offset - cursor.position]?.getD false))
    (List.range' cursor.position (cursor.stop - cursor.position))
  rwa [List.length_range'] at hlength

/-- Draining a settled cursor hands out all that remains. -/
theorem rest_eq_remaining {cursor : Cursor} (h : cursor.Settled) : cursor.rest = cursor.remaining :=
  take_of_length_le _ h (length_remaining_le cursor)

/-- A new cursor hands out the offsets of its range that are not marked as deleted, in ascending order. -/
theorem rest_new (start stop : Nat) (deleted : List Bool) : (new start stop deleted).rest =
    (List.range' start (stop - start)).filter fun offset => !(deleted[offset]?.getD false) := by
  rw [new, rest_eq_remaining (settled_settle _ _ _), remaining_settle]
  refine List.filter_congr ?_
  intro offset hoffset
  have hle : start ≤ offset := (List.mem_range'_1.mp hoffset).1
  rw [List.getElem?_drop, Nat.add_sub_cancel' hle]

end Cursor

end SqlEngine
