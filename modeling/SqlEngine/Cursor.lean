import SqlEngine.Error

/-!
# Cursors

A cursor walks once, forward, through a range of offsets and hands out those that are not marked as deleted. It stands on the
next offset to hand out, or at the end of the range. Offsets past the marks are not deleted.
-/

namespace SqlEngine

/-- A walk through the offsets below `stop`, from `position` on; `deleted` holds the marks from `position` on. -/
structure Cursor where
  position : Nat
  stop : Nat
  deleted : List Bool
  deriving DecidableEq, Repr

namespace Cursor

/-- The cursor on the first offset from a position on that is not deleted. -/
def settle (position stop : Nat) : List Bool → Cursor
  | true :: rest => if position < stop then settle (position + 1) stop rest else ⟨position, stop, true :: rest⟩
  | deleted => ⟨position, stop, deleted⟩

/-- The cursor at the front of a range; the marks begin with the one of offset zero. -/
def new (start stop : Nat) (deleted : List Bool) : Cursor :=
  settle start stop (deleted.drop start)

/-- Whether every offset has been handed out. -/
def atEnd (cursor : Cursor) : Bool := cursor.stop ≤ cursor.position

/-- The next offset and the cursor after it; none at the end. -/
def next? (cursor : Cursor) : Option (Nat × Cursor) :=
  if cursor.atEnd then none
  else some (cursor.position, settle (cursor.position + 1) cursor.stop cursor.deleted.tail)

/-- The next offset and the cursor after it; an error at the end. -/
def advance (cursor : Cursor) : Except Error (Nat × Cursor) :=
  match cursor.next? with
  | some step => .ok step
  | none => .error .cursorAtEnd

/-- The offsets that at most so many steps hand out, and the cursor after them. -/
def take : (steps : Nat) → Cursor → List Nat × Cursor
  | 0, cursor => ([], cursor)
  | steps + 1, cursor =>
    match cursor.next? with
    | none => ([], cursor)
    | some (offset, after) =>
      let (later, last) := after.take steps
      (offset :: later, last)

/-- All offsets that are still to be handed out, and the cursor at the end; every step moves on by one position or more. -/
def drain (cursor : Cursor) : List Nat × Cursor :=
  cursor.take (cursor.stop - cursor.position)

/-- All offsets that are still to be handed out. -/
def rest (cursor : Cursor) : List Nat := cursor.drain.1

end Cursor

end SqlEngine
