import SqlEngine.Proofs.BinaryTree.Search

/-!
# Places in a search tree

A place in a search tree is given by what is around it (`SearchTree.Around`). Every key has a place that the nodes above send it to,
with nothing there or the key at its root (`exists_around`); a change that is made where the key lies is made there, and all around
it stays (`Around.Sends.fill`). A node that is taken away is replaced by its only side, or else keeps its place with the least binding
of its right side, in whose place its right side moves (`Closes`).
-/

namespace SqlEngine

namespace SearchTree

/-- A search tree with a place left out: the place is the whole of it, or lies in a side of the root. -/
inductive Around (κ ν : Type) where
  | here
  | inLeft (left : Around κ ν) (key : κ) (payload : ν) (right : SearchTree κ ν)
  | inRight (left : SearchTree κ ν) (key : κ) (payload : ν) (right : Around κ ν)
  deriving Repr

variable {κ ν : Type}

namespace Around

/-- The tree with the given one at the place. -/
def fill : Around κ ν → SearchTree κ ν → SearchTree κ ν
  | here, tree => tree
  | inLeft left key payload right, tree => .node (left.fill tree) key payload right
  | inRight left key payload right, tree => .node left key payload (right.fill tree)

/-- The place lies at the end of left sides. -/
def Leftmost : Around κ ν → Prop
  | here => True
  | inLeft left _ _ _ => left.Leftmost
  | inRight _ _ _ _ => False

/-- All nodes above the place send the key to it. -/
def Sends [Ord κ] (key : κ) : Around κ ν → Prop
  | here => True
  | inLeft left own _ _ => compare key own = .lt ∧ left.Sends key
  | inRight _ own _ right => compare key own = .gt ∧ right.Sends key

end Around

/-! ## Taking a node away -/

/-- What takes the place of a node with the given sides that is taken away: the only side that holds anything, or the left side under
the binding of the leftmost node of the right one, in whose place the right side of that node moves. -/
inductive Closes : (left right rest : SearchTree κ ν) → Prop
  | right (right : SearchTree κ ν) : Closes leaf right right
  | left (left : SearchTree κ ν) : Closes left leaf left
  | least {left : SearchTree κ ν} {around : Around κ ν} (hleft : left ≠ leaf) (hleftmost : around.Leftmost) (key : κ) (payload : ν)
      (after : SearchTree κ ν) :
      Closes left (around.fill (node leaf key payload after)) (node left key payload (around.fill after))

/-- The least binding is the one of the leftmost node, and without it the right side of that node takes its place. -/
theorem leftmost_of_popLeast? {tree rest : SearchTree κ ν} {key : κ} {payload : ν}
    (h : tree.popLeast? = some ((key, payload), rest)) : ∃ (around : Around κ ν) (after : SearchTree κ ν),
      around.Leftmost ∧ tree = around.fill (node leaf key payload after) ∧ rest = around.fill after := by
  induction tree generalizing rest with
  | leaf => exact nomatch h
  | node left own value right ihLeft _ =>
    cases hleft : left.popLeast? with
    | none =>
      simp only [popLeast?, hleft, Option.some.injEq, Prod.mk.injEq] at h
      obtain ⟨⟨rfl, rfl⟩, rfl⟩ := h
      rw [popLeast?_eq_none_iff.mp hleft]
      exact ⟨.here, right, trivial, rfl, rfl⟩
    | some found =>
      obtain ⟨least, others⟩ := found
      simp only [popLeast?, hleft, Option.some.injEq, Prod.mk.injEq] at h
      obtain ⟨rfl, rfl⟩ := h
      obtain ⟨around, after, hleftmost, rfl, rfl⟩ := ihLeft hleft
      exact ⟨.inLeft around own value right, after, hleftmost, rfl, rfl⟩

/-- The sides of a node that is taken away are glued to what takes its place. -/
theorem closes_glue (left right : SearchTree κ ν) : Closes left right (glue left right) := by
  cases left with
  | leaf => exact .right right
  | node inner key payload outer =>
    cases hright : right.popLeast? with
    | none =>
      obtain rfl := popLeast?_eq_none_iff.mp hright
      exact .left _
    | some found =>
      obtain ⟨⟨least, value⟩, rest⟩ := found
      obtain ⟨around, after, hleftmost, rfl, rfl⟩ := leftmost_of_popLeast? hright
      have hleft : node inner key payload outer ≠ leaf := nofun
      simp only [glue, hright]
      exact .least hleft hleftmost least value after

/-! ## The place of a key -/

section

variable [Ord κ] {key : κ}

/-- The tree is nothing, or has the key at its root. -/
def Meets (key : κ) : SearchTree κ ν → Prop
  | leaf => True
  | node _ own _ _ => compare key own = .eq

/-- Every key has a place that it is sent to, with nothing there or the key at its root. -/
theorem exists_around (key : κ) (tree : SearchTree κ ν) : ∃ (around : Around κ ν) (place : SearchTree κ ν),
    tree = around.fill place ∧ around.Sends key ∧ place.Meets key := by
  induction tree with
  | leaf => exact ⟨.here, leaf, rfl, trivial, trivial⟩
  | node left own payload right ihLeft ihRight =>
    cases hcompare : compare key own with
    | lt =>
      obtain ⟨around, place, rfl, hsends, hmeets⟩ := ihLeft
      exact ⟨.inLeft around own payload right, place, rfl, ⟨hcompare, hsends⟩, hmeets⟩
    | eq => exact ⟨.here, node left own payload right, rfl, trivial, hcompare⟩
    | gt =>
      obtain ⟨around, place, rfl, hsends, hmeets⟩ := ihRight
      exact ⟨.inRight left own payload around, place, rfl, ⟨hcompare, hsends⟩, hmeets⟩

namespace Around.Sends

variable {around : Around κ ν} (h : around.Sends key)

include h

/-- A key is found where it is sent to. -/
theorem find?_fill (place : SearchTree κ ν) : (around.fill place).find? key = place.find? key := by
  induction around with
  | here => rfl
  | inLeft left own payload right ih => simp only [Around.fill, SearchTree.find?, h.1, ih h.2]
  | inRight left own payload right ih => simp only [Around.fill, SearchTree.find?, h.1, ih h.2]

/-- A change that is made where a key lies is made at the place that the key is sent to. -/
theorem fill {change : SearchTree κ ν → SearchTree κ ν} (hchange : BinaryTree.GoesTo key change) (place : SearchTree κ ν) :
    change (around.fill place) = around.fill (change place) := by
  induction around with
  | here => rfl
  | inLeft left own payload right ih => rw [Around.fill, hchange.lt _ _ _ _ h.1, ih h.2, Around.fill]
  | inRight left own payload right ih => rw [Around.fill, hchange.gt _ _ _ _ h.1, ih h.2, Around.fill]

end Around.Sends

end

end SearchTree

end SqlEngine
