/-!
# Search trees

A binary tree of keys with payloads: the keys to the left of a node are smaller than its own and the keys to its right are
greater. Nothing balances the tree as it grows; `SearchTree.ofPairs` builds a balanced one at a stroke. A tree is viewed as the
list of its bindings in order (`toList`). The trees of `BinaryTree` are search trees whose nodes have positions; here they have none.
-/

namespace SqlEngine

/-- A binary tree of keys with payloads. -/
inductive SearchTree (κ ν : Type) where
  | leaf
  | node (left : SearchTree κ ν) (key : κ) (payload : ν) (right : SearchTree κ ν)
  deriving DecidableEq, Repr

namespace SearchTree

variable {κ ν : Type}

/-! ## Shape -/

/-- The number of bindings. -/
def size : SearchTree κ ν → Nat
  | leaf => 0
  | node left _ _ right => left.size + 1 + right.size

/-- The number of nodes on the longest path down. -/
def height : SearchTree κ ν → Nat
  | leaf => 0
  | node left _ _ right => max left.height right.height + 1

/-- The bindings from left to right. -/
def toList : SearchTree κ ν → List (κ × ν)
  | leaf => []
  | node left key payload right => left.toList ++ (key, payload) :: right.toList

/-- The payloads from left to right. -/
def payloads : SearchTree κ ν → List ν
  | leaf => []
  | node left _ payload right => left.payloads ++ payload :: right.payloads

/-! ## Parts, without regard to the order of keys -/

/-- The leftmost binding and the tree without it; the right side of its node takes the place of the node. -/
def popLeast? : SearchTree κ ν → Option ((κ × ν) × SearchTree κ ν)
  | leaf => none
  | node left own payload right =>
    match left.popLeast? with
    | none => some ((own, payload), right)
    | some (least, rest) => some (least, node rest own payload right)

/-- One tree out of the two sides of a node that is taken away: the only side that holds anything, or the left side under the
least binding of the right one. -/
def glue : SearchTree κ ν → SearchTree κ ν → SearchTree κ ν
  | leaf, right => right
  | left@(node _ _ _ _), right =>
    match right.popLeast? with
    | none => left
    | some ((key, payload), rest) => node left key payload rest

/-- The tree whose bindings from left to right are those of the list: the middle one at the root, the ones before it to the left
and the ones after it to the right. -/
def balanced (bindings : List (κ × ν)) : SearchTree κ ν :=
  match _hdrop : bindings.drop (bindings.length / 2) with
  | [] => leaf
  | (key, payload) :: after => node (balanced (bindings.take (bindings.length / 2))) key payload (balanced after)
termination_by bindings.length
decreasing_by
  all_goals
    have hlength := congrArg List.length _hdrop
    simp only [List.length_drop, List.length_cons, List.length_take] at hlength ⊢
    omega

/-! ## Search -/

variable [Ord κ]

/-- The payload of a key. -/
def find? (key : κ) : SearchTree κ ν → Option ν
  | leaf => none
  | node left own payload right =>
    match compare key own with
    | .lt => left.find? key
    | .eq => some payload
    | .gt => right.find? key

/-- The payloads of the keys below a bound, and of the bound itself if it is included; of the two sides of a node that lies
below the bound the left one is taken whole. -/
def payloadsBelow (bound : κ) (included : Bool) : SearchTree κ ν → List ν
  | leaf => []
  | node left own payload right =>
    match compare bound own with
    | .lt => left.payloadsBelow bound included
    | .eq => left.payloads ++ if included then [payload] else []
    | .gt => left.payloads ++ payload :: right.payloadsBelow bound included

/-- The payloads of the keys above a bound, and of the bound itself if it is included; of the two sides of a node that lies
above the bound the right one is taken whole. -/
def payloadsAbove (bound : κ) (included : Bool) : SearchTree κ ν → List ν
  | leaf => []
  | node left own payload right =>
    match compare bound own with
    | .lt => left.payloadsAbove bound included ++ payload :: right.payloads
    | .eq => (if included then [payload] else []) ++ right.payloads
    | .gt => right.payloadsAbove bound included

/-! ## Change -/

/-- The tree with a payload for a key: a key that is present gets the payload at its node, another one becomes a new node where
the search for it ended. -/
def insert (key : κ) (value : ν) : SearchTree κ ν → SearchTree κ ν
  | leaf => node leaf key value leaf
  | node left own payload right =>
    match compare key own with
    | .lt => node (left.insert key value) own payload right
    | .eq => node left own value right
    | .gt => node left own payload (right.insert key value)

/-- The tree with the payload of a key changed; a tree without the key as it is. -/
def modify (key : κ) (change : ν → ν) : SearchTree κ ν → SearchTree κ ν
  | leaf => leaf
  | node left own payload right =>
    match compare key own with
    | .lt => node (left.modify key change) own payload right
    | .eq => node left own (change payload) right
    | .gt => node left own payload (right.modify key change)

/-- The tree without a key. -/
def erase (key : κ) : SearchTree κ ν → SearchTree κ ν
  | leaf => leaf
  | node left own payload right =>
    match compare key own with
    | .lt => node (left.erase key) own payload right
    | .eq => glue left right
    | .gt => node left own payload (right.erase key)

/-- Of neighbours with one key the last. -/
def lastOfEach : List (κ × ν) → List (κ × ν)
  | [] => []
  | [binding] => [binding]
  | binding :: next :: rest =>
    if compare binding.1 next.1 = .eq then lastOfEach (next :: rest) else binding :: lastOfEach (next :: rest)

/-- The balanced tree of the pairs; of pairs with one key the last one counts. -/
def ofPairs (pairs : List (κ × ν)) : SearchTree κ ν :=
  balanced (lastOfEach (pairs.mergeSort fun a b => (compare a.1 b.1).isLE))

end SearchTree

end SqlEngine
