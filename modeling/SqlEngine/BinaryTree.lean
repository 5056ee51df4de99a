import SqlEngine.SearchTree

/-!
# Binary trees in an array

A search tree whose nodes lie in one array, without gaps, and refer to their sides by position. A node that is taken away leaves
no gap: the last node moves to its position, and what referred to it there is made to refer to it here.

A path down a tree is no longer than there are nodes, so their number is fuel enough for every descent and for every walk. The
search tree that the nodes form is the shape of the tree (`BinaryTree.shape`).
-/

namespace SqlEngine

/-- A node: a binding, and the positions of the nodes at its sides. -/
structure BinaryTree.Node (κ ν : Type) where
  key : κ
  payload : ν
  left : Option Nat
  right : Option Nat
  deriving DecidableEq, Repr

/-- A side of a node. -/
inductive BinaryTree.Side where
  | left | right
  deriving DecidableEq, Repr

/-- What refers to a node: a side of the node at a position or, where there is none, the tree itself. -/
abbrev BinaryTree.Link : Type := Option (Nat × BinaryTree.Side)

/-- A tree: its nodes, and the position of the one at its root. -/
structure BinaryTree (κ ν : Type) where
  nodes : Array (BinaryTree.Node κ ν)
  root : Option Nat
  deriving DecidableEq, Repr

namespace BinaryTree

variable {κ ν : Type}

/-- The tree without nodes. -/
def empty : BinaryTree κ ν := { nodes := #[], root := none }

/-- The number of nodes. -/
def size (tree : BinaryTree κ ν) : Nat := tree.nodes.size

/-- Whether there are no nodes. -/
def isEmpty (tree : BinaryTree κ ν) : Bool := tree.nodes.isEmpty

/-! ## Shape -/

/-- The search tree under a position. -/
def shapeUnder (tree : BinaryTree κ ν) : (fuel : Nat) → Option Nat → SearchTree κ ν
  | _, none => .leaf
  | 0, some _ => .leaf
  | fuel + 1, some position =>
    match tree.nodes[position]? with
    | none => .leaf
    | some node => .node (tree.shapeUnder fuel node.left) node.key node.payload (tree.shapeUnder fuel node.right)

/-- The search tree that the nodes form from the root down. -/
def shape (tree : BinaryTree κ ν) : SearchTree κ ν := tree.shapeUnder tree.size tree.root

/-- The bindings from left to right. -/
def toList (tree : BinaryTree κ ν) : List (κ × ν) := tree.shape.toList

/-! ## Walks -/

/-- The positions of the nodes under the pending ones, one after the other; a node puts its two sides in front of what is pending.
Each node uses one unit of fuel. -/
def visit (tree : BinaryTree κ ν) : (fuel : Nat) → (pending : List Nat) → List Nat
  | 0, _ => []
  | _ + 1, [] => []
  | fuel + 1, position :: rest =>
    match tree.nodes[position]? with
    | none => tree.visit fuel rest
    | some node => position :: tree.visit fuel (node.left.toList ++ node.right.toList ++ rest)

/-- The positions of the nodes under a position: the node there, then those under its left side, then those under its right
side. -/
def walk (tree : BinaryTree κ ν) (position : Option Nat) : List Nat :=
  tree.visit tree.size position.toList

/-- The payloads under a position. -/
def payloadsUnder (tree : BinaryTree κ ν) (position : Option Nat) : List ν :=
  (tree.walk position).filterMap fun position => (tree.nodes[position]?).map Node.payload

/-- The greatest depth of a node under the pending ones, which come with their depths, or the given one if that is greater. Each
node uses one unit of fuel. -/
def deepest (tree : BinaryTree κ ν) : (fuel : Nat) → (pending : List (Nat × Nat)) → (depth : Nat) → Nat
  | 0, _, depth => depth
  | _ + 1, [], depth => depth
  | fuel + 1, (position, own) :: rest, depth =>
    match tree.nodes[position]? with
    | none => tree.deepest fuel rest depth
    | some node =>
      let below (side : Option Nat) : List (Nat × Nat) := side.toList.map (·, own + 1)
      tree.deepest fuel (below node.right ++ below node.left ++ rest) (max depth own)

/-- The number of nodes on the longest path down. -/
def height (tree : BinaryTree κ ν) : Nat :=
  tree.deepest tree.size (tree.root.toList.map (·, 1)) 0

/-! ## Links and positions -/

/-- The tree with a link that refers to another position. -/
def setLink (tree : BinaryTree κ ν) (link : Link) (target : Option Nat) : BinaryTree κ ν :=
  match link with
  | none => { tree with root := target }
  | some (parent, .left) => { tree with nodes := tree.nodes.modify parent fun node => { node with left := target } }
  | some (parent, .right) => { tree with nodes := tree.nodes.modify parent fun node => { node with right := target } }

/-- The tree with one node more, which has no sides and nothing refers to. -/
def alloc (tree : BinaryTree κ ν) (key : κ) (payload : ν) : BinaryTree κ ν :=
  { tree with nodes := tree.nodes.push { key, payload, left := none, right := none } }

/-- The tree with another binding at the node of a position. -/
def setBinding (tree : BinaryTree κ ν) (position : Nat) (key : κ) (payload : ν) : BinaryTree κ ν :=
  { tree with nodes := tree.nodes.modify position fun node => { node with key, payload } }

/-- The tree with the bindings at two nodes exchanged. -/
def exchange (tree : BinaryTree κ ν) (first second : Nat) : BinaryTree κ ν :=
  match tree.nodes[first]?, tree.nodes[second]? with
  | some one, some other =>
    (tree.setBinding first other.key other.payload).setBinding second one.key one.payload
  | _, _ => tree

/-- From a node and what refers to it, the node at the end of all left sides and what refers to that. -/
def leftmost (tree : BinaryTree κ ν) : (fuel : Nat) → (link : Nat × Side) → (position : Nat) → (Nat × Side) × Nat
  | 0, link, position => (link, position)
  | fuel + 1, link, position =>
    match (tree.nodes[position]?).bind Node.left with
    | some left => tree.leftmost fuel (position, .left) left
    | none => (link, position)

/-! ## Search -/

variable [Ord κ]

/-- The descent to a key from a link and what it refers to: the link at which it ends, and the position of the node of the key,
unless it ends where there is none. -/
def descend (tree : BinaryTree κ ν) (key : κ) : (fuel : Nat) → Link → Option Nat → Link × Option Nat
  | _, link, none => (link, none)
  | 0, link, some _ => (link, none)
  | fuel + 1, link, some position =>
    match tree.nodes[position]? with
    | none => (link, none)
    | some node =>
      match compare key node.key with
      | .lt => tree.descend key fuel (some (position, .left)) node.left
      | .eq => (link, some position)
      | .gt => tree.descend key fuel (some (position, .right)) node.right

/-- The descent to a key from the root. -/
def search (tree : BinaryTree κ ν) (key : κ) : Link × Option Nat :=
  tree.descend key tree.size none tree.root

/-- The position of the node of a key. -/
def position? (tree : BinaryTree κ ν) (key : κ) : Option Nat :=
  (tree.search key).2

/-- The node of a key. -/
def node? (tree : BinaryTree κ ν) (key : κ) : Option (Node κ ν) :=
  (tree.position? key).bind (tree.nodes[·]?)

/-- The payload of a key. -/
def find? (tree : BinaryTree κ ν) (key : κ) : Option ν :=
  (tree.node? key).map Node.payload

/-- The payloads of the keys below a bound, and of the bound itself if it is included, from a position down; of the two sides of a
node that lies below the bound the left one is taken whole. -/
def payloadsBelowFrom (tree : BinaryTree κ ν) (bound : κ) (included : Bool) : (fuel : Nat) → Option Nat → List ν
  | _, none => []
  | 0, some _ => []
  | fuel + 1, some position =>
    match tree.nodes[position]? with
    | none => []
    | some node =>
      match compare bound node.key with
      | .lt => tree.payloadsBelowFrom bound included fuel node.left
      | .eq => tree.payloadsUnder node.left ++ if included then [node.payload] else []
      | .gt => tree.payloadsUnder node.left ++ node.payload :: tree.payloadsBelowFrom bound included fuel node.right

/-- The payloads of the keys below a bound, and of the bound itself if it is included. -/
def payloadsBelow (tree : BinaryTree κ ν) (bound : κ) (included : Bool) : List ν :=
  tree.payloadsBelowFrom bound included tree.size tree.root

/-- The payloads of the keys above a bound, and of the bound itself if it is included, from a position down; of the two sides of a
node that lies above the bound the right one is taken whole. -/
def payloadsAboveFrom (tree : BinaryTree κ ν) (bound : κ) (included : Bool) : (fuel : Nat) → Option Nat → List ν
  | _, none => []
  | 0, some _ => []
  | fuel + 1, some position =>
    match tree.nodes[position]? with
    | none => []
    | some node =>
      match compare bound node.key with
      | .lt => tree.payloadsAboveFrom bound included fuel node.left ++ node.payload :: tree.payloadsUnder node.right
      | .eq => (if included then [node.payload] else []) ++ tree.payloadsUnder node.right
      | .gt => tree.payloadsAboveFrom bound included fuel node.right

/-- The payloads of the keys above a bound, and of the bound itself if it is included. -/
def payloadsAbove (tree : BinaryTree κ ν) (bound : κ) (included : Bool) : List ν :=
  tree.payloadsAboveFrom bound included tree.size tree.root

/-- What refers to a target that lies on the way to a key, on the descent to the key from a link and what it refers to. -/
def linkToFrom (tree : BinaryTree κ ν) (key : κ) (target : Nat) : (fuel : Nat) → Link → Option Nat → Link
  | _, link, none => link
  | 0, link, some _ => link
  | fuel + 1, link, some position =>
    if position = target then link
    else
      match tree.nodes[position]? with
      | none => link
      | some node =>
        if compare key node.key = .lt then tree.linkToFrom key target fuel (some (position, .left)) node.left
        else tree.linkToFrom key target fuel (some (position, .right)) node.right

/-- What refers to the node at a position; it is searched for by its key. -/
def linkTo (tree : BinaryTree κ ν) (target : Nat) : Link :=
  match tree.nodes[target]? with
  | none => none
  | some node => tree.linkToFrom node.key target tree.size none tree.root

/-! ## Change -/

/-- The tree with a payload for a key: a key that is present gets the payload at its node, another one gets a new node at the link
where the search for it ended. -/
def insert (tree : BinaryTree κ ν) (key : κ) (payload : ν) : BinaryTree κ ν :=
  match tree.search key with
  | (_, some position) =>
    { tree with nodes := tree.nodes.modify position fun node => { node with payload } }
  | (link, none) => (tree.alloc key payload).setLink link (some tree.size)

/-- The tree with the payload of a key changed; a tree without the key as it is. -/
def modify (tree : BinaryTree κ ν) (key : κ) (change : ν → ν) : BinaryTree κ ν :=
  match tree.position? key with
  | some position =>
    { tree with nodes := tree.nodes.modify position fun node => { node with payload := change node.payload } }
  | none => tree

/-- The node at a position to which nothing refers, and the tree without it. -/
def release (tree : BinaryTree κ ν) (position : Nat) : Option (Node κ ν) × BinaryTree κ ν :=
  let last := tree.size - 1
  let relinked := if position = last then tree else tree.setLink (tree.linkTo last) (some position)
  (relinked.nodes[position]?, { relinked with nodes := (relinked.nodes.swapIfInBounds position last).pop })

/-- Takes out the node at a position, to which a link refers: a side of it takes its place, if it has only one. A node with two
sides takes over the binding of the leftmost node of its right side, which goes instead. -/
def takeOut (tree : BinaryTree κ ν) (link : Link) (position : Nat) (node : Node κ ν) : Option (Node κ ν) × BinaryTree κ ν :=
  match node.left, node.right with
  | some _, some right =>
    let (successorLink, successor) := tree.leftmost tree.size (position, .right) right
    let exchanged := tree.exchange position successor
    let orphan := (exchanged.nodes[successor]?).bind Node.right
    (exchanged.setLink (some successorLink) orphan).release successor
  | child, none => (tree.setLink link child).release position
  | none, child => (tree.setLink link child).release position

/-- Takes a key away: its payload, if the key is present, and the tree without it. -/
def remove (tree : BinaryTree κ ν) (key : κ) : Option ν × BinaryTree κ ν :=
  match tree.search key with
  | (_, none) => (none, tree)
  | (link, some position) =>
    match tree.nodes[position]? with
    | none => (none, tree)
    | some node =>
      let (taken, rest) := tree.takeOut link position node
      (taken.map Node.payload, rest)

/-- The tree without a key. -/
def erase (tree : BinaryTree κ ν) (key : κ) : BinaryTree κ ν :=
  (tree.remove key).2

/-- Puts the bindings of a list behind the nodes: the middle one first, which becomes the root, then those before it at its left
side, then those after it at its right side. The result is the position of the root and the nodes. -/
def build (bindings : List (κ × ν)) (nodes : Array (Node κ ν)) : Option Nat × Array (Node κ ν) :=
  match _hdrop : bindings.drop (bindings.length / 2) with
  | [] => (none, nodes)
  | (key, payload) :: after =>
    let own := nodes.push { key, payload, left := none, right := none }
    let (left, withLeft) := build (bindings.take (bindings.length / 2)) own
    let (right, withRight) := build after withLeft
    (some nodes.size, withRight.modify nodes.size fun node => { node with left, right })
termination_by bindings.length
decreasing_by
  all_goals
    have hlength := congrArg List.length _hdrop
    simp only [List.length_drop, List.length_cons, List.length_take] at hlength ⊢
    omega

/-- The balanced tree of the pairs; of pairs with one key the last one counts. -/
def ofPairs (pairs : List (κ × ν)) : BinaryTree κ ν :=
  let (root, nodes) := build (SearchTree.lastOfEach (pairs.mergeSort fun a b => (compare a.1 b.1).isLE)) #[]
  { nodes, root }

end BinaryTree

end SqlEngine
