import Abacus.Tree.Basic

/-!
# Walks

Every walk keeps its pending work in a list of its own, so that the height of a tree does not limit it.

* `postorder` visits the links of a node before the node, left before right. It gives each node with
  its place, since two nodes of a tree may be equal and still be different nodes.
* `depthFirst` visits a node before its links.
* `breadthFirst` visits the nodes level by level.
* `depth` is the number of levels.
-/

namespace Abacus

/-! ## Amounts of work -/

/-- The sum of a list of amounts. -/
def total : List Nat → Nat
  | [] => 0
  | n :: rest => n + total rest

@[simp] theorem total_nil : total [] = 0 := rfl

@[simp] theorem total_cons (n : Nat) (rest : List Nat) : total (n :: rest) = n + total rest := rfl

@[simp] theorem total_append (a b : List Nat) : total (a ++ b) = total a + total b := by
  induction a with
  | nil => simp
  | cons n a ih => simp [ih, Nat.add_assoc]

@[simp] theorem total_reverse (a : List Nat) : total a.reverse = total a := by
  induction a with
  | nil => rfl
  | cons n a ih => simp [ih, Nat.add_comm]

/-! ## Places -/

/-- One of the two links of a node. -/
inductive Side
  | left
  | right
  deriving DecidableEq, Hashable, Repr

/-- The links from a node up to the root, nearest first. -/
abbrev Path := List Side

/-- A subtree together with its path. -/
structure Place where
  path : Path
  tree : Tree
  deriving DecidableEq, Repr

namespace Place

/-- The whole tree, at its root. -/
def root (t : Tree) : Place :=
  ⟨[], t⟩

/-- The places of the links that are present, left before right (`Node.children`). -/
def children : Place → List Place
  | ⟨_, .empty⟩ => []
  | ⟨path, .node _ _ left right⟩ =>
    [⟨.left :: path, left⟩, ⟨.right :: path, right⟩].filter (!·.tree.isEmpty)

theorem total_count_children (p : Place) :
    total (p.children.map fun c => 4 * c.tree.count + 2) + 1 < 4 * p.tree.count + 2 := by
  rcases p with ⟨path, _ | ⟨k, s, l, r⟩⟩
  · simp [children, Tree.count]
  · rcases l with _ | _ <;> rcases r with _ | _ <;>
      simp [children, Tree.isEmpty, Tree.count] <;> omega

end Place

/-! ## Post-order -/

/-- A place on the stack of a post-order walk; it is expanded once its links are on the stack too. -/
structure Pending where
  place : Place
  expanded : Bool

/-- The work that a stack of a post-order walk stands for. -/
def Pending.work (stack : List Pending) : Nat :=
  total (stack.map fun p => if p.expanded then 1 else 4 * p.place.tree.count + 2)

/-- The stack that a walk of a place and the places below it starts with. -/
def Place.start (p : Place) : List Pending :=
  if p.tree.isEmpty then [] else [⟨p, false⟩]

/-- The stack after a place has been expanded: its links, then the place itself. -/
def Pending.expand (p : Place) (rest : List Pending) : List Pending :=
  p.children.map (⟨·, false⟩) ++ ⟨p, true⟩ :: rest

theorem Pending.work_cons (p : Place) (b : Bool) (rest : List Pending) :
    Pending.work (⟨p, b⟩ :: rest) = (if b then 1 else 4 * p.tree.count + 2) + Pending.work rest := by
  simp [Pending.work]

theorem Pending.work_expand (p : Place) (rest : List Pending) :
    Pending.work (Pending.expand p rest) < Pending.work (⟨p, false⟩ :: rest) := by
  have h := p.total_count_children
  simp [Pending.work, Pending.expand, Function.comp_def] at *
  omega

namespace Tree

/-- Post-order from a stack, the places visited so far in `done`, last one first (the loop of `iter_postorder`). -/
def postorderFrom (done : List Place) (stack : List Pending) : List Place :=
  match stack with
  | [] => done.reverse
  | ⟨p, true⟩ :: rest => postorderFrom (p :: done) rest
  | ⟨p, false⟩ :: rest => postorderFrom done (Pending.expand p rest)
termination_by Pending.work stack
decreasing_by
  · simp [Pending.work_cons]
  · exact Pending.work_expand p rest

end Tree

/-- A place and all places below it, each after those below it (`iter_postorder`). -/
def Place.postorder (p : Place) : List Place :=
  Tree.postorderFrom [] p.start

namespace Tree

/-- All nodes, each after the nodes below it. -/
def postorder (t : Tree) : List Place :=
  (Place.root t).postorder

/-! ## Depth first and breadth first -/

/-- The work that a list of trees still to be visited stands for. -/
def forestWork (trees : List Tree) : Nat :=
  total (trees.map fun t => 2 * t.count + 1)

theorem forestWork_cons (t : Tree) (rest : List Tree) :
    forestWork (t :: rest) = 2 * t.count + 1 + forestWork rest := by
  simp [forestWork]

theorem forestWork_append (a b : List Tree) : forestWork (a ++ b) = forestWork a + forestWork b := by
  simp [forestWork]

theorem forestWork_children (t : Tree) : forestWork t.children < 2 * t.count + 1 := by
  rcases t with _ | ⟨k, s, l, r⟩
  · simp [children, forestWork]
  · rcases l with _ | _ <;> rcases r with _ | _
    all_goals simp [children, isEmpty, forestWork, count]
    all_goals omega

/-- Depth first from a stack, the nodes visited so far in `done`, last one first (the loop of
`_depth_first_traversal`). -/
def depthFirstFrom (done stack : List Tree) : List Tree :=
  match stack with
  | [] => done.reverse
  | t :: rest => depthFirstFrom (t :: done) (t.children ++ rest)
termination_by forestWork stack
decreasing_by
  have := forestWork_children t
  simp [forestWork_cons, forestWork_append]
  omega

/-- Breadth first from a queue, the nodes visited so far in `done`, last one first (the loop of
`_breadth_first_traversal`). -/
def breadthFirstFrom (done queue : List Tree) : List Tree :=
  match queue with
  | [] => done.reverse
  | t :: rest => breadthFirstFrom (t :: done) (rest ++ t.children)
termination_by forestWork queue
decreasing_by
  have := forestWork_children t
  simp [forestWork_cons, forestWork_append]
  omega

/-- The tree as a list of one node, or of none if it is empty. -/
def present (t : Tree) : List Tree :=
  if t.isEmpty then [] else [t]

/-- All nodes, each before the nodes below it (`_depth_first_traversal`). -/
def depthFirst (t : Tree) : List Tree :=
  depthFirstFrom [] t.present

/-- All nodes, level by level from the root, each level from left to right (`_breadth_first_traversal`). -/
def breadthFirst (t : Tree) : List Tree :=
  breadthFirstFrom [] t.present

/-! ## Depth -/

/-- The largest level from a stack of nodes with their levels, and of the levels seen so far (the loop of
`calculate_tree_depth`). -/
def depthFrom (deepest : Nat) (stack : List (Tree × Nat)) : Nat :=
  match stack with
  | [] => deepest
  | (t, level) :: rest =>
    depthFrom (max deepest level) ((t.children.map (·, level + 1)).reverse ++ rest)
termination_by forestWork (stack.map (·.1))
decreasing_by
  have := forestWork_children t
  simp [forestWork, Function.comp_def] at *
  omega

/-- The number of levels: 0 for an empty tree, 1 for a leaf (`calculate_tree_depth`). -/
def depth (t : Tree) : Nat :=
  depthFrom 0 (t.present.map (·, 1))

/-! ## Orders by name -/

/-- The two orders that a list of all nodes may have. -/
inductive Order
  | breadthFirst
  | depthFirst
  deriving DecidableEq, Repr

/-- The order with a given name. -/
def Order.ofName? : String → Option Order
  | "breadth_first" => some .breadthFirst
  | "depth_first" => some .depthFirst
  | _ => none

/-- All nodes in a given order (`get_all_nodes`). -/
def nodes (t : Tree) : Order → List Tree
  | .breadthFirst => t.breadthFirst
  | .depthFirst => t.depthFirst

end Tree

end Abacus
