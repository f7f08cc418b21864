import Abacus.Proofs.Tree.Survey
import Mathlib.Data.List.Basic
import Mathlib.Order.MinMax

/-!
# The levels of a tree

The queue of the breadth-first walk holds what is left of one level and, behind it, the links of the nodes of that level
that have been visited. When the level has been visited, the queue is the next level. So a walk of one level is one step
from a level to the next, and the walk of the tree visits all levels, one after the other.

The number of levels is found by a walk in another order, which keeps the level of each pending node. The upper bounds of
its result are those of the height of every pending tree, put on top of the levels above it.

Results:
* `Tree.breadthFirstFrom_level`: a queue becomes the queue of the next level.
* `Tree.breadthFirst_eq_flatMap_level`: the breadth-first walk visits level after level.
* `Tree.depth_eq_height`: the number of levels is the recursive height.
* `Tree.breadthFirst_levels`: both for all trees, with the levels that have a node.
-/

namespace Abacus.Tree

/-- The nodes that are a given number of links below the root, from left to right. -/
def level : Tree → Nat → List Tree
  | empty, _ => []
  | node kind token left right, 0 => [node kind token left right]
  | node _ _ left right, k + 1 => left.level k ++ right.level k

/-- The height of a tree by recursion; a link that is missing adds nothing. -/
def height : Tree → Nat
  | empty => 0
  | node _ _ left right => max left.height right.height + 1

/-! ## Levels and heights -/

theorem level_zero {t : Tree} (ht : t ≠ empty) : t.level 0 = [t] := by
  cases t with
  | empty => exact absurd rfl ht
  | node kind token left right => rfl

/-- The links of a tree have its levels but the first. -/
theorem flatMap_level_children (t : Tree) (k : Nat) : t.children.flatMap (level · k) = t.level (k + 1) := by
  cases t with
  | empty => rfl
  | node kind token left right => cases left <;> cases right <;> simp [children, isEmpty, level]

theorem level_ne_nil_iff {t : Tree} {k : Nat} : t.level k ≠ [] ↔ k < t.height := by
  induction t generalizing k with
  | empty => simp [level, height]
  | node kind token left right ihl ihr =>
    cases k with
    | zero => simp [level, height]
    | succ k =>
      rw [level, height, Nat.add_lt_add_iff_right, lt_max_iff, ← ihl, ← ihr, ne_eq, List.append_eq_nil_iff,
        not_and_or]

theorem height_pos {t : Tree} (ht : t ≠ empty) : 0 < t.height := by
  cases t with
  | empty => exact absurd rfl ht
  | node kind token left right => exact Nat.succ_pos _

/-- The nodes of a tree fit below some levels if the root does, and if the links do below one level more. -/
theorem add_height_le_iff {t : Tree} (ht : t ≠ empty) (above n : Nat) :
    above + t.height ≤ n + 1 ↔ above ≤ n ∧ ∀ c ∈ t.children, above + 1 + c.height ≤ n + 1 := by
  cases t with
  | empty => exact absurd rfl ht
  | node kind token left right =>
    cases left <;> cases right <;> simp [children, isEmpty, height] <;> omega

/-! ## The breadth-first walk -/

/-- **A walk of one level.** Visiting the first trees of a queue puts their links behind the other trees. -/
theorem breadthFirstFrom_level (done trees others : List Tree) :
    breadthFirstFrom done (trees ++ others) =
      breadthFirstFrom (trees.reverse ++ done) (others ++ trees.flatMap children) := by
  induction trees generalizing done others with
  | nil => simp
  | cons t trees ih =>
    rw [List.cons_append, breadthFirstFrom, List.append_assoc, ih]
    simp

/-- Visiting a queue visits the first levels of all its trees, then the second ones, and so on. -/
theorem breadthFirstFrom_eq {n : Nat} {queue : List Tree} (hqueue : ∀ t ∈ queue, t ≠ empty)
    (hn : ∀ t ∈ queue, t.height ≤ n) (done : List Tree) :
    breadthFirstFrom done queue = done.reverse ++ (List.range n).flatMap fun k => queue.flatMap (level · k) := by
  induction n generalizing done queue with
  | zero =>
    obtain rfl : queue = [] := by
      refine List.eq_nil_iff_forall_not_mem.mpr fun t ht => ?_
      exact absurd (hn t ht) (Nat.not_le_of_gt (height_pos (hqueue t ht)))
    simp [breadthFirstFrom]
  | succ n ih =>
    have hlinks : ∀ c ∈ queue.flatMap children, c ≠ empty ∧ c.height ≤ n := by
      intro c hc
      obtain ⟨t, ht, hchild⟩ := List.mem_flatMap.mp hc
      have hfits := ((add_height_le_iff (hqueue t ht) 0 n).mp (by simpa using hn t ht)).2 c hchild
      exact ⟨ne_empty_of_mem_children hchild, by omega⟩
    have hfirst : queue.flatMap (level · 0) = queue := by
      rw [List.flatMap_congr fun t ht => level_zero (hqueue t ht), List.flatMap_singleton']
    have hnext : ∀ k, (queue.flatMap children).flatMap (level · k) = queue.flatMap (level · (k + 1)) := by
      intro k
      rw [List.flatMap_assoc]
      simp only [flatMap_level_children]
    calc breadthFirstFrom done queue
        = breadthFirstFrom (queue.reverse ++ done) (queue.flatMap children) := by
          simpa using breadthFirstFrom_level done queue []
      _ = done.reverse ++ queue ++ (List.range n).flatMap fun k => queue.flatMap (level · (k + 1)) := by
          rw [ih (fun c hc => (hlinks c hc).1) (fun c hc => (hlinks c hc).2)]
          simp [hnext]
      _ = done.reverse ++ (List.range (n + 1)).flatMap fun k => queue.flatMap (level · k) := by
          rw [List.range_succ_eq_map, List.flatMap_cons, List.flatMap_map, hfirst, List.append_assoc]

theorem breadthFirst_eq_flatMap_level (t : Tree) : t.breadthFirst = (List.range t.height).flatMap t.level := by
  cases t with
  | empty => simp [breadthFirst, present, isEmpty, breadthFirstFrom, height]
  | node kind token left right =>
    rw [breadthFirst, present, isEmpty, if_neg Bool.false_ne_true,
      breadthFirstFrom_eq (n := (node kind token left right).height) (by simp) (by simp)]
    simp

/-! ## The number of levels -/

/-- **The invariant of the walk for the depth**, by upper bounds: each pending tree has the levels above it and its
height below. -/
theorem depthFrom_le_iff {deepest n : Nat} {stack : List (Tree × Nat)} (hstack : ∀ p ∈ stack, p.1 ≠ empty) :
    depthFrom deepest stack ≤ n ↔ deepest ≤ n ∧ ∀ p ∈ stack, p.2 + p.1.height ≤ n + 1 := by
  fun_induction depthFrom deepest stack with
  | case1 deepest => simp
  | case2 deepest t above rest ih =>
    obtain ⟨ht, hrest⟩ := List.forall_mem_cons.mp hstack
    have hlinks : ∀ p ∈ (t.children.map (·, above + 1)).reverse ++ rest, p.1 ≠ empty := by
      refine List.forall_mem_append.mpr ⟨fun p hp => ?_, hrest⟩
      obtain ⟨c, hc, rfl⟩ := List.mem_map.mp (List.mem_reverse.mp hp)
      exact ne_empty_of_mem_children hc
    rw [ih hlinks, List.forall_mem_append, List.forall_mem_cons, add_height_le_iff ht, Nat.max_le]
    simp [and_assoc]

theorem depth_eq_height (t : Tree) : t.depth = t.height := by
  cases t with
  | empty => simp [depth, present, isEmpty, depthFrom, height]
  | node kind token left right =>
    refine eq_of_forall_ge_iff fun n => ?_
    rw [depth, present, isEmpty, if_neg Bool.false_ne_true, depthFrom_le_iff (by simp)]
    simp only [List.map_cons, List.map_nil, List.forall_mem_singleton]
    omega

/-- **Breadth first is level by level.** For every tree, also one made by hand, the breadth-first list is the
concatenation of the levels from the root down, each from left to right. The levels that have a node are the first ones,
as many as the depth says, and the depth is the recursive height: 0 for no node, else one more than the largest height of
a link. -/
theorem breadthFirst_levels (t : Tree) :
    t.nodesInOrder "breadth_first" = .ok ((List.range t.depth).flatMap t.level) ∧
      (∀ k, t.level k ≠ [] ↔ k < t.depth) ∧ t.depth = t.height := by
  refine ⟨?_, fun k => ?_, depth_eq_height t⟩
  · rw [depth_eq_height, ← breadthFirst_eq_flatMap_level]
    rfl
  · rw [depth_eq_height]
    exact level_ne_nil_iff

end Abacus.Tree
