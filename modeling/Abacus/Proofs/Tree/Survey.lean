import Abacus.Proofs.Tree.Forms
import Abacus.Tree.Survey

/-!
# Surveys of a tree by recursion

The depth-first walk pushes the links of a node on a stack. The trees on the stack stand for the nodes that are
still to be visited, each tree for its nodes in pre-order. So do the trees in the queue of the breadth-first walk, which
visits them in another order.

Results:
* `Tree.depthFirst_eq_preorder`: the depth-first walk is the recursive pre-order.
* `Tree.breadthFirst_perm_preorder`, `Tree.postorder_perm_preorder`: the other two walks visit the same nodes.
* `Tree.isWellFormed_iff`: the check of all nodes decides whether a tree is well formed, for nodes made by hand too.
* `Tree.IsExpression.proper`: the nodes of an expression have the tokens and the links that their kind asks for.
-/

namespace Abacus.Tree

/-! ## Pre-order -/

/-- All nodes by recursion: the root, the nodes below the left link, the nodes below the right link. -/
def preorder : Tree → List Tree
  | empty => []
  | node kind token left right => node kind token left right :: (left.preorder ++ right.preorder)

theorem ne_empty_of_mem_children {t c : Tree} (h : c ∈ t.children) : c ≠ empty := by
  cases t with
  | empty => cases h
  | node kind token left right =>
    have hpresent := (List.mem_filter.mp h).2
    rintro rfl
    simp [isEmpty] at hpresent

theorem preorder_eq_cons {t : Tree} (ht : t ≠ empty) :
    t.preorder = t :: t.children.flatMap preorder := by
  cases t with
  | empty => exact absurd rfl ht
  | node kind token left right => cases left <;> cases right <;> simp [preorder, children, isEmpty]

theorem ne_empty_of_mem_preorder {t n : Tree} (h : n ∈ t.preorder) : n ≠ empty := by
  induction t with
  | empty => cases h
  | node kind token left right ihl ihr =>
    rw [preorder, List.mem_cons, List.mem_append] at h
    rcases h with rfl | hleft | hright
    · exact Tree.noConfusion
    · exact ihl hleft
    · exact ihr hright

/-- The stack of the depth-first walk holds no empty trees, and stands for the nodes of its trees in
pre-order. -/
theorem depthFirstFrom_eq (done stack : List Tree) (hstack : ∀ t ∈ stack, t ≠ empty) :
    depthFirstFrom done stack = done.reverse ++ stack.flatMap preorder := by
  fun_induction depthFirstFrom done stack with
  | case1 done => simp
  | case2 done t rest ih =>
    obtain ⟨ht, hrest⟩ := List.forall_mem_cons.mp hstack
    have hnext : ∀ t' ∈ t.children ++ rest, t' ≠ empty := by
      intro t' ht'
      rcases List.mem_append.mp ht' with hchild | hbelow
      · exact ne_empty_of_mem_children hchild
      · exact hrest t' hbelow
    rw [ih hnext, List.flatMap_append, List.flatMap_cons, preorder_eq_cons ht]
    simp

theorem ne_empty_of_mem_present {t t' : Tree} (h : t' ∈ t.present) : t' ≠ empty := by
  cases t with
  | empty => cases h
  | node kind token left right =>
    cases List.mem_singleton.mp h
    exact Tree.noConfusion

theorem flatMap_preorder_present (t : Tree) : t.present.flatMap preorder = t.preorder := by
  cases t <;> simp [present, isEmpty, preorder]

theorem depthFirst_eq_preorder (t : Tree) : t.depthFirst = t.preorder := by
  rw [depthFirst, depthFirstFrom_eq [] t.present fun _ => ne_empty_of_mem_present, List.reverse_nil,
    List.nil_append, flatMap_preorder_present]

/-! ## The other orders -/

/-- The queue of the breadth-first walk holds no empty trees, and stands for the nodes of its trees. -/
theorem breadthFirstFrom_perm (done queue : List Tree) (hqueue : ∀ t ∈ queue, t ≠ empty) :
    (breadthFirstFrom done queue).Perm (done.reverse ++ queue.flatMap preorder) := by
  fun_induction breadthFirstFrom done queue with
  | case1 done => simp
  | case2 done t rest ih =>
    obtain ⟨ht, hrest⟩ := List.forall_mem_cons.mp hqueue
    have hlinks : (rest.flatMap preorder ++ t.children.flatMap preorder).Perm
        (t.children.flatMap preorder ++ rest.flatMap preorder) := List.perm_append_comm
    refine (ih (List.forall_mem_append.mpr ⟨hrest, fun _ => ne_empty_of_mem_children⟩)).trans ?_
    rw [List.flatMap_append, List.flatMap_cons, preorder_eq_cons ht, List.reverse_cons, List.append_assoc]
    exact (hlinks.cons t).append_left done.reverse

theorem breadthFirst_perm_preorder (t : Tree) : t.breadthFirst.Perm t.preorder := by
  have hwalk := breadthFirstFrom_perm [] t.present fun _ => ne_empty_of_mem_present
  rwa [List.reverse_nil, List.nil_append, flatMap_preorder_present] at hwalk

theorem postorder_perm_preorder (t : Tree) : (t.postorder.map (·.tree)).Perm t.preorder := by
  induction t with
  | empty =>
    rw [map_tree_postorder_empty]
    exact List.Perm.refl []
  | node kind token left right ihl ihr =>
    rw [map_tree_postorder_node, preorder]
    exact List.perm_append_comm.trans ((ihl.append ihr).cons _)

theorem length_preorder (t : Tree) : t.preorder.length = t.count := by
  induction t with
  | empty => rfl
  | node kind token left right ihl ihr => simp [preorder, count, ihl, ihr]

/-! ## Well-formed trees -/

theorem forall_mem_preorder_rootHasArity {t : Tree} :
    (∀ n ∈ t.preorder, n.rootHasArity = true) ↔ t.WellFormed := by
  induction t with
  | empty => simp [preorder, WellFormed]
  | node kind token left right ihl ihr =>
    rw [preorder, List.forall_mem_cons, List.forall_mem_append, ihl, ihr]
    rfl

theorem isWellFormed_iff {t : Tree} : t.isWellFormed = true ↔ t.WellFormed := by
  rw [isWellFormed, depthFirst_eq_preorder, List.all_eq_true, forall_mem_preorder_rootHasArity]

/-! ## Proper nodes -/

/-- A node of an expression: an operand is a numeral without links, a unary node a negation whose operand is its
only link and stands to the right, and a binary node a binary operator with both links. -/
def Proper : Tree → Prop
  | empty => False
  | node .operand token left right => left = empty ∧ right = empty ∧ Token.isNumeral token = true
  | node .unary token left right => token = Operator.neg.symbol ∧ left = empty ∧ right ≠ empty
  | node .binary token left right => Token.isBinary token = true ∧ left ≠ empty ∧ right ≠ empty

theorem IsExpression.proper {t : Tree} (h : t.IsExpression) : ∀ n ∈ t.preorder, n.Proper := by
  induction h with
  | operand hnum => simpa [Tree.operand, preorder, Proper] using hnum
  | @unary op t hop ht ih =>
    obtain rfl := Operator.arity_eq_one_iff.mp hop
    simpa [Tree.unary, preorder, Proper, ht.ne_empty] using ih
  | @binary op left right hop hleft hright ihl ihr =>
    have hroot : (Tree.binary op.symbol left right).Proper :=
      ⟨by simp [hop], hleft.ne_empty, hright.ne_empty⟩
    rw [Tree.binary, preorder, List.forall_mem_cons, List.forall_mem_append]
    exact ⟨hroot, ihl, ihr⟩

end Abacus.Tree
