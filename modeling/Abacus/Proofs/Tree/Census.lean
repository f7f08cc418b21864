import Abacus.Proofs.Build.Outcome
import Abacus.Proofs.Tree.Memo
import Mathlib.Data.List.Nodup

/-!
# Counting the nodes of a tree

The walks visit the same nodes, so whatever is counted may be counted in pre-order, by recursion on the tree. The lists
by kind go by the class of a node, the counts of operators by its token. In a well-formed tree whose leaves are numerals
both tell the same nodes apart: the token of a node is a numeral exactly if the node is an operand.

Results:
* `Tree.lookup_operatorCounts`, `Tree.total_operatorCounts`: the counts of operators, one by one and all together.
* `Tree.kinds_perm`: every node is of one of the three kinds.
* `Tree.WellFormed.isOperator_iff`: the nodes whose token is no numeral are the binary and the unary ones.
* `Tree.IsExpression.countP_operand`: there is one operand more than there are binary nodes.
* `Tree.walks_census`: the walks of all trees, and the counts of the nodes of a tree that a builder returns.
-/

namespace Abacus.Tree

/-! ## Counts of tokens -/

theorem lookup_cons_of_ne {symbol other : String} (h : symbol ≠ other) (n : Nat) (counts : List (String × Nat)) :
    ((other, n) :: counts).lookup symbol = counts.lookup symbol := by
  rw [List.lookup_cons, beq_eq_false_iff_ne.mpr h]

/-- Counting a token changes its own count, which starts at 0, and no other. -/
theorem lookup_tally (counts : List (String × Nat)) (token symbol : String) :
    (tally counts token).lookup symbol =
      if symbol = token then some ((counts.lookup symbol).getD 0 + 1) else counts.lookup symbol := by
  fun_induction tally counts token with
  | case1 => by_cases h : symbol = token <;> simp [h, lookup_cons_of_ne]
  | case2 n rest => by_cases h : symbol = token <;> simp [h, lookup_cons_of_ne]
  | case3 other n rest hother ih =>
    by_cases h : symbol = other
    · simp [h, hother]
    · rw [lookup_cons_of_ne h, lookup_cons_of_ne h, ih]

theorem lookup_foldl_tally (tokens : List String) (counts : List (String × Nat)) (symbol : String) :
    (tokens.foldl tally counts).lookup symbol =
      if symbol ∈ tokens then some ((counts.lookup symbol).getD 0 + tokens.count symbol) else counts.lookup symbol := by
  induction tokens generalizing counts with
  | nil => simp
  | cons token tokens ih =>
    rw [List.foldl_cons, ih, lookup_tally]
    by_cases hfirst : symbol = token
    · subst hfirst
      by_cases hrest : symbol ∈ tokens
      · simp [hrest]
        omega
      · simp [hrest, List.count_eq_zero.mpr hrest]
    · simp [hfirst, Ne.symm hfirst]

theorem total_tally (counts : List (String × Nat)) (token : String) :
    total ((tally counts token).map (·.2)) = total (counts.map (·.2)) + 1 := by
  fun_induction tally counts token with
  | case1 => rfl
  | case2 n rest =>
    simp only [List.map_cons, total_cons]
    omega
  | case3 other n rest hother ih => rw [List.map_cons, total_cons, ih, List.map_cons, total_cons, Nat.add_assoc]

theorem total_foldl_tally (tokens : List String) (counts : List (String × Nat)) :
    total ((tokens.foldl tally counts).map (·.2)) = total (counts.map (·.2)) + tokens.length := by
  induction tokens generalizing counts with
  | nil => rfl
  | cons token tokens ih =>
    rw [List.foldl_cons, ih, total_tally, List.length_cons]
    omega

theorem keys_tally (counts : List (String × Nat)) (token : String) :
    (tally counts token).map (·.1) =
      if token ∈ counts.map (·.1) then counts.map (·.1) else counts.map (·.1) ++ [token] := by
  fun_induction tally counts token with
  | case1 => rfl
  | case2 n rest => simp
  | case3 other n rest hother ih =>
    rw [List.map_cons, ih]
    by_cases hrest : token ∈ rest.map (·.1) <;> simp [hrest, Ne.symm hother]

theorem nodup_keys_foldl_tally (tokens : List String) {counts : List (String × Nat)}
    (h : (counts.map (·.1)).Nodup) : ((tokens.foldl tally counts).map (·.1)).Nodup := by
  induction tokens generalizing counts with
  | nil => exact h
  | cons token tokens ih =>
    refine ih ?_
    rw [keys_tally]
    split
    · exact h
    · next hnew => exact h.append (List.nodup_singleton token) (List.disjoint_singleton.mpr hnew)

/-! ## Counts of operators -/

theorem count_operators (t : Tree) (symbol : String) :
    ((t.breadthFirst.filter isOperator).map token).count symbol = (t.ofOperator symbol).length := by
  rw [List.count_eq_countP, List.countP_map, List.countP_filter, ofOperator, List.countP_eq_length_filter]
  simp only [Function.comp_apply, Bool.and_comm]

/-- An operator that does not occur has no count. -/
theorem lookup_operatorCounts (t : Tree) (symbol : String) :
    t.operatorCounts.lookup symbol =
      if t.ofOperator symbol = [] then none else some (t.ofOperator symbol).length := by
  rw [operatorCounts, lookup_foldl_tally, count_operators]
  have hoccurs : symbol ∈ (t.breadthFirst.filter isOperator).map token ↔ t.ofOperator symbol ≠ [] := by
    rw [← List.count_pos_iff, count_operators, List.length_pos_iff]
  by_cases h : t.ofOperator symbol = [] <;> simp [hoccurs, h]

theorem nodup_operatorCounts (t : Tree) : (t.operatorCounts.map (·.1)).Nodup :=
  nodup_keys_foldl_tally _ List.nodup_nil

theorem total_operatorCounts (t : Tree) :
    total (t.operatorCounts.map (·.2)) = t.breadthFirst.countP isOperator := by
  rw [operatorCounts, total_foldl_tally, List.length_map, ← List.countP_eq_length_filter]
  exact Nat.zero_add _

/-! ## Nodes by kind -/

/-- Is it a node of the given kind? -/
abbrev isKind (kind : Kind) : Tree → Bool :=
  (KindFilter.only kind).admits

theorem length_ofKind (t : Tree) (kind : Kind) :
    (t.ofKind (.only kind)).length = t.preorder.countP (isKind kind) := by
  rw [ofKind, ← List.countP_eq_length_filter, t.breadthFirst_perm_preorder.countP_eq]

theorem mem_ofKind_iff {t n : Tree} {kind : Kind} :
    n ∈ t.ofKind (.only kind) ↔ n ∈ t.breadthFirst ∧ n.kind? = some kind := by
  rw [ofKind, List.mem_filter, KindFilter.admits, beq_iff_eq]

theorem disjoint_ofKind (t : Tree) {kind other : Kind} (h : kind ≠ other) :
    (t.ofKind (.only kind)).Disjoint (t.ofKind (.only other)) := by
  intro n hkind hother
  have hsame := (mem_ofKind_iff.mp hkind).2.symm.trans (mem_ofKind_iff.mp hother).2
  exact h (Option.some.inj hsame)

/-- Every node is of one of the three kinds. -/
theorem filter_kinds_perm {nodes : List Tree} (h : ∀ n ∈ nodes, n ≠ empty) :
    (nodes.filter (isKind .operand) ++ nodes.filter (isKind .binary) ++ nodes.filter (isKind .unary)).Perm nodes := by
  induction nodes with
  | nil => exact List.Perm.refl []
  | cons n nodes ih =>
    obtain ⟨hn, hnodes⟩ := List.forall_mem_cons.mp h
    have hrest := (ih hnodes).cons n
    cases n with
    | empty => exact absurd rfl hn
    | node kind token left right =>
      cases kind with
      | operand => exact hrest
      | binary => exact (List.perm_middle.append_right _).trans hrest
      | unary => exact List.perm_middle.trans hrest

theorem kinds_perm (t : Tree) : (t.operands ++ t.binaries ++ t.unaries).Perm t.breadthFirst :=
  filter_kinds_perm fun _ hn => ne_empty_of_mem_preorder (t.breadthFirst_perm_preorder.mem_iff.mp hn)

/-! ## Operators by kind and by token -/

theorem token_mem_leaves {t n : Tree} (hn : n ∈ t.preorder) (hkind : n.kind? = some .operand) : n.token ∈ t.leaves := by
  induction t with
  | empty => cases hn
  | node kind token left right ihl ihr =>
    rw [preorder, List.mem_cons, List.mem_append] at hn
    rw [leaves, List.mem_append, List.mem_append]
    rcases hn with rfl | hleft | hright
    · cases hkind
      exact .inl (.inr List.mem_cons_self)
    · exact .inl (.inl (ihl hleft))
    · exact .inr (ihr hright)

theorem isOperator_of_hasArity {kind : Kind} {token : String} {left right : Tree} (hkind : kind ≠ .operand)
    (h : hasArity kind token left right = true) : Token.isOperator token = true := by
  rw [Token.isOperator, Option.isSome_iff_ne_none]
  intro hnone
  cases kind with
  | operand => exact hkind rfl
  | binary | unary => simp [hasArity, hnone] at h

namespace WellFormed

variable {t n : Tree}

/-- In a well-formed tree whose leaves are numerals the operands have numerals as tokens, and all other nodes have
operator symbols. -/
theorem token_cases (h : t.WellFormed) (hleaves : ∀ literal ∈ t.leaves, Token.isNumeral literal = true)
    (hn : n ∈ t.preorder) :
    n.kind? = some .operand ∧ Token.isNumeral n.token = true ∨
      n.kind? ≠ some .operand ∧ Token.isOperator n.token = true := by
  have harity := forall_mem_preorder_rootHasArity.mpr h n hn
  by_cases hkind : n.kind? = some .operand
  · exact .inl ⟨hkind, hleaves _ (token_mem_leaves hn hkind)⟩
  · cases n with
    | empty => exact absurd rfl (ne_empty_of_mem_preorder hn)
    | node kind token left right => exact .inr ⟨hkind, isOperator_of_hasArity (fun h => hkind (congrArg some h)) harity⟩

/-- The token of a node is a numeral exactly if the node is an operand. -/
theorem isOperator_iff (h : t.WellFormed) (hleaves : ∀ literal ∈ t.leaves, Token.isNumeral literal = true)
    (hn : n ∈ t.breadthFirst) : n.isOperator = true ↔ n ∈ t.binaries ∨ n ∈ t.unaries := by
  rw [binaries, unaries, mem_ofKind_iff, mem_ofKind_iff, and_iff_right hn, and_iff_right hn, Tree.isOperator]
  rcases h.token_cases hleaves (t.breadthFirst_perm_preorder.mem_iff.mp hn) with ⟨hkind, hnum⟩ | ⟨hkind, hop⟩
  · simp [hkind, hnum]
  · obtain ⟨op, hsymbol⟩ := Token.isOperator_iff.mp hop
    cases n with
    | empty => exact absurd rfl (ne_empty_of_mem_preorder (t.breadthFirst_perm_preorder.mem_iff.mp hn))
    | node kind token left right => cases kind <;> simp_all [kind?]

theorem countP_isOperator (h : t.WellFormed) (hleaves : ∀ literal ∈ t.leaves, Token.isNumeral literal = true) :
    t.breadthFirst.countP Tree.isOperator = t.binaries.length + t.unaries.length := by
  have hmem {n : Tree} {kind : Kind} (hn : n ∈ t.ofKind (.only kind)) : n ∈ t.breadthFirst :=
    (mem_ofKind_iff.mp hn).1
  have hoperands : t.operands.countP Tree.isOperator = 0 := by
    refine List.countP_eq_zero.mpr fun n hn hop => ?_
    rcases (h.isOperator_iff hleaves (hmem hn)).mp hop with hbinary | hunary
    · exact t.disjoint_ofKind Kind.noConfusion hn hbinary
    · exact t.disjoint_ofKind Kind.noConfusion hn hunary
  have hbinaries : t.binaries.countP Tree.isOperator = t.binaries.length :=
    List.countP_eq_length.mpr fun n hn => (h.isOperator_iff hleaves (hmem hn)).mpr (.inl hn)
  have hunaries : t.unaries.countP Tree.isOperator = t.unaries.length :=
    List.countP_eq_length.mpr fun n hn => (h.isOperator_iff hleaves (hmem hn)).mpr (.inr hn)
  rw [← t.kinds_perm.countP_eq, List.countP_append, List.countP_append, hoperands, hbinaries, hunaries, Nat.zero_add]

end WellFormed

/-! ## Expressions -/

namespace IsExpression

variable {t : Tree}

/-- A binary node joins two trees into one, and a unary node makes one of one. -/
theorem countP_operand (h : t.IsExpression) :
    t.preorder.countP (isKind .operand) = t.preorder.countP (isKind .binary) + 1 := by
  induction h with
  | operand hnum => rfl
  | unary _ _ ih => exact ih
  | @binary op left right _ _ _ ihl ihr =>
    have hoperand : (Tree.binary op.symbol left right).preorder.countP (isKind .operand) =
        left.preorder.countP (isKind .operand) + right.preorder.countP (isKind .operand) := by
      rw [Tree.binary, preorder, List.countP_cons_of_neg (by simp [KindFilter.admits, kind?]), List.countP_append]
    have hbinary : (Tree.binary op.symbol left right).preorder.countP (isKind .binary) =
        left.preorder.countP (isKind .binary) + right.preorder.countP (isKind .binary) + 1 := by
      rw [Tree.binary, preorder, List.countP_cons_of_pos rfl, List.countP_append]
    omega

theorem isOperator_iff (h : t.IsExpression) {n : Tree} (hn : n ∈ t.breadthFirst) :
    n.isOperator = true ↔ n ∈ t.binaries ∨ n ∈ t.unaries :=
  h.wellFormed.isOperator_iff h.leaves_isNumeral hn

theorem countP_isOperator (h : t.IsExpression) :
    t.breadthFirst.countP Tree.isOperator = t.binaries.length + t.unaries.length :=
  h.wellFormed.countP_isOperator h.leaves_isNumeral

theorem length_operands (h : t.IsExpression) : t.operands.length = t.binaries.length + 1 := by
  rw [operands, binaries, length_ofKind, length_ofKind, h.countP_operand]

theorem size_eq_of_kinds (h : t.IsExpression) : t.size = .ok (2 * t.binaries.length + 1 + t.unaries.length) := by
  have hall := t.kinds_perm.length_eq
  have hoperands := h.length_operands
  rw [t.breadthFirst_perm_preorder.length_eq, length_preorder, List.length_append, List.length_append] at hall
  rw [h.size_eq, ← hall]
  congr 1
  omega

end IsExpression

/-- **All walks see the same nodes, and the counts add up.** For every tree, also one made by hand, the depth-first list
is the recursive pre-order, the post-order walk is the recursive one, and both have the nodes of the breadth-first list,
each as often. For every tree that a builder returns, the operands, the binary and the unary nodes are a partition of
the nodes, the operators are the binary and the unary ones, and there is one operand more than there are binary nodes.
The counts of operators have each symbol once, with the number of nodes that are found for it; their sum is the number
of binary and unary nodes. The size is the number of nodes of all three kinds. -/
theorem walks_census :
    (∀ t : Tree, t.nodesInOrder "depth_first" = .ok t.preorder ∧ t.postorder = placesFrom [] t ∧
      t.preorder.Perm t.breadthFirst ∧ (t.postorder.map (·.tree)).Perm t.breadthFirst) ∧
    ∀ (fixity : Fixity) (tokens : List String) (t : Tree), (assemble fixity tokens).result = .ok t →
      ((t.operands ++ t.binaries ++ t.unaries).Perm t.breadthFirst ∧ t.operands.Disjoint t.binaries ∧
        t.operands.Disjoint t.unaries ∧ t.binaries.Disjoint t.unaries) ∧
      (∀ n ∈ t.breadthFirst, n.isOperator = true ↔ n ∈ t.binaries ∨ n ∈ t.unaries) ∧
      t.operands.length = t.binaries.length + 1 ∧
      ((t.operatorCounts.map (·.1)).Nodup ∧
        total (t.operatorCounts.map (·.2)) = t.binaries.length + t.unaries.length ∧
        ∀ symbol, t.operatorCounts.lookup symbol =
          if t.ofOperator symbol = [] then none else some (t.ofOperator symbol).length) ∧
      t.size = .ok (2 * t.binaries.length + 1 + t.unaries.length) := by
  constructor
  · intro t
    have hsame := t.breadthFirst_perm_preorder.symm
    refine ⟨?_, t.postorder_eq_placesFrom, hsame, t.postorder_perm_preorder.trans hsame⟩
    rw [← t.depthFirst_eq_preorder]
    rfl
  · intro fixity tokens t h
    have ht : t.IsExpression := (assemble_ofBuilder fixity tokens).tree t h
    exact ⟨⟨t.kinds_perm, t.disjoint_ofKind Kind.noConfusion, t.disjoint_ofKind Kind.noConfusion,
        t.disjoint_ofKind Kind.noConfusion⟩, fun n hn => ht.isOperator_iff hn, ht.length_operands,
      ⟨t.nodup_operatorCounts, t.total_operatorCounts.trans ht.countP_isOperator, t.lookup_operatorCounts⟩,
      ht.size_eq_of_kinds⟩

/-- The first operator is skipped, so it counts for nothing. -/
theorem walks_census_skipped_operator :
    let t := binary "+" (unary "!" (binary "+" (operand "1") (operand "2"))) (operand "3")
    (assemble .postFix ["+", "1", "2", "+", "!", "3", "+"]).result = .ok t ∧
      t.operatorCounts.lookup "+" = some 2 ∧ t.operatorCounts.lookup "-" = none ∧ t.size = .ok 6 := by
  intro t
  have hread : (assemble .postFix ["+", "1", "2", "+", "!", "3", "+"]).result = .ok t := rfl
  have hnodes : t.breadthFirst =
      [binary "+" (unary "!" (binary "+" (operand "1") (operand "2"))) (operand "3"),
        unary "!" (binary "+" (operand "1") (operand "2")), operand "3", binary "+" (operand "1") (operand "2"),
        operand "1", operand "2"] := by
    simp [t, breadthFirst, present, breadthFirstFrom, children, binary, unary, operand, isEmpty]
  have hplus : (t.ofOperator "+").length = 2 := by
    rw [ofOperator, hnodes]
    rfl
  have hminus : t.ofOperator "-" = [] := by
    rw [ofOperator, hnodes]
    rfl
  obtain ⟨-, -, -, ⟨-, -, hcounts⟩, hsize⟩ := walks_census.2 .postFix _ t hread
  refine ⟨hread, ?_, ?_, ?_⟩
  · rw [hcounts, hplus, if_neg (List.ne_nil_of_length_pos (by omega))]
  · rw [hcounts, hminus, if_pos rfl]
  · rw [hsize, binaries, unaries, ofKind, ofKind, hnodes]
    rfl

end Abacus.Tree
