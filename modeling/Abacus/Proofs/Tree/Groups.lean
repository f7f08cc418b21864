import Abacus.Proofs.Build.Balance
import Abacus.Proofs.Tree.Census

/-!
# The parentheses of the infix form

The infix form is written from one stack that holds tokens to write and trees to expand. It stands for the tokens that
are still to be written, whatever it holds, so that the form of a tree is given by recursion, also for nodes made by
hand.

Every node whose token is no numeral writes one pair of parentheses around what is below it. In a tree without
parentheses among its own tokens there are no others. Such are the well-formed trees whose leaves are numerals: their
other tokens are operator symbols.

Results:
* `Tree.Ungrouped.balanced`, `Tree.Ungrouped.count_opening`: the parentheses are balanced, one pair for each operator.
* `Tree.Ungrouped.filter_grouped`: without them the tokens are left in order.
* `Tree.infixTokens_groups`: the infix form of all trees, and the parentheses of the well-formed ones.
-/

namespace Abacus.Tree

/-- All nodes by recursion: the nodes below the left link, the root, the nodes below the right link. -/
def inorder : Tree → List Tree
  | empty => []
  | node kind token left right => left.inorder ++ node kind token left right :: right.inorder

/-- No token of the tree is a parenthesis. -/
def Ungrouped (t : Tree) : Prop :=
  ∀ n ∈ t.preorder, Token.isGrouping n.token = false

theorem ungrouped_node_iff {kind : Kind} {token : String} {left right : Tree} :
    (node kind token left right).Ungrouped ↔
      Token.isGrouping token = false ∧ left.Ungrouped ∧ right.Ungrouped := by
  rw [Ungrouped, preorder, List.forall_mem_cons, List.forall_mem_append]
  rfl

theorem ne_of_isGrouping_eq_false {token : String} (h : Token.isGrouping token = false) :
    token ≠ Token.opening ∧ token ≠ Token.closing := by
  simpa [Token.isGrouping] using h

namespace Ungrouped

variable {t n : Tree}

theorem of_mem (h : t.Ungrouped) (hn : n ∈ t.preorder) : n.Ungrouped := by
  induction t with
  | empty => cases hn
  | node kind token left right ihl ihr =>
    obtain ⟨-, hleft, hright⟩ := ungrouped_node_iff.mp h
    rw [preorder, List.mem_cons, List.mem_append] at hn
    rcases hn with rfl | hbelow | hbelow
    · exact h
    · exact ihl hleft hbelow
    · exact ihr hright hbelow

/-! ## Pairs of parentheses -/

/-- What a node writes between its parentheses, if it has any, is balanced if its links are. -/
theorem balanced_inner {token : String} {left right : Tree} (htoken : Token.isGrouping token = false)
    (hleft : Balanced left.grouped) (hright : Balanced right.grouped) :
    Balanced (left.grouped ++ token :: right.grouped) := by
  obtain ⟨hopen, hclose⟩ := ne_of_isGrouping_eq_false htoken
  exact hleft.append ((Balanced.singleton hopen hclose).append hright)

theorem balanced (h : t.Ungrouped) : Balanced t.grouped := by
  induction t with
  | empty => exact .nil
  | node kind token left right ihl ihr =>
    obtain ⟨htoken, hleft, hright⟩ := ungrouped_node_iff.mp h
    have hinner := balanced_inner htoken (ihl hleft) (ihr hright)
    rw [grouped]
    split
    · exact hinner
    · exact hinner.group

/-- There is one open parenthesis for each node whose token is no numeral. -/
theorem count_opening (h : t.Ungrouped) : t.grouped.count Token.opening = t.preorder.countP isOperator := by
  induction t with
  | empty => rfl
  | node kind token left right ihl ihr =>
    obtain ⟨htoken, hleft, hright⟩ := ungrouped_node_iff.mp h
    obtain ⟨hopen, -⟩ := ne_of_isGrouping_eq_false htoken
    have hinner : (left.grouped ++ token :: right.grouped).count Token.opening =
        left.preorder.countP isOperator + right.preorder.countP isOperator := by
      rw [List.count_append, List.count_cons_of_ne hopen, ihl hleft, ihr hright]
    have hroot : (node kind token left right).isOperator = !Token.isNumeral token := rfl
    rw [grouped, preorder, List.countP_cons, List.countP_append, hroot]
    cases Token.isNumeral token with
    | true => simpa using hinner
    | false =>
      have hlast : [Token.closing].count Token.opening = 0 := rfl
      simp only [Bool.false_eq_true, if_false, Bool.not_false, if_true]
      rw [List.cons_append, List.count_cons_self, List.count_append, hinner, hlast]

/-- An operator stands with all that is below it between a pair of parentheses. -/
theorem exists_group (h : t.Ungrouped) (ht : t ≠ empty) (hop : t.isOperator = true) :
    ∃ inner, Balanced inner ∧ t.grouped = Token.opening :: inner ++ [Token.closing] := by
  cases t with
  | empty => exact absurd rfl ht
  | node kind token left right =>
    obtain ⟨htoken, hleft, hright⟩ := ungrouped_node_iff.mp h
    have hnum : Token.isNumeral token = false := by simpa [isOperator, Tree.token] using hop
    refine ⟨_, balanced_inner htoken hleft.balanced hright.balanced, ?_⟩
    rw [grouped, hnum]
    rfl

/-! ## The other tokens -/

/-- Without parentheses the tokens of the nodes are left, in order. -/
theorem filter_grouped (h : t.Ungrouped) :
    t.grouped.filter (fun token => !Token.isGrouping token) = t.inorder.map (·.token) := by
  induction t with
  | empty => rfl
  | node kind token left right ihl ihr =>
    obtain ⟨htoken, hleft, hright⟩ := ungrouped_node_iff.mp h
    have hinner : (left.grouped ++ token :: right.grouped).filter (fun token => !Token.isGrouping token) =
        (node kind token left right).inorder.map (·.token) := by
      rw [List.filter_append, List.filter_cons_of_pos (by simp [htoken]), ihl hleft, ihr hright, inorder,
        List.map_append, List.map_cons]
      rfl
    rw [grouped]
    split
    · exact hinner
    · have hlast : [Token.closing].filter (fun token => !Token.isGrouping token) = [] := rfl
      rw [List.cons_append, List.filter_cons_of_neg (by decide), List.filter_append, hinner, hlast, List.append_nil]

end Ungrouped

/-- The form of a node is a part of the form of every tree in which the node lies. -/
theorem grouped_isInfix {t n : Tree} (hn : n ∈ t.preorder) : n.grouped <:+: t.grouped := by
  induction t with
  | empty => cases hn
  | node kind token left right ihl ihr =>
    have hinner : left.grouped ++ token :: right.grouped <:+: (node kind token left right).grouped := by
      rw [grouped]
      split
      · exact List.infix_refl _
      · exact ⟨[Token.opening], [Token.closing], by simp⟩
    rw [preorder, List.mem_cons, List.mem_append] at hn
    rcases hn with rfl | hleft | hright
    · exact List.infix_refl _
    · exact ((ihl hleft).trans (List.prefix_append _ _).isInfix).trans hinner
    · exact ((ihr hright).trans ((List.suffix_cons _ _).trans (List.suffix_append _ _)).isInfix).trans hinner

/-! ## Well-formed trees -/

theorem WellFormed.ungrouped {t : Tree} (h : t.WellFormed)
    (hleaves : ∀ literal ∈ t.leaves, Token.isNumeral literal = true) : t.Ungrouped := by
  intro n hn
  rcases h.token_cases hleaves hn with ⟨-, hnum⟩ | ⟨-, hop⟩
  · exact Token.isGrouping_of_isNumeral hnum
  · exact Token.isGrouping_of_isOperator hop

/-- **The infix form by recursion, and its parentheses.** The infix form of every tree, also of one made by hand, is the
form of the left link, the token and the form of the right link, between parentheses exactly if the token is no numeral.
In a well-formed tree whose leaves are numerals the parentheses are balanced, and there is one pair for each binary or
unary node, which stands with all that is below it between them. Without parentheses the tokens of the nodes are left,
in order. -/
theorem infixTokens_groups :
    (∀ t : Tree, t.infixTokens = t.grouped) ∧
    ∀ t : Tree, t.isWellFormed = true → (∀ literal ∈ t.leaves, Token.isNumeral literal = true) →
      Balanced t.infixTokens ∧
      t.infixTokens.count Token.opening = t.binaries.length + t.unaries.length ∧
      (∀ n ∈ t.binaries ++ t.unaries, n.infixTokens <:+: t.infixTokens ∧
        ∃ inner, Balanced inner ∧ n.infixTokens = Token.opening :: inner ++ [Token.closing]) ∧
      t.infixTokens.filter (fun token => !Token.isGrouping token) = t.inorder.map (·.token) := by
  refine ⟨infixTokens_eq_grouped, fun t hvalid hleaves => ?_⟩
  have hwell := isWellFormed_iff.mp hvalid
  have hungrouped := hwell.ungrouped hleaves
  simp only [infixTokens_eq_grouped]
  refine ⟨hungrouped.balanced, ?_, fun n hn => ?_, hungrouped.filter_grouped⟩
  · rw [hungrouped.count_opening, ← t.breadthFirst_perm_preorder.countP_eq, hwell.countP_isOperator hleaves]
  · rw [List.mem_append] at hn
    have hnode : n ∈ t.breadthFirst := hn.elim (fun h => (mem_ofKind_iff.mp h).1) fun h => (mem_ofKind_iff.mp h).1
    have hbelow : n ∈ t.preorder := t.breadthFirst_perm_preorder.mem_iff.mp hnode
    have hop : n.isOperator = true := (hwell.isOperator_iff hleaves hnode).mpr hn
    exact ⟨grouped_isInfix hbelow, (hungrouped.of_mem hbelow).exists_group (ne_empty_of_mem_preorder hbelow) hop⟩

/-- A binary node whose token was replaced by the negation, which is well formed with its right link alone. The literals
begin with digits and hold parentheses, which are no tokens. -/
theorem infixTokens_groups_retokened :
    let t := binary "+" (node .binary "!" empty (operand "3 )")) (operand "4(")
    t.infixTokens = ["(", "(", "!", "3 )", ")", "+", "4(", ")"] ∧ Balanced t.infixTokens ∧
      t.infixTokens.filter (fun token => !Token.isGrouping token) = ["!", "3 )", "+", "4("] := by
  intro t
  obtain ⟨hform, hgroups⟩ := infixTokens_groups
  have hvalid : t.isWellFormed = true :=
    isWellFormed_iff.mpr ⟨rfl, ⟨rfl, trivial, rfl, trivial, trivial⟩, rfl, trivial, trivial⟩
  obtain ⟨hbalanced, -, -, htokens⟩ := hgroups t hvalid (by decide)
  exact ⟨hform t, hbalanced, htokens⟩

end Abacus.Tree
