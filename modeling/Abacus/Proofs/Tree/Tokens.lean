import Abacus.Proofs.Tree.Forms

/-!
# The tokens of a tree by class

An expression keeps its numerals in its leaves and its operator symbols in the nodes above. Its postfix form lists
both, so what is counted on the postfix form is counted on the tree.

Results:
* `Tree.IsExpression.filter_isNumeral`: the numerals of the postfix form are the leaves, in their order.
* `Tree.IsExpression.filter_isOperator`: the operator symbols of the postfix form are those of the operator nodes.
* `Tree.IsExpression.countP_isNumeral`: there is one numeral more than there are binary operators.
-/

namespace Abacus

theorem Token.isGrouping_of_isNumeral {token : String} (h : isNumeral token = true) :
    isGrouping token = false := by
  rw [Bool.eq_false_iff]
  intro hgroup
  rcases isGrouping_iff.mp hgroup with rfl | rfl <;> simp at h

theorem Token.isGrouping_of_isOperator {token : String} (h : isOperator token = true) :
    isGrouping token = false := by
  obtain ⟨op, rfl⟩ := isOperator_iff.mp h
  exact isGrouping_symbol op

theorem Token.isOperator_of_isBinary {token : String} (h : isBinary token = true) :
    isOperator token = true := by
  obtain ⟨op, rfl, -⟩ := isBinary_iff.mp h
  exact isOperator_symbol op

theorem Token.isBinary_of_isNumeral {token : String} (h : isNumeral token = true) :
    isBinary token = false := by
  have hop := isOperator_eq_false_of_isNumeral h
  rw [Bool.eq_false_iff]
  intro hbinary
  rw [isOperator_of_isBinary hbinary] at hop
  cases hop

namespace Tree

/-- The tokens of the operand nodes, from left to right. -/
def leaves : Tree → List String
  | empty => []
  | node kind token left right =>
    left.leaves ++ (if kind = .operand then [token] else []) ++ right.leaves

/-- The tokens of the operator nodes, from left to right. -/
def operatorTokens : Tree → List String
  | empty => []
  | node kind token left right =>
    left.operatorTokens ++ (if kind = .operand then [] else [token]) ++ right.operatorTokens

@[simp] theorem leaves_operand (literal : String) : (operand literal).leaves = [literal] := rfl

@[simp] theorem leaves_unary (symbol : String) (t : Tree) : (unary symbol t).leaves = t.leaves := rfl

@[simp] theorem leaves_binary (symbol : String) (left right : Tree) :
    (binary symbol left right).leaves = left.leaves ++ right.leaves := by
  simp [binary, leaves]

@[simp] theorem operatorTokens_operand (literal : String) : (operand literal).operatorTokens = [] := rfl

@[simp] theorem operatorTokens_unary (symbol : String) (t : Tree) :
    (unary symbol t).operatorTokens = symbol :: t.operatorTokens := rfl

@[simp] theorem operatorTokens_binary (symbol : String) (left right : Tree) :
    (binary symbol left right).operatorTokens =
      left.operatorTokens ++ symbol :: right.operatorTokens := by
  simp [binary, operatorTokens]

@[simp] theorem postfixTokens_operand (literal : String) : (operand literal).postfixTokens = [literal] := by
  simp [operand]

@[simp] theorem postfixTokens_unary (symbol : String) (t : Tree) :
    (unary symbol t).postfixTokens = t.postfixTokens ++ [symbol] := by
  simp [unary]

@[simp] theorem postfixTokens_binary (symbol : String) (left right : Tree) :
    (binary symbol left right).postfixTokens =
      left.postfixTokens ++ right.postfixTokens ++ [symbol] := by
  simp [binary]

/-- A term whose leaves are numerals has tokens that suit their nodes. -/
theorem IsTerm.suited {t : Tree} (h : t.IsTerm) (hleaves : ∀ literal ∈ t.leaves, Token.isNumeral literal = true) :
    t.Suited := by
  induction h with
  | operand _ => exact ⟨hleaves _ List.mem_cons_self, trivial, trivial⟩
  | unary hop _ ih => exact ⟨by simp [tokenSuits, hop], trivial, ih hleaves⟩
  | binary hop _ _ ihl ihr =>
    rw [leaves_binary, List.forall_mem_append] at hleaves
    exact ⟨by simp [tokenSuits, hop], ihl hleaves.1, ihr hleaves.2⟩

namespace IsExpression

theorem filter_isNumeral {t : Tree} (h : t.IsExpression) :
    t.postfixTokens.filter Token.isNumeral = t.leaves := by
  induction h with
  | operand hnum => simp [hnum]
  | unary _ _ ih => simp [ih]
  | binary _ _ _ ihl ihr => simp [ihl, ihr]

theorem leaves_isNumeral {t : Tree} (h : t.IsExpression) : ∀ literal ∈ t.leaves, Token.isNumeral literal = true := by
  intro literal hliteral
  rw [← h.filter_isNumeral] at hliteral
  exact (List.mem_filter.mp hliteral).2

theorem filter_isOperator {t : Tree} (h : t.IsExpression) :
    (t.postfixTokens.filter Token.isOperator).Perm t.operatorTokens := by
  induction h with
  | operand hnum => simp [Token.isOperator_eq_false_of_isNumeral hnum]
  | @unary op t _ _ ih =>
    have hlast : ((Tree.unary op.symbol t).postfixTokens.filter Token.isOperator).Perm
        (op.symbol :: t.postfixTokens.filter Token.isOperator) := by
      simp [List.perm_append_singleton]
    exact hlast.trans (ih.cons op.symbol)
  | @binary op left right _ _ _ ihl ihr =>
    have hlast : (right.postfixTokens.filter Token.isOperator ++ [op.symbol]).Perm
        (op.symbol :: right.postfixTokens.filter Token.isOperator) := List.perm_append_singleton _ _
    simpa using ihl.append (hlast.trans (ihr.cons op.symbol))

/-- A binary operator joins two operands into one, and a unary operator makes one of one. -/
theorem countP_isNumeral {t : Tree} (h : t.IsExpression) :
    t.postfixTokens.countP Token.isNumeral = t.postfixTokens.countP Token.isBinary + 1 := by
  induction h with
  | operand hnum => simp [hnum, Token.isBinary_of_isNumeral hnum]
  | unary hop _ ih => simp [hop, ih]
  | binary hop _ _ ihl ihr =>
    simp only [postfixTokens_binary, List.countP_append, List.countP_singleton, Token.isNumeral_symbol,
      Token.isBinary_symbol, hop, ihl, ihr]
    simp
    omega

end IsExpression

end Tree

end Abacus
