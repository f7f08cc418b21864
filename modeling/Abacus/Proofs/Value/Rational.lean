import Abacus.Proofs.Tree.Tokens
import Abacus.Proofs.Tree.Fold
import Abacus.Proofs.Value.Evaluate
import Abacus.Proofs.Value.Symbolic
import Abacus.Value.Exact

/-!
# Exact values and rational arithmetic

Let the library of symbolic expressions be exact on the rational numbers. As long as no exponent has a fractional part,
exact evaluation is then arithmetic on these numbers: a tree has its value there, or it has none because of a division
by zero. What is left to show is that differences and quotients are coded rightly and that the tests stand in the right
place, before the operation that they guard.

Results:
* `Tree.rational?`: the rational value of a tree, by recursion.
* `combineSymbolicPair_of_some`, `combineSymbolicPair_of_none`: the operators on expressions that are rational numbers.
* `Tree.IsExpression.endsRationally`: the exact value against the rational value, for all subtrees.
* `exactValue_rational`: the same for a whole tree, with the error of its first node without a value.
-/

namespace Abacus

open Symbolic (Expr ExactOn lifted)

/-! ## The rational value of a tree -/

/-- A binary operator on rational numbers. There is no quotient by zero and no negative power of zero; everything to
the power 0 is 1. Exponents are integers. -/
def rationalPair? (op : Operator) (x y : ℚ) : Option ℚ :=
  match op with
  | .add => some (x + y)
  | .sub => some (x - y)
  | .mul => some (x * y)
  | .div => if y = 0 then none else some (x / y)
  | .pow => if x = 0 ∧ y < 0 then none else some (x ^ y.num)
  | .neg => none

namespace Tree

/-- The rational value of a tree, if there is one. An empty tree has the value 0. -/
def rational? : Tree → Option ℚ
  | empty => some 0
  | node .operand literal _ _ => some (Literal.digitsValue literal.toList)
  | node .unary _ _ right => right.rational?.map (- ·)
  | node .binary symbol left right =>
    left.rational?.bind fun x => right.rational?.bind fun y =>
      (Operator.ofSymbol? symbol).bind fun op => rationalPair? op x y

/-- An evaluation in post-order comes to a node if all nodes before it have a value. -/
def Reaches (t n : Tree) : Prop :=
  ∃ before after, t.postorder.map (·.tree) = before ++ n :: after ∧ ∀ m ∈ before, m.rational? ≠ none

/-- Every power that an evaluation comes to has an integer for its exponent. -/
def IntegerPowers (t : Tree) : Prop :=
  ∀ left right, t.Reaches (binary "^" left right) → ∀ y, right.rational? = some y → y.den = 1

/-- A node has no value though its operands have. An error tells of it, whose message shows one of the operands. -/
inductive Undefined : Tree → ℚ → (String → EvalError) → Prop
  | quotient {left right : Tree} {x : ℚ} (hleft : left.rational? = some x) (hright : right.rational? = some 0) :
    Undefined (binary "/" left right) x fun text => .divisionByZero (.exact text) (.exact "0")
  | power {left right : Tree} {y : ℚ} (hleft : left.rational? = some 0) (hright : right.rational? = some y)
    (hy : y < 0) : Undefined (binary "^" left right) y fun text => .zeroToNegative (.exact text)

end Tree

/-- The fault of an operation whose error shows an expression: this error, or that of the library if it cannot write the
expression. -/
def Fault.showing (error : String → EvalError) (text : Except ForeignFault String) : Fault :=
  match text with
  | .ok text => .eval (error text)
  | .error fault => .foreign fault

/-! ## Operators on rational numbers -/

section Operators

variable [Symbolic] {num : ℚ → Expr} {op : Operator} {x y q : ℚ}

/-- The product by -1 is the opposite. -/
theorem Symbolic.ExactOn.opposite_eq (hnum : ExactOn num) (x : ℚ) :
    lifted (Symbolic.mul true (Symbolic.integer (-1)) (num x)) = .ok (num (-x)) := by
  rw [hnum.integer_eq, hnum.mul_eq, Int.cast_neg, Int.cast_one, neg_one_mul]
  rfl

/-- The power to -1 is the inverse. -/
theorem Symbolic.ExactOn.inverse_eq (hnum : ExactOn num) (hx : x ≠ 0) :
    lifted (Symbolic.pow true (num x) (Symbolic.integer (-1))) = .ok (num x⁻¹) := by
  rw [hnum.integer_eq, hnum.pow_eq x (-1) fun h => hx h.1, zpow_neg_one]
  rfl

/-- On rational operands a binary operator gives the rational result, unless the exponent is a fraction. -/
theorem combineSymbolicPair_of_some (hnum : ExactOn num) (h : rationalPair? op x y = some q)
    (hpow : op = .pow → y.den = 1) : combineSymbolicPair true op.symbol (num x) (num y) = .ok (num q) := by
  rw [combineSymbolicPair, Operator.ofSymbol?_symbol]
  cases op with
  | add =>
    cases h
    exact congrArg lifted (hnum.add_eq x y)
  | sub =>
    cases h
    simp only [hnum.opposite_eq, bind, Except.bind, hnum.add_eq, ← sub_eq_add_neg]
    rfl
  | mul =>
    cases h
    exact congrArg lifted (hnum.mul_eq x y)
  | div =>
    have hy : y ≠ 0 := by
      rintro rfl
      simp [rationalPair?] at h
    simp only [rationalPair?, if_neg hy] at h
    cases h
    have hcode : (true && Symbolic.isZero (num y)) = false := by
      rw [hnum.isZero_eq, decide_eq_false hy]
      rfl
    simp only [hcode, hnum.inverse_eq hy, bind, Except.bind, hnum.mul_eq, ← div_eq_mul_inv]
    rfl
  | pow =>
    have hguard : ¬(x = 0 ∧ y < 0) := by
      intro hzero
      simp [rationalPair?, hzero] at h
    simp only [rationalPair?, if_neg hguard] at h
    cases h
    have hcode : (true && Symbolic.isZero (num x) && Symbolic.isNegative (num y)) = false := by
      rw [hnum.isZero_eq, hnum.isNegative_eq, Bool.eq_false_iff]
      simpa using hguard
    have hinteger : (y.num : ℚ) = y := Rat.coe_int_num_of_den_eq_one (hpow rfl)
    have hpower := hnum.pow_eq x y.num (by rwa [Rat.num_neg])
    rw [hinteger] at hpower
    simp only [hcode, hpower]
    rfl
  | neg => cases h

/-- An operation that ends with an error ends with the fault of showing it. -/
theorem throw_showing (error : String → EvalError) (text : Except ForeignFault String) :
    (lifted text >>= fun text => throw (.eval (error text)) : Except Fault Expr) =
      .error (.showing error text) := by
  cases text <;> rfl

/-- If there is no rational result, the operator fails, and the error tells why there is none. -/
theorem combineSymbolicPair_of_none (hnum : ExactOn num) (hop : op.arity = 2) {left right : Tree}
    (hleft : left.rational? = some x) (hright : right.rational? = some y) (h : rationalPair? op x y = none) :
    ∃ z error, Tree.Undefined (.binary op.symbol left right) z error ∧
      combineSymbolicPair true op.symbol (num x) (num y) = .error (.showing error (Symbolic.text (num z))) := by
  rw [combineSymbolicPair, Operator.ofSymbol?_symbol]
  cases op with
  | add | sub | mul => cases h
  | div =>
    have hy : y = 0 := by
      by_contra hne
      simp [rationalPair?, hne] at h
    subst hy
    refine ⟨_, _, .quotient hleft hright, ?_⟩
    have hcode : (true && Symbolic.isZero (num 0)) = true := by
      rw [hnum.isZero_eq]
      rfl
    simp only [hcode, if_true]
    exact throw_showing _ _
  | pow =>
    obtain ⟨rfl, hneg⟩ : x = 0 ∧ y < 0 := by
      by_contra hnot
      simp [rationalPair?, hnot] at h
    refine ⟨_, _, .power hleft hright hneg, ?_⟩
    have hcode : (true && Symbolic.isZero (num 0) && Symbolic.isNegative (num y)) = true := by
      rw [hnum.isZero_eq, hnum.isNegative_eq, decide_eq_true hneg]
      rfl
    simp only [hcode, if_true]
    exact throw_showing _ _
  | neg => cases hop

theorem combineSymbolic_operand (hnum : ExactOn num) {literal : String} (hproper : Literal.isProper literal = true)
    (hshort : literal.length ≤ Text.digitLimit) :
    combineSymbolic true .operand literal [] = .ok (num (Literal.digitsValue literal.toList)) := by
  rw [combineSymbolic, Literal.value_eq_ok hproper hshort, ← Int.cast_natCast (R := ℚ), ← hnum.integer_eq]
  rfl

end Operators

/-! ## Expressions -/

namespace Tree

theorem toSymbolic_eq_fold [Symbolic] {t : Tree} (ht : t ≠ empty) (evaluate : Bool) :
    t.toSymbolic evaluate = t.fold .lostResult (combineSymbolic evaluate) := by
  rw [toSymbolic, isEmpty_eq_false_iff.mpr ht, if_neg Bool.false_ne_true]

theorem rational?_operand (literal : String) :
    (operand literal).rational? = some (Literal.digitsValue literal.toList : ℚ) := rfl

theorem rational?_unary (symbol : String) (t : Tree) : (unary symbol t).rational? = t.rational?.map (- ·) := rfl

theorem rational?_binary (op : Operator) (left right : Tree) :
    (binary op.symbol left right).rational? =
      left.rational?.bind fun x => right.rational?.bind fun y => rationalPair? op x y := by
  simp [binary, rational?]

variable {t left right n : Tree} {symbol : String} {kind : Kind}

theorem Reaches.mem (h : t.Reaches n) : n ∈ t.postorder.map (·.tree) := by
  obtain ⟨before, after, hsplit, -⟩ := h
  rw [hsplit]
  exact List.mem_append_right before List.mem_cons_self

/-- An evaluation of a node begins with its left link. -/
theorem Reaches.of_left (h : left.Reaches n) : (node kind symbol left right).Reaches n := by
  obtain ⟨before, after, hsplit, hbefore⟩ := h
  refine ⟨before, after ++ right.postorder.map (·.tree) ++ [node kind symbol left right], ?_, hbefore⟩
  rw [map_tree_postorder_node, hsplit]
  simp

/-- It goes on to the right link if the left one has a value throughout. -/
theorem Reaches.of_right (hleft : ∀ m ∈ left.postorder.map (·.tree), m.rational? ≠ none) (h : right.Reaches n) :
    (node kind symbol left right).Reaches n := by
  obtain ⟨before, after, hsplit, hbefore⟩ := h
  refine ⟨left.postorder.map (·.tree) ++ before, after ++ [node kind symbol left right], ?_, ?_⟩
  · rw [map_tree_postorder_node, hsplit]
    simp
  · exact List.forall_mem_append.mpr ⟨hleft, hbefore⟩

/-- It ends with the root. -/
theorem reaches_root (hleft : ∀ m ∈ left.postorder.map (·.tree), m.rational? ≠ none)
    (hright : ∀ m ∈ right.postorder.map (·.tree), m.rational? ≠ none) :
    (node kind symbol left right).Reaches (node kind symbol left right) := by
  refine ⟨left.postorder.map (·.tree) ++ right.postorder.map (·.tree), [], ?_, ?_⟩
  · rw [map_tree_postorder_node]
  · exact List.forall_mem_append.mpr ⟨hleft, hright⟩

theorem rational?_ne_none_empty : ∀ m ∈ empty.postorder.map (·.tree), m.rational? ≠ none := by
  simp [map_tree_postorder_empty]

namespace IsExpression

/-- An expression has a value only if all its nodes have one. -/
theorem rational?_ne_none (h : t.IsExpression) :
    ∀ {q : ℚ}, t.rational? = some q → ∀ m ∈ t.postorder.map (·.tree), m.rational? ≠ none := by
  induction h with
  | operand hnum =>
    intro q hq
    have hroot := Option.ne_none_iff_exists'.mpr ⟨q, hq⟩
    exact forall_mem_postorder_node.mpr ⟨rational?_ne_none_empty, rational?_ne_none_empty, hroot⟩
  | @unary op right _ _ ih =>
    intro q hq
    obtain ⟨y, hy, -⟩ := Option.map_eq_some_iff.mp hq
    exact forall_mem_postorder_node.mpr ⟨rational?_ne_none_empty, ih hy, Option.ne_none_iff_exists'.mpr ⟨q, hq⟩⟩
  | @binary op left right _ _ _ ihl ihr =>
    intro q hq
    have hvalue := hq
    rw [rational?_binary, Option.bind_eq_some_iff] at hvalue
    obtain ⟨x, hx, hvalue⟩ := hvalue
    obtain ⟨y, hy, -⟩ := Option.bind_eq_some_iff.mp hvalue
    exact forall_mem_postorder_node.mpr ⟨ihl hx, ihr hy, Option.ne_none_iff_exists'.mpr ⟨q, hq⟩⟩

end IsExpression

/-- Exact evaluation ends with the rational value, or else with the error of the first node that has none. -/
inductive EndsRationally [Symbolic] (num : ℚ → Expr) (t : Tree) : Prop
  | value {q : ℚ} (hq : t.rational? = some q) (hfold : t.fold .lostResult (combineSymbolic true) = .ok (num q))
  | undefined {n : Tree} {z : ℚ} {error : String → EvalError} (hnone : t.rational? = none) (hreach : t.Reaches n)
    (hn : n.Undefined z error)
    (hfold : t.fold .lostResult (combineSymbolic true) = .error (.showing error (Symbolic.text (num z))))

namespace EndsRationally

variable [Symbolic] {num : ℚ → Expr} (hnum : ExactOn num)

include hnum

theorem operand {literal : String} (hproper : Literal.isProper literal = true)
    (hshort : literal.length ≤ Text.digitLimit) : (Tree.operand literal).EndsRationally num := by
  apply value (rational?_operand literal)
  rw [fold_operand]
  exact combineSymbolic_operand hnum hproper hshort

theorem unary (symbol : String) (ht : t ≠ empty) (h : t.EndsRationally num) :
    (Tree.unary symbol t).EndsRationally num := by
  cases h with
  | @value q hq hfold =>
    have hopposite : (Tree.unary symbol t).rational? = some (-q) := by
      rw [rational?_unary, hq]
      rfl
    apply value hopposite
    rw [fold_unary _ _ _ ht, hfold]
    exact hnum.opposite_eq q
  | undefined hnone hreach hn hfold =>
    refine undefined ?_ (hreach.of_right rational?_ne_none_empty) hn ?_
    · rw [rational?_unary, hnone]
      rfl
    · rw [fold_unary _ _ _ ht, hfold]
      rfl

/-- The left operand is evaluated first, then the right one, and then the operator is applied. -/
theorem binary {op : Operator} (hop : op.arity = 2) (hleft : left.IsExpression) (hright : right.IsExpression)
    (hpowers : (Tree.binary op.symbol left right).IntegerPowers) (hl : left.EndsRationally num)
    (hr : (∀ m ∈ left.postorder.map (·.tree), m.rational? ≠ none) → right.EndsRationally num) :
    (Tree.binary op.symbol left right).EndsRationally num := by
  have hrational := rational?_binary op left right
  have hfold := fold_binary Fault.lostResult (combineSymbolic true) op.symbol hleft.ne_empty hright.ne_empty
  cases hl with
  | @value x hx hfoldx =>
    have hvalued := hleft.rational?_ne_none hx
    rw [hx] at hrational
    rw [hfoldx] at hfold
    cases hr hvalued with
    | @value y hy hfoldy =>
      have hroot : (Tree.binary op.symbol left right).Reaches (.binary op.symbol left right) :=
        reaches_root hvalued (hright.rational?_ne_none hy)
      rw [hy] at hrational
      rw [hfoldy] at hfold
      cases hpair : rationalPair? op x y with
      | some q =>
        have happly := combineSymbolicPair_of_some hnum hpair fun hpow => hpowers left right (hpow ▸ hroot) y hy
        exact value (hrational.trans hpair) (hfold.trans happly)
      | none =>
        obtain ⟨z, error, herror, hfail⟩ := combineSymbolicPair_of_none hnum hop hx hy hpair
        exact undefined (hrational.trans hpair) hroot herror (hfold.trans hfail)
    | undefined hnone hreach hn hfoldy =>
      rw [hnone] at hrational
      rw [hfoldy] at hfold
      exact undefined hrational (hreach.of_right hvalued) hn hfold
  | undefined hnone hreach hn hfoldx =>
    rw [hnone] at hrational
    rw [hfoldx] at hfold
    exact undefined hrational hreach.of_left hn hfold

end EndsRationally

/-- The exact value is the rational value. If there is none, the error is that of the first node without a value. -/
theorem IsExpression.endsRationally [Symbolic] {num : ℚ → Expr} (hnum : ExactOn num) (h : t.IsExpression)
    (hleaves : ∀ leaf ∈ t.leaves, Literal.isProper leaf = true ∧ leaf.length ≤ Text.digitLimit)
    (hpowers : t.IntegerPowers) : t.EndsRationally num := by
  induction h with
  | @operand literal hliteral =>
    obtain ⟨hproper, hshort⟩ := hleaves literal List.mem_cons_self
    exact .operand hnum hproper hshort
  | @unary op right hop hright ih =>
    have hbelow : right.IntegerPowers := fun l r hreach => hpowers l r (hreach.of_right rational?_ne_none_empty)
    exact .unary hnum op.symbol hright.ne_empty (ih hleaves hbelow)
  | @binary op left right hop hleft hright ihl ihr =>
    rw [leaves_binary, List.forall_mem_append] at hleaves
    refine .binary hnum hop hleft hright hpowers (ihl hleaves.1 ?_) fun hvalued => ihr hleaves.2 ?_
    · exact fun l r hreach => hpowers l r hreach.of_left
    · exact fun l r hreach => hpowers l r (hreach.of_right hvalued)

end Tree

/-! ## Exact values -/

namespace Tree.Undefined

variable {n : Tree} {z : ℚ} {error : String → EvalError}

theorem rational?_eq_none (h : n.Undefined z error) : n.rational? = none := by
  cases h with
  | quotient hleft hright =>
    show (binary Operator.div.symbol _ _).rational? = none
    rw [rational?_binary, hleft, hright]
    simp [rationalPair?]
  | power hleft hright hy =>
    show (binary Operator.pow.symbol _ _).rational? = none
    rw [rational?_binary, hleft, hright]
    simp [rationalPair?, hy]

theorem kindName_eq (h : n.Undefined z error) (text : String) : (error text).kindName = "DivisionByZeroError" := by
  cases h <;> rfl

end Tree.Undefined

section

variable [Symbolic] {num : ℚ → Expr} {t : Tree}

theorem Tree.exactValue_of_ok (hnum : ExactOn num) {q : ℚ} (h : t.toSymbolic true = .ok (num q)) :
    t.exactValue = .ok (num q) := by
  rw [exactValue, h]
  simp only [bind, Except.bind, hnum.hasNonFinite_eq]
  rfl

theorem Tree.exactValue_of_error {fault : Fault} (h : t.toSymbolic true = .error fault) :
    t.exactValue = .error fault := by
  rw [exactValue, h]
  rfl

/-- **Exact evaluation is rational arithmetic.** Let the library of symbolic expressions be exact on the rational
numbers. Let all leaves of a well-formed tree be literals of digits, not too long, and let every power that an
evaluation in post-order comes to have an integer for its exponent. The rational value of the tree is its exact value,
and there is no other number that its exact value is. If it has none, the evaluation ends at the first node in
post-order that has no value. This is a quotient by zero or a negative power of zero, and the error tells its operand,
unless the library fails to write it. In no case is the error one of an overflow. -/
theorem exactValue_rational (hnum : ExactOn num) (hwell : t.WellFormed) (hsuited : t.Suited)
    (hleaves : ∀ leaf ∈ t.leaves, Literal.isProper leaf = true ∧ leaf.length ≤ Text.digitLimit)
    (hpowers : t.IntegerPowers) :
    (∀ q, t.rational? = some q ↔ t.exactValue = .ok (num q)) ∧
    (t.rational? = none → ∃ n z error, t.Reaches n ∧ n.rational? = none ∧ n.Undefined z error ∧
      (∀ text, (error text).kindName = "DivisionByZeroError") ∧
      t.exactValue = .error (.showing error (Symbolic.text (num z)))) ∧
    ∀ error, t.exactValue = .error (.expression error) → error.kindName ≠ "NumericOverflowError" := by
  have hends : (∃ q, t.rational? = some q ∧ t.exactValue = .ok (num q)) ∨
      t.rational? = none ∧ ∃ n z error, t.Reaches n ∧ n.Undefined z error ∧
        t.exactValue = .error (.showing error (Symbolic.text (num z))) := by
    by_cases hempty : t = .empty
    · have hzero : t.toSymbolic true = .ok (num 0) := by
        rw [hempty, ← Int.cast_zero, ← hnum.integer_eq]
        rfl
      refine .inl ⟨0, ?_, Tree.exactValue_of_ok hnum hzero⟩
      rw [hempty]
      rfl
    · have ht : t.IsExpression := Tree.isExpression_iff.mpr ⟨hempty, hwell, hsuited⟩
      have hfolds := Tree.toSymbolic_eq_fold hempty true
      cases ht.endsRationally hnum hleaves hpowers with
      | value hq hfold => exact .inl ⟨_, hq, Tree.exactValue_of_ok hnum (hfolds.trans hfold)⟩
      | undefined hnone hreach hn hfold =>
        exact .inr ⟨hnone, _, _, _, hreach, hn, Tree.exactValue_of_error (hfolds.trans hfold)⟩
  rcases hends with ⟨q, hq, hvalue⟩ | ⟨hnone, n, z, error, hreach, hn, hvalue⟩
  · refine ⟨?_, ?_, ?_⟩
    · intro q'
      rw [hq, hvalue, Option.some.injEq, Except.ok.injEq, hnum.injective.eq_iff]
    · intro hnone
      rw [hq] at hnone
      cases hnone
    · intro error herror
      rw [hvalue] at herror
      cases herror
  · refine ⟨?_, ?_, ?_⟩
    · intro q
      rw [hnone, hvalue]
      exact iff_of_false (fun h => nomatch h) fun h => nomatch h
    · intro _
      exact ⟨n, z, error, hreach, hn.rational?_eq_none, hn, hn.kindName_eq, hvalue⟩
    · intro told htold
      rw [hvalue] at htold
      cases htext : Symbolic.text (num z) with
      | ok text =>
        rw [htext] at htold
        cases htold
        rw [ExpressionError.kindName, hn.kindName_eq]
        decide
      | error fault =>
        rw [htext] at htold
        cases htold

end

/-- With the library that runs: the square of a fraction is 4. A difference of fractions is zero and has no negative
power. -/
theorem exactValue_rational_fractions :
    let half := Tree.binary "/" (.operand "3") (.operand "6")
    let square := Tree.binary "^" half (.unary "!" (.operand "2"))
    let power := Tree.binary "^" (.binary "-" half half) (.unary "!" (.operand "1"))
    square.exactValue = .ok (Term.rational 4) ∧
      power.exactValue = .error (.eval (.zeroToNegative (.exact "-1"))) := by
  intro half square power
  have hhalf : half.IsExpression := @Tree.IsExpression.binary .div _ _ rfl (.operand rfl) (.operand rfl)
  have hopposite (literal : String) (hliteral : Token.isNumeral literal = true) :
      (Tree.unary "!" (.operand literal)).IsExpression := @Tree.IsExpression.unary .neg _ rfl (.operand hliteral)
  have hsquare : square.IsExpression := @Tree.IsExpression.binary .pow _ _ rfl hhalf (hopposite "2" rfl)
  have hpower : power.IsExpression :=
    @Tree.IsExpression.binary .pow _ _ rfl (@Tree.IsExpression.binary .sub _ _ rfl hhalf hhalf) (hopposite "1" rfl)
  have hsquares : square.IntegerPowers := by
    intro left right hreach y hy
    have hmem := hreach.mem
    simp [square, half, Tree.binary, Tree.unary, Tree.operand, Tree.map_tree_postorder_node,
      Tree.map_tree_postorder_empty] at hmem
    obtain ⟨-, rfl⟩ := hmem
    cases hy
    rfl
  have hpowers : power.IntegerPowers := by
    intro left right hreach y hy
    have hmem := hreach.mem
    simp [power, half, Tree.binary, Tree.unary, Tree.operand, Tree.map_tree_postorder_node,
      Tree.map_tree_postorder_empty] at hmem
    obtain ⟨-, rfl⟩ := hmem
    cases hy
    rfl
  obtain ⟨hvalue, -⟩ :=
    exactValue_rational Symbolic.standard_exactOn hsquare.wellFormed hsquare.suited (by decide) hsquares
  obtain ⟨-, hfail, -⟩ :=
    exactValue_rational Symbolic.standard_exactOn hpower.wellFormed hpower.suited (by decide) hpowers
  obtain ⟨n, z, error, hreach, -, hn, -, hshown⟩ := hfail (by decide +kernel)
  refine ⟨(hvalue 4).mp (by decide +kernel), ?_⟩
  have hmem := hreach.mem
  cases hn with
  | quotient hleft hright =>
    simp [power, half, Tree.binary, Tree.unary, Tree.operand, Tree.map_tree_postorder_node,
      Tree.map_tree_postorder_empty] at hmem
    obtain ⟨-, rfl⟩ := hmem
    exact absurd hright (by decide +kernel)
  | power hleft hright hy =>
    simp [power, half, Tree.binary, Tree.unary, Tree.operand, Tree.map_tree_postorder_node,
      Tree.map_tree_postorder_empty] at hmem
    obtain ⟨-, rfl⟩ := hmem
    obtain rfl : z = (-1 : ℤ) := Option.some.inj (hright.symm.trans (by decide +kernel))
    have htext := Symbolic.standard_writesIntegers (-1) (Nat.one_lt_pow (by decide) (by decide))
    rw [Symbolic.standard_exactOn.integer_eq] at htext
    rw [hshown, htext]
    rfl

end Abacus
