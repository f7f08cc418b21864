import Abacus.Proofs.Batch.Run
import Abacus.Proofs.Binary64.Whole
import Abacus.Proofs.Value.Rational

/-!
# Doubles and exact values on small integers

Both evaluations fold the same tree, one with doubles and the other with exact values. On sums, differences, products
and opposites they stay together as long as all values are integers of at most `2 ^ 53`: the double of a node holds the
exact value of the node. So no result is infinite, and both have one text.

Results:
* `Literal.holds_double`, `applyBinary_holds`: the doubles of a literal and of an operator hold the exact values.
* `Tree.IsExpression.exists_integerValue`: both evaluations of an expression, side by side.
* `evaluate_smallIntegers`: the double, the exact value and the texts of a whole tree.
-/

namespace Abacus

open Binary64 (Holds wholeLimit)
open Symbolic (Expr ExactOn)

/-! ## Operators on integers -/

/-- The operators that lead from integers to integers. -/
def integerSymbols : List String :=
  ["+", "-", "*", "!"]

theorem integerSymbols_cases {op : Operator} (hop : op.arity = 2) (h : op.symbol ∈ integerSymbols) :
    op = .add ∨ op = .sub ∨ op = .mul := by
  cases op with
  | add => exact .inl rfl
  | sub => exact .inr (.inl rfl)
  | mul => exact .inr (.inr rfl)
  | div | pow => exact absurd h (by decide)
  | neg => cases hop

/-- A binary operator on two integers gives an integer. If this is small, doubles that hold the operands give one that
holds the result. -/
theorem kernelBinary_holds {op : Operator} (hop : op.arity = 2) (hsymbol : op.symbol ∈ integerSymbols) {x y : Float}
    {p q : ℤ} (hx : Holds x p) (hy : Holds y q) :
    ∃ n : ℤ, rationalPair? op p q = some (n : ℚ) ∧ zeroDivisor? op x y = none ∧
      (n.natAbs ≤ wholeLimit → ∃ z, kernelBinary op.code x y = .ok z ∧ Holds z n) := by
  rcases integerSymbols_cases hop hsymbol with rfl | rfl | rfl
  · refine ⟨p + q, ?_, rfl, ?_⟩
    · rw [Int.cast_add]
      rfl
    · intro hle
      exact ⟨x + y, rfl, Binary64.holds_add hx hy (Int.cast_add p q).symm hle⟩
  · refine ⟨p - q, ?_, rfl, ?_⟩
    · rw [Int.cast_sub]
      rfl
    · intro hle
      exact ⟨x - y, rfl, Binary64.holds_sub hx hy (Int.cast_sub p q).symm hle⟩
  · refine ⟨p * q, ?_, rfl, ?_⟩
    · rw [Int.cast_mul]
      rfl
    · intro hle
      exact ⟨x * y, rfl, Binary64.holds_mul hx hy (Int.cast_mul p q).symm hle⟩

theorem applyBinary_holds {op : Operator} (hop : op.arity = 2) (hsymbol : op.symbol ∈ integerSymbols) {x y : Float}
    {p q : ℤ} (hx : Holds x p) (hy : Holds y q) :
    ∃ n : ℤ, rationalPair? op p q = some (n : ℚ) ∧
      (n.natAbs ≤ wholeLimit → ∃ z, applyBinary op.symbol x y = .ok z ∧ Holds z n) := by
  obtain ⟨n, hn, hdivisor, hkernel⟩ := kernelBinary_holds hop hsymbol hx hy
  refine ⟨n, hn, ?_⟩
  intro hle
  obtain ⟨z, hz, hholds⟩ := hkernel hle
  rcases applyBinary_cases hop x y with ⟨e, he, -⟩ | ⟨z', hz', happly⟩
  · rw [hdivisor] at he
    cases he
  · obtain rfl : z = z' := Except.ok.inj (hz.symm.trans hz')
    rw [if_pos (Binary64.isFinite_of_truncated hholds.truncated)] at happly
    exact ⟨z, happly, hholds⟩

theorem Literal.holds_double {literal : String} (hproper : isProper literal = true)
    (hshort : literal.length ≤ Text.digitLimit) (hle : digitsValue literal.toList ≤ wholeLimit) :
    ∃ x, double literal = .ok x ∧ Holds x (digitsValue literal.toList) := by
  have hvalue := value_eq_ok hproper hshort
  obtain ⟨x, hx, hholds⟩ := Binary64.holds_ofNat? hle
  refine ⟨x, ?_, hholds⟩
  simp only [double, hvalue, bind, Except.bind, hx]
  rfl

/-! ## Both evaluations -/

namespace Tree

/-- No node of the tree has a value of more than `2 ^ 53`, whatever its sign. -/
def SmallValues (t : Tree) : Prop :=
  ∀ m ∈ t.postorder.map (·.tree), ∀ q, m.rational? = some q → |q| ≤ 2 ^ 53

variable {t left right : Tree} {symbol : String} {kind : Kind}

theorem SmallValues.of_left (h : (node kind symbol left right).SmallValues) : left.SmallValues :=
  (forall_mem_postorder_node.mp h).1

theorem SmallValues.of_right (h : (node kind symbol left right).SmallValues) : right.SmallValues :=
  (forall_mem_postorder_node.mp h).2.1

/-- The value of the tree itself is one of these. -/
theorem SmallValues.natAbs_le (h : t.SmallValues) {n : ℤ} (hn : t.rational? = some (n : ℚ)) :
    n.natAbs ≤ wholeLimit := by
  cases t with
  | empty =>
    have hzero : (n : ℚ) = 0 := (Option.some.inj hn).symm
    rw [Int.cast_eq_zero.mp hzero]
    exact Nat.zero_le _
  | node kind symbol left right =>
    have hroot : |(n : ℚ)| ≤ 2 ^ 53 := (forall_mem_postorder_node.mp h).2.2 n hn
    have hint : |n| ≤ 2 ^ 53 := by exact_mod_cast hroot
    rw [Int.abs_eq_natAbs] at hint
    exact_mod_cast hint

section Evaluations

variable [Symbolic] {num : ℚ → Expr}

/-- Both evaluations of a tree, with an integer for the exact value and a double that holds it. -/
structure IntegerValue (num : ℚ → Expr) (t : Tree) (n : ℤ) (x : Float) : Prop where
  rational? : t.rational? = some (n : ℚ)
  holds : Holds x n
  double : t.fold .lostResult combineDoubles = .ok x
  exact : t.fold .lostResult (combineSymbolic true) = .ok (num n)

variable (hnum : ExactOn num)

include hnum

theorem IntegerValue.operand {literal : String} (hproper : Literal.isProper literal = true)
    (hshort : literal.length ≤ Text.digitLimit) (hle : Literal.digitsValue literal.toList ≤ wholeLimit) :
    ∃ x, (Tree.operand literal).IntegerValue num (Literal.digitsValue literal.toList) x := by
  obtain ⟨x, hx, hholds⟩ := Literal.holds_double hproper hshort hle
  refine ⟨x, ?_, ?_, ?_, ?_⟩
  · rw [rational?_operand, Int.cast_natCast]
  · rw [Int.cast_natCast]
    exact hholds
  · rw [fold_operand]
    exact hx
  · rw [fold_operand, Int.cast_natCast]
    exact combineSymbolic_operand hnum hproper hshort

theorem IntegerValue.unary {op : Operator} (hop : op.arity = 1) (ht : t ≠ .empty) {n : ℤ} {x : Float}
    (h : t.IntegerValue num n x) : (Tree.unary op.symbol t).IntegerValue num (-n) (-x) := by
  refine ⟨?_, ?_, ?_, ?_⟩
  · rw [rational?_unary, h.rational?, Int.cast_neg]
    rfl
  · rw [Int.cast_neg]
    exact Binary64.holds_neg h.holds
  · rw [fold_unary _ _ _ ht, h.double]
    exact applyUnary_eq_ok hop x
  · rw [fold_unary _ _ _ ht, h.exact, Int.cast_neg]
    exact hnum.opposite_eq n

theorem IntegerValue.binary {op : Operator} (hop : op.arity = 2) (hsymbol : op.symbol ∈ integerSymbols)
    (hleft : left ≠ .empty) (hright : right ≠ .empty) {p q : ℤ} {x y : Float} (hx : left.IntegerValue num p x)
    (hy : right.IntegerValue num q y) :
    ∃ n : ℤ, (Tree.binary op.symbol left right).rational? = some (n : ℚ) ∧
      (n.natAbs ≤ wholeLimit → ∃ z, (Tree.binary op.symbol left right).IntegerValue num n z) := by
  obtain ⟨n, hn, happly⟩ := applyBinary_holds hop hsymbol hx.holds hy.holds
  have hvalue : (Tree.binary op.symbol left right).rational? = some (n : ℚ) := by
    rw [rational?_binary, hx.rational?, hy.rational?]
    exact hn
  refine ⟨n, hvalue, ?_⟩
  intro hle
  obtain ⟨z, hz, hholds⟩ := happly hle
  refine ⟨z, hvalue, hholds, ?_, ?_⟩
  · rw [fold_binary _ _ _ hleft hright, hx.double, hy.double]
    exact hz
  · rw [fold_binary _ _ _ hleft hright, hx.exact, hy.exact]
    apply combineSymbolicPair_of_some hnum hn
    rintro rfl
    exact absurd hsymbol (by decide)

/-- The exact value of an expression is an integer, and its double holds it. -/
theorem IsExpression.exists_integerValue (h : t.IsExpression)
    (hsymbols : ∀ symbol ∈ t.operatorTokens, symbol ∈ integerSymbols)
    (hleaves : ∀ leaf ∈ t.leaves, Literal.isProper leaf = true ∧ leaf.length ≤ Text.digitLimit)
    (hsmall : t.SmallValues) : ∃ n x, t.IntegerValue num n x := by
  induction h with
  | @operand literal hliteral =>
    obtain ⟨hproper, hshort⟩ := hleaves literal List.mem_cons_self
    have hle : Literal.digitsValue literal.toList ≤ wholeLimit := by
      apply @SmallValues.natAbs_le _ hsmall (Literal.digitsValue literal.toList)
      rw [rational?_operand, Int.cast_natCast]
    exact ⟨_, IntegerValue.operand hnum hproper hshort hle⟩
  | @unary op right hop hright ih =>
    rw [operatorTokens_unary, List.forall_mem_cons] at hsymbols
    obtain ⟨n, x, hvalue⟩ := ih hsymbols.2 hleaves hsmall.of_right
    exact ⟨-n, -x, hvalue.unary hnum hop hright.ne_empty⟩
  | @binary op left right hop hleft hright ihl ihr =>
    rw [operatorTokens_binary, List.forall_mem_append, List.forall_mem_cons] at hsymbols
    rw [leaves_binary, List.forall_mem_append] at hleaves
    obtain ⟨p, x, hx⟩ := ihl hsymbols.1 hleaves.1 hsmall.of_left
    obtain ⟨q, y, hy⟩ := ihr hsymbols.2.2 hleaves.2 hsmall.of_right
    -- The exact value comes first: that it is small is what makes the double finite and exact.
    obtain ⟨n, hn, hvalue⟩ := IntegerValue.binary hnum hop hsymbols.2.1 hleft.ne_empty hright.ne_empty hx hy
    exact ⟨n, hvalue (hsmall.natAbs_le hn)⟩

end Evaluations

end Tree

/-! ## Texts -/

/-- A small number has fewer digits than a text may have. -/
theorem lt_pow_digitLimit {k : ℕ} (hle : k ≤ wholeLimit) : k < 10 ^ Text.digitLimit := by
  have hfew : k < 10 ^ 16 := Nat.lt_of_le_of_lt hle (by decide)
  apply Nat.lt_of_lt_of_le hfew
  apply Nat.pow_le_pow_right
  · decide
  · decide

theorem valueText_of_exactValue [Symbolic] {num : ℚ → Expr} (hnum : ExactOn num) (htexts : Symbolic.WritesIntegers)
    {options : Options} (hexact : options.exact = true) {t : Tree} {n : ℤ} (hle : n.natAbs ≤ wholeLimit)
    (h : t.exactValue = .ok (num n)) : valueText options t = .ok (toString n) := by
  rw [valueText, if_pos hexact, Tree.exactText, h, ← hnum.integer_eq]
  exact congrArg Symbolic.lifted (htexts n (lt_pow_digitLimit hle))

theorem Binary64.holds_zero : Holds 0 0 :=
  .zero .positive

/-- **Doubles are exact on small integers.** Let the library of symbolic expressions be exact on the rational numbers and
write integers in decimal form. Let a well-formed tree consist of sums, differences, products and opposites of literals
of digits, not too long, and let no node of it have a value of more than `2 ^ 53`. The tree has an integer for its
value. Evaluation in doubles gives the double with this value, and exact evaluation gives the integer itself. Without
its fractional part the double has the same text as the exact value. -/
theorem evaluate_smallIntegers [Symbolic] {num : ℚ → Expr} (hnum : ExactOn num) (htexts : Symbolic.WritesIntegers)
    {t : Tree} (hwell : t.WellFormed) (hsuited : t.Suited)
    (hsymbols : ∀ symbol ∈ t.operatorTokens, symbol ∈ integerSymbols)
    (hleaves : ∀ leaf ∈ t.leaves, Literal.isProper leaf = true ∧ leaf.length ≤ Text.digitLimit)
    (hsmall : t.SmallValues) :
    ∃ (n : ℤ) (x : Float), t.rational? = some (n : ℚ) ∧
      t.evaluate = .ok x ∧ (Binary64.ofFloat x).value? = some (n : ℚ) ∧
      t.exactValue = .ok (num n) ∧
      ∀ options : Options,
        valueText { options with integerOutput := true, exact := false } t = .ok (toString n) ∧
        valueText { options with exact := true } t = .ok (toString n) := by
  obtain ⟨n, x, hn, hholds, hdouble, hexact⟩ : ∃ (n : ℤ) (x : Float), t.rational? = some (n : ℚ) ∧ Holds x n ∧
      t.evaluate = .ok x ∧ t.toSymbolic true = .ok (num n) := by
    by_cases hempty : t = .empty
    · subst hempty
      exact ⟨0, 0, rfl, Binary64.holds_zero, rfl, congrArg Except.ok (hnum.integer_eq 0)⟩
    · have ht : t.IsExpression := Tree.isExpression_iff.mpr ⟨hempty, hwell, hsuited⟩
      obtain ⟨n, x, h⟩ := ht.exists_integerValue hnum hsymbols hleaves hsmall
      rw [Tree.evaluate_eq_fold hempty, Tree.toSymbolic_eq_fold hempty]
      exact ⟨n, x, h.rational?, h.holds, h.double, h.exact⟩
  have hvalue := Tree.exactValue_of_ok hnum hexact
  refine ⟨n, x, hn, hdouble, hholds.value?, hvalue, ?_⟩
  intro options
  refine ⟨?_, ?_⟩
  · rw [valueText_of_evaluate rfl hdouble]
    exact truncatedText_of_truncated hholds.truncated
  · exact valueText_of_exactValue hnum htexts rfl (hsmall.natAbs_le hn) hvalue

/-- A product that is a negative zero in doubles, with the library that runs. Its value is 0, and so is its text. -/
theorem evaluate_smallIntegers_negativeZero :
    let t := Tree.binary "*" (.unary "!" (.operand "9007199254740992")) (.operand "0")
    ∃ x, t.evaluate = .ok x ∧ (Binary64.ofFloat x).value? = some 0 ∧ valueText ⟨false, true, false⟩ t = .ok "0" ∧
      valueText ⟨false, true, true⟩ t = .ok "0" := by
  intro t
  have ht : t.IsExpression := @Tree.IsExpression.binary .mul _ _ rfl
    (@Tree.IsExpression.unary .neg _ rfl (.operand rfl)) (.operand rfl)
  have hliteral : (Tree.operand "9007199254740992").rational? = some 9007199254740992 := rfl
  have hzero : (Tree.operand "0").rational? = some 0 := rfl
  have hopposite : (Tree.unary "!" (.operand "9007199254740992")).rational? = some (-9007199254740992) := by
    rw [Tree.rational?_unary, hliteral]
    rfl
  have hproduct : t.rational? = some 0 := by
    show (Tree.binary Operator.mul.symbol _ _).rational? = _
    rw [Tree.rational?_binary, hopposite, hzero]
    simp [rationalPair?]
  have hsmall : t.SmallValues := by
    intro m hm q hq
    simp [t, Tree.binary, Tree.unary, Tree.operand, Tree.map_tree_postorder_node,
      Tree.map_tree_postorder_empty] at hm
    rcases hm with rfl | rfl | rfl | rfl
    · obtain rfl := Option.some.inj (hliteral.symm.trans hq)
      norm_num
    · obtain rfl := Option.some.inj (hopposite.symm.trans hq)
      norm_num
    · obtain rfl := Option.some.inj (hzero.symm.trans hq)
      norm_num
    · obtain rfl := Option.some.inj (hproduct.symm.trans hq)
      norm_num
  obtain ⟨n, x, hn, hdouble, hvalue, -, htexts⟩ := evaluate_smallIntegers Symbolic.standard_exactOn
    Symbolic.standard_writesIntegers ht.wellFormed ht.suited (by decide) (by decide) hsmall
  obtain rfl : n = 0 := by
    have hcast : (n : ℚ) = 0 := Option.some.inj (hn.symm.trans hproduct)
    exact_mod_cast hcast
  exact ⟨x, hdouble, by simpa using hvalue, htexts ⟨false, true, true⟩⟩

end Abacus
