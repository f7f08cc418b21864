import Abacus.Proofs.Binary64.Finite
import Abacus.Proofs.Tree.Fold
import Abacus.Proofs.Tree.Tokens
import Abacus.Value.Evaluate

/-!
# What evaluating an expression can give

The operators give finite doubles or evaluation errors, whatever finite doubles they are applied to. So what goes
wrong in an expression is an evaluation error, with one exception: a literal with more digits than an integer may
have in a text.

Results:
* `truncatedText_of_isFinite`: a finite double has an integer text.
* `Literal.double_cases`, `applyBinary_cases`: what a literal and an operator can give, case by case.
* `Literal.double_given`, `applyBinary_given`, `applyUnary_given`: this, for finite operands.
* `Tree.IsTerm.evaluate_given`: the outcomes of evaluating a term, so of an expression too.
-/

namespace Abacus

/-! ## Integer texts -/

theorem integerText_of_lt {n : Int} {digits : Nat} (hdigits : digits ≤ Text.digitLimit)
    (hn : n.natAbs < 10 ^ digits) : integerText n = .ok (toString n) := by
  have hlimit : n.natAbs < Nat.pow 10 Text.digitLimit := by
    apply Nat.lt_of_lt_of_le hn
    apply Nat.pow_le_pow_right
    · decide
    · exact hdigits
  exact if_pos hlimit

theorem truncatedText_of_isFinite {x : Float} (h : (Binary64.ofFloat x).isFinite = true) :
    ∃ n : Int, (Binary64.ofFloat x).truncated = some n ∧ truncatedText x = .ok (toString n) := by
  obtain ⟨n, hn, hlt⟩ := Binary64.truncated_of_isFinite h
  have hpow (k : Nat) : 2 ^ k ≤ 10 ^ k := Nat.pow_le_pow_left (by decide) k
  have hdecimal : n.natAbs < 10 ^ Binary64.integerBits := Nat.lt_of_lt_of_le hlt (hpow _)
  refine ⟨n, hn, ?_⟩
  rw [truncatedText, hn]
  exact integerText_of_lt (by decide) hdecimal

theorem truncatedText_of_truncated {x : Float} {n : Int} (h : (Binary64.ofFloat x).truncated = some n) :
    truncatedText x = .ok (toString n) := by
  obtain ⟨n', hn', htext⟩ := truncatedText_of_isFinite (Binary64.isFinite_of_truncated h)
  obtain rfl : n = n' := Option.some.inj (h.symm.trans hn')
  exact htext

/-! ## Outcomes -/

/-- The outcomes of an evaluation that reads the given literals. -/
inductive Given (literals : List String) : Except Fault Float → Prop
  /-- A finite double. -/
  | value {x : Float} (h : (Binary64.ofFloat x).isFinite = true) : Given literals (.ok x)
  /-- An error of the expression. -/
  | error (e : EvalError) : Given literals (.error (.eval e))
  /-- A proper literal with too many digits. -/
  | tooLong {literal : String} (hmem : literal ∈ literals) (hproper : Literal.isProper literal = true)
      (hlong : Text.digitLimit < literal.length) : Given literals (.error (.literalLimit literal.length))

namespace Given

variable {literals literals' : List String}

theorem mono (hsub : ∀ literal ∈ literals, literal ∈ literals') {r : Except Fault Float}
    (h : Given literals r) : Given literals' r := by
  cases h with
  | value h => exact .value h
  | error e => exact .error e
  | tooLong hmem hproper hlong => exact .tooLong (hsub _ hmem) hproper hlong

theorem bind {r : Except Fault Float} {f : Float → Except Fault Float} (h : Given literals r)
    (hf : ∀ x, (Binary64.ofFloat x).isFinite = true → Given literals (f x)) : Given literals (r >>= f) := by
  cases h with
  | value h => exact hf _ h
  | error e => exact .error e
  | tooLong hmem hproper hlong => exact .tooLong hmem hproper hlong

end Given

/-! ## Nodes -/

namespace Literal

theorem value_of_isProper {literal : String} (hproper : isProper literal = true) :
    value literal =
      if Text.digitLimit < literal.length then .error (.literalLimit literal.length)
      else .ok (digitsValue literal.toList) := by
  rw [value, hproper]
  rfl

theorem value_eq_ok {literal : String} (hproper : isProper literal = true)
    (hshort : literal.length ≤ Text.digitLimit) : value literal = .ok (digitsValue literal.toList) := by
  rw [value_of_isProper hproper]
  exact if_neg (Nat.not_lt.mpr hshort)

/-- What reading a literal can give. -/
theorem double_cases (literal : String) :
    (∃ n x, value literal = .ok n ∧ Binary64.ofNat? n = some x ∧ double literal = .ok x) ∨
    (∃ n, value literal = .ok n ∧ Binary64.ofNat? n = none ∧
      double literal = .error (.eval (.literalTooLarge literal))) ∨
    (isProper literal = false ∧ double literal = .error (.eval (.notNumeric literal))) ∨
    (isProper literal = true ∧ Text.digitLimit < literal.length ∧
      double literal = .error (.literalLimit literal.length)) := by
  by_cases hproper : isProper literal = true
  · have hvalue := value_of_isProper hproper
    by_cases hlong : Text.digitLimit < literal.length
    · rw [if_pos hlong] at hvalue
      refine .inr (.inr (.inr ⟨hproper, hlong, ?_⟩))
      rw [double, hvalue]
      rfl
    · rw [if_neg hlong] at hvalue
      cases hnear : Binary64.ofNat? (digitsValue literal.toList) with
      | some x =>
        refine .inl ⟨_, x, hvalue, hnear, ?_⟩
        simp only [double, hvalue, bind, Except.bind, hnear]
        rfl
      | none =>
        refine .inr (.inl ⟨_, hvalue, hnear, ?_⟩)
        simp only [double, hvalue, bind, Except.bind, hnear]
        rfl
  · have himproper : isProper literal = false := Bool.eq_false_iff.mpr hproper
    have hvalue : value literal = .error (.eval (.notNumeric literal)) := by
      rw [value, himproper]
      rfl
    refine .inr (.inr (.inl ⟨himproper, ?_⟩))
    rw [double, hvalue]
    rfl

theorem double_given (literal : String) : Given [literal] (double literal) := by
  rcases double_cases literal with ⟨n, x, -, hnear, h⟩ | ⟨n, -, -, h⟩ | ⟨-, h⟩ | ⟨hproper, hlong, h⟩
  · rw [h]
    exact .value (Binary64.isFinite_of_ofNat? hnear)
  · rw [h]
    exact .error _
  · rw [h]
    exact .error _
  · rw [h]
    exact .tooLong List.mem_cons_self hproper hlong

end Literal

theorem Operator.ofCode?_code (op : Operator) : ofCode? op.code = some op := by
  cases op <;> rfl

/-- The checks before the kernel leave it no division by zero. -/
theorem kernelBinary_eq_ok {op : Operator} {left right : Float} (h : zeroDivisor? op left right = none) :
    ∃ x, kernelBinary op.code left right = .ok x := by
  rw [kernelBinary, Operator.ofCode?_code]
  cases op with
  | div =>
    cases hright : right == 0 with
    | false => exact ⟨left / right, rfl⟩
    | true => simp [zeroDivisor?, hright] at h
  | add | sub | mul | pow | neg => exact ⟨_, rfl⟩

/-- What a binary operator can give: the error of a zero divisor, or what the kernel gives if this is finite. -/
theorem applyBinary_cases {op : Operator} (hop : op.arity = 2) (left right : Float) :
    (∃ e, zeroDivisor? op left right = some e ∧ applyBinary op.symbol left right = .error (.eval e)) ∨
    ∃ x, kernelBinary op.code left right = .ok x ∧
      applyBinary op.symbol left right = if (Binary64.ofFloat x).isFinite = true then .ok x
        else .error (.eval (.notFinite op.symbol x left right)) := by
  have hbinary : Token.isBinary op.symbol = true := by simp [hop]
  simp only [applyBinary, hbinary, Bool.not_true, Bool.false_eq_true, if_false, Operator.ofSymbol?_symbol]
  cases hzero : zeroDivisor? op left right with
  | some e => exact .inl ⟨e, rfl, rfl⟩
  | none =>
    obtain ⟨x, hx⟩ := kernelBinary_eq_ok hzero
    refine .inr ⟨x, hx, ?_⟩
    rw [hx]
    rfl

theorem applyBinary_given {op : Operator} (hop : op.arity = 2) (literals : List String) (left right : Float) :
    Given literals (applyBinary op.symbol left right) := by
  rcases applyBinary_cases hop left right with ⟨e, -, h⟩ | ⟨x, -, h⟩
  · rw [h]
    exact .error e
  · rw [h]
    split
    · next hfinite => exact .value hfinite
    · exact .error _

/-- The only unary operator is the negation. -/
theorem applyUnary_eq_ok {op : Operator} (hop : op.arity = 1) (operand : Float) :
    applyUnary op.symbol operand = .ok (-operand) := by
  have hunary : Token.isUnary op.symbol = true := by simp [hop]
  have hneg : kernelUnary op.code operand = -operand := by
    rw [Operator.arity_eq_one_iff.mp hop]
    rfl
  simp only [applyUnary, hunary, Bool.not_true, Bool.false_eq_true, if_false, Operator.ofSymbol?_symbol, hneg]

theorem applyUnary_given {op : Operator} (hop : op.arity = 1) (literals : List String) {operand : Float}
    (h : (Binary64.ofFloat operand).isFinite = true) : Given literals (applyUnary op.symbol operand) := by
  rw [applyUnary_eq_ok hop]
  exact .value (Binary64.isFinite_neg h)

/-! ## Terms and expressions -/

namespace Tree

theorem evaluate_eq_fold {t : Tree} (ht : t ≠ empty) : t.evaluate = t.fold .lostResult combineDoubles := by
  rw [evaluate, isEmpty_eq_false_iff.mpr ht, if_neg Bool.false_ne_true]

theorem evaluate_operand (literal : String) : (operand literal).evaluate = Literal.double literal := by
  rw [evaluate_eq_fold Tree.noConfusion]
  exact fold_operand _ _ literal

theorem IsTerm.fold_given {t : Tree} (h : t.IsTerm) : Given t.leaves (t.fold .lostResult combineDoubles) := by
  induction h with
  | @operand literal _ =>
    rw [fold_operand]
    exact Literal.double_given literal
  | @unary op t hop ht ih =>
    rw [fold_unary _ _ _ ht.ne_empty]
    exact ih.bind fun x hx => applyUnary_given hop _ hx
  | @binary op left right hop hleft hright ihl ihr =>
    rw [fold_binary _ _ _ hleft.ne_empty hright.ne_empty, leaves_binary]
    refine (ihl.mono fun _ => List.mem_append_left _).bind fun x _ => ?_
    refine (ihr.mono fun _ => List.mem_append_right _).bind fun y _ => ?_
    exact applyBinary_given hop _ x y

/-- **What evaluating a term can give**: a finite double, an evaluation error, or the fault of one of its leaves that
is a literal with too many digits. -/
theorem IsTerm.evaluate_given {t : Tree} (h : t.IsTerm) : Given t.leaves t.evaluate := by
  rw [evaluate_eq_fold h.ne_empty]
  exact h.fold_given

theorem IsExpression.evaluate_given {t : Tree} (h : t.IsExpression) : Given t.leaves t.evaluate :=
  h.isTerm.evaluate_given

end Tree

end Abacus
