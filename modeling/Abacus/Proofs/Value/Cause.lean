import Abacus.Proofs.Build.Outcome
import Abacus.Proofs.Value.Evaluate

/-!
# Evaluation errors and what they tell

An evaluation error names a division, a power, an operation or a literal. What it tells of them is so: the divisor
is zero, the result is not finite, the literal is a leaf of the expression. So each error of an expression can be
checked against the expression.

Results:
* `Literal.double_caused`, `applyBinary_caused`: what the errors of a literal and of an operator tell.
* `Tree.IsExpression.evaluate_caused`: what the errors of an expression tell.
* `assemble_evaluate`: the outcomes of evaluating a tree that was built.
-/

namespace Abacus

/-- What an error tells is so, for an expression with the given leaves. Errors of the exact evaluation tell nothing
of an evaluation in doubles. -/
inductive EvalError.Caused (leaves : List String) : EvalError → Prop
  | divisionByZero {left right : Float} (h : (right == 0) = true) :
    Caused leaves (.divisionByZero (.double left) (.double right))
  | zeroToNegative {exponent : Float} (h : exponent < 0) : Caused leaves (.zeroToNegative (.double exponent))
  | notFinite {op : Operator} {result left right : Float} (hop : op.arity = 2)
    (hkernel : kernelBinary op.code left right = .ok result)
    (h : (Binary64.ofFloat result).isFinite = false) : Caused leaves (.notFinite op.symbol result left right)
  | literalTooLarge {literal : String} {n : Nat} (hmem : literal ∈ leaves) (hvalue : Literal.value literal = .ok n)
    (h : Binary64.ofNat? n = none) : Caused leaves (.literalTooLarge literal)
  | notNumeric {literal : String} (hmem : literal ∈ leaves) (h : Literal.isProper literal = false) :
    Caused leaves (.notNumeric literal)

namespace EvalError.Caused

variable {leaves leaves' : List String} {e : EvalError}

theorem mono (h : e.Caused leaves) (hsub : ∀ literal ∈ leaves, literal ∈ leaves') : e.Caused leaves' := by
  cases h with
  | divisionByZero h => exact .divisionByZero h
  | zeroToNegative h => exact .zeroToNegative h
  | notFinite hop hkernel h => exact .notFinite hop hkernel h
  | literalTooLarge hmem hvalue h => exact .literalTooLarge (hsub _ hmem) hvalue h
  | notNumeric hmem h => exact .notNumeric (hsub _ hmem) h

theorem kindName_mem (h : e.Caused leaves) :
    e.kindName ∈ ["DivisionByZeroError", "NumericOverflowError", "NonNumericLiteralError"] := by
  cases h <;> simp [kindName]

end EvalError.Caused

/-! ## Nodes -/

theorem Literal.double_caused {literal : String} {e : EvalError} (h : double literal = .error (.eval e)) :
    e.Caused [literal] := by
  have hmem : literal ∈ [literal] := List.mem_cons_self
  rcases double_cases literal with ⟨n, x, -, -, hx⟩ | ⟨n, hvalue, hnear, hx⟩ | ⟨hproper, hx⟩ | ⟨-, -, hx⟩
  · rw [hx] at h
    cases h
  · rw [hx] at h
    cases h
    exact .literalTooLarge hmem hvalue hnear
  · rw [hx] at h
    cases h
    exact .notNumeric hmem hproper
  · rw [hx] at h
    cases h

theorem zeroDivisor?_caused {op : Operator} {left right : Float} {e : EvalError} (leaves : List String)
    (h : zeroDivisor? op left right = some e) : e.Caused leaves := by
  cases op with
  | div =>
    obtain ⟨hzero, rfl⟩ : (right == 0) = true ∧ .divisionByZero (.double left) (.double right) = e := by
      simpa [zeroDivisor?] using h
    exact .divisionByZero hzero
  | pow =>
    obtain ⟨⟨-, hneg⟩, rfl⟩ : ((left == 0) = true ∧ right < 0) ∧ .zeroToNegative (.double right) = e := by
      simpa [zeroDivisor?] using h
    exact .zeroToNegative hneg
  | add | sub | mul | neg => cases h

theorem applyBinary_caused {op : Operator} (hop : op.arity = 2) (leaves : List String) {left right : Float}
    {e : EvalError} (h : applyBinary op.symbol left right = .error (.eval e)) : e.Caused leaves := by
  rcases applyBinary_cases hop left right with ⟨e', hzero, he⟩ | ⟨x, hx, he⟩
  · rw [he] at h
    cases h
    exact zeroDivisor?_caused leaves hzero
  · rw [he] at h
    split at h
    · cases h
    · next hfinite =>
      cases h
      exact .notFinite hop hx (Bool.eq_false_iff.mpr hfinite)

/-- A unary operator has no errors of its own. -/
theorem applyUnary_ne_error {op : Operator} (hop : op.arity = 1) (operand : Float) (fault : Fault) :
    applyUnary op.symbol operand ≠ .error fault := by
  have hunary : Token.isUnary op.symbol = true := by simp [hop]
  simp [applyUnary, hunary]

/-! ## Expressions -/

namespace Tree.IsExpression

theorem fold_caused {t : Tree} (h : t.IsExpression) :
    ∀ e, t.fold .lostResult combineDoubles = .error (.eval e) → e.Caused t.leaves := by
  induction h with
  | @operand literal hnum =>
    intro e he
    rw [fold_operand] at he
    exact Literal.double_caused he
  | @unary op t hop ht ih =>
    intro e he
    rw [fold_unary _ _ _ ht.ne_empty] at he
    rcases bind_eq_error_iff.mp he with hbelow | ⟨x, -, hroot⟩
    · exact ih e hbelow
    · exact absurd hroot (applyUnary_ne_error hop x _)
  | @binary op left right hop hleft hright ihl ihr =>
    intro e he
    rw [fold_binary _ _ _ hleft.ne_empty hright.ne_empty] at he
    rw [leaves_binary]
    rcases bind_eq_error_iff.mp he with hbelow | ⟨x, -, he⟩
    · exact (ihl e hbelow).mono fun _ => List.mem_append_left _
    · rcases bind_eq_error_iff.mp he with hbelow | ⟨y, -, hroot⟩
      · exact (ihr e hbelow).mono fun _ => List.mem_append_right _
      · exact applyBinary_caused hop _ hroot

/-- What the error of an expression tells is so. -/
theorem evaluate_caused {t : Tree} (h : t.IsExpression) {e : EvalError} (he : t.evaluate = .error (.eval e)) :
    e.Caused t.leaves := by
  rw [evaluate_eq_fold h.ne_empty] at he
  exact h.fold_caused e he

end Tree.IsExpression

/-- **The outcomes of evaluating a tree that was built.** The value is a finite double, and its integer part has a
text; or there is an error of one of three kinds, and what it tells of its operation or of a leaf is so; or some leaf
consists of more digits than a literal may have, and this is the fault. Nothing else can happen. -/
theorem assemble_evaluate {fixity : Fixity} {tokens : List String} {t : Tree}
    (h : (assemble fixity tokens).result = .ok t) :
    (∃ x n, t.evaluate = .ok x ∧ (Binary64.ofFloat x).isFinite = true ∧
      (Binary64.ofFloat x).truncated = some n ∧ truncatedText x = .ok (toString n)) ∨
    (∃ e : EvalError, t.evaluate = .error (.eval e) ∧
      e.kindName ∈ ["DivisionByZeroError", "NumericOverflowError", "NonNumericLiteralError"] ∧
      e.Caused t.leaves) ∨
    ∃ literal ∈ t.leaves, Literal.isProper literal = true ∧ Text.digitLimit < literal.length ∧
      t.evaluate = .error (.literalLimit literal.length) := by
  have ht : t.IsExpression := (assemble_ofBuilder fixity tokens).tree t h
  have hgiven := ht.evaluate_given
  cases hvalue : t.evaluate with
  | ok x =>
    rw [hvalue] at hgiven
    cases hgiven with
    | value hfinite =>
      obtain ⟨n, hn, htext⟩ := truncatedText_of_isFinite hfinite
      exact .inl ⟨x, n, rfl, hfinite, hn, htext⟩
  | error fault =>
    rw [hvalue] at hgiven
    cases hgiven with
    | error e =>
      have hcaused := ht.evaluate_caused hvalue
      exact .inr (.inl ⟨e, rfl, hcaused.kindName_mem, hcaused⟩)
    | @tooLong literal hmem hproper hlong => exact .inr (.inr ⟨literal, hmem, hproper, hlong, rfl⟩)

/-- The divisor is a difference that vanishes. -/
theorem assemble_evaluate_vanishing :
    let t := Tree.binary "/" (.operand "5") (.binary "-" (.operand "2") (.operand "2"))
    (assemble .inFix ["5", "/", "(", "2", "-", "2", ")"]).result = .ok t ∧
      ∃ e : EvalError, t.evaluate = .error (.eval e) ∧ e.kindName = "DivisionByZeroError" ∧
        e.Caused ["5", "2", "2"] := by
  intro t
  have hbuilt : (assemble .inFix ["5", "/", "(", "2", "-", "2", ")"]).result = .ok t := rfl
  have hvalue : t.evaluate = .error (.eval (.divisionByZero (.double (Float.ofBits 0x4014000000000000))
      (.double (Float.ofBits 0)))) := by
    have hpresent (literal : String) : Tree.operand literal ≠ .empty := Tree.noConfusion
    show t.fold .lostResult combineDoubles = _
    rw [Tree.fold_binary _ _ _ (hpresent _) Tree.noConfusion, Tree.fold_binary _ _ _ (hpresent _) (hpresent _),
      Tree.fold_operand, Tree.fold_operand]
    rfl
  refine ⟨hbuilt, ?_⟩
  rcases assemble_evaluate hbuilt with ⟨x, n, hx, -⟩ | ⟨e, he, -, hcaused⟩ | ⟨literal, -, -, -, hlong⟩
  · rw [hvalue] at hx
    cases hx
  · refine ⟨e, he, ?_, hcaused⟩
    rw [hvalue] at he
    cases he
    rfl
  · rw [hvalue] at hlong
    cases hlong

end Abacus
