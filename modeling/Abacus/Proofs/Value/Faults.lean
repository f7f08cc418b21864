import Abacus.Batch.Run
import Abacus.Proofs.Steps
import Abacus.Proofs.Value.Evaluate

/-!
# The faults of a value

A tree has a value, or a fault that comes from one of its nodes. Nodes do not read tokens, so none of these faults is
an error of reading tokens; those come from the builders only.

Results:
* `Tree.fold_fails`: the faults of a bottom-up evaluation are those of its nodes.
* `valueText_unread`: the faults of a value are no errors of reading tokens.
-/

namespace Abacus

/-! ## Bottom-up evaluation -/

section Folds

variable {α ε : Type} {lost : ε} {p : ε → Prop}

theorem Tree.results_fails {combine : Kind → String → List α → Except ε α}
    (hcombine : ∀ kind token values e, combine kind token values = .error e → p e) {t : Tree} {e : ε}
    (h : t.results combine = .error e) : p e := by
  induction t with
  | empty => cases h
  | node kind token left right ihl ihr =>
    rcases bind_eq_error_iff.mp h with hleft | ⟨ls, -, h⟩
    · exact ihl hleft
    rcases bind_eq_error_iff.mp h with hright | ⟨rs, -, h⟩
    · exact ihr hright
    rcases bind_eq_error_iff.mp h with hnode | ⟨a, -, hdone⟩
    · exact hcombine _ _ _ e hnode
    · cases hdone

/-- A bottom-up evaluation fails as its nodes fail. -/
theorem Tree.fold_fails {combine : Kind → String → List α → Except ε α} (hlost : p lost)
    (hcombine : ∀ kind token values e, combine kind token values = .error e → p e) {t : Tree} {e : ε}
    (h : t.fold lost combine = .error e) : p e := by
  rw [fold_eq_results] at h
  rcases bind_eq_error_iff.mp h with hresults | ⟨as, -, hroot⟩
  · exact results_fails hcombine hresults
  · split at hroot
    · cases hroot
      exact hlost
    · cases hroot

end Folds

/-! ## Faults other than those of reading tokens -/

/-- Is this an error of reading tokens? -/
def Fault.isBuild : Fault → Bool
  | expression (.build _) => true
  | _ => false

/-- An operation fails, if at all, with another fault than an error of reading tokens. -/
def Unread {α : Type} (r : Except Fault α) : Prop :=
  ∀ fault, r = .error fault → fault.isBuild = false

namespace Unread

variable {α β : Type}

theorem ok (a : α) : Unread (.ok a) := by
  rintro fault ⟨⟩

theorem error {fault : Fault} (h : fault.isBuild = false) : Unread (.error fault : Except Fault α) := by
  rintro fault' ⟨⟩
  exact h

theorem bind {r : Except Fault α} {f : α → Except Fault β} (hr : Unread r) (hf : ∀ a, Unread (f a)) :
    Unread (r >>= f) := by
  intro fault h
  rcases bind_eq_error_iff.mp h with hfail | ⟨a, -, hfail⟩
  · exact hr fault hfail
  · exact hf a fault hfail

end Unread

theorem Literal.value_unread (literal : String) : Unread (value literal) := by
  unfold value
  split
  · exact .error rfl
  · split
    · exact .error rfl
    · exact .ok _

theorem twoValues_unread {α : Type} (values : List α) : Unread (twoValues values) := by
  unfold twoValues
  split
  · exact .ok _
  · exact .error rfl

theorem lastValue_unread {α : Type} (values : List α) : Unread (lastValue values) := by
  unfold lastValue
  split
  · exact .ok _
  · exact .error rfl

theorem lifted_unread {α : Type} (r : Except ForeignFault α) : Unread (Symbolic.lifted r) := by
  cases r with
  | ok a => exact .ok a
  | error fault => exact .error rfl

/-- An error that shows an expression is an evaluation error, or one of the library. -/
theorem throw_unread {α : Type} {error : String → EvalError} (text : Except ForeignFault String) :
    Unread (Symbolic.lifted text >>= fun text => throw (.eval (error text)) : Except Fault α) :=
  (lifted_unread text).bind fun _ => .error rfl

section Library

variable [Symbolic]

theorem combineSymbolicPair_unread (evaluate : Bool) (symbol : String) (left right : Symbolic.Expr) :
    Unread (combineSymbolicPair evaluate symbol left right) := by
  unfold combineSymbolicPair
  split
  · exact lifted_unread _
  · exact (lifted_unread _).bind fun _ => lifted_unread _
  · exact lifted_unread _
  · split
    · exact throw_unread _
    · exact (lifted_unread _).bind fun _ => lifted_unread _
  · split
    · exact throw_unread _
    · exact lifted_unread _

theorem combineSymbolic_unread (evaluate : Bool) (kind : Kind) (token : String) (values : List Symbolic.Expr) :
    Unread (combineSymbolic evaluate kind token values) := by
  cases kind with
  | operand => exact (Literal.value_unread token).bind fun n => .ok _
  | binary => exact (twoValues_unread values).bind fun pair => combineSymbolicPair_unread evaluate token _ _
  | unary => exact (lastValue_unread values).bind fun value => lifted_unread _

end Library

theorem applyBinary_unread (symbol : String) (left right : Float) : Unread (applyBinary symbol left right) := by
  unfold applyBinary
  split
  · exact .error rfl
  · split
    · exact .error rfl
    · next op hop =>
      obtain rfl := Operator.ofSymbol?_eq_some_iff.mp hop
      split
      · exact .error rfl
      · next hzero =>
        obtain ⟨x, hx⟩ := kernelBinary_eq_ok hzero
        rw [hx]
        show Unread (if _ then _ else _)
        split
        · exact .ok x
        · exact .error rfl

theorem combineDoubles_unread (kind : Kind) (token : String) (values : List Float) :
    Unread (combineDoubles kind token values) := by
  cases kind with
  | operand =>
    refine (Literal.value_unread token).bind fun n => ?_
    split
    · exact .ok _
    · exact .error rfl
  | binary => exact (twoValues_unread values).bind fun pair => applyBinary_unread token _ _
  | unary =>
    refine (lastValue_unread values).bind fun value => ?_
    unfold applyUnary
    split
    · exact .error rfl
    · split
      · exact .error rfl
      · exact .ok _

namespace Tree

theorem evaluate_unread (t : Tree) : Unread t.evaluate := by
  unfold evaluate
  split
  · exact .ok 0
  · exact fun fault => fold_fails (p := fun fault : Fault => fault.isBuild = false) rfl combineDoubles_unread

variable [Symbolic]

theorem toSymbolic_unread (evaluate : Bool) (t : Tree) : Unread (t.toSymbolic evaluate) := by
  unfold toSymbolic
  split
  · exact .ok _
  · exact fun fault => fold_fails (p := fun fault : Fault => fault.isBuild = false) rfl (combineSymbolic_unread evaluate)

theorem exactValue_unread (t : Tree) : Unread t.exactValue := by
  refine (t.toSymbolic_unread true).bind fun result => ?_
  split
  · exact throw_unread _
  · exact .ok result

end Tree

theorem truncatedText_unread (x : Float) : Unread (truncatedText x) := by
  unfold truncatedText integerText
  split
  · split
    · exact .ok _
    · exact .error rfl
  · exact .error rfl

theorem valueText_unread [Symbolic] (options : Options) (t : Tree) : Unread (valueText options t) := by
  unfold valueText
  split
  · exact t.exactValue_unread.bind fun x => lifted_unread _
  · refine t.evaluate_unread.bind fun x => ?_
    split
    · exact truncatedText_unread x
    · exact .ok _

theorem block_unread [Symbolic] (options : Options) (t : Tree) : Unread (block options t) :=
  (valueText_unread options t).bind fun _ => .ok _

end Abacus
