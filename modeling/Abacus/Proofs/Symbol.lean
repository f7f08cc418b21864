import Abacus.Build.Node

/-!
# Symbols and the classes of tokens

Each operator is found again by its symbol, and the classes of tokens exclude each other: numerals,
operator symbols and parentheses.

Results:
* `Operator.ofSymbol?_eq_some_iff`: the symbol of an operator and the operator of a symbol are inverse.
* `Token.isOperator_iff`: the operator symbols are exactly the symbols of the six operators.
* `Token.cases`: the classes of tokens cover all tokens.
* `symbolArity_symbol`: the arity of a symbol is the arity of its operator.
-/

namespace Abacus

/-! ## The symbols of the operators -/

namespace Operator

@[simp] theorem ofSymbol?_symbol (op : Operator) : ofSymbol? op.symbol = some op := by
  cases op <;> rfl

theorem ofSymbol?_eq_some_iff {token : String} {op : Operator} :
    ofSymbol? token = some op ↔ token = op.symbol := by
  constructor
  · intro h
    have hfound := List.find?_some h
    simpa using (beq_iff_eq.mp hfound).symm
  · rintro rfl
    exact ofSymbol?_symbol op

theorem arity_eq_one_or_two (op : Operator) : op.arity = 1 ∨ op.arity = 2 := by
  cases op <;> simp [arity]

theorem arity_eq_one_iff {op : Operator} : op.arity = 1 ↔ op = .neg := by
  cases op <;> simp [arity]

theorem rank_le_three (op : Operator) : op.rank ≤ 3 := by
  cases op <;> simp [rank]

theorem rank_eq_zero_iff {op : Operator} : op.rank = 0 ↔ op = .add ∨ op = .sub := by
  cases op <;> simp [rank]

theorem rank_eq_one_iff {op : Operator} : op.rank = 1 ↔ op = .mul ∨ op = .div := by
  cases op <;> simp [rank]

theorem rank_eq_two_iff {op : Operator} : op.rank = 2 ↔ op = .pow := by
  cases op <;> simp [rank]

theorem rank_eq_three_iff {op : Operator} : op.rank = 3 ↔ op = .neg := by
  cases op <;> simp [rank]

end Operator

/-! ## Classes of tokens -/

namespace Token

@[simp] theorem isOperator_symbol (op : Operator) : isOperator op.symbol = true := by
  simp [isOperator]

@[simp] theorem isUnary_symbol (op : Operator) : isUnary op.symbol = (op.arity == 1) := by
  simp [isUnary]

@[simp] theorem isBinary_symbol (op : Operator) : isBinary op.symbol = (op.arity == 2) := by
  simp [isBinary]

@[simp] theorem precedence_symbol (op : Operator) : precedence op.symbol = op.rank := by
  simp [precedence]

@[simp] theorem isRightAssociative_symbol (op : Operator) :
    isRightAssociative op.symbol = decide (1 < op.rank) := by
  simp [isRightAssociative, Operator.rightAssociative]

@[simp] theorem isNumeral_symbol (op : Operator) : isNumeral op.symbol = false := by
  cases op <;> rfl

@[simp] theorem isGrouping_symbol (op : Operator) : isGrouping op.symbol = false := by
  cases op <;> rfl

@[simp] theorem isNumeral_opening : isNumeral opening = false := rfl

@[simp] theorem isNumeral_closing : isNumeral closing = false := rfl

@[simp] theorem isOperator_opening : isOperator opening = false := rfl

@[simp] theorem isOperator_closing : isOperator closing = false := rfl

@[simp] theorem isGrouping_opening : isGrouping opening = true := rfl

@[simp] theorem isGrouping_closing : isGrouping closing = true := rfl

theorem opening_ne_closing : opening ≠ closing := by
  decide

theorem isOperator_iff {token : String} :
    isOperator token = true ↔ ∃ op : Operator, token = op.symbol := by
  simp only [isOperator, Option.isSome_iff_exists, Operator.ofSymbol?_eq_some_iff]

theorem isUnary_iff {token : String} :
    isUnary token = true ↔ ∃ op : Operator, token = op.symbol ∧ op.arity = 1 := by
  simp only [isUnary, Option.any_eq_true, Operator.ofSymbol?_eq_some_iff, beq_iff_eq]

theorem isBinary_iff {token : String} :
    isBinary token = true ↔ ∃ op : Operator, token = op.symbol ∧ op.arity = 2 := by
  simp only [isBinary, Option.any_eq_true, Operator.ofSymbol?_eq_some_iff, beq_iff_eq]

theorem symbol_ne_opening (op : Operator) : op.symbol ≠ opening := by
  cases op <;> decide

theorem symbol_ne_closing (op : Operator) : op.symbol ≠ closing := by
  cases op <;> decide

theorem isGrouping_iff {token : String} :
    isGrouping token = true ↔ token = opening ∨ token = closing := by
  simp [isGrouping]

theorem isOperator_eq_false_of_isNumeral {token : String} (h : isNumeral token = true) :
    isOperator token = false := by
  rw [Bool.eq_false_iff]
  intro hop
  obtain ⟨op, rfl⟩ := isOperator_iff.mp hop
  simp at h

theorem ne_closing_of_isNumeral {token : String} (h : isNumeral token = true) : token ≠ closing := by
  rintro rfl
  simp at h

/-- Every token is a numeral, an operator symbol, a parenthesis or unknown. -/
theorem cases (token : String) :
    isNumeral token = true ∨ (∃ op : Operator, token = op.symbol) ∨ token = opening ∨
      token = closing ∨
      isNumeral token = false ∧ isOperator token = false ∧ isGrouping token = false := by
  by_cases hop : isOperator token = true
  · exact .inr (.inl (isOperator_iff.mp hop))
  · by_cases hgroup : isGrouping token = true
    · rcases isGrouping_iff.mp hgroup with h | h
      · exact .inr (.inr (.inl h))
      · exact .inr (.inr (.inr (.inl h)))
    · cases hnum : isNumeral token with
      | true => exact .inl rfl
      | false => exact .inr (.inr (.inr (.inr ⟨rfl, by simpa using hop, by simpa using hgroup⟩)))

end Token

@[simp] theorem symbolArity_symbol (op : Operator) : symbolArity op.symbol = .ok op.arity := by
  simp [symbolArity]

end Abacus
