import Abacus.Build.ReversePolish
import Abacus.Proofs.Tree.Forms

/-!
# Settling a postfix word on a stack of trees

Both builders do the same two things with trees: a numeral becomes a new leaf, and an operator takes its
operands from the stack. Settling a word does nothing else. The word may leave several trees behind, and
the trees of the stack, written one after the other, spell the word that was settled. This is the invariant
of both builders.

Results:
* `Shunt.reduce_symbol`, `Stack.reduce_symbol`: the reduction steps of both builders are `join`.
* `settle_nil_eq_some_iff`: a word settles to a stack of expressions iff the stack spells the word.
* `settle_nil_eq_singleton_iff`: a word settles to a single tree iff it is the postfix form of the tree.
-/

namespace Abacus

/-! ## Joining -/

/-- What an operator makes of the newest trees of a stack: the joined tree, and the trees below its
operands. -/
def join (op : Operator) : List Tree → Option (Tree × List Tree)
  | [] => none
  | right :: rest =>
    if op.arity = 1 then some (.unary op.symbol right, rest)
    else
      match rest with
      | [] => none
      | left :: rest => some (.binary op.symbol left right, rest)

theorem join_unary {op : Operator} (h : op.arity = 1) (t : Tree) (rest : List Tree) :
    join op (t :: rest) = some (.unary op.symbol t, rest) := by
  simp [join, h]

theorem join_binary {op : Operator} (h : op.arity = 2) (left right : Tree) (rest : List Tree) :
    join op (right :: left :: rest) = some (.binary op.symbol left right, rest) := by
  simp [join, h]

/-- An operator joins iff the stack holds as many trees as it needs. -/
theorem join_eq_none_iff {op : Operator} {trees : List Tree} :
    join op trees = none ↔ trees.length < op.arity := by
  rcases op.arity_eq_one_or_two with h | h
  · cases trees <;> simp [join, h]
  · rcases trees with _ | ⟨_, _ | ⟨_, _⟩⟩ <;> simp [join, h]

theorem join_eq_some_cases {op : Operator} {trees rest : List Tree} {t : Tree}
    (h : join op trees = some (t, rest)) :
    (∃ right, op.arity = 1 ∧ trees = right :: rest ∧ t = .unary op.symbol right) ∨
    ∃ left right, op.arity = 2 ∧ trees = right :: left :: rest ∧ t = .binary op.symbol left right := by
  rcases op.arity_eq_one_or_two with hop | hop
  · rcases trees with _ | ⟨right, rest'⟩
    · simp [join] at h
    · rw [join_unary hop] at h
      cases h
      exact .inl ⟨right, hop, rfl, rfl⟩
  · rcases trees with _ | ⟨right, _ | ⟨left, rest'⟩⟩
    · simp [join] at h
    · simp [join, hop] at h
    · rw [join_binary hop] at h
      cases h
      exact .inr ⟨left, right, hop, rfl, rfl⟩

/-- The operands taken from a stack make the tree that `join` makes. -/
theorem ofOperands_take {op : Operator} {trees rest : List Tree} {t : Tree}
    (h : join op trees = some (t, rest)) :
    Tree.ofOperands op.symbol (trees.take op.arity).reverse = .ok t ∧ trees.drop op.arity = rest := by
  rcases join_eq_some_cases h with ⟨right, hop, rfl, rfl⟩ | ⟨left, right, hop, rfl, rfl⟩
  · simp [Tree.ofOperands, Tree.unary?, hop]
  · simp [Tree.ofOperands, Tree.binary?, hop]

/-- The reduction step of the infix builder. -/
theorem Shunt.reduce_symbol (op : Operator) (s : Shunt Trace) :
    Shunt.reduce op.symbol s =
      match join op s.operands with
      | none => .error ⟨.build (.missingOperands op.symbol none op.arity s.operands.length), s⟩
      | some (t, rest) =>
        .ok ⟨t :: rest, s.operators, .reduced .inFix op.symbol t :: s.trace⟩ := by
  cases h : join op s.operands with
  | none =>
    have hlt := join_eq_none_iff.mp h
    simp [Shunt.reduce, hlt]
  | some p =>
    obtain ⟨t, rest⟩ := p
    obtain ⟨hmake, hdrop⟩ := ofOperands_take h
    have hge : ¬s.operands.length < op.arity := by simp [← join_eq_none_iff, h]
    simp [Shunt.reduce, hge, hmake, hdrop, Shunt.push]

/-- The reduction step of the postfix builder. -/
theorem Stack.reduce_symbol (op : Operator) (s : Stack Trace) :
    Stack.reduce op.symbol s =
      match join op s.trees with
      | none =>
        .error ⟨.build (.missingOperands op.symbol (some s.position) op.arity s.trees.length), s⟩
      | some (t, rest) =>
        .ok ⟨t :: rest, s.position + 1, .reduced .postFix op.symbol t :: s.trace⟩ := by
  cases h : join op s.trees with
  | none =>
    have hlt := join_eq_none_iff.mp h
    simp [Stack.reduce, hlt]
  | some p =>
    obtain ⟨t, rest⟩ := p
    obtain ⟨hmake, hdrop⟩ := ofOperands_take h
    have hge : ¬s.trees.length < op.arity := by simp [← join_eq_none_iff, h]
    simp [Stack.reduce, hge, hmake, hdrop]

/-! ## Settling -/

/-- The stack after one token of a postfix word, if the word has no unknown token and every operator finds
its operands. -/
def settleToken (stack : List Tree) (token : String) : Option (List Tree) :=
  if Token.isNumeral token then some (.operand token :: stack)
  else
    match Operator.ofSymbol? token with
    | none => none
    | some op => (join op stack).map fun joined => joined.1 :: joined.2

/-- The stack after a postfix word. -/
def settle (stack : List Tree) (word : List String) : Option (List Tree) :=
  word.foldlM settleToken stack

theorem settleToken_numeral {token : String} (h : Token.isNumeral token = true)
    (stack : List Tree) : settleToken stack token = some (.operand token :: stack) := by
  simp [settleToken, h]

theorem settleToken_symbol (op : Operator) (stack : List Tree) :
    settleToken stack op.symbol = (join op stack).map fun joined => joined.1 :: joined.2 := by
  simp [settleToken]

/-- What a token that settles does: a numeral becomes a leaf, an operator joins. -/
theorem settleToken_eq_some_cases {stack stack' : List Tree} {token : String}
    (h : settleToken stack token = some stack') :
    (Token.isNumeral token = true ∧ stack' = .operand token :: stack) ∨
    ∃ (op : Operator) (t : Tree) (rest : List Tree),
      token = op.symbol ∧ join op stack = some (t, rest) ∧ stack' = t :: rest := by
  by_cases hnum : Token.isNumeral token = true
  · rw [settleToken_numeral hnum] at h
    cases h
    exact .inl ⟨hnum, rfl⟩
  · cases hop : Operator.ofSymbol? token with
    | none => simp [settleToken, hnum, hop] at h
    | some op =>
      obtain rfl := Operator.ofSymbol?_eq_some_iff.mp hop
      rw [settleToken_symbol, Option.map_eq_some_iff] at h
      obtain ⟨⟨t, rest⟩, hjoin, rfl⟩ := h
      exact .inr ⟨op, t, rest, rfl, hjoin, rfl⟩

@[simp] theorem settle_nil (stack : List Tree) : settle stack [] = some stack := rfl

theorem settle_cons (stack : List Tree) (token : String) (word : List String) :
    settle stack (token :: word) = (settleToken stack token).bind (settle · word) := rfl

theorem settle_append (stack : List Tree) (xs ys : List String) :
    settle stack (xs ++ ys) = (settle stack xs).bind (settle · ys) :=
  List.foldlM_append

theorem settle_singleton (stack : List Tree) (token : String) :
    settle stack [token] = settleToken stack token := by
  rw [settle_cons]
  cases settleToken stack token <;> rfl

/-- The postfix form of an expression puts it on the stack, whatever the stack holds. -/
theorem settle_postfixTokens {t : Tree} (h : t.IsExpression) (stack : List Tree) :
    settle stack t.postfixTokens = some (t :: stack) := by
  induction h generalizing stack with
  | operand h => simp [Tree.operand, settle_singleton, settleToken_numeral h]
  | unary h _ ih =>
    simp [Tree.unary, settle_append, ih, settle_singleton, settleToken_symbol, join_unary h]
  | binary h _ _ ihl ihr =>
    simp [Tree.binary, settle_append, ihl, ihr, settle_singleton, settleToken_symbol, join_binary h]

/-! ## The word that a stack spells -/

/-- All trees of a stack are expressions. -/
def AllExpressions (stack : List Tree) : Prop :=
  ∀ t ∈ stack, t.IsExpression

/-- The postfix forms of the trees of a stack, oldest tree first. -/
def spelling (stack : List Tree) : List String :=
  stack.reverse.flatMap Tree.postfixTokens

@[simp] theorem spelling_nil : spelling [] = [] := rfl

@[simp] theorem spelling_cons (t : Tree) (stack : List Tree) :
    spelling (t :: stack) = spelling stack ++ t.postfixTokens := by
  simp [spelling]

/-- Settling one token adds the token to what the stack spells, and keeps its trees expressions. -/
theorem settleToken_spelling {stack stack' : List Tree} {token : String}
    (hstack : AllExpressions stack) (h : settleToken stack token = some stack') :
    AllExpressions stack' ∧ spelling stack' = spelling stack ++ [token] := by
  rcases settleToken_eq_some_cases h with ⟨hnum, rfl⟩ | ⟨op, t, rest, rfl, hjoin, rfl⟩
  · refine ⟨List.forall_mem_cons.mpr ⟨.operand hnum, hstack⟩, ?_⟩
    simp [Tree.operand]
  · rcases join_eq_some_cases hjoin with ⟨right, hone, rfl, rfl⟩ | ⟨left, right, htwo, rfl, rfl⟩
    · obtain ⟨hright, hrest⟩ := List.forall_mem_cons.mp hstack
      refine ⟨List.forall_mem_cons.mpr ⟨.unary hone hright, hrest⟩, ?_⟩
      simp [Tree.unary]
    · obtain ⟨hright, hstack⟩ := List.forall_mem_cons.mp hstack
      obtain ⟨hleft, hrest⟩ := List.forall_mem_cons.mp hstack
      refine ⟨List.forall_mem_cons.mpr ⟨.binary htwo hleft hright, hrest⟩, ?_⟩
      simp [Tree.binary]

theorem settle_spelling {stack stack' : List Tree} {word : List String}
    (hstack : AllExpressions stack) (h : settle stack word = some stack') :
    AllExpressions stack' ∧ spelling stack' = spelling stack ++ word := by
  induction word generalizing stack with
  | nil =>
    cases h
    exact ⟨hstack, by simp⟩
  | cons token word ih =>
    rw [settle_cons, Option.bind_eq_some_iff] at h
    obtain ⟨middle, hfirst, hrest⟩ := h
    obtain ⟨hmiddle, hspell⟩ := settleToken_spelling hstack hfirst
    obtain ⟨hexp, hspell'⟩ := ih hmiddle hrest
    exact ⟨hexp, by simp [hspell', hspell]⟩

/-- A stack of expressions is what its spelling settles to. -/
theorem settle_nil_spelling {stack : List Tree} (h : AllExpressions stack) :
    settle [] (spelling stack) = some stack := by
  induction stack with
  | nil => rfl
  | cons t stack ih =>
    obtain ⟨ht, hstack⟩ := List.forall_mem_cons.mp h
    simp [settle_append, ih hstack, settle_postfixTokens ht]

/-- A word settles to a stack of expressions iff the stack spells the word. -/
theorem settle_nil_eq_some_iff {stack : List Tree} {word : List String} :
    settle [] word = some stack ↔ AllExpressions stack ∧ spelling stack = word := by
  constructor
  · intro h
    simpa using settle_spelling (fun _ ht => absurd ht List.not_mem_nil) h
  · rintro ⟨hexp, rfl⟩
    exact settle_nil_spelling hexp

/-- A word settles to a single tree iff it is the postfix form of an expression. -/
theorem settle_nil_eq_singleton_iff {t : Tree} {word : List String} :
    settle [] word = some [t] ↔ t.IsExpression ∧ word = t.postfixTokens := by
  rw [settle_nil_eq_some_iff, eq_comm (a := spelling [t])]
  simp [AllExpressions]

end Abacus
