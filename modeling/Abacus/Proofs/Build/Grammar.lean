import Abacus.Proofs.Tree.Forms

/-!
# The grammar of infix expressions

`Denotes` is the grammar that fixes precedence and associativity, each sentence with its tree:

    sum     ::= sum (+|-) product | product
    product ::= product (*|/) power | power
    power   ::= sign ^ power | sign
    sign    ::= ! sign | operand
    operand ::= numeral | ( sum )

`Reads` is the same grammar with any number of operands, side by side, where `Denotes` has exactly one,
and with operands allowed before a negation. It gives a sentence no tree but a postfix word: the operands
in their order, and each operator behind the phrase to its right.

Results:
* `Denotes.reads`: a sentence with its tree is a loose sentence that reads as the postfix form of the tree.
* `Reads.denotes_of_wellPlaced`: a loose sentence is a sentence if an operand or an operator always stands
  where one is expected.
-/

namespace Abacus

/-! ## Phrases and their trees -/

/-- The kinds of phrases, the loosest first. -/
inductive Phrase
  | sum
  | product
  | power
  | sign
  | operand
  deriving DecidableEq, Repr

/-- A list of tokens is a phrase of a given kind and denotes a tree. -/
inductive Denotes : Phrase → List String → Tree → Prop
  | sum {op : Operator} {xs ys : List String} {left right : Tree} (hop : op = .add ∨ op = .sub)
    (hleft : Denotes .sum xs left) (hright : Denotes .product ys right) :
    Denotes .sum (xs ++ op.symbol :: ys) (.binary op.symbol left right)
  | product {op : Operator} {xs ys : List String} {left right : Tree} (hop : op = .mul ∨ op = .div)
    (hleft : Denotes .product xs left) (hright : Denotes .power ys right) :
    Denotes .product (xs ++ op.symbol :: ys) (.binary op.symbol left right)
  | power {xs ys : List String} {left right : Tree} (hleft : Denotes .sign xs left)
    (hright : Denotes .power ys right) :
    Denotes .power (xs ++ Operator.pow.symbol :: ys) (.binary Operator.pow.symbol left right)
  | negation {xs : List String} {t : Tree} (h : Denotes .sign xs t) :
    Denotes .sign (Operator.neg.symbol :: xs) (.unary Operator.neg.symbol t)
  | numeral {token : String} (h : Token.isNumeral token = true) :
    Denotes .operand [token] (.operand token)
  | group {xs : List String} {t : Tree} (h : Denotes .sum xs t) :
    Denotes .operand (Token.opening :: xs ++ [Token.closing]) t
  | ofProduct {xs : List String} {t : Tree} (h : Denotes .product xs t) : Denotes .sum xs t
  | ofPower {xs : List String} {t : Tree} (h : Denotes .power xs t) : Denotes .product xs t
  | ofSign {xs : List String} {t : Tree} (h : Denotes .sign xs t) : Denotes .power xs t
  | ofOperand {xs : List String} {t : Tree} (h : Denotes .operand xs t) : Denotes .sign xs t

/-- An operand is a phrase of every kind. -/
theorem Denotes.widen {xs : List String} {t : Tree} (h : Denotes .operand xs t) (phrase : Phrase) :
    Denotes phrase xs t := by
  have hpower : Denotes .power xs t := .ofSign (.ofOperand h)
  cases phrase with
  | sum => exact .ofProduct (.ofPower hpower)
  | product => exact .ofPower hpower
  | power => exact hpower
  | sign => exact .ofOperand h
  | operand => exact h

/-! ## Loose phrases and their postfix words -/

/-- A list of tokens is a loose phrase of a given kind and reads as a postfix word. -/
inductive Reads : Phrase → List String → List String → Prop
  | sum {op : Operator} {xs ys us vs : List String} (hop : op = .add ∨ op = .sub)
    (hleft : Reads .sum xs us) (hright : Reads .product ys vs) :
    Reads .sum (xs ++ op.symbol :: ys) (us ++ vs ++ [op.symbol])
  | product {op : Operator} {xs ys us vs : List String} (hop : op = .mul ∨ op = .div)
    (hleft : Reads .product xs us) (hright : Reads .power ys vs) :
    Reads .product (xs ++ op.symbol :: ys) (us ++ vs ++ [op.symbol])
  | power {xs ys us vs : List String} (hleft : Reads .sign xs us) (hright : Reads .power ys vs) :
    Reads .power (xs ++ Operator.pow.symbol :: ys) (us ++ vs ++ [Operator.pow.symbol])
  | negation {xs ys us vs : List String} (hbefore : Reads .operand xs us) (h : Reads .sign ys vs) :
    Reads .sign (xs ++ Operator.neg.symbol :: ys) (us ++ vs ++ [Operator.neg.symbol])
  | nothing : Reads .operand [] []
  | numeral {token : String} {xs us : List String} (hbefore : Reads .operand xs us)
    (h : Token.isNumeral token = true) : Reads .operand (xs ++ [token]) (us ++ [token])
  | group {xs ys us vs : List String} (hbefore : Reads .operand xs us) (h : Reads .sum ys vs) :
    Reads .operand (xs ++ Token.opening :: ys ++ [Token.closing]) (us ++ vs)
  | ofProduct {xs us : List String} (h : Reads .product xs us) : Reads .sum xs us
  | ofPower {xs us : List String} (h : Reads .power xs us) : Reads .product xs us
  | ofSign {xs us : List String} (h : Reads .sign xs us) : Reads .power xs us
  | ofOperand {xs us : List String} (h : Reads .operand xs us) : Reads .sign xs us

/-- No tokens are a loose phrase of every kind. -/
theorem Reads.nil (phrase : Phrase) : Reads phrase [] [] := by
  have hsign : Reads .sign [] [] := .ofOperand .nothing
  cases phrase with
  | sum => exact .ofProduct (.ofPower (.ofSign hsign))
  | product => exact .ofPower (.ofSign hsign)
  | power => exact .ofSign hsign
  | sign => exact hsign
  | operand => exact .nothing

theorem Denotes.isExpression {phrase : Phrase} {xs : List String} {t : Tree}
    (h : Denotes phrase xs t) : t.IsExpression := by
  induction h with
  | sum hop _ _ ihl ihr => rcases hop with rfl | rfl <;> exact .binary rfl ihl ihr
  | product hop _ _ ihl ihr => rcases hop with rfl | rfl <;> exact .binary rfl ihl ihr
  | power _ _ ihl ihr => exact .binary rfl ihl ihr
  | negation _ ih => exact .unary rfl ih
  | numeral h => exact .operand h
  | group _ ih | ofProduct _ ih | ofPower _ ih | ofSign _ ih | ofOperand _ ih => exact ih

/-- A phrase is a loose phrase, which reads as the postfix form of its tree. -/
theorem Denotes.reads {phrase : Phrase} {xs : List String} {t : Tree} (h : Denotes phrase xs t) :
    Reads phrase xs t.postfixTokens := by
  induction h with
  | sum hop _ _ ihl ihr => simpa [Tree.binary] using Reads.sum hop ihl ihr
  | product hop _ _ ihl ihr => simpa [Tree.binary] using Reads.product hop ihl ihr
  | power _ _ ihl ihr => simpa [Tree.binary] using Reads.power ihl ihr
  | negation _ ih => simpa [Tree.unary] using Reads.negation .nothing ih
  | numeral h => simpa [Tree.operand] using Reads.numeral .nothing h
  | group _ ih => simpa using Reads.group .nothing ih
  | ofProduct _ ih => exact .ofProduct ih
  | ofPower _ ih => exact .ofPower ih
  | ofSign _ ih => exact .ofSign ih
  | ofOperand _ ih => exact .ofOperand ih

/-! ## What is expected next -/

/-- What may come next in a sentence: an operand, or an operator behind one. -/
inductive Expected
  | operand
  | operator
  deriving DecidableEq, Repr

/-- What is expected after a token, if the token is not out of place. A numeral, a negation and an open
parenthesis belong where an operand is expected, all other tokens behind an operand. -/
def Expected.after : Expected → String → Option Expected
  | operand, token =>
    if Token.isNumeral token then some operator
    else if token = Operator.neg.symbol ∨ token = Token.opening then some operand
    else none
  | operator, token =>
    if token = Token.closing then some operator
    else if Token.isBinary token then some operand
    else none

/-- No token is out of place, and the last one completes an operand. -/
def WellPlaced (tokens : List String) : Prop :=
  tokens.foldlM Expected.after .operand = some .operator

instance (tokens : List String) : Decidable (WellPlaced tokens) :=
  inferInstanceAs (Decidable (_ = _))

namespace Expected

theorem after_numeral {e e' : Expected} {token : String} (hnum : Token.isNumeral token = true)
    (h : e.after token = some e') : e = operand ∧ e' = operator := by
  have hclose := Token.ne_closing_of_isNumeral hnum
  have hbinary : Token.isBinary token = false := by
    rw [Bool.eq_false_iff]
    intro hbin
    obtain ⟨op, rfl, -⟩ := Token.isBinary_iff.mp hbin
    simp at hnum
  cases e <;> simp_all [after]

theorem after_negation {e e' : Expected} (h : e.after Operator.neg.symbol = some e') :
    e = operand ∧ e' = operand := by
  cases e <;> simp_all [after, Token.symbol_ne_closing, Operator.arity]

theorem after_opening {e e' : Expected} (h : e.after Token.opening = some e') :
    e = operand ∧ e' = operand := by
  cases e
  · simp_all [after]
  · have hnone : operator.after Token.opening = none := by decide
    simp [hnone] at h

theorem after_closing {e e' : Expected} (h : e.after Token.closing = some e') :
    e = operator ∧ e' = operator := by
  cases e
  · have hnone : operand.after Token.closing = none := by decide
    simp [hnone] at h
  · simp_all [after]

theorem after_binary {e e' : Expected} {op : Operator} (hop : op.arity = 2)
    (h : e.after op.symbol = some e') : e = operator ∧ e' = operand := by
  cases e
  · have hnone : operand.after op.symbol = none := by
      cases op <;> first | rfl | exact absurd hop (by decide)
    simp [hnone] at h
  · simp_all [after, Token.symbol_ne_closing]

end Expected

theorem foldlM_after_cons {e e' : Expected} {token : String} {xs ys : List String}
    (h : (xs ++ token :: ys).foldlM Expected.after e = some e') :
    ∃ e₁ e₂, xs.foldlM Expected.after e = some e₁ ∧ e₁.after token = some e₂ ∧
      ys.foldlM Expected.after e₂ = some e' := by
  rw [List.foldlM_append, Option.bind_eq_bind, Option.bind_eq_some_iff] at h
  obtain ⟨e₁, hxs, h⟩ := h
  rw [List.foldlM_cons, Option.bind_eq_bind, Option.bind_eq_some_iff] at h
  obtain ⟨e₂, htoken, hys⟩ := h
  exact ⟨e₁, e₂, hxs, htoken, hys⟩

theorem foldlM_after_append {e e₁ e₂ e' : Expected} {token : String} {xs ys : List String}
    (hxs : xs.foldlM Expected.after e = some e₁) (htoken : e₁.after token = some e₂)
    (hys : ys.foldlM Expected.after e₂ = some e') :
    (xs ++ token :: ys).foldlM Expected.after e = some e' := by
  simp [List.foldlM_append, hxs, htoken, hys]

/-- In a phrase no token is out of place. -/
theorem Denotes.wellPlaced {phrase : Phrase} {xs : List String} {t : Tree} (h : Denotes phrase xs t) :
    WellPlaced xs := by
  have hbinary : ∀ op : Operator, op.arity = 2 → Expected.operator.after op.symbol = some .operand := by
    intro op hop
    simp [Expected.after, Token.symbol_ne_closing, hop]
  induction h with
  | sum hop _ _ ihl ihr =>
    exact foldlM_after_append ihl (hbinary _ (by rcases hop with rfl | rfl <;> rfl)) ihr
  | product hop _ _ ihl ihr =>
    exact foldlM_after_append ihl (hbinary _ (by rcases hop with rfl | rfl <;> rfl)) ihr
  | power _ _ ihl ihr => exact foldlM_after_append ihl (hbinary .pow rfl) ihr
  | negation _ ih => exact ih
  | numeral h => simp [WellPlaced, Expected.after, h]
  | group _ ih =>
    have hclose : Expected.operator.after Token.closing = some .operator := rfl
    exact foldlM_after_append ih hclose rfl
  | ofProduct _ ih | ofPower _ ih | ofSign _ ih | ofOperand _ ih => exact ih

/-- Where an operand is expected again after a row of operands, the row was empty. -/
theorem Reads.eq_nil_of_expected {xs us : List String} (h : Reads .operand xs us)
    (hplaced : xs.foldlM Expected.after .operand = some .operand) : xs = [] := by
  cases h with
  | nothing => rfl
  | @numeral token xs us _ hnum =>
    obtain ⟨e₁, e₂, -, htoken, hend⟩ := foldlM_after_cons hplaced
    obtain ⟨-, rfl⟩ := Expected.after_numeral hnum htoken
    cases hend
  | @group xs ys us vs _ _ =>
    obtain ⟨e₁, e₂, -, htoken, hend⟩ := foldlM_after_cons hplaced
    obtain ⟨-, rfl⟩ := Expected.after_closing htoken
    cases hend

/-- A loose phrase is a phrase if no token is out of place. -/
theorem Reads.denotes_of_wellPlaced {phrase : Phrase} {xs us : List String} (h : Reads phrase xs us)
    (hplaced : WellPlaced xs) : ∃ t, Denotes phrase xs t := by
  induction h with
  | @sum op xs ys us vs hop hleft hright ihl ihr =>
    obtain ⟨e₁, e₂, hxs, htoken, hys⟩ := foldlM_after_cons hplaced
    have htwo : op.arity = 2 := by rcases hop with rfl | rfl <;> rfl
    obtain ⟨rfl, rfl⟩ := Expected.after_binary htwo htoken
    obtain ⟨left, hl⟩ := ihl hxs
    obtain ⟨right, hr⟩ := ihr hys
    exact ⟨_, .sum hop hl hr⟩
  | @product op xs ys us vs hop hleft hright ihl ihr =>
    obtain ⟨e₁, e₂, hxs, htoken, hys⟩ := foldlM_after_cons hplaced
    have htwo : op.arity = 2 := by rcases hop with rfl | rfl <;> rfl
    obtain ⟨rfl, rfl⟩ := Expected.after_binary htwo htoken
    obtain ⟨left, hl⟩ := ihl hxs
    obtain ⟨right, hr⟩ := ihr hys
    exact ⟨_, .product hop hl hr⟩
  | @power xs ys us vs hleft hright ihl ihr =>
    obtain ⟨e₁, e₂, hxs, htoken, hys⟩ := foldlM_after_cons hplaced
    have htwo : Operator.pow.arity = 2 := rfl
    obtain ⟨rfl, rfl⟩ := Expected.after_binary htwo htoken
    obtain ⟨left, hl⟩ := ihl hxs
    obtain ⟨right, hr⟩ := ihr hys
    exact ⟨_, .power hl hr⟩
  | @negation xs ys us vs hbefore h _ ih =>
    obtain ⟨e₁, e₂, hxs, htoken, hys⟩ := foldlM_after_cons hplaced
    obtain ⟨rfl, rfl⟩ := Expected.after_negation htoken
    obtain rfl := hbefore.eq_nil_of_expected hxs
    obtain ⟨t, ht⟩ := ih hys
    exact ⟨_, .negation ht⟩
  | nothing => cases hplaced
  | @numeral token xs us hbefore hnum _ =>
    obtain ⟨e₁, e₂, hxs, htoken, -⟩ := foldlM_after_cons hplaced
    obtain ⟨rfl, rfl⟩ := Expected.after_numeral hnum htoken
    obtain rfl := hbefore.eq_nil_of_expected hxs
    exact ⟨_, .numeral hnum⟩
  | @group xs ys us vs hbefore h _ ih =>
    rw [WellPlaced, List.append_assoc, List.cons_append] at hplaced
    obtain ⟨e₁, e₂, hxs, hopen, hrest⟩ := foldlM_after_cons hplaced
    obtain ⟨rfl, rfl⟩ := Expected.after_opening hopen
    obtain rfl := hbefore.eq_nil_of_expected hxs
    obtain ⟨e₃, e₄, hys, hclose, -⟩ := foldlM_after_cons hrest
    obtain ⟨rfl, rfl⟩ := Expected.after_closing hclose
    obtain ⟨t, ht⟩ := ih hys
    exact ⟨t, .group ht⟩
  | ofProduct _ ih =>
    obtain ⟨t, ht⟩ := ih hplaced
    exact ⟨t, .ofProduct ht⟩
  | ofPower _ ih =>
    obtain ⟨t, ht⟩ := ih hplaced
    exact ⟨t, .ofPower ht⟩
  | ofSign _ ih =>
    obtain ⟨t, ht⟩ := ih hplaced
    exact ⟨t, .ofSign ht⟩
  | ofOperand _ ih =>
    obtain ⟨t, ht⟩ := ih hplaced
    exact ⟨t, .ofOperand ht⟩

end Abacus
