import Abacus.Build.Construct
import Abacus.Proofs.Build.ReversePolish
import Abacus.Proofs.Build.Shunting
import Abacus.Proofs.Text.Words

/-!
# Written forms are read back

The trees that the two builders return are expressions. The infix form of an expression is an operand of
the grammar, since each of its operators stands between parentheses; so its derivation says what the infix
builder makes of it. The postfix form is a settled word. In a line both forms keep their tokens, because the
tokens are words: operator symbols, parentheses, and numerals that were cut out of a line before.

Results:
* `Tree.IsExpression.denotes_infixTokens`: the infix form of an expression denotes it.
* `assemble_isExpression`, `mem_of_assemble`: the trees that are read are expressions, in tokens that
  were given.
* `Tree.IsExpression.roundTrip`, `roundTrip_lines`: an expression is read back from its two forms, as tokens and,
  if its tokens are words, as lines.
* `construct_roundTrip`: so is every tree that is read.
-/

namespace Abacus

/-! ## The infix form in the grammar -/

/-- Two operands make a sentence, whatever the binary operator between them. -/
theorem Denotes.binary {op : Operator} (hop : op.arity = 2) {xs ys : List String} {left right : Tree}
    (hleft : Denotes .operand xs left) (hright : Denotes .operand ys right) :
    Denotes .sum (xs ++ op.symbol :: ys) (.binary op.symbol left right) := by
  cases op with
  | add => exact .sum (.inl rfl) (hleft.widen _) (hright.widen _)
  | sub => exact .sum (.inr rfl) (hleft.widen _) (hright.widen _)
  | mul => exact .ofProduct (.product (.inl rfl) (hleft.widen _) (hright.widen _))
  | div => exact .ofProduct (.product (.inr rfl) (hleft.widen _) (hright.widen _))
  | pow => exact .ofProduct (.ofPower (.power (hleft.widen _) (hright.widen _)))
  | neg => cases hop

/-- A negated operand is a sentence. -/
theorem Denotes.unary {op : Operator} (hop : op.arity = 1) {xs : List String} {t : Tree}
    (h : Denotes .operand xs t) : Denotes .sum (op.symbol :: xs) (.unary op.symbol t) := by
  cases op with
  | neg => exact .ofProduct (.ofPower (.ofSign (.negation (h.widen _))))
  | add | sub | mul | div | pow => cases hop

namespace Tree

/-- The infix form of an expression is an operand: a numeral, or an operator with its operands between
parentheses. -/
theorem IsExpression.denotes_grouped {t : Tree} (h : t.IsExpression) :
    Denotes .operand t.grouped t := by
  induction h with
  | operand hnum => simpa [Tree.operand, grouped, hnum] using Denotes.numeral hnum
  | unary hop _ ih => simpa [Tree.unary, grouped] using (ih.unary hop).group
  | binary hop _ _ ihl ihr => simpa [Tree.binary, grouped] using (ihl.binary hop ihr).group

theorem IsExpression.denotes_infixTokens {t : Tree} (h : t.IsExpression) :
    Denotes .sum t.infixTokens t := by
  rw [infixTokens_eq_grouped]
  exact h.denotes_grouped.widen .sum

/-- The infix form has no tokens but those of the tree and parentheses. -/
theorem mem_infixTokens {t : Tree} {token : String} (h : token ∈ t.infixTokens) :
    token ∈ t.postfixTokens ∨ token = Token.opening ∨ token = Token.closing := by
  rw [infixTokens_eq_grouped] at h
  induction t with
  | empty => cases h
  | node kind symbol left right ihl ihr =>
    rw [postfixTokens_node]
    have hinner : token ∈ left.grouped ++ symbol :: right.grouped →
        token ∈ left.postfixTokens ++ right.postfixTokens ++ [symbol] ∨
          token = Token.opening ∨ token = Token.closing := by
      intro hmem
      rcases List.mem_append.mp hmem with hleft | hrest
      · rcases ihl hleft with h | h
        · exact .inl (by simp [h])
        · exact .inr h
      · rcases List.mem_cons.mp hrest with rfl | hright
        · exact .inl (by simp)
        · rcases ihr hright with h | h
          · exact .inl (by simp [h])
          · exact .inr h
    by_cases hnum : Token.isNumeral symbol = true
    · rw [grouped, if_pos hnum] at h
      exact hinner h
    · rw [grouped, if_neg hnum] at h
      rcases List.mem_append.mp h with hfront | hclose
      · rcases List.mem_cons.mp hfront with hopen | hmem
        · exact .inr (.inl hopen)
        · exact hinner hmem
      · exact .inr (.inr (List.mem_singleton.mp hclose))

end Tree

/-! ## The trees that are read -/

/-- The word of a loose phrase has only tokens of the phrase. -/
theorem Reads.mem {phrase : Phrase} {xs us : List String} (h : Reads phrase xs us) {token : String}
    (hmem : token ∈ us) : token ∈ xs := by
  induction h with
  | sum _ _ _ ihl ihr | product _ _ _ ihl ihr | power _ _ ihl ihr | negation _ _ ihl ihr =>
    simp only [List.mem_append, List.mem_cons, List.not_mem_nil, or_false] at hmem ⊢
    rcases hmem with (hleft | hright) | hop
    · exact .inl (ihl hleft)
    · exact .inr (.inr (ihr hright))
    · exact .inr (.inl hop)
  | nothing => exact hmem
  | numeral _ _ ih =>
    rcases List.mem_append.mp hmem with hbefore | hlast
    · exact List.mem_append_left _ (ih hbefore)
    · exact List.mem_append_right _ hlast
  | group _ _ ihbefore ih =>
    rcases List.mem_append.mp hmem with hbefore | hinner
    · simp [ihbefore hbefore]
    · simp [ih hinner]
  | ofProduct _ ih | ofPower _ ih | ofSign _ ih | ofOperand _ ih => exact ih hmem

theorem assemble_isExpression {fixity : Fixity} {tokens : List String} {t : Tree}
    (h : (assemble fixity tokens).result = .ok t) : t.IsExpression := by
  cases fixity with
  | inFix => exact (readInfix_eq_ok_iff_reads.mp h).1
  | postFix => exact (readPostfix_sound h).1

/-- The tokens of a tree that is read are among those it is read from. -/
theorem mem_of_assemble {fixity : Fixity} {tokens : List String} {t : Tree}
    (h : (assemble fixity tokens).result = .ok t) {token : String} (hmem : token ∈ t.postfixTokens) :
    token ∈ tokens := by
  cases fixity with
  | inFix => exact (readInfix_eq_ok_iff_reads.mp h).2.mem hmem
  | postFix =>
    obtain ⟨-, ops, -, rfl, -⟩ := readPostfix_sound h
    exact List.mem_append_right ops hmem

/-! ## Round trips -/

/-- An expression is read from both of its forms, without skipping an operator. -/
theorem Tree.IsExpression.roundTrip {t : Tree} (h : t.IsExpression) :
    (readInfix t.infixTokens).result = .ok t ∧
    (readPostfix t.postfixTokens).result = .ok t ∧
    ∀ event ∈ (readPostfix t.postfixTokens).events, event.isSkipped = false := by
  have hnone : ∀ op ∈ ([] : List String), Token.isOperator op = true := by simp
  have hback : (readPostfix t.postfixTokens).result = .ok t := readPostfix_append hnone h
  refine ⟨readInfix_eq_ok_iff_reads.mpr ⟨h, h.denotes_infixTokens.reads⟩, hback, ?_⟩
  obtain ⟨-, ops, -, htokens, hskips⟩ := readPostfix_sound hback
  obtain rfl : ops = [] := List.self_eq_append_left.mp htokens
  simpa using hskips

theorem construct_result (fixity : Fixity) (tokens : List String) :
    (construct fixity tokens).result = (assemble fixity tokens).result := by
  unfold construct
  cases h : (assemble fixity tokens).result with
  | ok t => simp [h]
  | error fault => simp [h]

/-- A tree in words is read from both of its lines. -/
theorem Tree.IsExpression.roundTrip_lines {t : Tree} (h : t.IsExpression)
    (hwords : ∀ token ∈ t.postfixTokens, Text.IsWord token) :
    (constructLine .inFix t.infixLine).result = .ok t ∧
      (constructLine .postFix t.postfixLine).result = .ok t := by
  obtain ⟨hgrouped, hback, -⟩ := h.roundTrip
  have hall : ∀ token ∈ t.infixTokens, Text.IsWord token := by
    intro token htoken
    rcases mem_infixTokens htoken with hin | rfl | rfl
    · exact hwords token hin
    · exact Text.isWord_of_toList (c := '(') rfl rfl
    · exact Text.isWord_of_toList (c := ')') rfl rfl
  constructor
  · rw [constructLine, infixLine, Text.words_terminated hall, construct_result]
    exact hgrouped
  · rw [constructLine, postfixLine, Text.words_terminated hwords, construct_result]
    exact hback

/-- **Written forms are read back.** A tree that either builder has returned is returned again for its infix
form by the infix builder and for its postfix form by the postfix builder, which skips no operator. A tree that
was read from a line in either notation is read again from its infix line and from its postfix line. -/
theorem construct_roundTrip :
    (∀ (fixity : Fixity) (tokens : List String) (t : Tree), (assemble fixity tokens).result = .ok t →
      (readInfix t.infixTokens).result = .ok t ∧
      (readPostfix t.postfixTokens).result = .ok t ∧
      ∀ event ∈ (readPostfix t.postfixTokens).events, event.isSkipped = false) ∧
    ∀ (fixity : Fixity) (line : String) (t : Tree), (constructLine fixity line).result = .ok t →
      (constructLine .inFix t.infixLine).result = .ok t ∧
      (constructLine .postFix t.postfixLine).result = .ok t := by
  constructor
  · intro fixity tokens t h
    exact (assemble_isExpression h).roundTrip
  · intro fixity line t h
    rw [constructLine, construct_result] at h
    refine (assemble_isExpression h).roundTrip_lines fun token htoken => ?_
    exact Text.isWord_of_mem_words (mem_of_assemble h htoken)

theorem construct_roundTrip_skipped_operator :
    let power := Tree.binary "^" (.operand "1.2.3") (.unary "!" (.operand "4x"))
    ((readInfix power.infixTokens).result = .ok power ∧
      (readPostfix power.postfixTokens).result = .ok power ∧
      ∀ event ∈ (readPostfix power.postfixTokens).events, event.isSkipped = false) ∧
    (constructLine .inFix power.infixLine).result = .ok power ∧
    (constructLine .postFix power.postfixLine).result = .ok power :=
  ⟨construct_roundTrip.1 .inFix ["1.2.3", "^", "(", "!", "(", "4x", ")", ")"] _ rfl,
    construct_roundTrip.2 .postFix "*\t1.2.3 4x ! ^\n" _ rfl⟩

end Abacus
