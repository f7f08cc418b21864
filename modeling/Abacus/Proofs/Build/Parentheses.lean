import Abacus.Proofs.Build.Balance
import Abacus.Proofs.Build.Rejection

/-!
# Parenthesis errors say what is wrong

As many open parentheses are on the operator stack as groups are open in the tokens read so far. Joining operators
takes none of them away and every parenthesis moves this number by one. So a close parenthesis finds no open one iff
it closes more groups than were opened before, and what is left in the end was never closed.

Results:
* `Release.feed_depth`: what one token does to the number of open groups.
* `Release.run_unmatched`, `Release.run_unclosed`: what the two faults of a run say about its tokens.
* `readInfix_parentheses`: trees come from balanced tokens, and each parenthesis error is accurate.
-/

namespace Abacus

/-! ## Open groups -/

/-- Where `depth` groups are open at the start, no prefix closes more groups than are open then. -/
def Within (depth : Nat) (tokens : List String) : Prop :=
  ∀ n, (tokens.take n).count Token.closing ≤ depth + (tokens.take n).count Token.opening

/-- Some prefix closes more groups than it opens. -/
def Overclosed (tokens : List String) : Prop :=
  ∃ n, (tokens.take n).count Token.opening < (tokens.take n).count Token.closing

theorem within_zero_iff {tokens : List String} : Within 0 tokens ↔ ¬Overclosed tokens := by
  simp [Within, Overclosed]

theorem count_cons_eq_add (token x : String) (tokens : List String) :
    (token :: tokens).count x = [token].count x + tokens.count x := by
  rw [← List.singleton_append, List.count_append]

/-- The first token leads from one number of open groups to the next. -/
theorem Within.cons {depth depth' : Nat} {token : String} {tokens : List String}
    (hstep : depth' + [token].count Token.closing = depth + [token].count Token.opening)
    (h : Within depth' tokens) : Within depth (token :: tokens) := by
  intro n
  cases n with
  | zero => simp
  | succ n =>
    have hn := h n
    rw [List.take_succ_cons, count_cons_eq_add token Token.closing, count_cons_eq_add token Token.opening]
    omega

/-- A close parenthesis is in excess if all groups are closed before it. -/
theorem overclosed_of_excess {before after : List String}
    (h : before.count Token.closing = before.count Token.opening) :
    Overclosed (before ++ Token.closing :: after) := by
  refine ⟨before.length + 1, ?_⟩
  have htake : (before ++ Token.closing :: after).take (before.length + 1) = before ++ [Token.closing] := by
    simp [List.take_append, List.take_of_length_le]
  rw [htake, List.count_append, List.count_append, h, List.count_singleton_self]
  simp [Token.opening_ne_closing.symm]

/-! ## The operator stack -/

namespace Release

/-- The number of open parentheses on the stack after a token. -/
theorem feed_depth {waiting waiting' word : List String} {token : String}
    (h : feed waiting token = .ok (word, waiting')) :
    waiting'.count Token.opening + [token].count Token.closing =
      waiting.count Token.opening + [token].count Token.opening := by
  have hne : Token.closing ≠ Token.opening := Token.opening_ne_closing.symm
  rcases feed_eq_ok_cases h with ⟨hnum, -, rfl⟩ | ⟨op, rfl, -, rfl⟩ | ⟨rfl, -, rfl⟩ | ⟨rfl, hopen, -, rfl⟩
  · have hopen : token ≠ Token.opening := by
      rintro rfl
      simp at hnum
    simp [hopen, Token.ne_closing_of_isNumeral hnum]
  · rw [List.count_cons_of_ne (Token.symbol_ne_opening op), count_opening_dropWhile (yields_opening _)]
    simp [Token.symbol_ne_opening, Token.symbol_ne_closing]
  · simp [Token.opening_ne_closing]
  · rw [count_opening_tail hopen]
    simp [hne]

/-- A run that meets a close parenthesis without its partner has closed all groups before it. -/
theorem run_unmatched {waiting tokens : List String} (h : (run waiting tokens).2 = some .unmatchedClosing) :
    ∃ before after, tokens = before ++ Token.closing :: after ∧
      Within (waiting.count Token.opening) before ∧
      before.count Token.closing = waiting.count Token.opening + before.count Token.opening := by
  induction tokens generalizing waiting with
  | nil =>
    rw [run] at h
    split at h <;> cases h
  | cons token tokens ih =>
    rw [run] at h
    cases hfeed : feed waiting token with
    | error e =>
      rw [hfeed] at h
      cases h
      rcases feed_eq_error_cases hfeed with ⟨rfl, hopen, -⟩ | ⟨-, -, -, he⟩
      · have hdepth : waiting.count Token.opening = 0 := List.count_eq_zero_of_not_mem hopen
        exact ⟨[], tokens, rfl, by simp [Within], by simp [hdepth]⟩
      · cases he
    | ok released =>
      rw [hfeed] at h
      obtain ⟨before, after, rfl, hwithin, hcount⟩ := ih h
      have hdepth := feed_depth hfeed
      refine ⟨token :: before, after, rfl, hwithin.cons hdepth, ?_⟩
      rw [count_cons_eq_add token Token.closing, count_cons_eq_add token Token.opening]
      omega

/-- A run that ends with an open group has closed no more groups than were open, and in the end fewer. -/
theorem run_unclosed {waiting tokens : List String} (h : (run waiting tokens).2 = some .unclosedOpening) :
    Within (waiting.count Token.opening) tokens ∧
      tokens.count Token.closing < waiting.count Token.opening + tokens.count Token.opening := by
  induction tokens generalizing waiting with
  | nil =>
    rw [run] at h
    by_cases hopen : waiting.contains Token.opening = true
    · have hdepth : 0 < waiting.count Token.opening := by
        rw [List.count_pos_iff]
        simpa using hopen
      exact ⟨by simp [Within], by simpa using hdepth⟩
    · rw [if_neg hopen] at h
      cases h
  | cons token tokens ih =>
    rw [run] at h
    cases hfeed : feed waiting token with
    | error e =>
      rw [hfeed] at h
      cases h
      rcases feed_fault hfeed with he | he <;> cases he
    | ok released =>
      rw [hfeed] at h
      obtain ⟨hwithin, hcount⟩ := ih h
      have hdepth := feed_depth hfeed
      refine ⟨hwithin.cons hdepth, ?_⟩
      rw [count_cons_eq_add token Token.closing, count_cons_eq_add token Token.opening]
      omega

end Release

/-! ## The builder -/

/-- The parenthesis errors of the builder are those of the operator stack. -/
theorem readInfix_unbalanced {tokens : List String} {e : BuildError}
    (h : (readInfix tokens).result = .error (.build e))
    (hkind : e.kindName = "UnbalancedParenthesesError") :
    (Release.run [] tokens).2 = some e ∧ (e = .unmatchedClosing ∨ e = .unclosedOpening) := by
  rcases readInfix_fault h with hmalformed | hfault
  · rw [hkind] at hmalformed
    exact absurd hmalformed (by decide)
  · rcases Release.run_fault hfault with rfl | rfl | ⟨token, -, rfl⟩
    · exact ⟨hfault, .inr rfl⟩
    · exact ⟨hfault, .inl rfl⟩
    · exact absurd hkind (by simp [BuildError.kindName])

/-- **Parenthesis errors are accurate.** The infix builder returns trees for balanced tokens only. It reports a close
parenthesis without its partner only if some prefix closes more groups than it opens, and an unclosed group only
if no prefix does but there are not as many parentheses of either sort. Tokens that are not balanced end with some
error of the expression. -/
theorem readInfix_parentheses (tokens : List String) :
    (∀ t, (readInfix tokens).result = .ok t → Balanced tokens) ∧
    (∀ e : BuildError, (readInfix tokens).result = .error (.build e) →
      e.kindName = "UnbalancedParenthesesError" →
        e.message = "')' without a matching '(' in infix expression" ∧ Overclosed tokens ∨
        e.message = "Unclosed '(' in infix expression" ∧ ¬Overclosed tokens ∧
          tokens.count Token.closing ≠ tokens.count Token.opening) ∧
    (¬Balanced tokens → ∃ e : BuildError, (readInfix tokens).result = .error (.build e)) := by
  have htree : ∀ t, (readInfix tokens).result = .ok t → Balanced tokens :=
    fun t h => (readInfix_eq_ok_iff_reads.mp h).2.balanced
  refine ⟨htree, ?_, ?_⟩
  · intro e h hkind
    obtain ⟨hfault, rfl | rfl⟩ := readInfix_unbalanced h hkind
    · obtain ⟨before, after, rfl, -, hcount⟩ := Release.run_unmatched hfault
      exact .inl ⟨rfl, overclosed_of_excess (by simpa using hcount)⟩
    · obtain ⟨hwithin, hcount⟩ := Release.run_unclosed hfault
      have hlt : tokens.count Token.closing < tokens.count Token.opening := by simpa using hcount
      exact .inr ⟨rfl, within_zero_iff.mp hwithin, Nat.ne_of_lt hlt⟩
  · intro hbalanced
    cases h : (readInfix tokens).result with
    | ok t => exact absurd (htree t h) hbalanced
    | error fault =>
      obtain ⟨e, rfl⟩ := readInfix_error h
      exact ⟨e, rfl⟩

/-- The first list is no sentence but balanced; the second one has as many parentheses of either sort; in the third
one an open group is left after another one has been closed; in the last one a missing operand comes first. -/
theorem readInfix_parentheses_misplaced :
    Balanced ["1", "2", "(", "+", ")"] ∧
    Overclosed ["(", "1", ")", "+", "2", ")", "("] ∧
    ¬Overclosed ["(", "(", "1", ")", "+", "2"] ∧
    ∃ e : BuildError, (readInfix ["(", "+", ")", ")"]).result = .error (.build e) := by
  refine ⟨?_, ?_, ?_, ?_⟩
  · exact (readInfix_parentheses ["1", "2", "(", "+", ")"]).1 _ rfl
  · have hunmatched :=
      (readInfix_parentheses ["(", "1", ")", "+", "2", ")", "("]).2.1 .unmatchedClosing rfl rfl
    rcases hunmatched with ⟨-, hover⟩ | ⟨hmessage, -⟩
    · exact hover
    · exact absurd hmessage (by decide)
  · have hunclosed := (readInfix_parentheses ["(", "(", "1", ")", "+", "2"]).2.1 .unclosedOpening rfl rfl
    rcases hunclosed with ⟨hmessage, -⟩ | ⟨-, hwithin, -⟩
    · exact absurd hmessage (by decide)
    · exact hwithin
  · have hunbalanced : ¬Balanced ["(", "+", ")", ")"] := fun h => absurd h.closing_eq (by decide)
    exact (readInfix_parentheses ["(", "+", ")", ")"]).2.2 hunbalanced

end Abacus
