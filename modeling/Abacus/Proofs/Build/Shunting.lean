import Abacus.Proofs.Build.Loose
import Abacus.Proofs.Steps

/-!
# The language of the infix builder

The builder never asks whether an operand or an operator is expected next. It counts operands when it joins
them. So it accepts every sentence of the grammar, with the tree of the sentence, but also lists whose
operands are not between the right operators, such as `1 2 +`. The lists it accepts are the loose
sentences that read as the postfix form of a tree, and the sentences among them are those in which no token
is out of place.

Results:
* `readInfix_of_denotes`: the builder returns the tree of every sentence.
* `readInfix_eq_ok_iff_reads`: the builder returns a tree iff the tokens are a loose sentence that reads as
  its postfix form.
* `Forest.perform_missing`, `Forest.foldlM_perform_missing`: joining fails only for want of operands.
* `readInfix_error`: every other list of tokens is rejected as no expression.
* `readInfix_language`: the accepted lists, the sentences among them, and all other lists.
-/

namespace Abacus

/-! ## Accepted lists -/

/-- The infix builder returns a tree iff the tokens are a loose sentence that reads as the postfix form of
the tree. -/
theorem readInfix_eq_ok_iff_reads {tokens : List String} {t : Tree} :
    (readInfix tokens).result = .ok t ↔ t.IsExpression ∧ Reads .sum tokens t.postfixTokens := by
  rw [readInfix_eq_ok_iff, settle_nil_eq_singleton_iff]
  constructor
  · rintro ⟨hnone, ht, hword⟩
    exact ⟨ht, Release.run_eq_iff_reads.mp (Prod.ext hword hnone)⟩
  · rintro ⟨ht, hreads⟩
    have hrun := Release.run_eq_iff_reads.mpr hreads
    exact ⟨congrArg Prod.snd hrun, ht, congrArg Prod.fst hrun⟩

/-- **Infix expressions are read as the grammar says.** The builder returns the tree of every sentence. -/
theorem readInfix_of_denotes {tokens : List String} {t : Tree} (h : Denotes .sum tokens t) :
    (readInfix tokens).result = .ok t :=
  readInfix_eq_ok_iff_reads.mpr ⟨h.isExpression, h.reads⟩

theorem readInfix_of_denotes_six_operators :
    (readInfix ["!", "2", "^", "(", "(", "3", ")", ")", "^", "4", "-", "5", "/", "!", "6", "*", "7",
        "+", "8"]).result =
      .ok (.binary "+"
        (.binary "-"
          (.binary "^" (.unary "!" (.operand "2")) (.binary "^" (.operand "3") (.operand "4")))
          (.binary "*" (.binary "/" (.operand "5") (.unary "!" (.operand "6"))) (.operand "7")))
        (.operand "8")) := by
  have hgroup : Denotes .operand ["(", "(", "3", ")", ")"] (.operand "3") :=
    .group (.widen (.group (.widen (.numeral rfl) _)) _)
  have hpower : Denotes .power ["!", "2", "^", "(", "(", "3", ")", ")", "^", "4"]
      (.binary "^" (.unary "!" (.operand "2")) (.binary "^" (.operand "3") (.operand "4"))) :=
    .power (.negation (.widen (.numeral rfl) _))
      (.power (.widen hgroup _) (.widen (.numeral rfl) _))
  have hquotient := @Denotes.product .div ["5"] ["!", "6"] _ _ (.inr rfl) (.widen (.numeral rfl) _)
    (.ofSign (.negation (.widen (.numeral rfl) _)))
  have hproduct := @Denotes.product .mul _ ["7"] _ _ (.inl rfl) hquotient (.widen (.numeral rfl) _)
  have hdifference := @Denotes.sum .sub _ _ _ _ (.inr rfl) (.ofProduct (.ofPower hpower)) hproduct
  exact readInfix_of_denotes
    (@Denotes.sum .add _ ["8"] _ _ (.inl rfl) hdifference (.widen (.numeral rfl) _))

/-- The sentences among the accepted lists. -/
theorem denotes_iff_wellPlaced {tokens : List String} {t : Tree} :
    Denotes .sum tokens t ↔ (readInfix tokens).result = .ok t ∧ WellPlaced tokens := by
  constructor
  · intro h
    exact ⟨readInfix_eq_ok_iff_reads.mpr ⟨h.isExpression, h.reads⟩, h.wellPlaced⟩
  · rintro ⟨hok, hplaced⟩
    obtain ⟨-, hreads⟩ := readInfix_eq_ok_iff_reads.mp hok
    obtain ⟨t', ht'⟩ := hreads.denotes_of_wellPlaced hplaced
    have hok' := readInfix_eq_ok_iff_reads.mpr ⟨ht'.isExpression, ht'.reads⟩
    obtain rfl : t' = t := Except.ok.inj (hok'.symm.trans hok)
    exact ht'

/-! ## Rejected lists -/

/-- A token that can be settled: a numeral or an operator symbol. -/
def Settles (token : String) : Prop :=
  Token.isNumeral token = true ∨ Token.isOperator token = true

namespace Release

theorem settles_takeWhile {waiting : List String} (hwait : Shunt.Waiting waiting) {p : String → Bool}
    (hp : p Token.opening = false) : ∀ token ∈ waiting.takeWhile p, Settles token := by
  intro token htoken
  rcases hwait token (List.takeWhile_subset p htoken) with rfl | hop
  · have hopen := List.all_eq_true.mp List.all_takeWhile _ htoken
    simp [hp] at hopen
  · exact .inr hop

/-- One token releases numerals and operator symbols only. -/
theorem settles_feed {waiting word waiting' : List String} {token : String}
    (hwait : Shunt.Waiting waiting) (h : feed waiting token = .ok (word, waiting')) :
    ∀ released ∈ word, Settles released := by
  rcases feed_eq_ok_cases h with ⟨hnum, rfl, -⟩ | ⟨op, rfl, rfl, -⟩ | ⟨rfl, rfl, -⟩ | ⟨rfl, -, rfl, -⟩
  · simp [Settles, hnum]
  · exact settles_takeWhile hwait (yields_opening _)
  · simp
  · exact settles_takeWhile hwait inGroup_opening

/-- A run releases numerals and operator symbols only, also when it ends in a fault. -/
theorem settles_run {waiting : List String} (hwait : Shunt.Waiting waiting) (tokens : List String) :
    ∀ released ∈ (run waiting tokens).1, Settles released := by
  induction tokens generalizing waiting with
  | nil => exact settles_takeWhile hwait inGroup_opening
  | cons token tokens ih =>
    rw [run]
    cases hfeed : feed waiting token with
    | error e => simp
    | ok out =>
      intro released hreleased
      rcases List.mem_append.mp hreleased with hnow | hlater
      · exact settles_feed hwait hfeed released hnow
      · exact ih (hwait.feed hfeed) released hlater

end Release

/-- Performing a numeral or an operator symbol fails only for want of operands, and reports nothing. -/
theorem Forest.perform_missing {f : Forest} {token : String} {seen : Fault × List Event}
    (htoken : Settles token) (h : f.perform token = .error seen) :
    ∃ needed found, seen = (.build (.missingOperands token none needed found), f.trace) := by
  rcases htoken with hnum | hop
  · rw [perform_numeral hnum] at h
    cases h
  · obtain ⟨op, rfl⟩ := Token.isOperator_iff.mp hop
    rw [perform_symbol] at h
    cases hjoin : join op f.trees with
    | none =>
      simp only [hjoin] at h
      cases h
      exact ⟨_, _, rfl⟩
    | some joined =>
      simp only [hjoin] at h
      cases h

theorem Forest.foldlM_perform_missing {f : Forest} {word : List String} {seen : Fault × List Event}
    (hword : ∀ token ∈ word, Settles token) (h : word.foldlM Forest.perform f = .error seen) :
    ∃ symbol needed found, seen.1 = .build (.missingOperands symbol none needed found) := by
  obtain ⟨f', token, -, hmem, hfail⟩ := foldlM_error (p := fun _ => True) (fun _ _ _ _ _ => trivial) trivial h
  obtain ⟨needed, found, rfl⟩ := perform_missing (hword token hmem) hfail
  exact ⟨token, needed, found, rfl⟩

theorem Forest.result_error {e : Option BuildError} {f : Forest} {fault : Fault}
    (h : f.result e = .error fault) : ∃ e : BuildError, fault = .build e := by
  unfold Forest.result at h
  split at h <;> cases h <;> exact ⟨_, rfl⟩

/-- The infix builder fails only because the tokens form no tree. -/
theorem readInfix_error {tokens : List String} {fault : Fault}
    (h : (readInfix tokens).result = .error fault) : ∃ e : BuildError, fault = .build e := by
  rw [readInfix_eq] at h
  have hword := Release.settles_run (fun _ hmem => absurd hmem List.not_mem_nil) tokens
  cases hrun : (Release.run [] tokens).1.foldlM Forest.perform ⟨[], []⟩ with
  | error seen =>
    rw [hrun] at h
    cases h
    obtain ⟨symbol, needed, found, hseen⟩ := Forest.foldlM_perform_missing hword hrun
    exact ⟨_, hseen⟩
  | ok f =>
    rw [hrun] at h
    exact Forest.result_error h

/-! ## The language -/

/-- **The language of the infix builder.** The builder returns a tree iff the tokens are a loose sentence
that reads as the postfix form of the tree. Such a list is a sentence, and then of the same tree, iff
no token is out of place. Every other list is rejected as no expression. -/
theorem readInfix_language (tokens : List String) :
    (∀ t, (readInfix tokens).result = .ok t ↔
      t.IsExpression ∧ Reads .sum tokens t.postfixTokens) ∧
    (∀ t, Denotes .sum tokens t ↔ (readInfix tokens).result = .ok t ∧ WellPlaced tokens) ∧
    ((∃ t, (readInfix tokens).result = .ok t) ∨
      ∃ e : BuildError, (readInfix tokens).result = .error (.build e)) := by
  refine ⟨fun t => readInfix_eq_ok_iff_reads, fun t => denotes_iff_wellPlaced, ?_⟩
  cases h : (readInfix tokens).result with
  | ok t => exact .inl ⟨t, rfl⟩
  | error fault =>
    obtain ⟨e, rfl⟩ := readInfix_error h
    exact .inr ⟨e, rfl⟩

/-- An operator behind its two operands is accepted, though it is no sentence. -/
theorem readInfix_operator_behind_operands :
    (readInfix ["1", "2", "+"]).result = .ok (.binary "+" (.operand "1") (.operand "2")) ∧
      ¬∃ t, Denotes .sum ["1", "2", "+"] t := by
  refine ⟨by rfl, ?_⟩
  rintro ⟨t, ht⟩
  exact absurd ht.wellPlaced (by decide)

end Abacus
