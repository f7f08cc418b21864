import Abacus.Proofs.Build.Rejection
import Abacus.Proofs.Build.RoundTrip
import Abacus.Proofs.Tree.Survey
import Abacus.Proofs.Tree.Tokens

/-!
# What a builder reports

A builder returns an expression or fails with a build error, and all it reports is skipped operators, reductions
and a finished tree. So it never fails for another reason than its tokens, and it never reports on behalf of a batch.

Results:
* `Stack.feed_step`, `Forest.perform_step`: what one token does to the report of a builder.
* `readInfix_events`, `readPostfix_events`: while tokens are read, only skipped operators and reductions are reported.
* `assemble_ofBuilder`, `constructLine_ofBuilder`: the reports of whole runs.
* `assemble_wellFormed`: every tree that is read is well formed, node by node and by the checks.
-/

namespace Abacus

/-- Is this an event of a builder? -/
def Event.isBuilding : Event → Bool
  | skipped .. | reduced .. | built .. => true
  | _ => false

/-- Is this an event of a builder that is not done yet? -/
def Event.isReading : Event → Bool
  | skipped .. | reduced .. => true
  | _ => false

theorem Event.isBuilding_of_isReading {event : Event} (h : event.isReading = true) : event.isBuilding = true := by
  cases event with
  | skipped | reduced => rfl
  | built | lineDone | lineFailed | summary | note | warning | debug | critical => cases h

/-- A report that a builder can give. -/
structure Report.OfBuilder (report : Report Tree) : Prop where
  tree : ∀ t, report.result = .ok t → t.IsExpression
  fault : ∀ fault, report.result = .error fault → ∃ e : BuildError, fault = .build e
  events : ∀ event ∈ report.events, event.isBuilding = true

theorem Report.OfBuilder.of_tree {t : Tree} (ht : t.IsExpression) {events : List Event}
    (hevents : ∀ event ∈ events, event.isBuilding = true) : OfBuilder ⟨.ok t, events⟩ where
  tree := by
    rintro t' ⟨⟩
    exact ht
  fault := by rintro fault ⟨⟩
  events := hevents

/-! ## Infix tokens -/

/-- What a token adds to the trace. -/
theorem Forest.perform_step {f f' : Forest} {token : String} (h : f.perform token = .ok f') :
    f'.trace = f.trace ∨ ∃ t, f'.trace = .reduced .inFix token t :: f.trace := by
  unfold perform at h
  split at h
  · cases h
    exact .inl rfl
  · split at h
    · cases h
    · split at h
      · cases h
      · cases h
        exact .inr ⟨_, rfl⟩

theorem Forest.isReading_perform (f : Forest) (token : String) (f' : Forest)
    (hf : ∀ event ∈ f.trace, event.isReading = true) (h : f.perform token = .ok f') :
    ∀ event ∈ f'.trace, event.isReading = true := by
  rcases perform_step h with htrace | ⟨t, htrace⟩
  · rw [htrace]
    exact hf
  · rw [htrace]
    exact List.forall_mem_cons.mpr ⟨rfl, hf⟩

theorem readInfix_events (tokens : List String) :
    ∀ event ∈ (readInfix tokens).events, event.isReading = true := by
  have hfresh : ∀ event ∈ (⟨[], []⟩ : Forest).trace, event.isReading = true :=
    fun event hmem => absurd hmem List.not_mem_nil
  have hword := Release.settles_run (fun _ hmem => absurd hmem List.not_mem_nil) tokens
  rw [readInfix_eq]
  intro event hmem
  cases hrun : (Release.run [] tokens).1.foldlM Forest.perform ⟨[], []⟩ with
  | ok f =>
    rw [hrun] at hmem
    exact foldlM_ok Forest.isReading_perform hfresh hrun event (List.mem_reverse.mp hmem)
  | error seen =>
    rw [hrun] at hmem
    -- A reduction that fails reports nothing, so the trace is that of the state before it.
    obtain ⟨f, token, hf, htoken, hfail⟩ := foldlM_error Forest.isReading_perform hfresh hrun
    obtain ⟨needed, found, rfl⟩ := Forest.perform_missing (hword token htoken) hfail
    exact hf event (List.mem_reverse.mp hmem)

theorem readInfix_ofBuilder (tokens : List String) : (readInfix tokens).OfBuilder where
  tree _ h := (readInfix_eq_ok_iff_reads.mp h).1
  fault _ h := readInfix_error h
  events event hmem := Event.isBuilding_of_isReading (readInfix_events tokens event hmem)

/-! ## Postfix tokens -/

/-- A token fails with a build error and leaves everything as it was, or it adds events to the trace. -/
theorem Stack.feed_step (s : Stack Trace) (token : String) :
    (∃ e : BuildError, s.feed token = .error ⟨.build e, s⟩) ∨
      ∃ trees events, (∀ event ∈ events, event.isReading = true) ∧
        s.feed token = .ok ⟨trees, s.position + 1, events ++ s.trace⟩ := by
  by_cases hnum : Token.isNumeral token = true
  · exact .inr ⟨_, [], by simp, feed_numeral hnum s⟩
  · rw [Bool.not_eq_true] at hnum
    by_cases hop : Token.isOperator token = true
    · obtain ⟨op, rfl⟩ := Token.isOperator_iff.mp hop
      by_cases hempty : s.trees = []
      · exact .inr ⟨[], [.skipped op.symbol s.position], by simp [Event.isReading], feed_skipped op hempty⟩
      · rw [feed_symbol op hempty, reduce_symbol]
        cases join op s.trees with
        | none => exact .inl ⟨_, rfl⟩
        | some joined =>
          exact .inr ⟨_, [.reduced .postFix op.symbol joined.1], by simp [Event.isReading], rfl⟩
    · exact .inl ⟨_, feed_unknown hnum (by simpa using hop) s⟩

theorem Stack.isReading_feed (s : Stack Trace) (token : String) (s' : Stack Trace)
    (hs : ∀ event ∈ s.trace, event.isReading = true) (h : s.feed token = .ok s') :
    ∀ event ∈ s'.trace, event.isReading = true := by
  rcases feed_step s token with ⟨e, hfail⟩ | ⟨trees, events, hevents, hfeed⟩
  · rw [hfail] at h
    cases h
  · rw [hfeed] at h
    cases h
    exact List.forall_mem_append.mpr ⟨hevents, hs⟩

/-- The end of a run leaves the trace alone. -/
theorem Stack.finish_step (s : Stack Trace) :
    (∃ e : BuildError, s.finish = .error ⟨.build e, s⟩) ∨
      ∃ t, s.finish = .ok (t, { s with trees := [] }) := by
  unfold finish
  split
  · exact .inr ⟨_, rfl⟩
  · exact .inl ⟨_, rfl⟩
  · exact .inl ⟨_, rfl⟩

/-- A whole run ends with a build error or with a tree, and has not reported a finished tree. -/
theorem Stack.build_step (tokens : List String) :
    (∃ (e : BuildError) (s : Stack Trace), (∀ event ∈ s.trace, event.isReading = true) ∧
      build [] tokens = .error ⟨.build e, s⟩) ∨
    ∃ (t : Tree) (s : Stack Trace), (∀ event ∈ s.trace, event.isReading = true) ∧
      build [] tokens = .ok (t, s) := by
  have hfresh : ∀ event ∈ (fresh ([] : Trace)).trace, event.isReading = true :=
    fun event hmem => absurd hmem List.not_mem_nil
  unfold build
  cases hrun : tokens.foldlM feed (fresh ([] : Trace)) with
  | error stuck =>
    obtain ⟨s, token, hs, -, hfail⟩ := foldlM_error isReading_feed hfresh hrun
    rcases feed_step s token with ⟨e, hfeed⟩ | ⟨_, _, -, hfeed⟩
    · rw [hfeed] at hfail
      cases hfail
      exact .inl ⟨e, s, hs, rfl⟩
    · rw [hfeed] at hfail
      cases hfail
  | ok s =>
    have hs := foldlM_ok isReading_feed hfresh hrun
    rcases finish_step s with ⟨e, hfinish⟩ | ⟨t, hfinish⟩
    · exact .inl ⟨e, s, hs, hfinish⟩
    · exact .inr ⟨t, { s with trees := [] }, hs, hfinish⟩

theorem readPostfix_events (tokens : List String) :
    ∀ event ∈ (readPostfix tokens).events, event.isReading = true := by
  intro event hmem
  rw [readPostfix] at hmem
  rcases Stack.build_step tokens with ⟨e, s, hs, hbuild⟩ | ⟨t, s, hs, hbuild⟩
  · rw [hbuild] at hmem
    exact hs event (List.mem_reverse.mp hmem)
  · rw [hbuild] at hmem
    exact hs event (List.mem_reverse.mp hmem)

theorem readPostfix_ofBuilder (tokens : List String) : (readPostfix tokens).OfBuilder where
  tree _ h := (readPostfix_sound h).1
  fault fault h := by
    rw [readPostfix] at h
    rcases Stack.build_step tokens with ⟨e, s, -, hbuild⟩ | ⟨t, s, -, hbuild⟩
    · rw [hbuild] at h
      cases h
      exact ⟨e, rfl⟩
    · rw [hbuild] at h
      cases h
  events event hmem := Event.isBuilding_of_isReading (readPostfix_events tokens event hmem)

/-! ## Both ways to write -/

theorem assemble_ofBuilder (fixity : Fixity) (tokens : List String) :
    (assemble fixity tokens).OfBuilder := by
  cases fixity with
  | inFix => exact readInfix_ofBuilder tokens
  | postFix => exact readPostfix_ofBuilder tokens

theorem construct_ofBuilder (fixity : Fixity) (tokens : List String) :
    (construct fixity tokens).OfBuilder := by
  have hread := assemble_ofBuilder fixity tokens
  unfold construct
  cases h : (assemble fixity tokens).result with
  | error fault =>
    simp only [h]
    exact hread
  | ok t =>
    simp only [h]
    exact .of_tree (hread.tree t h) (List.forall_mem_append.mpr ⟨hread.events, by simp [Event.isBuilding]⟩)

theorem constructLine_ofBuilder (fixity : Fixity) (line : String) :
    (constructLine fixity line).OfBuilder :=
  construct_ofBuilder fixity (Text.words line)

/-- A line that is a numeral reads as this numeral, either way. -/
theorem constructLine_numeral {token : String} (hword : Text.IsWord token)
    (hnum : Token.isNumeral token = true) (fixity : Fixity) :
    (constructLine fixity token).result = .ok (.operand token) := by
  have ht : (Tree.operand token).IsExpression := .operand hnum
  obtain ⟨hgrouped, hback, -⟩ := ht.roundTrip
  rw [Tree.infixTokens_eq_grouped, Tree.operand, Tree.grouped, if_pos hnum] at hgrouped
  rw [Tree.postfixTokens_operand] at hback
  rw [constructLine, Text.words_word hword, construct_result]
  cases fixity with
  | inFix => exact hgrouped
  | postFix => exact hback

/-- **Every tree that is read is well formed.** Whatever the tokens, a tree that a builder returns has at least one
node. Each of its nodes is an operand that starts with a digit and has no links, a `!` with its operand
to the right and nothing to the left, or a binary operator with both links. So the checks of the structure accept
the tree. -/
theorem assemble_wellFormed {fixity : Fixity} {tokens : List String} {t : Tree}
    (h : (assemble fixity tokens).result = .ok t) :
    t ≠ .empty ∧ (∀ n ∈ t.preorder, n.Proper) ∧ t.isWellFormed = true ∧ t.isValid false = .ok true := by
  have ht : t.IsExpression := (assemble_ofBuilder fixity tokens).tree t h
  have hwell : t.isWellFormed = true := Tree.isWellFormed_iff.mpr ht.wellFormed
  refine ⟨ht.ne_empty, ht.proper, hwell, ?_⟩
  simp [Tree.isValid, hwell]

/-- The infix tokens are no sentence of the grammar, and two postfix operators are skipped. -/
theorem assemble_wellFormed_misplaced :
    let difference := Tree.binary "-" (.operand "1x") (.unary "!" (.operand "2"))
    (∀ n ∈ difference.preorder, n.Proper) ∧ difference.isValid false = .ok true ∧
      (assemble .inFix ["1x", "(", "2", "!", "-", ")"]).result = .ok difference ∧
      (assemble .postFix ["!", "-", "1x", "2", "!", "-"]).result = .ok difference := by
  obtain ⟨-, hproper, -, -⟩ :=
    @assemble_wellFormed .inFix ["1x", "(", "2", "!", "-", ")"] _ rfl
  obtain ⟨-, -, -, hvalid⟩ :=
    @assemble_wellFormed .postFix ["!", "-", "1x", "2", "!", "-"] _ rfl
  exact ⟨hproper, hvalid, rfl, rfl⟩

end Abacus
