import Abacus.Proofs.Batch.Continue
import Abacus.Proofs.Build.Ballot
import Abacus.Proofs.Value.Faults

/-!
# Postfix lines in an infix run

An infix run cannot tell that a line is written in postfix: the infix builder makes a tree of every such line, and
what can fail after that is the value of the tree only. The tree is another one in general.

Results:
* `mem_of_lineFailed`: a failure that a run reports is that of one of its entries.
* `infixRun_reads_postfixLines`: postfix words and postfix lines are read as infix without a fault.
-/

namespace Abacus

/-! ## Entries -/

theorem fixity_of_mem_entriesFrom {fixity : Fixity} {number : Nat} {lines : List String} {entry : Entry}
    (h : entry ∈ entriesFrom false fixity number lines) : entry.fixity = fixity := by
  induction lines generalizing number with
  | nil => cases h
  | cons raw rest ih =>
    unfold entriesFrom at h
    simp only at h
    split at h
    · exact ih h
    · rcases List.mem_cons.mp h with rfl | hrest
      · rfl
      · exact ih hrest

/-- A failure that a run reports is the failure of one of its entries. -/
theorem mem_of_lineFailed [Symbolic] {options : Options} {entries : List Entry} {number : Nat} {fixity : Fixity}
    {line : String} {error : ExpressionError}
    (h : .lineFailed number fixity line error ∈ (runEntries options 0 0 entries).events) :
    ⟨number, fixity, line⟩ ∈ entries ∧ Entry.verdict options ⟨number, fixity, line⟩ = .failure error := by
  rw [runEntries_eq] at h
  have herror : .lineFailed number fixity line error ∈
      (visited options entries).filterMap (Entry.failed? options) := by
    rw [← errors_summed options 0 0 (visited options entries)]
    exact List.mem_filter.mpr ⟨h, rfl⟩
  obtain ⟨entry, hentry, hfailed⟩ := List.mem_filterMap.mp herror
  obtain ⟨error', hfailure, heq⟩ := Option.map_eq_some_iff.mp hfailed
  cases heq
  refine ⟨List.take_subset _ _ hentry, ?_⟩
  show entry.verdict options = .failure error
  unfold Verdict.failure? at hfailure
  split at hfailure
  · next hverdict =>
    cases hfailure
    exact hverdict
  · cases hfailure

/-- An entry whose line has a tree does not fail with an error of reading tokens. -/
theorem Entry.verdict_ne_build [Symbolic] {options : Options} {entry : Entry} {t : Tree}
    (htree : (constructLine entry.fixity entry.line).result = .ok t) (e : BuildError) :
    entry.verdict options ≠ .failure (.build e) := by
  rw [verdict_of_tree htree]
  intro h
  cases hblock : block options t with
  | ok text =>
    rw [hblock] at h
    cases h
  | error fault =>
    have hread := block_unread options t fault hblock
    rw [hblock] at h
    unfold Verdict.ofResult at h
    split at h
    · cases h
    · next error heq =>
      cases h
      cases heq
      cases hread
    · cases h

/-! ## Postfix words and lines -/

/-- **Postfix is read as infix without a fault.** The infix builder makes a tree of the postfix form of every
expression, with the same leaves from left to right and the same operators, each as often. It need not be the
expression itself. So an infix run, whatever its lines and its other settings are, reports no error of reading
tokens for a line that is written in postfix. -/
theorem infixRun_reads_postfixLines [Symbolic] :
    (∀ t : Tree, t.IsExpression →
      ∃ t', (readInfix t.postfixTokens).result = .ok t' ∧ t'.leaves = t.leaves ∧
        t'.operatorTokens.Perm t.operatorTokens) ∧
    (∃ t t' : Tree, t.IsExpression ∧ (readInfix t.postfixTokens).result = .ok t' ∧ t' ≠ t) ∧
    ∀ (settings : Settings) (lines : List String), Layout.ofScalar settings.mode = .ok (.fixed .inFix) →
      ∀ number fixity line e,
        .lineFailed number fixity line (.build e) ∈ (runSettings settings lines).events →
        ∀ t : Tree, t.IsExpression → Text.words line ≠ t.postfixTokens := by
  refine ⟨fun t h => h.readInfix_postfixTokens, ?_, ?_⟩
  · refine ⟨.binary "*" (.operand "1") (.binary "+" (.operand "2") (.operand "3")),
      .binary "+" (.operand "1") (.binary "*" (.operand "2") (.operand "3")), ?_, ?_, by decide⟩
    · have hsum : (Tree.binary "+" (.operand "2") (.operand "3")).IsExpression :=
        @Tree.IsExpression.binary .add _ _ rfl (.operand rfl) (.operand rfl)
      exact @Tree.IsExpression.binary .mul _ _ rfl (.operand rfl) hsum
    · simp only [Tree.postfixTokens_binary, Tree.postfixTokens_operand]
      rfl
  · intro settings lines hmode number fixity line e hmem t ht hwords
    rw [runSettings, hmode] at hmem
    obtain ⟨hentry, hverdict⟩ := mem_of_lineFailed hmem
    obtain rfl : fixity = .inFix := fixity_of_mem_entriesFrom hentry
    obtain ⟨t', hread⟩ := ht.exists_readInfix_postfixTokens
    have htree : (constructLine .inFix line).result = .ok t' := by
      rw [constructLine, construct_result, hwords]
      exact hread
    exact Entry.verdict_ne_build htree e hverdict

/-- The product is read as `1 + (2 * !3)`. The line `1 +` is not read, so it is not the postfix form of an
expression. -/
theorem infixRun_reads_postfixLines_product :
    let product := Tree.binary "*" (.operand "1") (.binary "+" (.operand "2") (.unary "!" (.operand "3")))
    let settings := { Settings.standard with mode := .text "infix" }
    (∃ t', (readInfix product.postfixTokens).result = .ok t' ∧ t'.leaves = ["1", "2", "3"] ∧
      t'.operatorTokens.Perm ["*", "+", "!"]) ∧
    .lineFailed 1 .inFix "1 +" (.build (.missingOperands "+" none 2 1)) ∈ (runSettings settings ["1 +"]).events ∧
    ∀ t : Tree, t.IsExpression → Text.words "1 +" ≠ t.postfixTokens := by
  intro product settings
  have hopposite : (Tree.unary "!" (.operand "3")).IsExpression :=
    @Tree.IsExpression.unary .neg _ rfl (.operand rfl)
  have hproduct : product.IsExpression :=
    @Tree.IsExpression.binary .mul _ _ rfl (.operand rfl)
      (@Tree.IsExpression.binary .add _ _ rfl (.operand rfl) hopposite)
  have hfailed : .lineFailed 1 .inFix "1 +" (.build (.missingOperands "+" none 2 1)) ∈
      (runSettings settings ["1 +"]).events := List.mem_cons_self
  refine ⟨infixRun_reads_postfixLines.1 product hproduct, hfailed, ?_⟩
  exact infixRun_reads_postfixLines.2.2 settings ["1 +"] rfl 1 .inFix "1 +" _ hfailed

end Abacus
