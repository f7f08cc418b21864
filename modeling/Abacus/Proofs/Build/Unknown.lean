import Abacus.Proofs.Build.Rejection

/-!
# Unknown tokens

A list of tokens can be searched for unknown ones without building anything. Each builder tells known tokens from
unknown ones by itself, while it reads them, and may stop earlier for another reason. Both agree with the search: a
token that is read without an error is known, and the error about an unknown token is about the first one.

Results:
* `Release.feed_known`, `Stack.feed_known`: a token that a builder has read is known.
* `readInfix_unknownToken`, `readPostfix_unknownToken`: the error about an unknown token names the first one, and for
  postfix tokens its position.
* `assemble_unknown`: builders and search agree.
-/

namespace Abacus

namespace Token

theorem isUnknown_of_isNumeral {token : String} (h : isNumeral token = true) (grouping : Bool) :
    isUnknown grouping token = false := by
  simp [isUnknown, h]

theorem isUnknown_symbol (op : Operator) (grouping : Bool) : isUnknown grouping op.symbol = false := by
  simp [isUnknown]

theorem unknown_eq_nil_iff {tokens : List String} {grouping : Bool} :
    unknown tokens grouping = [] ↔ ∀ token ∈ tokens, isUnknown grouping token = false := by
  simp [unknown]

/-- The search finds a token first if all tokens before it are known, and it stands where the search says. -/
theorem head?_unknown_append {grouping : Bool} {before after : List String} {token : String}
    (hbefore : ∀ other ∈ before, isUnknown grouping other = false) (htoken : isUnknown grouping token = true) :
    (unknown (before ++ token :: after) grouping).head? = some token ∧
      (before ++ token :: after).findIdx (isUnknown grouping) = before.length := by
  constructor
  · have hnone : before.filter (isUnknown grouping) = [] := unknown_eq_nil_iff.mpr hbefore
    rw [unknown, List.filter_append, hnone, List.nil_append, List.filter_cons_of_pos htoken, List.head?_cons]
  · have hnone : before.findIdx (isUnknown grouping) = before.length := List.findIdx_eq_length.mpr hbefore
    rw [List.findIdx_append, hnone, List.findIdx_cons, htoken]
    simp

end Token

/-! ## Infix tokens -/

namespace Release

theorem feed_known {waiting word waiting' : List String} {token : String}
    (h : feed waiting token = .ok (word, waiting')) : Token.isUnknown true token = false := by
  rcases feed_eq_ok_cases h with ⟨hnum, -⟩ | ⟨op, rfl, -⟩ | ⟨rfl, -⟩ | ⟨rfl, -⟩
  · exact Token.isUnknown_of_isNumeral hnum true
  · exact Token.isUnknown_symbol op true
  · rfl
  · rfl

theorem feed_unknownToken {waiting : List String} {token other : String} {position : Option Nat}
    (h : feed waiting token = .error (.unknownToken other position)) :
    other = token ∧ position = none ∧ Token.isUnknown true token = true := by
  rcases feed_eq_error_cases h with ⟨-, -, he⟩ | ⟨hnum, hop, hgroup, he⟩
  · cases he
  · cases he
    exact ⟨rfl, rfl, by simp [Token.isUnknown, hnum, hop, hgroup]⟩

/-- A run without a fault has read known tokens only. -/
theorem run_known {waiting tokens : List String} (h : (run waiting tokens).2 = none) :
    ∀ token ∈ tokens, Token.isUnknown true token = false := by
  induction tokens generalizing waiting with
  | nil => exact fun token hmem => absurd hmem List.not_mem_nil
  | cons token tokens ih =>
    rw [run] at h
    cases hfeed : feed waiting token with
    | error e =>
      rw [hfeed] at h
      cases h
    | ok released =>
      rw [hfeed] at h
      exact List.forall_mem_cons.mpr ⟨feed_known hfeed, ih h⟩

/-- A run that meets an unknown token has read known tokens before it. -/
theorem run_unknownToken {waiting tokens : List String} {token : String} {position : Option Nat}
    (h : (run waiting tokens).2 = some (.unknownToken token position)) :
    position = none ∧ ∃ before after, tokens = before ++ token :: after ∧
      (∀ other ∈ before, Token.isUnknown true other = false) ∧ Token.isUnknown true token = true := by
  induction tokens generalizing waiting with
  | nil =>
    rw [run] at h
    split at h <;> cases h
  | cons first tokens ih =>
    rw [run] at h
    cases hfeed : feed waiting first with
    | error e =>
      rw [hfeed] at h
      cases h
      obtain ⟨rfl, rfl, hunknown⟩ := feed_unknownToken hfeed
      exact ⟨rfl, [], tokens, rfl, fun other hmem => absurd hmem List.not_mem_nil, hunknown⟩
    | ok released =>
      rw [hfeed] at h
      obtain ⟨rfl, before, after, rfl, hbefore, hunknown⟩ := ih h
      exact ⟨rfl, first :: before, after, rfl, List.forall_mem_cons.mpr ⟨feed_known hfeed, hbefore⟩, hunknown⟩

end Release

/-- The kind of the error about an unknown token. -/
theorem BuildError.kindName_eq_unknown {e : BuildError} (h : e.kindName = "UnknownTokenError") :
    ∃ token position, e = .unknownToken token position := by
  cases e with
  | unknownToken token position => exact ⟨token, position, rfl⟩
  | missingOperands | noTree | leftover | unmatchedClosing | unclosedOpening => simp [kindName] at h

theorem readInfix_unknownToken {tokens : List String} {e : BuildError}
    (h : (readInfix tokens).result = .error (.build e)) (hkind : e.kindName = "UnknownTokenError") :
    ∃ token, (Token.unknown tokens true).head? = some token ∧ e = .unknownToken token none := by
  obtain ⟨token, position, rfl⟩ := BuildError.kindName_eq_unknown hkind
  rcases readInfix_fault h with hmalformed | hfault
  · simp [BuildError.kindName, malformedKind] at hmalformed
  · obtain ⟨rfl, before, after, rfl, hbefore, hunknown⟩ := Release.run_unknownToken hfault
    exact ⟨token, (Token.head?_unknown_append hbefore hunknown).1, rfl⟩

theorem readInfix_known {tokens : List String} {t : Tree} (h : (readInfix tokens).result = .ok t) :
    Token.unknown tokens true = [] :=
  Token.unknown_eq_nil_iff.mpr (Release.run_known (readInfix_eq_ok_iff.mp h).1)

/-! ## Postfix tokens -/

namespace Stack

theorem feed_known {s s' : Stack Trace} {token : String} (h : s.feed token = .ok s') :
    Token.isUnknown false token = false := by
  by_cases hnum : Token.isNumeral token = true
  · exact Token.isUnknown_of_isNumeral hnum false
  · rw [Bool.not_eq_true] at hnum
    by_cases hop : Token.isOperator token = true
    · simp [Token.isUnknown, hop]
    · rw [feed_unknown hnum (by simpa using hop)] at h
      cases h

theorem feed_unknownToken {s : Stack Trace} {token other : String} {position : Option Nat} {stuck : Stuck (Stack Trace)}
    (h : s.feed token = .error stuck) (hfault : stuck.fault = .build (.unknownToken other position)) :
    other = token ∧ position = some s.position ∧ Token.isUnknown false token = true := by
  by_cases hnum : Token.isNumeral token = true
  · rw [feed_numeral hnum] at h
    cases h
  · rw [Bool.not_eq_true] at hnum
    by_cases hop : Token.isOperator token = true
    · obtain ⟨op, rfl⟩ := Token.isOperator_iff.mp hop
      by_cases hempty : s.trees = []
      · rw [feed_skipped op hempty] at h
        cases h
      · rw [feed_symbol op hempty, reduce_symbol] at h
        cases hjoin : join op s.trees with
        | none =>
          simp only [hjoin] at h
          cases h
          cases hfault
        | some joined =>
          simp only [hjoin] at h
          cases h
    · have hop : Token.isOperator token = false := by simpa using hop
      rw [feed_unknown hnum hop] at h
      cases h
      cases hfault
      exact ⟨rfl, rfl, by simp [Token.isUnknown, hnum, hop]⟩

theorem foldlM_known {tokens : List String} {s s' : Stack Trace} (h : tokens.foldlM feed s = .ok s') :
    ∀ token ∈ tokens, Token.isUnknown false token = false :=
  forall_mem_of_foldlM (q := fun token => Token.isUnknown false token = false)
    (fun _ _ _ hfeed => feed_known hfeed) h

/-- The end of a run is not about unknown tokens. -/
theorem finish_ne_unknownToken {s : Stack Trace} {stuck : Stuck (Stack Trace)} (h : s.finish = .error stuck)
    (token : String) (position : Option Nat) : stuck.fault ≠ .build (.unknownToken token position) := by
  unfold finish at h
  split at h <;> cases h <;> exact fun hfault => by cases hfault

/-- A run that meets an unknown token has read known tokens before it, and gives the number of these. -/
theorem build_unknownToken {tokens : List String} {token : String} {position : Option Nat} {stuck : Stuck (Stack Trace)}
    (h : build ([] : Trace) tokens = .error stuck) (hfault : stuck.fault = .build (.unknownToken token position)) :
    ∃ before after, tokens = before ++ token :: after ∧ position = some before.length ∧
      (∀ other ∈ before, Token.isUnknown false other = false) ∧ Token.isUnknown false token = true := by
  unfold build at h
  rcases bind_eq_error_iff.mp h with hrun | ⟨s, -, hfinish⟩
  · obtain ⟨before, token', after, s, rfl, hbefore, hfail⟩ := foldlM_split hrun
    obtain ⟨rfl, rfl, hunknown⟩ := feed_unknownToken hfail hfault
    have hposition := (reached_of_foldlM hbefore).position
    exact ⟨before, after, rfl, by rw [hposition], foldlM_known hbefore, hunknown⟩
  · exact absurd hfault (finish_ne_unknownToken hfinish token position)

end Stack

theorem readPostfix_unknownToken {tokens : List String} {e : BuildError}
    (h : (readPostfix tokens).result = .error (.build e)) (hkind : e.kindName = "UnknownTokenError") :
    ∃ token, (Token.unknown tokens false).head? = some token ∧
      e = .unknownToken token (some (tokens.findIdx (Token.isUnknown false))) := by
  obtain ⟨token, position, rfl⟩ := BuildError.kindName_eq_unknown hkind
  rw [readPostfix] at h
  cases hbuild : Stack.build ([] : Trace) tokens with
  | ok built =>
    rw [hbuild] at h
    cases h
  | error stuck =>
    rw [hbuild] at h
    have hfault : stuck.fault = .build (.unknownToken token position) := Except.error.inj h
    obtain ⟨before, after, rfl, rfl, hbefore, hunknown⟩ := Stack.build_unknownToken hbuild hfault
    obtain ⟨hfirst, hindex⟩ := Token.head?_unknown_append hbefore hunknown
    exact ⟨token, hfirst, by rw [hindex]⟩

theorem readPostfix_known {tokens : List String} {t : Tree} (h : (readPostfix tokens).result = .ok t) :
    Token.unknown tokens false = [] := by
  obtain ⟨s, hrun, -, -⟩ := readPostfix_eq_ok_iff.mp h
  exact Token.unknown_eq_nil_iff.mpr (Stack.foldlM_known hrun)

/-! ## Builders and search -/

/-- Are there parentheses among the tokens of expressions that are written this way? -/
def Fixity.grouping : Fixity → Bool
  | inFix => true
  | postFix => false

/-- The position that the error about the first unknown token gives; only the one about postfix tokens has any. -/
def Fixity.unknownPosition (tokens : List String) : Fixity → Option Nat
  | inFix => none
  | postFix => some (tokens.findIdx (Token.isUnknown false))

theorem assemble_unknownToken {fixity : Fixity} {tokens : List String} {e : BuildError}
    (h : (assemble fixity tokens).result = .error (.build e)) (hkind : e.kindName = "UnknownTokenError") :
    ∃ token, (Token.unknown tokens fixity.grouping).head? = some token ∧
      e = .unknownToken token (fixity.unknownPosition tokens) := by
  cases fixity with
  | inFix => exact readInfix_unknownToken h hkind
  | postFix => exact readPostfix_unknownToken h hkind

theorem assemble_known {fixity : Fixity} {tokens : List String} {t : Tree}
    (h : (assemble fixity tokens).result = .ok t) : Token.unknown tokens fixity.grouping = [] := by
  cases fixity with
  | inFix => exact readInfix_known h
  | postFix => exact readPostfix_known h

/-- **Builders and search agree on unknown tokens.** Whichever way the tokens are written, a builder ends with the
error about an unknown token only if the search finds one, and then the error names the first one that is
found; for postfix tokens it gives the position of this token. Where the search finds a token, the builder ends with
some error of the expression, and where it finds none, never with the one about an unknown token. -/
theorem assemble_unknown (fixity : Fixity) (tokens : List String) :
    (∀ e : BuildError, (assemble fixity tokens).result = .error (.build e) →
      e.kindName = "UnknownTokenError" →
        ∃ token, (Token.unknown tokens fixity.grouping).head? = some token ∧
          e = .unknownToken token (fixity.unknownPosition tokens) ∧
          ∀ index, fixity.unknownPosition tokens = some index →
            e.message = s!"Unknown token {Text.quoted token} at position {index} in postfix expression") ∧
    (Token.unknown tokens fixity.grouping ≠ [] →
      ∃ e : BuildError, (assemble fixity tokens).result = .error (.build e)) ∧
    (Token.unknown tokens fixity.grouping = [] → ∀ e : BuildError,
      (assemble fixity tokens).result = .error (.build e) → e.kindName ≠ "UnknownTokenError") := by
  refine ⟨?_, ?_, ?_⟩
  · intro e h hkind
    obtain ⟨token, hfirst, rfl⟩ := assemble_unknownToken h hkind
    refine ⟨token, hfirst, rfl, fun index hindex => ?_⟩
    rw [hindex]
    rfl
  · intro hfound
    rcases assemble_endsWith fixity tokens with ⟨t, ht⟩ | ⟨e, he, -⟩
    · exact absurd (assemble_known ht) hfound
    · exact ⟨e, he⟩
  · intro hnone e h hkind
    obtain ⟨token, hfirst, -⟩ := assemble_unknownToken h hkind
    rw [hnone] at hfirst
    cases hfirst

/-- A parenthesis is unknown among postfix tokens, though skipped operators and known tokens come before it. Of
infix tokens, the unknown one behind a parenthesis without its partner is not reached, and missing operands are not
about unknown tokens. -/
theorem assemble_unknown_postponed :
    (Token.unknown ["+", "1", "(", "x"] false).head? = some "(" ∧
    (BuildError.unknownToken "(" (some 2)).message =
      "Unknown token '(' at position 2 in postfix expression" ∧
    (∃ e : BuildError, (assemble .inFix ["1", ")", "x"]).result = .error (.build e)) ∧
    (BuildError.missingOperands "+" none 2 1).kindName ≠ "UnknownTokenError" := by
  obtain ⟨token, hfirst, htoken, hmessage⟩ :=
    (assemble_unknown .postFix ["+", "1", "(", "x"]).1 (.unknownToken "(" (some 2)) rfl rfl
  cases htoken
  refine ⟨hfirst, (hmessage 2 rfl).trans (by rfl), ?_, ?_⟩
  · exact (assemble_unknown .inFix ["1", ")", "x"]).2.1 (by decide)
  · exact (assemble_unknown .inFix ["(", "1", "+", ")"]).2.2 (by decide) _ rfl

end Abacus
