import Abacus.Build.Construct
import Abacus.Proofs.Build.Release
import Abacus.Proofs.Build.ReversePolish
import Abacus.Proofs.Steps
import Mathlib.Data.List.Basic

/-!
# Building fails with build errors only

Inside, the builders rely on operations that can go wrong in ways of their own: a symbol without a number of
operands, a node with the wrong operands or of the wrong kind, a group whose parenthesis is not on the stack.
None of them does. Only operators and open parentheses wait on the operator stack, a parenthesis is never handed
to `reduce`, and a symbol finds as many operands as it needs or fails before it takes any.

Results:
* `joinable_iff`: the symbols that join whatever operands they get are exactly the operator symbols.
* `Shunt.waiting_of_foldlM`: what waits on the operator stack, in every state of a run.
* `Shunt.feed_fails`, `Stack.feed_fails`: how one token can fail.
* `assemble_fails`: how reading a list of tokens can fail, as a whole and at every step.
-/

namespace Abacus

/-! ## Steps that fail in given ways -/

section Fails

variable {σ α β : Type}

/-- A step fails, if at all, with a build error of one of the given kinds. -/
def FailsOnlyBy (kinds : List String) (r : Except (Stuck σ) α) : Prop :=
  ∀ stuck, r = .error stuck → ∃ e : BuildError, stuck.fault = .build e ∧ e.kindName ∈ kinds

namespace FailsOnlyBy

variable {kinds : List String} {r : Except (Stuck σ) α}

theorem ok (a : α) : FailsOnlyBy kinds (.ok a : Except (Stuck σ) α) := by
  rintro stuck ⟨⟩

theorem error {e : BuildError} (h : e.kindName ∈ kinds) (s : σ) :
    FailsOnlyBy kinds (.error ⟨.build e, s⟩ : Except (Stuck σ) α) := by
  rintro stuck ⟨⟩
  exact ⟨e, rfl, h⟩

/-- What fails in one way only fails in one of several. -/
theorem of_singleton {kind : String} (h : FailsOnlyBy [kind] r) (hmem : kind ∈ kinds) : FailsOnlyBy kinds r := by
  intro stuck hr
  obtain ⟨e, hfault, hkind⟩ := h stuck hr
  rw [List.mem_singleton] at hkind
  exact ⟨e, hfault, hkind ▸ hmem⟩

theorem bind (h : FailsOnlyBy kinds r) {f : α → Except (Stuck σ) β}
    (hf : ∀ a, r = .ok a → FailsOnlyBy kinds (f a)) : FailsOnlyBy kinds (r >>= f) := by
  intro stuck hr
  rcases bind_eq_error_iff.mp hr with hfail | ⟨a, ha, hfail⟩
  · exact h stuck hfail
  · exact hf a ha stuck hfail

theorem map (h : FailsOnlyBy kinds r) (f : α → β) : FailsOnlyBy kinds (f <$> r) := by
  rw [map_eq_pure_bind]
  exact h.bind fun a _ => .ok (f a)

/-- A run fails as its steps fail in the states that it can reach. -/
theorem foldlM {p : σ → Prop} {step : σ → α → Except (Stuck σ) σ}
    (hkeep : ∀ s a s', p s → step s a = .ok s' → p s')
    (hstep : ∀ s a, p s → FailsOnlyBy kinds (step s a)) {s : σ} (hs : p s) (as : List α) :
    FailsOnlyBy kinds (as.foldlM step s) := by
  intro stuck hrun
  obtain ⟨s', a, hs', -, hfail⟩ := foldlM_error hkeep hs hrun
  exact hstep s' a hs' stuck hfail

end FailsOnlyBy

end Fails

/-- Too few operands, no tree or several. -/
def malformedKind : String := "MalformedExpressionError"

/-- The kinds of errors that reading tokens can end with. Postfix tokens have no parentheses to balance. -/
def Fixity.errorKinds : Fixity → List String
  | inFix => [malformedKind, "UnknownTokenError", "UnbalancedParenthesesError"]
  | postFix => [malformedKind, "UnknownTokenError"]

theorem malformedKind_mem_errorKinds (fixity : Fixity) : malformedKind ∈ fixity.errorKinds := by
  cases fixity <;> exact List.mem_cons_self

theorem unknownToken_mem_errorKinds (fixity : Fixity) (token : String) (position : Option Nat) :
    (BuildError.unknownToken token position).kindName ∈ fixity.errorKinds := by
  cases fixity <;> simp [BuildError.kindName, Fixity.errorKinds]

/-! ## Symbols that join -/

/-- The symbol has a number of operands, and it makes a node of any operands of this number. -/
def Joinable (symbol : String) : Prop :=
  ∃ needed, symbolArity symbol = .ok needed ∧
    ∀ operands : List Tree, operands.length = needed → ∃ t, Tree.ofOperands symbol operands = .ok t

theorem joinable_symbol (op : Operator) : Joinable op.symbol := by
  refine ⟨op.arity, symbolArity_symbol op, fun operands hlen => ?_⟩
  rcases op.arity_eq_one_or_two with hop | hop
  · obtain ⟨operand, rfl⟩ := List.length_eq_one_iff.mp (hlen.trans hop)
    exact ⟨.unary op.symbol operand, by simp [Tree.ofOperands, Tree.unary?, hop]⟩
  · obtain ⟨left, right, rfl⟩ := List.length_eq_two.mp (hlen.trans hop)
    exact ⟨.binary op.symbol left right, by simp [Tree.ofOperands, Tree.binary?, hop]⟩

theorem joinable_iff {symbol : String} : Joinable symbol ↔ Token.isOperator symbol = true := by
  constructor
  · rintro ⟨needed, harity, -⟩
    unfold symbolArity at harity
    split at harity
    · next op hop => simp [Token.isOperator, hop]
    · cases harity
  · intro hop
    obtain ⟨op, rfl⟩ := Token.isOperator_iff.mp hop
    exact joinable_symbol op

/-! ## Infix tokens -/

namespace Shunt

theorem reduce_fails {symbol : String} (hop : Token.isOperator symbol = true) (s : Shunt Trace) :
    FailsOnlyBy [malformedKind] (reduce symbol s) := by
  obtain ⟨op, rfl⟩ := Token.isOperator_iff.mp hop
  rw [reduce_symbol]
  cases join op s.operands with
  | none => exact .error List.mem_cons_self s
  | some joined => exact .ok _

/-- The loops over the operator stack join operators only, because they stop at an open parenthesis. -/
theorem joinWhile_fails {p : String → Bool} (hp : p Token.opening = false) {operators : List String}
    (hwait : Waiting operators) (s : Shunt Trace) : FailsOnlyBy [malformedKind] (joinWhile p operators s) := by
  induction operators generalizing s with
  | nil => exact .ok s
  | cons top rest ih =>
    obtain ⟨htop, hrest⟩ := List.forall_mem_cons.mp hwait
    rw [joinWhile]
    split
    · next hjoin =>
      have hop : Token.isOperator top = true := by
        rcases htop with rfl | hop
        · rw [hp] at hjoin
          cases hjoin
        · exact hop
      exact (reduce_fails hop _).bind fun s' _ => ih hrest s'
    · exact .ok s

theorem closeGroup_fails {s : Shunt Trace} (hwait : Waiting s.operators) (hopen : Token.opening ∈ s.operators) :
    FailsOnlyBy [malformedKind] (closeGroup s.operators s) := by
  rw [closeGroup_eq_joinWhile hopen rfl]
  exact (joinWhile_fails Release.inGroup_opening hwait s).map _

/-- One token fails for want of operands, because it is unknown, or because its parenthesis is not open. -/
theorem feed_fails {s : Shunt Trace} (hwait : Waiting s.operators) (token : String) :
    FailsOnlyBy Fixity.inFix.errorKinds (s.feed token) := by
  have hmem := malformedKind_mem_errorKinds .inFix
  have hyields (token : String) : Release.yields token Token.opening = false := by simp [Release.yields]
  rcases Token.cases token with hnum | ⟨op, rfl⟩ | rfl | rfl | ⟨hnum, hop, hgroup⟩
  · rw [feed, if_pos hnum]
    exact .ok _
  · rw [feed_pushed (by simp) (by simp) (Token.symbol_ne_closing op)]
    exact ((joinWhile_fails (hyields _) hwait s).map _).of_singleton hmem
  · rw [feed_pushed (by simp) (by simp) Token.opening_ne_closing]
    exact ((joinWhile_fails (hyields _) hwait s).map _).of_singleton hmem
  · by_cases hopen : Token.opening ∈ s.operators
    · rw [feed_closing hopen]
      exact ((joinWhile_fails Release.inGroup_opening hwait s).map _).of_singleton hmem
    · have hfeed : s.feed Token.closing = .error ⟨.build .unmatchedClosing, s⟩ := by
        simp [feed, resolve, hopen]
      rw [hfeed]
      exact .error (by decide) s
  · have hfeed : s.feed token = .error ⟨.build (.unknownToken token none), s⟩ := by
      simp [feed, resolve, hnum, hop, hgroup]
    rw [hfeed]
    exact .error (unknownToken_mem_errorKinds .inFix token none) s

theorem drain_fails {s : Shunt Trace} (hwait : Waiting s.operators) :
    FailsOnlyBy Fixity.inFix.errorKinds (drain s.operators s) := by
  rw [drain_eq_joinWhile rfl]
  have hjoin := (joinWhile_fails Release.inGroup_opening hwait s).of_singleton
    (malformedKind_mem_errorKinds .inFix)
  refine hjoin.bind fun s' _ => ?_
  split
  · exact .ok s'
  · exact .error (by decide) _

theorem finish_fails (s : Shunt Trace) : FailsOnlyBy Fixity.inFix.errorKinds s.finish := by
  unfold finish
  split
  · exact .ok _
  · exact .error (malformedKind_mem_errorKinds .inFix) s
  · exact .error (malformedKind_mem_errorKinds .inFix) s

/-! ### Runs -/

/-- A token that is read leaves operators and open parentheses waiting. -/
theorem waiting_feed (s : Shunt Trace) (token : String) (s' : Shunt Trace) (hwait : Waiting s.operators)
    (h : s.feed token = .ok s') : Waiting s'.operators := by
  have hseen := feed_seen hwait token
  rw [h, mapError_ok] at hseen
  cases hfeed : Release.feed s.operators token with
  | error e =>
    rw [hfeed] at hseen
    cases hseen
  | ok released =>
    obtain ⟨word, waiting⟩ := released
    rw [hfeed] at hseen
    cases hrun : word.foldlM Forest.perform s.forest with
    | error seen =>
      simp only [hrun] at hseen
      cases hseen
    | ok f =>
      simp only [hrun] at hseen
      cases hseen
      exact hwait.feed hfeed

theorem waiting_fresh : Waiting (fresh ([] : Trace)).operators :=
  fun _ hmem => absurd hmem List.not_mem_nil

/-- In every state of a run, operators and open parentheses are waiting. -/
theorem waiting_of_foldlM {tokens : List String} {s : Shunt Trace} (h : tokens.foldlM feed (fresh []) = .ok s) :
    Waiting s.operators :=
  foldlM_ok (p := fun s => Waiting s.operators) waiting_feed waiting_fresh h

theorem build_fails (tokens : List String) : FailsOnlyBy Fixity.inFix.errorKinds (build ([] : Trace) tokens) := by
  have hrun : FailsOnlyBy Fixity.inFix.errorKinds (tokens.foldlM feed (fresh ([] : Trace))) :=
    .foldlM (p := fun s => Waiting s.operators) waiting_feed (fun s token hs => feed_fails hs token) waiting_fresh
      tokens
  refine hrun.bind fun s hs => ?_
  exact (drain_fails (waiting_of_foldlM hs)).bind fun s' _ => finish_fails s'

end Shunt

/-! ## Postfix tokens -/

namespace Stack

/-- One token fails for want of operands or because it is unknown. -/
theorem feed_fails (s : Stack Trace) (token : String) : FailsOnlyBy Fixity.postFix.errorKinds (s.feed token) := by
  by_cases hnum : Token.isNumeral token = true
  · rw [feed_numeral hnum]
    exact .ok _
  · rw [Bool.not_eq_true] at hnum
    by_cases hop : Token.isOperator token = true
    · obtain ⟨op, rfl⟩ := Token.isOperator_iff.mp hop
      by_cases hempty : s.trees = []
      · rw [feed_skipped op hempty]
        exact .ok _
      · rw [feed_symbol op hempty, reduce_symbol]
        cases join op s.trees with
        | none => exact .error (malformedKind_mem_errorKinds .postFix) s
        | some joined => exact .ok _
    · rw [feed_unknown hnum (by simpa using hop)]
      exact .error (unknownToken_mem_errorKinds .postFix token _) s

theorem finish_fails (s : Stack Trace) : FailsOnlyBy Fixity.postFix.errorKinds s.finish := by
  unfold finish
  split
  · exact .ok _
  · exact .error (malformedKind_mem_errorKinds .postFix) s
  · exact .error (malformedKind_mem_errorKinds .postFix) s

theorem build_fails (tokens : List String) : FailsOnlyBy Fixity.postFix.errorKinds (build ([] : Trace) tokens) := by
  have hrun : FailsOnlyBy Fixity.postFix.errorKinds (tokens.foldlM feed (fresh ([] : Trace))) :=
    .foldlM (p := fun _ => True) (fun _ _ _ _ _ => trivial) (fun s token _ => feed_fails s token) trivial tokens
  exact hrun.bind fun s _ => finish_fails s

end Stack

/-! ## Both ways to write -/

/-- A report that ends with a tree or with a build error of one of the kinds. -/
def Report.EndsWith (kinds : List String) (report : Report Tree) : Prop :=
  (∃ t, report.result = .ok t) ∨
    ∃ e : BuildError, report.result = .error (.build e) ∧ e.kindName ∈ kinds

theorem assemble_endsWith (fixity : Fixity) (tokens : List String) :
    (assemble fixity tokens).EndsWith fixity.errorKinds := by
  cases fixity with
  | inFix =>
    have hfails := Shunt.build_fails tokens
    rw [assemble, readInfix]
    cases hbuild : Shunt.build ([] : Trace) tokens with
    | ok built => exact .inl ⟨built.1, rfl⟩
    | error stuck =>
      obtain ⟨e, hfault, hkind⟩ := hfails stuck hbuild
      exact .inr ⟨e, congrArg Except.error hfault, hkind⟩
  | postFix =>
    have hfails := Stack.build_fails tokens
    rw [assemble, readPostfix]
    cases hbuild : Stack.build ([] : Trace) tokens with
    | ok built => exact .inl ⟨built.1, rfl⟩
    | error stuck =>
      obtain ⟨e, hfault, hkind⟩ := hfails stuck hbuild
      exact .inr ⟨e, congrArg Except.error hfault, hkind⟩

/-- **Building fails with build errors only.** Whatever the tokens, a builder returns a tree or ends with a
malformed expression, an unknown token or, for infix tokens, an unbalanced parenthesis. In every state between two
tokens, what waits on the operator stack and is no open parenthesis joins whatever operands it gets, and fails only
for want of operands in whatever state it is joined; closing a group whose parenthesis is on the stack finds it; and
reading any token next or joining all that waits fails in the same ways only. -/
theorem assemble_fails (tokens : List String) :
    (∀ fixity : Fixity, (assemble fixity tokens).EndsWith fixity.errorKinds) ∧
    (∀ s, tokens.foldlM Shunt.feed (Shunt.fresh ([] : Trace)) = .ok s →
      (∀ symbol ∈ s.operators, symbol ≠ Token.opening →
        Joinable symbol ∧ ∀ s' : Shunt Trace, FailsOnlyBy [malformedKind] (Shunt.reduce symbol s')) ∧
      (Token.opening ∈ s.operators → FailsOnlyBy [malformedKind] (Shunt.closeGroup s.operators s)) ∧
      (∀ token, FailsOnlyBy Fixity.inFix.errorKinds (s.feed token)) ∧
      FailsOnlyBy Fixity.inFix.errorKinds (Shunt.drain s.operators s)) ∧
    (∀ s, tokens.foldlM Stack.feed (Stack.fresh ([] : Trace)) = .ok s →
      ∀ token, (Token.isOperator token = true → Joinable token) ∧
        FailsOnlyBy Fixity.postFix.errorKinds (s.feed token)) := by
  refine ⟨fun fixity => assemble_endsWith fixity tokens, fun s hs => ?_, fun s _ token => ?_⟩
  · have hwait := Shunt.waiting_of_foldlM hs
    refine ⟨fun symbol hmem hne => ?_, ?_, ?_, ?_⟩
    · have hop : Token.isOperator symbol = true := (hwait symbol hmem).resolve_left hne
      exact ⟨joinable_iff.mpr hop, Shunt.reduce_fails hop⟩
    · exact Shunt.closeGroup_fails hwait
    · exact Shunt.feed_fails hwait
    · exact Shunt.drain_fails hwait
  · exact ⟨joinable_iff.mpr, Stack.feed_fails s token⟩

end Abacus
