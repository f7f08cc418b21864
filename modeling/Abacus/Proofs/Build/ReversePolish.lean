import Abacus.Proofs.Build.Settle

/-!
# The language of the postfix builder

A run of the postfix builder has two phases. As long as the stack is empty it skips operators; the first
numeral ends this phase for good, since no later step empties the stack. From then on the builder settles
the tokens.

Results:
* `Stack.Reached`, `Stack.reached_of_foldlM`: every state of the builder is reached by some skipped
  operators followed by a settled word.
* `Stack.foldlM_feed_of_settle`: a word that settles is accepted.
* `readPostfix_language`: the builder accepts exactly the postfix forms of expressions behind skipped
  operators, and it reports the skipped operators with their positions and no others.
-/

namespace Abacus

/-- Does the event report a skipped operator? -/
def Event.isSkipped : Event → Bool
  | skipped .. => true
  | _ => false

namespace Stack

/-! ## One token -/

theorem feed_numeral {token : String} (h : Token.isNumeral token = true) (s : Stack Trace) :
    s.feed token = .ok ⟨.operand token :: s.trees, s.position + 1, s.trace⟩ := by
  simp [feed, h]

theorem feed_unknown {token : String} (hnum : Token.isNumeral token = false)
    (hop : Token.isOperator token = false) (s : Stack Trace) :
    s.feed token = .error ⟨.build (.unknownToken token (some s.position)), s⟩ := by
  simp [feed, hnum, hop]

theorem feed_skipped (op : Operator) {s : Stack Trace} (h : s.trees = []) :
    s.feed op.symbol = .ok ⟨[], s.position + 1, .skipped op.symbol s.position :: s.trace⟩ := by
  simp [feed, h]

theorem feed_symbol (op : Operator) {s : Stack Trace} (h : s.trees ≠ []) :
    s.feed op.symbol = reduce op.symbol s := by
  simp [feed, h]

/-! ## What a run has done -/

/-- The tokens read so far are skipped operators followed by a word that settles to the stack. The skipped
operators, and they alone, have been reported as such. -/
structure Reached (tokens : List String) (s : Stack Trace) : Prop where
  split : ∃ ops word, tokens = ops ++ word ∧ (∀ op ∈ ops, Token.isOperator op = true) ∧
    settle [] word = some s.trees ∧
    s.trace.reverse.filter Event.isSkipped = ops.mapIdx fun position op => .skipped op position
  position : s.position = tokens.length

theorem reached_fresh : Reached [] (fresh []) :=
  ⟨⟨[], [], rfl, by simp, rfl, rfl⟩, rfl⟩

/-- A settled token is added to the word. -/
theorem Reached.settled {tokens : List String} {s : Stack Trace} {token : String} {trees : List Tree}
    {trace : List Event} (h : Reached tokens s) (htoken : settleToken s.trees token = some trees)
    (htrace : trace.reverse.filter Event.isSkipped = s.trace.reverse.filter Event.isSkipped) :
    Reached (tokens ++ [token]) ⟨trees, s.position + 1, trace⟩ := by
  obtain ⟨⟨ops, word, rfl, hops, hword, hskips⟩, hpos⟩ := h
  refine ⟨⟨ops, word ++ [token], by simp, hops, ?_, by rw [htrace, hskips]⟩,
    by simp [hpos, Nat.add_assoc]⟩
  simp [settle_append, hword, settle_singleton, htoken]

/-- An operator is skipped only if nothing has been settled yet, so the skipped operators stay in front. -/
theorem Reached.skipped {tokens : List String} {s : Stack Trace} (op : Operator) (h : Reached tokens s)
    (hempty : s.trees = []) :
    Reached (tokens ++ [op.symbol])
      ⟨[], s.position + 1, .skipped op.symbol s.position :: s.trace⟩ := by
  obtain ⟨⟨ops, word, rfl, hops, hword, hskips⟩, hpos⟩ := h
  have hnil : word = [] := by
    rw [hempty, settle_nil_eq_some_iff] at hword
    exact hword.2.symm
  subst hnil
  refine ⟨⟨ops ++ [op.symbol], [], by simp, ?_, rfl, ?_⟩, by simp [hpos]⟩
  · intro token htoken
    rcases List.mem_append.mp htoken with hin | hlast
    · exact hops token hin
    · obtain rfl := List.mem_singleton.mp hlast
      exact Token.isOperator_symbol op
  · simp [List.filter_append, hskips, hpos, Event.isSkipped, List.mapIdx_append]

/-- One step of the builder. -/
theorem Reached.feed {tokens : List String} {s s' : Stack Trace} {token : String} (h : Reached tokens s)
    (hfeed : s.feed token = .ok s') : Reached (tokens ++ [token]) s' := by
  by_cases hnum : Token.isNumeral token = true
  · rw [feed_numeral hnum] at hfeed
    cases hfeed
    exact h.settled (settleToken_numeral hnum _) rfl
  · rw [Bool.not_eq_true] at hnum
    by_cases hop : Token.isOperator token = true
    · obtain ⟨op, rfl⟩ := Token.isOperator_iff.mp hop
      by_cases hempty : s.trees = []
      · rw [feed_skipped op hempty] at hfeed
        cases hfeed
        exact h.skipped op hempty
      · rw [feed_symbol op hempty, reduce_symbol] at hfeed
        cases hjoin : join op s.trees with
        | none => simp [hjoin] at hfeed
        | some joined =>
          simp only [hjoin] at hfeed
          cases hfeed
          refine h.settled ?_ ?_
          · simp [settleToken_symbol, hjoin]
          · simp [List.filter_append, Event.isSkipped]
    · rw [feed_unknown hnum (by simpa using hop)] at hfeed
      cases hfeed

theorem Reached.foldlM {done tokens : List String} {s s' : Stack Trace} (h : Reached done s)
    (hrun : tokens.foldlM Stack.feed s = .ok s') : Reached (done ++ tokens) s' := by
  induction tokens generalizing done s with
  | nil =>
    cases hrun
    simpa using h
  | cons token tokens ih =>
    rw [List.foldlM_cons] at hrun
    cases hfeed : s.feed token with
    | error stuck => simp [hfeed, bind, Except.bind] at hrun
    | ok middle =>
      rw [hfeed] at hrun
      simpa using ih (h.feed hfeed) hrun

/-- Every run from the empty stack. -/
theorem reached_of_foldlM {tokens : List String} {s : Stack Trace}
    (hrun : tokens.foldlM feed (fresh []) = .ok s) : Reached tokens s := by
  simpa using reached_fresh.foldlM hrun

/-! ## What a run accepts -/

theorem feed_of_settleToken {s : Stack Trace} {token : String} {trees : List Tree}
    (h : settleToken s.trees token = some trees) :
    ∃ trace, s.feed token = .ok ⟨trees, s.position + 1, trace⟩ := by
  rcases settleToken_eq_some_cases h with ⟨hnum, rfl⟩ | ⟨op, t, rest, rfl, hjoin, rfl⟩
  · exact ⟨s.trace, feed_numeral hnum s⟩
  · have hne : s.trees ≠ [] := by
      intro hempty
      simp [hempty, join] at hjoin
    exact ⟨_, by rw [feed_symbol op hne, reduce_symbol, hjoin]⟩

/-- A word that settles is accepted. -/
theorem foldlM_feed_of_settle {s : Stack Trace} {word : List String} {trees : List Tree}
    (h : settle s.trees word = some trees) :
    ∃ s', word.foldlM feed s = .ok s' ∧ s'.trees = trees := by
  induction word generalizing s with
  | nil =>
    cases h
    exact ⟨s, rfl, rfl⟩
  | cons token word ih =>
    rw [settle_cons, Option.bind_eq_some_iff] at h
    obtain ⟨middle, htoken, hword⟩ := h
    obtain ⟨trace, hfeed⟩ := feed_of_settleToken htoken
    obtain ⟨s', hrun, htrees⟩ := ih (s := ⟨middle, s.position + 1, trace⟩) hword
    exact ⟨s', by rw [List.foldlM_cons, hfeed]; exact hrun, htrees⟩

/-- On the empty stack operators are skipped. -/
theorem foldlM_feed_operators {ops : List String} (hops : ∀ op ∈ ops, Token.isOperator op = true)
    {s : Stack Trace} (hempty : s.trees = []) :
    ∃ s', ops.foldlM feed s = .ok s' ∧ s'.trees = [] := by
  induction ops generalizing s with
  | nil => exact ⟨s, rfl, hempty⟩
  | cons token ops ih =>
    obtain ⟨htoken, hrest⟩ := List.forall_mem_cons.mp hops
    obtain ⟨op, rfl⟩ := Token.isOperator_iff.mp htoken
    obtain ⟨s', hrun, htrees⟩ :=
      ih hrest (s := ⟨[], s.position + 1, .skipped op.symbol s.position :: s.trace⟩) rfl
    exact ⟨s', by rw [List.foldlM_cons, feed_skipped op hempty]; exact hrun, htrees⟩

end Stack

/-! ## Whole expressions -/

/-- The builder returns a tree iff the run over the tokens ends with this tree alone on the stack. -/
theorem readPostfix_eq_ok_iff {tokens : List String} {t : Tree} :
    (readPostfix tokens).result = .ok t ↔
      ∃ s, tokens.foldlM Stack.feed (Stack.fresh ([] : Trace)) = .ok s ∧ s.trees = [t] ∧
        (readPostfix tokens).events = s.trace.reverse := by
  simp only [readPostfix, Stack.build]
  cases hrun : tokens.foldlM Stack.feed (Stack.fresh ([] : Trace)) with
  | error stuck => simp [bind, Except.bind]
  | ok s =>
    rcases htrees : s.trees with _ | ⟨t', _ | ⟨t'', rest⟩⟩ <;>
      simp [bind, Except.bind, Stack.finish, htrees]

/-- What the builder accepts is a postfix form behind operators, all of which it has skipped. -/
theorem readPostfix_sound {tokens : List String} {t : Tree}
    (h : (readPostfix tokens).result = .ok t) :
    t.IsExpression ∧ ∃ ops, (∀ op ∈ ops, Token.isOperator op = true) ∧
      tokens = ops ++ t.postfixTokens ∧
      (readPostfix tokens).events.filter Event.isSkipped =
        ops.mapIdx fun position op => .skipped op position := by
  obtain ⟨s, hrun, htrees, hevents⟩ := readPostfix_eq_ok_iff.mp h
  obtain ⟨ops, word, rfl, hops, hword, hskips⟩ := (Stack.reached_of_foldlM hrun).split
  rw [htrees] at hword
  obtain ⟨ht, rfl⟩ := settle_nil_eq_singleton_iff.mp hword
  exact ⟨ht, ops, hops, rfl, by rw [hevents, hskips]⟩

/-- A postfix form behind operators is accepted. -/
theorem readPostfix_append {ops : List String} (hops : ∀ op ∈ ops, Token.isOperator op = true)
    {t : Tree} (ht : t.IsExpression) : (readPostfix (ops ++ t.postfixTokens)).result = .ok t := by
  obtain ⟨s, hskip, hempty⟩ := Stack.foldlM_feed_operators hops (s := Stack.fresh []) rfl
  obtain ⟨s', hrun, htrees⟩ :=
    Stack.foldlM_feed_of_settle (settle_postfixTokens ht s.trees)
  rw [hempty] at htrees
  have hall : (ops ++ t.postfixTokens).foldlM Stack.feed (Stack.fresh ([] : Trace)) = .ok s' := by
    rw [List.foldlM_append, hskip]
    exact hrun
  simp [readPostfix, Stack.build, hall, bind, Except.bind, Stack.finish, htrees]

/-- **The language of the postfix builder.** The builder returns a tree iff the tree is an expression and
the tokens are its postfix form behind any number of operators. It then reports each of these operators
as skipped, at its position from 0 on, and no other operator. -/
theorem readPostfix_language (tokens : List String) (t : Tree) :
    ((readPostfix tokens).result = .ok t ↔
      t.IsExpression ∧ ∃ ops, (∀ op ∈ ops, Token.isOperator op = true) ∧
        tokens = ops ++ t.postfixTokens) ∧
    ∀ ops, (∀ op ∈ ops, Token.isOperator op = true) → t.IsExpression →
      tokens = ops ++ t.postfixTokens →
      (readPostfix tokens).events.filter Event.isSkipped =
        ops.mapIdx fun position op => .skipped op position := by
  refine ⟨⟨?_, ?_⟩, ?_⟩
  · intro h
    obtain ⟨ht, ops, hops, htokens, -⟩ := readPostfix_sound h
    exact ⟨ht, ops, hops, htokens⟩
  · rintro ⟨ht, ops, hops, rfl⟩
    exact readPostfix_append hops ht
  · rintro ops hops ht rfl
    obtain ⟨-, ops', -, htokens, hskips⟩ := readPostfix_sound (readPostfix_append hops ht)
    obtain rfl := List.append_cancel_right htokens
    exact hskips

theorem readPostfix_language_two_skipped :
    (readPostfix ["+", "!", "3", "4", "!", "+"]).events.filter Event.isSkipped =
      [.skipped "+" 0, .skipped "!" 1] := by
  have ht : (Tree.binary "+" (.operand "3") (.unary "!" (.operand "4"))).IsExpression :=
    @Tree.IsExpression.binary .add _ _ rfl (.operand rfl)
      (@Tree.IsExpression.unary .neg _ rfl (.operand rfl))
  refine (readPostfix_language _ _).2 ["+", "!"] (by decide) ht ?_
  simp [Tree.binary, Tree.unary, Tree.operand]

end Abacus
