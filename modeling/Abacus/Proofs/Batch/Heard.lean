import Abacus.Batch.Heard
import Abacus.Proofs.Batch.Run
import Abacus.Proofs.Build.Simulation
import Abacus.Proofs.Tree.Memo
import Mathlib.Data.List.Basic

/-!
# A logger does not interfere

Whatever the level of the logger, a run that it listens to gives and writes what the run does by itself, and shows
the lines that the logger picks from the events. A builder that the logger listens to and a builder that keeps all
events go together step by step. The one piece of work behind a gate that can fail is counting the nodes of a finished
tree, and it does not fail on an expression.

Results:
* `Logger.shown_eq`: an event shows the line that the logger picks from it, whatever the gate.
* `Hearing.related`: a logger goes on to follow a trace of all events.
* `assembleHeard_eq`, `constructHeard_eq`: builders that a logger listens to.
* `runHeard_eq`: a run that a logger listens to, in terms of the run by itself.
* `Logger.consoleLines_sublist`: what a logger shows, a logger of a higher level shows too.
* `runHeard_levels`: two runs under two levels.
-/

namespace Abacus

variable {α β : Type}

/-! ## Operations one after another -/

namespace Heard

@[simp] theorem pure_eq (a : α) : (pure a : Heard α) = ⟨.ok a, [], []⟩ := rfl

@[simp] theorem ok_bind (a : α) (written : List String) (lines : List LogLine) (f : α → Heard β) :
    (⟨.ok a, written, lines⟩ >>= f : Heard β) =
      ⟨(f a).result, written ++ (f a).written, lines ++ (f a).lines⟩ := rfl

@[simp] theorem error_bind (fault : Fault) (written : List String) (lines : List LogLine) (f : α → Heard β) :
    (⟨.error fault, written, lines⟩ >>= f : Heard β) = ⟨.error fault, written, lines⟩ := rfl

@[simp] theorem of_ok_bind (a : α) (f : α → Heard β) : Heard.of (.ok a) >>= f = f a := rfl

@[simp] theorem log_bind (lines : List LogLine) (f : Unit → Heard β) :
    (Heard.log lines >>= f) = ⟨(f ()).result, (f ()).written, lines ++ (f ()).lines⟩ := rfl

@[simp] theorem write_bind (texts : List String) (f : Unit → Heard β) :
    (Heard.write texts >>= f) = ⟨(f ()).result, texts ++ (f ()).written, (f ()).lines⟩ := rfl

theorem map_eq (f : α → β) (x : Heard α) : f <$> x = ⟨f <$> x.result, x.written, x.lines⟩ := by
  obtain ⟨result, written, lines⟩ := x
  cases result with
  | error fault => rfl
  | ok a =>
    show Heard.mk _ (written ++ []) (lines ++ []) = _
    rw [List.append_nil, List.append_nil]
    rfl

theorem lines_map (f : α → β) (x : Heard α) : (f <$> x).lines = x.lines := by
  rw [map_eq]

theorem bind_of (x : Heard α) (f : α → Except Fault β) :
    (x >>= fun a => Heard.of (f a)) = ⟨x.result >>= f, x.written, x.lines⟩ := by
  obtain ⟨result, written, lines⟩ := x
  cases result with
  | error fault => rfl
  | ok a =>
    rw [ok_bind, of, List.append_nil, List.append_nil]
    rfl

end Heard

/-! ## Gates -/

namespace Logger

variable (logger : Logger) (elapsed : String)

/-- What is not `silent` passes all that requires the lowest level. -/
theorem enabled_minimal_eq : logger.enabled .minimal = (logger.level != .silent) := by
  rw [enabled]
  cases logger.level <;> rfl

theorem consoleLines_append (events events' : List Event) :
    logger.consoleLines elapsed (events ++ events') =
      logger.consoleLines elapsed events ++ logger.consoleLines elapsed events' :=
  List.filterMap_append

theorem consoleLines_singleton (event : Event) :
    logger.consoleLines elapsed [event] = (logger.consoleLine? elapsed event).toList := by
  rw [consoleLines, List.filterMap_cons]
  cases logger.consoleLine? elapsed event <;> rfl

theorem toList_consoleLine? (event : Event) :
    (logger.consoleLine? elapsed event).toList =
      if logger.enabled event.required then logger.emit event.severity (event.text elapsed) else [] := by
  unfold consoleLine? emit isUrgent stamped
  cases logger.enabled event.required with
  | false => rfl
  | true =>
    cases logger.console with
    | true => rfl
    | false =>
      cases logger.file.isNone && (event.severity == .warning || event.severity == .error) <;> rfl

/-- **An event shows the line that the logger picks from it.** All gates agree with the level that the event
requires. -/
theorem shown_eq (event : Event) : logger.shown elapsed event = logger.consoleLines elapsed [event] := by
  rw [consoleLines_singleton, toList_consoleLine?]
  cases event with
  | skipped | reduced | built | lineDone | note | warning | debug => rfl
  | lineFailed | critical =>
    simp only [shown, critical, Event.required, enabled_minimal_eq]
    rfl
  | summary processed failed =>
    simp only [shown, summarize, Event.required, enabled_minimal_eq]
    cases logger.level <;> rfl

theorem hear_eq (event : Event) : logger.hear elapsed event = .log (logger.consoleLines elapsed [event]) := by
  rw [hear, shown_eq]

/-- What the logger is not asked for it does not show. -/
theorem consoleLines_of_not_enabled {event : Event} (h : logger.enabled event.required = false) :
    logger.consoleLines elapsed [event] = [] := by
  rw [consoleLines_singleton, toList_consoleLine?, h]
  rfl

end Logger

/-! ## Builders -/

section Heard

variable (logger : Logger) (elapsed : String)

/-- A logger that has shown the lines that it picks from a trace. -/
def Hearing.Follows (trace : Trace) (hearing : Hearing) : Prop :=
  hearing = ⟨logger, elapsed, logger.consoleLines elapsed trace.reverse⟩

theorem Hearing.Follows.lines_eq {trace : Trace} {hearing : Hearing} (h : Follows logger elapsed trace hearing) :
    hearing.lines = logger.consoleLines elapsed trace.reverse := by
  rw [h]

theorem Hearing.consoleLines_cons (event : Event) (trace : Trace) :
    logger.consoleLines elapsed (event :: trace).reverse =
      logger.consoleLines elapsed trace.reverse ++ logger.consoleLines elapsed [event] := by
  rw [List.reverse_cons, Logger.consoleLines_append]

/-- A trace takes every event, and the logger goes on to follow it: what it is not asked for it would not show. -/
theorem Hearing.related : Listener.Related (Follows logger elapsed) where
  tell {trace hearing} event h := by
    subst h
    rw [Follows, Trace.tell_eq, consoleLines_cons, ← Logger.shown_eq]
    rfl
  report {trace hearing} event h := by
    subst h
    rw [Follows, Trace.report_eq, consoleLines_cons, Listener.report]
    show (if logger.enabled event.required then _ else _) = _
    split
    · rw [← Logger.shown_eq]
      rfl
    · next hclosed =>
      rw [Logger.consoleLines_of_not_enabled logger elapsed (Bool.eq_false_iff.mpr hclosed), List.append_nil]

/-- A builder that a logger listens to goes the way of a builder that keeps all events. -/
theorem assembleHeard_eq (fixity : Fixity) (tokens : List String) :
    assembleHeard logger elapsed fixity tokens =
      ⟨(assemble fixity tokens).result, [], logger.consoleLines elapsed (assemble fixity tokens).events⟩ := by
  have hstart : Hearing.Follows logger elapsed [] ⟨logger, elapsed, []⟩ := rfl
  cases fixity with
  | inFix =>
    rw [assembleHeard, assemble, readInfix]
    rcases (Shunt.build_lockstep (Hearing.related logger elapsed) hstart tokens).cases with
      ⟨⟨t, s⟩, ⟨t', s'⟩, hx, hy, rfl, hs⟩ | ⟨fault, s, s', hx, hy, hs⟩
    · simp only [hx, hy]
      rw [← hs.trace.lines_eq]
    · simp only [hx, hy]
      rw [← hs.trace.lines_eq]
  | postFix =>
    rw [assembleHeard, assemble, readPostfix]
    rcases (Stack.build_lockstep (Hearing.related logger elapsed) hstart tokens).cases with
      ⟨⟨t, s⟩, ⟨t', s'⟩, hx, hy, rfl, hs⟩ | ⟨fault, s, s', hx, hy, hs⟩
    · simp only [hx, hy]
      rw [← hs.trace.lines_eq]
    · simp only [hx, hy]
      rw [← hs.trace.lines_eq]

/-! ## Expressions -/

namespace Expression

/-- Asked for its text and its size, the expression answers as its tree does. So do its nodes, whatever they keep. -/
structure Answers (expression : Expression) : Prop where
  text : expression.text.1 = expression.tree.text
  size : (·.1) <$> expression.size = .ok expression.tree.count
  kept : Memo.Sound Mixer.standard expression.tree expression.memo

variable {t : Tree} {memo : Memo UInt64}

theorem text_none (memo : Memo UInt64) : text ⟨t, memo, none⟩ = (t.text, ⟨t, memo, some t.text⟩) := rfl

/-- Counting the nodes of an expression does not fail. -/
theorem exists_size (ht : t.IsExpression) (hmemo : Memo.Sound Mixer.standard t memo) (string : Option String) :
    ∃ memo', size ⟨t, memo, string⟩ = .ok (t.count, ⟨t, memo', string⟩) ∧ Memo.Sound Mixer.standard t memo' := by
  obtain ⟨s, hs⟩ := (Tree.exists_summary_iff Mixer.standard ht.ne_empty).mpr ht.linked
  obtain ⟨memo', hsize, hmemo'⟩ := hmemo.exists_size ht.ne_empty hs
  refine ⟨memo', ?_, hmemo'⟩
  simp only [size, Tree.isEmpty_eq_false_iff.mpr ht.ne_empty, hsize]
  rfl

theorem answers_of_sound (ht : t.IsExpression) (hmemo : Memo.Sound Mixer.standard t memo) {string : Option String}
    (hstring : string = none ∨ string = some t.text) : Answers ⟨t, memo, string⟩ where
  text := by
    rcases hstring with rfl | rfl <;> rfl
  size := by
    obtain ⟨memo', hsize, -⟩ := exists_size ht hmemo string
    rw [hsize]
    rfl
  kept := hmemo

end Expression

theorem Event.text_built (fixity : Fixity) (t : Tree) :
    text elapsed (.built fixity t) = builtText fixity t.count t.text := rfl

/-- The expression behind a builder: it has the tree that the builder has made, and it answers as this tree does,
counted or not. -/
theorem constructHeard_eq (fixity : Fixity) (tokens : List String) :
    ∃ result : Except Fault Expression,
      constructHeard logger elapsed fixity tokens =
        ⟨result, [], logger.consoleLines elapsed (construct fixity tokens).events⟩ ∧
      (·.tree) <$> result = (construct fixity tokens).result ∧ ∀ e, result = .ok e → e.Answers := by
  rw [constructHeard, assembleHeard_eq, construct]
  cases hresult : (assemble fixity tokens).result with
  | error fault =>
    refine ⟨.error fault, rfl, ?_, fun e he => nomatch he⟩
    rw [hresult]
    rfl
  | ok t =>
    have ht : t.IsExpression := assemble_isExpression hresult
    have hfresh := Memo.sound_fresh Mixer.standard t
    obtain ⟨memo, hsize, hkept⟩ := Expression.exists_size ht hfresh none
    have hlines : logger.consoleLines elapsed ((assemble fixity tokens).events ++ [.built fixity t]) =
        logger.consoleLines elapsed (assemble fixity tokens).events ++
          logger.info .detailed (Event.text elapsed (.built fixity t)) := by
      rw [Logger.consoleLines_append, ← Logger.shown_eq]
      rfl
    rw [Heard.ok_bind, hlines]
    cases hwanted : logger.enabled .detailed with
    | false =>
      refine ⟨.ok (.of t), ?_, rfl, ?_⟩
      · simp [Logger.info, hwanted]
      · intro e he
        cases he
        exact Expression.answers_of_sound ht hfresh (.inl rfl)
    | true =>
      -- The work behind the gate does not fail, so the line is the only difference.
      refine ⟨.ok ⟨t, memo, some t.text⟩, ?_, rfl, ?_⟩
      · simp only [if_true, Expression.of, hsize, Heard.of_ok_bind, Expression.text_none, Heard.log_bind,
          Heard.pure_eq, Event.text_built, List.append_nil]
      · intro e he
        cases he
        exact Expression.answers_of_sound ht hkept (.inr rfl)

theorem lines_constructHeard (fixity : Fixity) (tokens : List String) :
    (constructHeard logger elapsed fixity tokens).lines =
      logger.consoleLines elapsed (construct fixity tokens).events := by
  obtain ⟨result, hheard, -⟩ := constructHeard_eq logger elapsed fixity tokens
  rw [hheard]

/-- What an entry gives to a run, if it does not end the run. -/
def Verdict.attempted : Verdict → Except Fault (Except ExpressionError String)
  | block text => .ok (.ok text)
  | failure error => .ok (.error error)
  | escape fault => .error fault

theorem Heard.attempt_mk (result : Except Fault String) (written : List String) (lines : List LogLine) :
    Heard.attempt ⟨result, written, lines⟩ = ⟨(Verdict.ofResult result).attempted, written, lines⟩ := by
  unfold Verdict.ofResult Heard.attempt
  cases result with
  | ok text => rfl
  | error fault => cases fault <;> rfl

section Entries

variable [Symbolic]

theorem Entry.heard_eq (options : Options) (entry : Entry) :
    entry.heard logger elapsed options =
      ⟨(entry.verdict options).attempted, [], logger.consoleLines elapsed (entry.outcome options).events⟩ := by
  obtain ⟨result, hheard, htree, -⟩ := constructHeard_eq logger elapsed entry.fixity (Text.words entry.line)
  have hblock : (result >>= fun e => block options e.tree) = (entry.outcome options).result := by
    rw [outcome, constructLine, ← htree]
    cases result <;> rfl
  rw [heard, hheard, Heard.bind_of, Heard.attempt_mk, hblock]
  rfl

end Entries

/-- A run by itself and its events as a logger hears them. -/
@[simps]
def RunReport.toHeard (r : RunReport) : Heard Nat :=
  ⟨r.status, r.written, logger.consoleLines elapsed r.events⟩

theorem RunReport.toHeard_after (r : RunReport) (events : List Event) (written : List String) :
    (r.after events written).toHeard logger elapsed =
      ⟨r.status, written ++ r.written, logger.consoleLines elapsed events ++ logger.consoleLines elapsed r.events⟩ := by
  rw [← Logger.consoleLines_append]
  rfl

/-- A run over entries that a logger listens to is the run by itself: an entry is heard as it is reported, and the
entries after it by induction. -/
theorem runEntriesHeard_eq [Symbolic] (options : Options) (processed failed : Nat) (entries : List Entry) :
    runEntriesHeard logger elapsed options processed failed entries =
      (runEntries options processed failed entries).toHeard logger elapsed := by
  have hsummary (n m : Nat) : logger.hear elapsed (.summary n m) =
      .log ((RunReport.summary n m).toHeard logger elapsed).lines :=
    Logger.hear_eq logger elapsed _
  induction entries generalizing processed failed with
  | nil =>
    rw [runEntriesHeard, hsummary]
    simp [runEntries, RunReport.summary, RunReport.toHeard]
  | cons entry rest ih =>
    rw [runEntriesHeard, runEntries_cons, Entry.heard_eq, Entry.events]
    cases hverdict : entry.verdict options with
    | block text =>
      simp [Verdict.attempted, Logger.hear_eq, ih, RunReport.toHeard_after,
        Logger.consoleLines_append]
    | failure error =>
      cases options.continueOnError with
      | true =>
        simp [Verdict.attempted, Logger.hear_eq, ih, RunReport.toHeard_after,
          Logger.consoleLines_append]
      | false =>
        simp [Verdict.attempted, Logger.hear_eq, RunReport.toHeard_after, Logger.consoleLines_append,
          RunReport.summary]
    | escape fault => simp [Verdict.attempted, RunReport.toHeard]

/-- **A run that a logger listens to** gives and writes what the run by itself does. -/
theorem runHeard_eq [Symbolic] (settings : Settings) (lines : List String) :
    runHeard logger elapsed settings lines = (runSettings settings lines).toHeard logger elapsed := by
  rw [runHeard, runSettings]
  cases Layout.ofScalar settings.mode with
  | error fault => rfl
  | ok layout => exact runEntriesHeard_eq logger elapsed settings.options 0 0 (entries layout lines)

end Heard

/-! ## Levels -/

namespace Logger

/-- Nothing that a `silent` logger passes is urgent, so without a file it shows nothing. -/
theorem consoleLine?_silent (elapsed : String) (event : Event) :
    (configured .silent none).consoleLine? elapsed event = none := by
  cases event with
  | note message required => cases required <;> rfl
  | skipped | reduced | built | lineDone | lineFailed | summary | warning | debug | critical => rfl

theorem consoleLines_silent (elapsed : String) (events : List Event) :
    (configured .silent none).consoleLines elapsed events = [] :=
  List.filterMap_eq_nil_iff.mpr fun event _ => consoleLine?_silent elapsed event

variable {low high : Level}

theorem enabled_mono (h : low.rank ≤ high.rank) {required : Level}
    (hlow : (configured low none).enabled required = true) : (configured high none).enabled required = true :=
  decide_eq_true (Nat.le_trans (of_decide_eq_true hlow) h)

/-- **What a logger shows, a logger of a higher level shows too**, in the same order. -/
theorem consoleLines_sublist (h : low.rank ≤ high.rank) (elapsed : String) (events : List Event) :
    ((configured low none).consoleLines elapsed events).Sublist
      ((configured high none).consoleLines elapsed events) := by
  by_cases hsilent : low = .silent
  · rw [hsilent, consoleLines_silent]
    exact List.nil_sublist _
  · have hloud : high ≠ .silent := by
      rintro rfl
      cases low with
      | silent => exact hsilent rfl
      | minimal | moderate | detailed | verbose => exact absurd h (by decide)
    rw [consoleLines_configured hsilent, consoleLines_configured hloud]
    exact (List.monotone_filter_right events fun event => enabled_mono h).map (stamped elapsed)

end Logger

/-- Both operations give and write the same, and what one shows the other shows too. -/
structure Heard.Quieter (x y : Heard α) : Prop where
  result : x.result = y.result
  written : x.written = y.written
  lines : x.lines.Sublist y.lines

/-- What is heard of the same events under two levels. -/
theorem Logger.quieter {low high : Level} (h : low.rank ≤ high.rank) (elapsed : String) (result : Except Fault α)
    (written : List String) (events : List Event) :
    Heard.Quieter ⟨result, written, (configured low none).consoleLines elapsed events⟩
      ⟨result, written, (configured high none).consoleLines elapsed events⟩ :=
  ⟨rfl, rfl, consoleLines_sublist h elapsed events⟩

/-- The events that a logger is told do not depend on it, nor does the tree, and the expression answers as this tree
does. -/
theorem expressionHeard_eq (mode : Except Fault Fixity) (tokens : List String) :
    ∃ events, ∀ (logger : Logger) (elapsed : String),
      Expression.tree <$> expressionHeard logger elapsed mode tokens =
        ⟨mode >>= fun fixity => (construct fixity tokens).result, [], logger.consoleLines elapsed events⟩ ∧
      ∀ e, (expressionHeard logger elapsed mode tokens).result = .ok e → e.Answers := by
  cases mode with
  | error fault => exact ⟨[], fun _ _ => ⟨rfl, fun e he => nomatch he⟩⟩
  | ok fixity =>
    refine ⟨(construct fixity tokens).events, fun logger elapsed => ?_⟩
    obtain ⟨result, hheard, htree, hanswers⟩ := constructHeard_eq logger elapsed fixity tokens
    rw [expressionHeard, Heard.of_ok_bind, hheard, Heard.map_eq, htree]
    exact ⟨rfl, hanswers⟩

/-- **A logger does not interfere.** Let the logger be configured with one of two levels, without a file. A run with
any settings over any lines ends in the same way and writes the same texts under both levels, and all that the
lower level shows the higher level shows too, in the same order. The level `silent` shows nothing. The same holds for
the tree of any list of tokens, and the expression answers as this tree does whatever it keeps. Under every level, the
run is the run by itself with the lines that its logger picks from the events. -/
theorem runHeard_levels [Symbolic] {low high : Level} (h : low.rank ≤ high.rank) (elapsed : String) :
    (∀ (settings : Settings) (lines : List String),
      let heard level := runHeard (Logging.configure level none).logger elapsed settings lines
      (heard low).Quieter (heard high) ∧ (heard .silent).lines = [] ∧
        ∀ level, heard level =
          (runSettings settings lines).toHeard (Logging.configure level none).logger elapsed) ∧
    ∀ (mode : Except Fault Fixity) (tokens : List String),
      let heard level := expressionHeard (Logging.configure level none).logger elapsed mode tokens
      (Expression.tree <$> heard low).Quieter (Expression.tree <$> heard high) ∧ (heard .silent).lines = [] ∧
        ∀ level,
          (Expression.tree <$> heard level).result = (mode >>= fun fixity => (construct fixity tokens).result) ∧
          ∀ e, (heard level).result = .ok e → e.Answers := by
  constructor
  · intro settings lines
    simp only [runHeard_eq]
    exact ⟨Logger.quieter h elapsed _ _ _, Logger.consoleLines_silent elapsed _, fun _ => trivial⟩
  · intro mode tokens heard
    obtain ⟨events, hevents⟩ := expressionHeard_eq mode tokens
    have htree (level : Level) : Expression.tree <$> heard level =
        ⟨mode >>= fun fixity => (construct fixity tokens).result, [],
          (Logger.configured level none).consoleLines elapsed events⟩ :=
      (hevents _ elapsed).1
    refine ⟨?_, ?_, fun level => ⟨?_, (hevents _ elapsed).2⟩⟩
    · rw [htree, htree]
      exact Logger.quieter h elapsed _ _ _
    · rw [← Heard.lines_map Expression.tree, htree]
      exact Logger.consoleLines_silent elapsed events
    · rw [htree]

/-- The second line of the batch skips an operator and has no tree, and a tree of its own joins two operators. -/
theorem runHeard_levels_failed :
    let batch level := runHeard (Logging.configure level none).logger "0.000s" Settings.standard ["1 2 +", "+ 1 +"]
    let heard level := Expression.tree <$>
      expressionHeard (Logging.configure level none).logger "0.000s" (.ok .inFix) ["1", "+", "!", "2"]
    Level.minimal.rank ≤ Level.verbose.rank ∧ (batch .minimal).Quieter (batch .verbose) ∧
      (batch .silent).lines = [] ∧ (heard .minimal).Quieter (heard .verbose) ∧
      (heard .minimal).result = .ok (.binary "+" (.operand "1") (.unary "!" (.operand "2"))) := by
  obtain ⟨hbatch, htree⟩ := @runHeard_levels _ .minimal .verbose (by decide) "0.000s"
  obtain ⟨hquieter, hsilent, -⟩ := hbatch Settings.standard ["1 2 +", "+ 1 +"]
  obtain ⟨htrees, -, hresult⟩ := htree (.ok .inFix) ["1", "+", "!", "2"]
  exact ⟨by decide, hquieter, hsilent, htrees, (hresult .minimal).1.trans rfl⟩

end Abacus
