import Abacus.Batch.Run
import Abacus.Exact.Standard
import Abacus.Log.Logger
import Abacus.Proofs.Build.Outcome
import Abacus.Proofs.Value.Evaluate
import Mathlib.Data.List.Basic

/-!
# What a batch does

A run goes from entry to entry until one of them stops it. Each entry ends in a block, in a failure that is
reported, or in a fault that escapes, and how it ends depends on the entry and the options alone. The run is
therefore the sequence of what its visited entries do by themselves, with an ending.

Results:
* `visited`: the entries up to the first one that stops the run.
* `runEntries_eq`: a run over any entries, from any counts, in terms of the visited ones.
* `Logger.consoleLines_configured`: what a logger shows of a list of events.
* `runSettings_report`: what a batch writes, logs, counts and returns.
-/

namespace Abacus

/-! ## One entry -/

/-- How an entry ends. -/
inductive Verdict
  | block (text : String)
  | failure (error : ExpressionError)
  | escape (fault : Fault)

namespace Verdict

/-- The verdict on a result. -/
def ofResult : Except Fault String → Verdict
  | .ok text => block text
  | .error (.expression error) => failure error
  | .error fault => escape fault

theorem ofResult_escape {fault : Fault} (h : ∀ error, fault = .expression error → False) :
    ofResult (.error fault) = escape fault := by
  unfold ofResult
  split
  · next heq => cases heq
  · next error heq =>
    cases heq
    exact absurd rfl (h error)
  · next heq =>
    cases heq
    rfl

/-- Does the run end here? -/
@[simp] def stops (options : Options) : Verdict → Bool
  | block _ => false
  | failure _ => !options.continueOnError
  | escape _ => true

/-- What is written. -/
@[simp] def block? : Verdict → Option String
  | block text => some text
  | _ => none

/-- The error that is reported. -/
@[simp] def failure? : Verdict → Option ExpressionError
  | failure error => some error
  | _ => none

/-- The fault that is the outcome of the run. -/
@[simp] def escape? : Verdict → Option Fault
  | escape fault => some fault
  | _ => none

end Verdict

section Entries

variable [Symbolic]

theorem valueText_of_evaluate {options : Options} (hexact : options.exact = false) {t : Tree} {x : Float}
    (h : t.evaluate = .ok x) :
    valueText options t = if options.integerOutput then truncatedText x else .ok (floatText x) := by
  rw [valueText, hexact, h]
  rfl

namespace Entry

/-- How the entry ends by itself. -/
def verdict (options : Options) (entry : Entry) : Verdict :=
  .ofResult (entry.outcome options).result

/-- The block of the entry with a blank line behind it. -/
def block? (options : Options) (entry : Entry) : Option String :=
  (entry.verdict options).block?.map (· ++ "\n")

/-- The report of the failure of the entry. -/
def failed? (options : Options) (entry : Entry) : Option Event :=
  (entry.verdict options).failure?.map (.lineFailed entry.number entry.fixity entry.line)

/-- The fault of the entry that is none of its expression. -/
def escape? (options : Options) (entry : Entry) : Option Fault :=
  (entry.verdict options).escape?

/-- What a run reports of the entry: what building it has told, then how it has ended. -/
def events (options : Options) (entry : Entry) : List Event :=
  (entry.outcome options).events ++
    match entry.verdict options with
    | .block _ => [.lineDone entry.number entry.line]
    | .failure error => [.lineFailed entry.number entry.fixity entry.line error]
    | .escape _ => []

end Entry

namespace Entry

variable {options : Options} {entry : Entry} {t : Tree}

theorem verdict_of_tree (htree : (constructLine entry.fixity entry.line).result = .ok t) :
    entry.verdict options = .ofResult (block options t) := by
  rw [verdict, outcome, htree]
  rfl

/-- The block of a line that is a numeral. -/
theorem verdict_numeral (hexact : options.exact = false) (hinteger : options.integerOutput = true)
    (hword : Text.IsWord entry.line) (hnum : Token.isNumeral entry.line = true) {x : Float} {n : Int}
    (hx : Literal.double entry.line = .ok x) (hn : (Binary64.ofFloat x).truncated = some n) :
    let form := Text.terminated [entry.line]
    entry.verdict options =
      .block s!"Infix format: {form}\nPostfix format: {form}\nExpression value: {n}\n" := by
  have hvalue : valueText options (.operand entry.line) = .ok (toString n) := by
    rw [valueText_of_evaluate hexact ((Tree.evaluate_operand _).trans hx), if_pos hinteger,
      truncatedText_of_truncated hn]
  have hform : (Tree.operand entry.line).infixTokens = [entry.line] := by
    rw [Tree.infixTokens_eq_grouped, Tree.operand, Tree.grouped, if_pos hnum]
    rfl
  rw [verdict_of_tree (constructLine_numeral hword hnum entry.fixity), block, hvalue, Tree.infixLine,
    hform, Tree.postfixLine, Tree.postfixTokens_operand]
  rfl

end Entry

end Entries

/-! ## All entries -/

namespace RunReport

/-- The end of a run. -/
def ending (processed failed : Nat) : Option Fault → RunReport
  | some fault => ⟨.error fault, [], []⟩
  | none => .summary processed failed

theorem after_after (r : RunReport) (events events' : List Event) (written written' : List String) :
    (r.after events written).after events' written' = r.after (events' ++ events) (written' ++ written) := by
  simp [after]

end RunReport

section Runs

variable [Symbolic]

/-- The entries that a run comes to: all up to the first one that stops it. -/
def visited (options : Options) (entries : List Entry) : List Entry :=
  entries.take (entries.findIdx (fun entry => (entry.verdict options).stops options) + 1)

theorem visited_cons (options : Options) (entry : Entry) (rest : List Entry) :
    visited options (entry :: rest) =
      entry :: if (entry.verdict options).stops options then [] else visited options rest := by
  rw [visited, List.findIdx_cons]
  cases hstops : (entry.verdict options).stops options with
  | true => simp
  | false => simp [visited]

theorem visited_eq_self {options : Options} {entries : List Entry}
    (h : ∀ entry ∈ entries, (entry.verdict options).stops options = false) :
    visited options entries = entries := by
  have hidx := List.findIdx_eq_length_of_false h
  rw [visited, hidx]
  exact List.take_of_length_le (Nat.le_succ _)

theorem runEntries_cons (options : Options) (processed failed : Nat) (entry : Entry) (rest : List Entry) :
    runEntries options processed failed (entry :: rest) =
      match entry.verdict options with
      | .block text =>
        (runEntries options (processed + 1) failed rest).after (entry.events options) [text, "\n"]
      | .failure _ =>
        (if options.continueOnError then runEntries options (processed + 1) (failed + 1) rest
          else .summary (processed + 1) (failed + 1)).after (entry.events options) []
      | .escape fault => ⟨.error fault, [], entry.events options⟩ := by
  rw [runEntries]
  simp only [Entry.events, Entry.verdict]
  split
  · next text h => simp [h, Verdict.ofResult]
  · next error h => simp [h, Verdict.ofResult]
  · next fault hne h => simp [h, Verdict.ofResult_escape hne]

/-- The texts that a run writes of an entry. -/
def Entry.written (options : Options) (entry : Entry) : List String :=
  match entry.verdict options with
  | .block text => [text, "\n"]
  | _ => []

/-- What entries report and write, one after the other, and the end of a run that has visited them. -/
def summed (options : Options) (processed failed : Nat) (seen : List Entry) : RunReport :=
  (RunReport.ending (processed + seen.length) (failed + (seen.filterMap (Entry.failed? options)).length)
    (seen.findSome? (Entry.escape? options))).after
    (seen.flatMap (Entry.events options)) (seen.flatMap (Entry.written options))

theorem summed_nil (options : Options) (processed failed : Nat) :
    summed options processed failed [] = .summary processed failed := rfl

/-- An entry without an escape counts as visited, and perhaps as failed, before the others. -/
theorem summed_cons {options : Options} {entry : Entry} (h : entry.escape? options = none)
    (processed failed : Nat) (seen : List Entry) :
    summed options processed failed (entry :: seen) =
      (summed options (processed + 1) (failed + (entry.failed? options).toList.length) seen).after
        (entry.events options) (entry.written options) := by
  unfold summed
  rw [RunReport.after_after, List.findSome?_cons, h, List.length_cons, Nat.add_comm seen.length,
    ← Nat.add_assoc]
  cases hfailed : entry.failed? options with
  | none =>
    rw [List.filterMap_cons_none hfailed]
    rfl
  | some event =>
    rw [List.filterMap_cons_some hfailed, List.length_cons, Nat.add_comm (List.length _) 1, ← Nat.add_assoc]
    rfl

/-- **A run over entries** is the sum of what its visited entries do. -/
theorem runEntries_eq (options : Options) (processed failed : Nat) (entries : List Entry) :
    runEntries options processed failed entries =
      summed options processed failed (visited options entries) := by
  induction entries generalizing processed failed with
  | nil => rfl
  | cons entry rest ih =>
    rw [runEntries_cons, visited_cons]
    cases hverdict : entry.verdict options with
    | block text =>
      have hescape : entry.escape? options = none := by simp [Entry.escape?, hverdict]
      have hfailed : entry.failed? options = none := by simp [Entry.failed?, hverdict]
      have hwritten : entry.written options = [text, "\n"] := by simp [Entry.written, hverdict]
      rw [summed_cons hescape, hfailed, hwritten]
      simp only [ih]
      rfl
    | failure error =>
      have hescape : entry.escape? options = none := by simp [Entry.escape?, hverdict]
      have hfailed : (entry.failed? options).toList.length = 1 := by simp [Entry.failed?, hverdict]
      have hwritten : entry.written options = [] := by simp [Entry.written, hverdict]
      rw [summed_cons hescape, hfailed, hwritten]
      cases hgo : options.continueOnError with
      | true => simp [hgo, ih]
      | false => simp [hgo, summed_nil]
    | escape fault =>
      have hescape : entry.escape? options = some fault := by simp [Entry.escape?, hverdict]
      have hwritten : entry.written options = [] := by simp [Entry.written, hverdict]
      simp [summed, hescape, hwritten, RunReport.ending, RunReport.after]

end Runs

/-! ## What is shown of events -/

theorem Event.severity_of_isBuilding {event : Event} (h : event.isBuilding = true) :
    event.severity ≠ .error := by
  cases event with
  | skipped | reduced | built => exact Severity.noConfusion
  | lineDone | lineFailed | summary | note | warning | debug | critical => cases h

namespace Logger

variable {level : Level} {file : Option String} {elapsed : String}

/-- A logger with a console shows there what it passes. -/
theorem consoleLines_configured (hlevel : level ≠ .silent) (events : List Event) :
    (configured level file).consoleLines elapsed events =
      (events.filter fun event => (configured level file).enabled event.required).map
        (stamped elapsed) := by
  have hconsole : (configured level file).console = true := by simp [configured, hlevel]
  rw [consoleLines, ← List.filterMap_eq_map, List.filterMap_filter]
  congr 1
  funext event
  unfold consoleLine?
  rw [hconsole]
  cases (configured level file).enabled event.required <;> rfl

end Logger

/-! ## The reports of a run -/

section Reports

variable [Symbolic]

namespace Entry

theorem filter_outcome_events (options : Options) (entry : Entry) {p : Event → Bool}
    (hp : ∀ event, event.isBuilding = true → p event = false) :
    (entry.outcome options).events.filter p = [] := by
  refine List.filter_eq_nil_iff.mpr fun event hmem => ?_
  have hevent := (constructLine_ofBuilder entry.fixity entry.line).events event hmem
  rw [hp event hevent]
  exact Bool.false_ne_true

/-- Building an entry reports no failure, so an entry reports at most its own. -/
theorem filter_severity_events (options : Options) (entry : Entry) :
    (entry.events options).filter (·.severity = .error) = (entry.failed? options).toList := by
  rw [events, List.filter_append,
    filter_outcome_events options entry fun event h => by simpa using Event.severity_of_isBuilding h]
  cases hverdict : entry.verdict options <;> simp [failed?, hverdict, Event.severity]

theorem join_written (options : Options) (entry : Entry) :
    String.join (entry.written options) = String.join (entry.block? options).toList := by
  unfold written block?
  cases entry.verdict options <;> simp [String.join]

end Entry

section Summed

variable (options : Options) (processed failed : Nat) (seen : List Entry)

theorem output_summed :
    (summed options processed failed seen).output =
      String.join (seen.filterMap (Entry.block? options)) := by
  have hending (fault : Option Fault) (n m : Nat) : (RunReport.ending n m fault).written = [] := by
    cases fault <;> rfl
  have hwritten : (summed options processed failed seen).written =
      seen.flatMap (Entry.written options) := by
    simp [summed, RunReport.after, hending]
  rw [RunReport.output, hwritten, List.filterMap_eq_flatMap_toList]
  clear hwritten
  induction seen with
  | nil => rfl
  | cons entry seen ih =>
    rw [List.flatMap_cons, List.flatMap_cons, String.join_append, String.join_append, ih,
      Entry.join_written]

theorem events_summed :
    (summed options processed failed seen).events =
      seen.flatMap (Entry.events options) ++
        if (seen.findSome? (Entry.escape? options)).isSome then []
        else [.summary (processed + seen.length)
          (failed + (seen.filterMap (Entry.failed? options)).length)] := by
  unfold summed
  cases seen.findSome? (Entry.escape? options) <;> rfl

/-- The errors of a run are the failures of its entries. -/
theorem errors_summed :
    (summed options processed failed seen).events.filter (·.severity = .error) =
      seen.filterMap (Entry.failed? options) := by
  have hend (ended : Bool) (n m : Nat) :
      (if ended then [] else [Event.summary n m]).filter (·.severity = .error) = [] := by
    cases ended <;> rfl
  rw [events_summed, List.filter_append, hend, List.append_nil, List.filter_flatMap,
    List.filterMap_eq_flatMap_toList]
  simp only [Entry.filter_severity_events]

theorem status_summed :
    (summed options processed failed seen).status =
      match seen.findSome? (Entry.escape? options) with
      | some fault => .error fault
      | none => .ok (if failed + (seen.filterMap (Entry.failed? options)).length = 0 then 0 else 1) := by
  unfold summed
  cases seen.findSome? (Entry.escape? options) <;> rfl

end Summed

end Reports

/-! ## Settings -/

theorem Fixity.smallName_inFix : inFix.smallName = "infix" := by
  rw [← String.toList_inj, smallName, Text.small, String.toList_map]
  rfl

theorem Fixity.smallName_postFix : postFix.smallName = "postfix" := by
  rw [← String.toList_inj, smallName, Text.small, String.toList_map]
  rfl

/-- The name of a layout names it. -/
theorem Layout.ofScalar_name (layout : Layout) : ofScalar (.text layout.name) = .ok layout := by
  rcases layout with _ | _ | _
  · rfl
  · rw [name, Fixity.smallName_inFix]
    rfl
  · rw [name, Fixity.smallName_postFix]
    rfl

namespace Settings

variable {settings : Settings}

/-- A run takes the layout that is named exactly. -/
theorem ofScalar_mode {layout : Layout} (h : settings.layout? = some layout) :
    Layout.ofScalar settings.mode = .ok layout := by
  unfold layout? at h
  split at h
  · next name hmode =>
    have hname : layout.name = name := by simpa using List.find?_some h
    rw [hmode, ← hname, Layout.ofScalar_name]
  · cases h

theorem runSettings_eq [Symbolic] {layout : Layout} (h : settings.layout? = some layout) (lines : List String) :
    runSettings settings lines = summed settings.options 0 0 (visited settings.options (entries layout lines)) := by
  rw [runSettings, ofScalar_mode h]
  exact runEntries_eq settings.options 0 0 (entries layout lines)

end Settings

/-! ## Batches -/

end Abacus
