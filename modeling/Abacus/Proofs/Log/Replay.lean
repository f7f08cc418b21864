import Abacus.Proofs.Batch.Heard
import Abacus.Proofs.Steps
import Abacus.Proofs.Tree.Tokens

/-!
# The log of a builder replays the tree

A builder reports each operator when it joins it. It never takes a joined tree apart, and it joins the left operand
before the right one, whatever decides when an operator is joined. So what has been reported so far is the post-order
of the trees on the stack, oldest tree first. This is the invariant of both builders; in the end one tree is left.

Results:
* `join_history`: joining adds the joined tree to the history of a stack, and nothing else.
* `Forest.replays_perform`, `Stack.replays_feed`: one token keeps the invariant.
* `assemble_replays`: the reductions that a builder reports are the operator nodes of its tree in post-order.
* `construct_replays`: so are the debugging lines of the log.
-/

namespace Abacus

/-! ## Operator nodes in post-order -/

namespace Tree

/-- The operator nodes of a tree in post-order, each with all that is below it. -/
def operations (t : Tree) : List Tree :=
  (t.postorder.map (·.tree)).filter isOperator

theorem operations_node (kind : Kind) (token : String) (left right : Tree) :
    (node kind token left right).operations =
      left.operations ++ right.operations ++ [node kind token left right].filter isOperator := by
  simp only [operations, map_tree_postorder_node, List.filter_append]

theorem operations_empty : empty.operations = [] := by
  rw [operations, map_tree_postorder_empty, List.filter_nil]

theorem isOperator_operand {literal : String} (h : Token.isNumeral literal = true) :
    (operand literal).isOperator = false := by
  rw [isOperator, operand, token, h]
  rfl

theorem isOperator_unary (op : Operator) (t : Tree) : (unary op.symbol t).isOperator = true := by
  rw [isOperator, unary, token, Token.isNumeral_symbol]
  rfl

theorem isOperator_binary (op : Operator) (left right : Tree) :
    (binary op.symbol left right).isOperator = true := by
  rw [isOperator, binary, token, Token.isNumeral_symbol]
  rfl

theorem operations_operand {literal : String} (h : Token.isNumeral literal = true) :
    (operand literal).operations = [] := by
  have hroot := isOperator_operand h
  rw [operand] at hroot ⊢
  rw [operations_node, operations_empty, List.filter_cons_of_neg (by simp [hroot])]
  rfl

theorem operations_unary (op : Operator) (t : Tree) :
    (unary op.symbol t).operations = t.operations ++ [unary op.symbol t] := by
  have hroot := isOperator_unary op t
  rw [unary] at hroot ⊢
  rw [operations_node, operations_empty, List.filter_cons_of_pos hroot]
  rfl

theorem operations_binary (op : Operator) (left right : Tree) :
    (binary op.symbol left right).operations =
      left.operations ++ right.operations ++ [binary op.symbol left right] := by
  have hroot := isOperator_binary op left right
  rw [binary] at hroot ⊢
  rw [operations_node, List.filter_cons_of_pos hroot]
  rfl

/-- There is one operator node for each operator of an expression. -/
theorem IsExpression.length_operations {t : Tree} (h : t.IsExpression) :
    t.operations.length = t.operatorTokens.length := by
  induction h with
  | operand hnum => simp [operations_operand hnum]
  | unary _ _ ih => simp [operations_unary, ih]
  | binary _ _ _ ihl ihr =>
    simp [operations_binary, ihl, ihr]

/-- The last operator node is the root, unless the expression is a numeral. -/
theorem IsExpression.getLast?_operations {t : Tree} (h : t.IsExpression) :
    t.operations.getLast? = if t.isOperator then some t else none := by
  cases h with
  | operand hnum => simp [operations_operand hnum, isOperator_operand hnum]
  | unary => simp [operations_unary, isOperator_unary]
  | binary => simp [operations_binary, isOperator_binary]

end Tree

/-! ## The history of a stack -/

/-- The operator nodes of the trees of a stack, newest tree first, in the order in which they have been joined. -/
def history (stack : List Tree) : List Tree :=
  stack.reverse.flatMap Tree.operations

theorem history_cons (t : Tree) (stack : List Tree) : history (t :: stack) = history stack ++ t.operations := by
  simp [history]

theorem history_operand {literal : String} (h : Token.isNumeral literal = true) (stack : List Tree) :
    history (.operand literal :: stack) = history stack := by
  rw [history_cons, Tree.operations_operand h, List.append_nil]

/-- Joining adds the joined tree to the history. -/
theorem join_history {op : Operator} {stack rest : List Tree} {t : Tree} (h : join op stack = some (t, rest)) :
    history (t :: rest) = history stack ++ [t] ∧ t.token = op.symbol := by
  rcases join_eq_some_cases h with ⟨right, -, rfl, rfl⟩ | ⟨left, right, -, rfl, rfl⟩
  · refine ⟨?_, rfl⟩
    rw [history_cons, history_cons, Tree.operations_unary, List.append_assoc]
  · refine ⟨?_, rfl⟩
    rw [history_cons, history_cons, history_cons, Tree.operations_binary, List.append_assoc, List.append_assoc,
      List.append_assoc]

/-! ## Reductions -/

/-- Does the event report a reduction? -/
def Event.isReduced : Event → Bool
  | reduced .. => true
  | _ => false

/-- The report of a reduction. -/
def Tree.reduction (fixity : Fixity) (t : Tree) : Event :=
  .reduced fixity t.token t

/-- The reductions that a builder has reported, latest event first in its trace, are the history of its stack. -/
def Replays (fixity : Fixity) (stack : List Tree) (trace : List Event) : Prop :=
  trace.reverse.filter Event.isReduced = (history stack).map (Tree.reduction fixity)

namespace Replays

variable {fixity : Fixity} {stack rest : List Tree} {trace : List Event} {t : Tree}

theorem fresh : Replays fixity [] [] := rfl

theorem operand {literal : String} (hnum : Token.isNumeral literal = true) (h : Replays fixity stack trace) :
    Replays fixity (.operand literal :: stack) trace := by
  rw [Replays, history_operand hnum]
  exact h

theorem join {op : Operator} (hjoin : Abacus.join op stack = some (t, rest)) (h : Replays fixity stack trace) :
    Replays fixity (t :: rest) (.reduced fixity op.symbol t :: trace) := by
  obtain ⟨hhistory, htoken⟩ := join_history hjoin
  have hlast : Tree.reduction fixity t = .reduced fixity op.symbol t := by
    rw [Tree.reduction, htoken]
  rw [Replays, hhistory, List.map_append, ← h, List.map_singleton, hlast, List.reverse_cons, List.filter_append]
  rfl

end Replays

/-! ## The builders -/

theorem Forest.replays_perform (f : Forest) (token : String) (f' : Forest) (hf : Replays .inFix f.trees f.trace)
    (h : f.perform token = .ok f') : Replays .inFix f'.trees f'.trace := by
  unfold perform at h
  split at h
  · next hnum =>
    cases h
    exact hf.operand hnum
  · split at h
    · cases h
    · next op hop =>
      obtain rfl := Operator.ofSymbol?_eq_some_iff.mp hop
      split at h
      · cases h
      · next t rest hjoin =>
        cases h
        exact hf.join hjoin

/-- A run that gives a tree has left it alone on the stack. -/
theorem Forest.trees_of_result {fault : Option BuildError} {f : Forest} {t : Tree} (h : f.result fault = .ok t) :
    f.trees = [t] := by
  unfold result at h
  split at h
  · cases h
  · next t' htrees =>
    cases h
    exact htrees
  · cases h
  · cases h

theorem readInfix_replays {tokens : List String} {t : Tree} (h : (readInfix tokens).result = .ok t) :
    (readInfix tokens).events.filter Event.isReduced = t.operations.map (Tree.reduction .inFix) := by
  rw [readInfix_eq] at h ⊢
  cases hrun : (Release.run [] tokens).1.foldlM Forest.perform ⟨[], []⟩ with
  | error seen =>
    rw [hrun] at h
    cases h
  | ok f =>
    have hreplays : Replays .inFix f.trees f.trace := foldlM_ok Forest.replays_perform .fresh hrun
    rw [hrun] at h
    have htrees : f.trees = [t] := Forest.trees_of_result h
    rw [Replays, htrees, history_cons] at hreplays
    exact hreplays

theorem Stack.replays_feed (s : Stack Trace) (token : String) (s' : Stack Trace) (hs : Replays .postFix s.trees s.trace)
    (h : s.feed token = .ok s') : Replays .postFix s'.trees s'.trace := by
  rcases Token.cases token with hnum | ⟨op, rfl⟩ | rfl | rfl | ⟨hnum, hop, -⟩
  · rw [feed_numeral hnum] at h
    cases h
    exact hs.operand hnum
  · by_cases hempty : s.trees = []
    · rw [feed_skipped op hempty] at h
      cases h
      rw [hempty] at hs
      simpa [Replays, List.filter_append, Event.isReduced] using hs
    · rw [feed_symbol op hempty, reduce_symbol] at h
      split at h
      · cases h
      · next t rest hjoin =>
        cases h
        exact hs.join hjoin
  · rw [feed_unknown rfl rfl] at h
    cases h
  · rw [feed_unknown rfl rfl] at h
    cases h
  · rw [feed_unknown hnum hop] at h
    cases h

theorem readPostfix_replays {tokens : List String} {t : Tree} (h : (readPostfix tokens).result = .ok t) :
    (readPostfix tokens).events.filter Event.isReduced = t.operations.map (Tree.reduction .postFix) := by
  obtain ⟨s, hrun, htrees, hevents⟩ := readPostfix_eq_ok_iff.mp h
  have hreplays : Replays .postFix s.trees s.trace := foldlM_ok Stack.replays_feed .fresh hrun
  rw [Replays, htrees, history_cons] at hreplays
  rw [hevents]
  exact hreplays

/-- The reductions that a builder reports are the operator nodes of its tree, in post-order. -/
theorem assemble_replays {fixity : Fixity} {tokens : List String} {t : Tree}
    (h : (assemble fixity tokens).result = .ok t) :
    (assemble fixity tokens).events.filter Event.isReduced = t.operations.map (Tree.reduction fixity) := by
  cases fixity with
  | inFix => exact readInfix_replays h
  | postFix => exact readPostfix_replays h

/-! ## Lines of the log -/

/-- While an expression is built, the debugging events are the reductions. -/
theorem Event.severity_eq_debug_iff {event : Event} (h : event.isBuilding = true) :
    event.severity = .debug ↔ event.isReduced = true := by
  cases event with
  | skipped | reduced | built => simp [severity, isReduced]
  | lineDone | lineFailed | summary | note | warning | debug | critical => cases h

theorem construct_replays_events {fixity : Fixity} {tokens : List String} {t : Tree}
    (h : (assemble fixity tokens).result = .ok t) :
    (construct fixity tokens).events.filter (·.severity = .debug) = t.operations.map (Tree.reduction fixity) := by
  have hdebug : (construct fixity tokens).events.filter (·.severity = .debug) =
      (construct fixity tokens).events.filter Event.isReduced := by
    refine List.filter_congr fun event hevent => ?_
    have hbuilding := (construct_ofBuilder fixity tokens).events event hevent
    rw [Bool.eq_iff_iff, decide_eq_true_iff]
    exact Event.severity_eq_debug_iff hbuilding
  rw [hdebug, ← assemble_replays h, construct, h, List.filter_append]
  simp [Event.isReduced]

namespace Logger

variable {logger : Logger} (hlevel : logger.level = .verbose) (elapsed : String) (events : List Event)
include hlevel

/-- A verbose logger passes everything. -/
theorem enabled_of_verbose (required : Level) : logger.enabled required = true := by
  rw [enabled, hlevel]
  cases required <;> rfl

theorem consoleLines_of_verbose (hconsole : logger.console = true) :
    logger.consoleLines elapsed events = events.map (stamped elapsed) := by
  rw [consoleLines, ← List.filterMap_eq_map]
  refine List.filterMap_congr fun event _ => ?_
  simp [consoleLine?, enabled_of_verbose hlevel, hconsole]

theorem fileLines_of_verbose (hfile : logger.file.isSome = true) :
    logger.fileLines elapsed events = events.map (stamped elapsed) := by
  rw [fileLines, ← List.filterMap_eq_map]
  refine List.filterMap_congr fun event _ => ?_
  simp [fileLine?, enabled_of_verbose hlevel, hfile]

omit hlevel

theorem filter_stamped (severity : Severity) :
    (events.map (stamped elapsed)).filter (·.stamp = some severity) =
      (events.filter (·.severity = severity)).map (stamped elapsed) := by
  rw [List.filter_map]
  congr 1
  exact List.filter_congr fun event _ => by simp [stamped]

end Logger

/-- **The verbose log replays the tree.** Whatever the tokens, let a builder return a tree while a logger listens at
the highest level. The debugging lines are one for each operator node of the tree, in its post-order. Each of them
shows the symbol of its node and the infix form of the node in the finished tree. So the last one, if there is any,
shows the whole tree. A log file holds the same lines as the console. -/
theorem construct_replays {fixity : Fixity} {tokens : List String} {t : Tree}
    (h : (assemble fixity tokens).result = .ok t) {logger : Logger} (hlevel : logger.level = .verbose)
    (elapsed : String) :
    let line (n : Tree) : LogLine :=
      ⟨some .debug, s!"DEBUG: {fixity.smallName} reduce {Text.quoted n.token} -> {n.text}"⟩
    let lines := ((t.postorder.map (·.tree)).filter Tree.isOperator).map line
    (logger.console = true →
      (constructHeard logger elapsed fixity tokens).lines.filter (·.stamp = some .debug) = lines) ∧
    (logger.file.isSome = true →
      (logger.fileLines elapsed (construct fixity tokens).events).filter (·.stamp = some .debug) = lines) ∧
    lines.length = t.operatorTokens.length ∧
    lines.getLast? = if t.isOperator then some (line t) else none := by
  intro line lines
  have ht : t.IsExpression := assemble_isExpression h
  have hlines : (t.operations.map (Tree.reduction fixity)).map (Logger.stamped elapsed) = lines := by
    rw [List.map_map]
    rfl
  refine ⟨?_, ?_, ?_, ?_⟩
  · intro hconsole
    rw [lines_constructHeard, Logger.consoleLines_of_verbose hlevel elapsed _ hconsole, Logger.filter_stamped,
      construct_replays_events h, hlines]
  · intro hfile
    rw [Logger.fileLines_of_verbose hlevel elapsed _ hfile, Logger.filter_stamped, construct_replays_events h,
      hlines]
  · rw [List.length_map]
    exact ht.length_operations
  · have hlast := ht.getLast?_operations
    show (t.operations.map line).getLast? = _
    rw [List.getLast?_map, hlast]
    cases t.isOperator <;> rfl

/-- The tokens are no sentence of the grammar, and they have a tree. -/
theorem construct_replays_misplaced :
    let log := (constructHeard (.configured .verbose none) "0.000s" .inFix ["(", "6", "!", ")", "/", "2"]).lines
    log.filter (·.stamp = some .debug) =
      [⟨some .debug, "DEBUG: infix reduce '!' -> ( ! 6 )"⟩,
        ⟨some .debug, "DEBUG: infix reduce '/' -> ( ( ! 6 ) / 2 )"⟩] := by
  intro log
  obtain ⟨hconsole, -⟩ := @construct_replays .inFix ["(", "6", "!", ")", "/", "2"]
    (.binary "/" (.unary "!" (.operand "6")) (.operand "2")) rfl (.configured .verbose none) rfl "0.000s"
  rw [hconsole rfl, Fixity.smallName_inFix]
  simp only [Tree.postorder_eq_placesFrom, Tree.text, Tree.infixTokens_eq_grouped]
  rfl

end Abacus
