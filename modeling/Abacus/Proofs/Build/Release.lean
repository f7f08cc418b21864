import Abacus.Proofs.Build.Settle

/-!
# The infix builder releases a postfix word and settles it

The operator stack of the infix builder never looks at a tree. So a run falls into two parts: the operator
stack alone decides in which order the tokens are released (`Release.run`), and the released tokens are
settled on the operand stack (`Forest.perform`). The two parts are run one after the other here, and in
step with each other by the builder; results, faults and reports are the same.

Results:
* `Release.feed_eq_ok_cases`, `feed_eq_error_cases`: all that one token does to the operator stack.
* `Shunt.makeWay_eq_joinWhile`, `closeGroup_eq_joinWhile`, `drain_eq_joinWhile`: the three loops of the builder
  are one loop with three endings.
* `Shunt.run_seen`: a run of the builder performs what the operator stack releases.
* `readInfix_eq`: so does the builder as a whole.
-/

namespace Abacus

/-! ## What the operator stack releases -/

namespace Release

/-- Must the operator on top of the stack be joined before `token` arrives? -/
def yields (token top : String) : Bool :=
  token != Token.opening && top != Token.opening && !Shunt.waitsAbove token top

theorem yields_iff {token top : String} :
    yields token top = true ↔
      ¬(token = Token.opening ∨ top = Token.opening ∨ Shunt.waitsAbove token top = true) := by
  simp [yields, and_assoc]

/-- Does the token belong to the innermost open group? -/
def inGroup (top : String) : Bool :=
  top != Token.opening

theorem inGroup_opening : inGroup Token.opening = false := by
  simp [inGroup]

theorem dropWhile_inGroup_eq_nil_iff {waiting : List String} :
    waiting.dropWhile inGroup = [] ↔ Token.opening ∉ waiting := by
  induction waiting with
  | nil => simp
  | cons top rest ih =>
    by_cases h : top = Token.opening
    · simp [h, inGroup]
    · have hin : inGroup top = true := by simp [inGroup, h]
      rw [List.dropWhile_cons_of_pos hin, ih]
      simp [Ne.symm h]

/-- The tokens that one token releases, and the operator stack after it. -/
def feed (waiting : List String) (token : String) : Except BuildError (List String × List String) :=
  if Token.isNumeral token then .ok ([token], waiting)
  else if !Token.isOperator token && !Token.isGrouping token then .error (.unknownToken token none)
  else if token = Token.closing then
    if waiting.contains Token.opening then
      .ok (waiting.takeWhile inGroup, (waiting.dropWhile inGroup).tail)
    else .error .unmatchedClosing
  else .ok (waiting.takeWhile (yields token), token :: waiting.dropWhile (yields token))

/-! ### What each class of tokens releases -/

theorem feed_numeral {token : String} (h : Token.isNumeral token = true) (waiting : List String) :
    feed waiting token = .ok ([token], waiting) := by
  simp [feed, h]

theorem feed_symbol (op : Operator) (waiting : List String) :
    feed waiting op.symbol =
      .ok (waiting.takeWhile (yields op.symbol), op.symbol :: waiting.dropWhile (yields op.symbol)) := by
  simp [feed, Token.symbol_ne_closing]

theorem feed_opening (waiting : List String) :
    feed waiting Token.opening = .ok ([], Token.opening :: waiting) := by
  cases waiting <;> simp [feed, Token.opening_ne_closing, yields]

theorem feed_closing {waiting : List String} (h : Token.opening ∈ waiting) :
    feed waiting Token.closing =
      .ok (waiting.takeWhile inGroup, (waiting.dropWhile inGroup).tail) := by
  simp [feed, h]

theorem feed_unmatched {waiting : List String} (h : Token.opening ∉ waiting) :
    feed waiting Token.closing = .error .unmatchedClosing := by
  simp [feed, h]

theorem feed_unknown {token : String} (hnum : Token.isNumeral token = false)
    (hop : Token.isOperator token = false) (hgroup : Token.isGrouping token = false)
    (waiting : List String) : feed waiting token = .error (.unknownToken token none) := by
  simp [feed, hnum, hop, hgroup]

/-- What the operator stack does with a token that it accepts. -/
theorem feed_eq_ok_cases {waiting word waiting' : List String} {token : String}
    (h : feed waiting token = .ok (word, waiting')) :
    Token.isNumeral token = true ∧ word = [token] ∧ waiting' = waiting ∨
    (∃ op : Operator, token = op.symbol ∧ word = waiting.takeWhile (yields op.symbol) ∧
      waiting' = op.symbol :: waiting.dropWhile (yields op.symbol)) ∨
    token = Token.opening ∧ word = [] ∧ waiting' = Token.opening :: waiting ∨
    token = Token.closing ∧ Token.opening ∈ waiting ∧ word = waiting.takeWhile inGroup ∧
      waiting' = (waiting.dropWhile inGroup).tail := by
  rcases Token.cases token with hnum | ⟨op, rfl⟩ | rfl | rfl | ⟨hnum, hop, hgroup⟩
  · rw [feed_numeral hnum] at h
    cases h
    exact .inl ⟨hnum, rfl, rfl⟩
  · rw [feed_symbol] at h
    cases h
    exact .inr (.inl ⟨op, rfl, rfl, rfl⟩)
  · rw [feed_opening] at h
    cases h
    exact .inr (.inr (.inl ⟨rfl, rfl, rfl⟩))
  · by_cases hopen : Token.opening ∈ waiting
    · rw [feed_closing hopen] at h
      cases h
      exact .inr (.inr (.inr ⟨rfl, hopen, rfl, rfl⟩))
    · rw [feed_unmatched hopen] at h
      cases h
  · rw [feed_unknown hnum hop hgroup] at h
    cases h

/-- The operator stack rejects a parenthesis without its partner and unknown tokens. -/
theorem feed_eq_error_cases {waiting : List String} {token : String} {e : BuildError}
    (h : feed waiting token = .error e) :
    token = Token.closing ∧ Token.opening ∉ waiting ∧ e = .unmatchedClosing ∨
    Token.isNumeral token = false ∧ Token.isOperator token = false ∧ Token.isGrouping token = false ∧
      e = .unknownToken token none := by
  rcases Token.cases token with hnum | ⟨op, rfl⟩ | rfl | rfl | ⟨hnum, hop, hgroup⟩
  · rw [feed_numeral hnum] at h
    cases h
  · rw [feed_symbol] at h
    cases h
  · rw [feed_opening] at h
    cases h
  · by_cases hopen : Token.opening ∈ waiting
    · rw [feed_closing hopen] at h
      cases h
    · rw [feed_unmatched hopen] at h
      cases h
      exact .inl ⟨rfl, hopen, rfl⟩
  · rw [feed_unknown hnum hop hgroup] at h
    cases h
    exact .inr ⟨hnum, hop, hgroup, rfl⟩

/-- All tokens that are released from a given operator stack on, those at the end included, and the fault
that ends the run unless joining fails before. -/
def run (waiting : List String) : List String → List String × Option BuildError
  | [] =>
    (waiting.takeWhile inGroup, if waiting.contains Token.opening then some .unclosedOpening else none)
  | token :: tokens =>
    match feed waiting token with
    | .error e => ([], some e)
    | .ok (word, waiting) => (word ++ (run waiting tokens).1, (run waiting tokens).2)

end Release

/-! ## What settling does, with its report -/

/-- The trees of a builder, newest first, and what has happened, latest event first. -/
structure Forest where
  trees : List Tree
  trace : List Event

/-- Settles one token and reports it. -/
def Forest.perform (f : Forest) (token : String) : Except (Fault × List Event) Forest :=
  if Token.isNumeral token then .ok ⟨.operand token :: f.trees, f.trace⟩
  else
    match Operator.ofSymbol? token with
    | none => .error (.unknownSymbol token, f.trace)
    | some op =>
      match join op f.trees with
      | none => .error (.build (.missingOperands token none op.arity f.trees.length), f.trace)
      | some (t, rest) => .ok ⟨t :: rest, .reduced .inFix token t :: f.trace⟩

namespace Forest

/-- The state of the infix builder with these trees and a given operator stack. -/
def toShunt (waiting : List String) (f : Forest) : Shunt Trace :=
  ⟨f.trees, waiting, f.trace⟩

theorem perform_numeral {token : String} (h : Token.isNumeral token = true) (f : Forest) :
    f.perform token = .ok ⟨.operand token :: f.trees, f.trace⟩ := by
  simp [perform, h]

theorem perform_symbol (op : Operator) (f : Forest) :
    f.perform op.symbol =
      match join op f.trees with
      | none => .error (.build (.missingOperands op.symbol none op.arity f.trees.length), f.trace)
      | some (t, rest) => .ok ⟨t :: rest, .reduced .inFix op.symbol t :: f.trace⟩ := by
  simp [perform]

end Forest

namespace Shunt

/-- The trees and the report of a state of the infix builder. -/
def forest (s : Shunt Trace) : Forest :=
  ⟨s.operands, s.trace⟩

end Shunt

/-- What is seen of a step that cannot go on: its fault and its report. -/
def Stuck.seen (stuck : Stuck (Shunt Trace)) : Fault × List Event :=
  (stuck.fault, stuck.state.trace)

/-! ## One loop with three endings -/

@[simp] theorem mapError_ok {ε ε' α : Type} (g : ε → ε') (a : α) :
    (.ok a : Except ε α).mapError g = .ok a := rfl

@[simp] theorem mapError_error {ε ε' α : Type} (g : ε → ε') (e : ε) :
    (.error e : Except ε α).mapError g = .error (g e) := rfl

theorem mapError_bind {ε ε' α β : Type} (g : ε → ε') (x : Except ε α) (f : α → Except ε β) :
    (x >>= f).mapError g = x.mapError g >>= fun a => (f a).mapError g := by
  cases x <;> rfl

theorem mapError_map {ε ε' α β : Type} (g : ε → ε') (x : Except ε α) (f : α → β) :
    (f <$> x).mapError g = f <$> x.mapError g := by
  cases x <;> rfl

namespace Shunt

/-- Joins operators from the top of the stack as long as `p` holds of them. The first list is the operator
stack. -/
def joinWhile (p : String → Bool) : List String → Shunt Trace → Except (Stuck (Shunt Trace)) (Shunt Trace)
  | [], s => .ok s
  | top :: rest, s =>
    if p top then reduce top { s with operators := rest } >>= joinWhile p rest else .ok s

/-- The entries of an operator stack are operator symbols and open parentheses. -/
def Waiting (operators : List String) : Prop :=
  ∀ top ∈ operators, top = Token.opening ∨ Token.isOperator top = true

theorem reduce_seen (op : Operator) (s : Shunt Trace) :
    (reduce op.symbol s).mapError Stuck.seen =
      Forest.toShunt s.operators <$> s.forest.perform op.symbol := by
  rw [reduce_symbol, Forest.perform_symbol]
  cases h : join op s.operands <;> simp [forest, h] <;> rfl

/-- Joining leaves the operator stack alone. -/
theorem reduce_operators {symbol : String} {s s' : Shunt Trace} (h : reduce symbol s = .ok s') :
    s'.operators = s.operators := by
  unfold reduce at h
  split at h
  · cases h
  · split at h
    · cases h
    · split at h
      · cases h
      · cases h
        rfl

/-- The loop performs the operators that it takes from the stack. -/
theorem joinWhile_seen {p : String → Bool} (hp : p Token.opening = false) {operators : List String}
    (hwait : Waiting operators) {s : Shunt Trace} (hs : s.operators = operators) :
    (joinWhile p operators s).mapError Stuck.seen =
      Forest.toShunt (operators.dropWhile p) <$>
        (operators.takeWhile p).foldlM Forest.perform s.forest := by
  induction operators generalizing s with
  | nil =>
    obtain ⟨operands, _, trace⟩ := s
    subst hs
    rfl
  | cons top rest ih =>
    obtain ⟨htop, hrest⟩ := List.forall_mem_cons.mp hwait
    by_cases h : p top = true
    · obtain ⟨op, rfl⟩ : ∃ op : Operator, top = op.symbol := by
        rcases htop with rfl | htop
        · simp [hp] at h
        · exact Token.isOperator_iff.mp htop
      rw [joinWhile, if_pos h, List.takeWhile_cons_of_pos h, List.dropWhile_cons_of_pos h,
        List.foldlM_cons, map_bind, mapError_bind, reduce_seen, bind_map_left]
      exact bind_congr fun f => ih hrest rfl
    · rw [joinWhile, if_neg h, List.takeWhile_cons_of_neg h, List.dropWhile_cons_of_neg h, ← hs]
      rfl

/-- An arriving operator joins what yields to it. -/
theorem makeWay_eq_joinWhile (token : String) (operators : List String) (s : Shunt Trace) :
    makeWay token operators s = joinWhile (Release.yields token) operators s := by
  induction operators generalizing s with
  | nil => rfl
  | cons top rest ih =>
    rw [makeWay, joinWhile]
    by_cases h : Release.yields token top = true
    · rw [if_neg (Release.yields_iff.mp h), if_pos h]
      cases reduce top { s with operators := rest } with
      | error stuck => rfl
      | ok s' => exact ih s'
    · rw [if_pos (Classical.not_not.mp (mt Release.yields_iff.mpr h)), if_neg h]

/-- A closing parenthesis joins the operators of the innermost group and then removes its opening. -/
theorem closeGroup_eq_joinWhile {operators : List String} (hopen : Token.opening ∈ operators) {s : Shunt Trace}
    (hs : s.operators = operators) :
    closeGroup operators s =
      (fun s => { s with operators := s.operators.tail }) <$>
        joinWhile Release.inGroup operators s := by
  induction operators generalizing s with
  | nil => exact absurd hopen List.not_mem_nil
  | cons top rest ih =>
    rw [closeGroup, joinWhile]
    by_cases h : top = Token.opening
    · have hout : ¬Release.inGroup top = true := by simp [Release.inGroup, h]
      rw [if_pos h, if_neg hout]
      obtain ⟨operands, _, trace⟩ := s
      subst hs
      rfl
    · have hin : Release.inGroup top = true := by simp [Release.inGroup, h]
      rw [if_neg h, if_pos hin, map_bind]
      have hrest : Token.opening ∈ rest := by simpa [Ne.symm h] using hopen
      cases hred : reduce top { s with operators := rest } with
      | error stuck => rfl
      | ok s' => exact ih hrest (reduce_operators hred)

/-- At the end all operators up to the newest open parenthesis are joined. -/
theorem drain_eq_joinWhile {operators : List String} {s : Shunt Trace} (hs : s.operators = operators) :
    drain operators s = joinWhile Release.inGroup operators s >>= fun s =>
      match s.operators with
      | [] => .ok s
      | _ :: rest => .error ⟨.build .unclosedOpening, { s with operators := rest }⟩ := by
  induction operators generalizing s with
  | nil =>
    obtain ⟨operands, _, trace⟩ := s
    subst hs
    rfl
  | cons top rest ih =>
    rw [drain, joinWhile]
    by_cases h : top = Token.opening
    · have hout : ¬Release.inGroup top = true := by simp [Release.inGroup, h]
      rw [if_pos h, if_neg hout]
      simp [hs, bind, Except.bind]
    · have hin : Release.inGroup top = true := by simp [Release.inGroup, h]
      rw [if_neg h, if_pos hin, bind_assoc]
      cases hred : reduce top { s with operators := rest } with
      | error stuck => rfl
      | ok s' => exact ih (reduce_operators hred)

/-! ## One token -/

/-- An operator or an open parenthesis is pushed when everything that yields to it has been joined. -/
theorem feed_pushed {token : String} (hnum : Token.isNumeral token = false)
    (hknown : Token.isOperator token = true ∨ Token.isGrouping token = true)
    (hclose : token ≠ Token.closing) (s : Shunt Trace) :
    s.feed token =
      (fun s => { s with operators := token :: s.operators }) <$>
        joinWhile (Release.yields token) s.operators s := by
  have hguard : ¬(!Token.isOperator token && !Token.isGrouping token) = true := by
    rcases hknown with h | h <;> simp [h]
  rw [feed, hnum, if_neg (by simp), resolve, if_neg hguard, if_neg hclose, makeWay_eq_joinWhile]
  cases joinWhile (Release.yields token) s.operators s <;> rfl

theorem feed_closing {s : Shunt Trace} (hopen : Token.opening ∈ s.operators) :
    s.feed Token.closing =
      (fun s => { s with operators := s.operators.tail }) <$>
        joinWhile Release.inGroup s.operators s := by
  rw [← closeGroup_eq_joinWhile hopen rfl]
  simp [feed, resolve, hopen]

/-- The loop of one token, followed by a change of the operator stack. -/
theorem joinWhile_map_seen {p : String → Bool} (hp : p Token.opening = false) {s : Shunt Trace}
    (hwait : Waiting s.operators) (change : List String → List String) :
    ((fun s => { s with operators := change s.operators }) <$>
        joinWhile p s.operators s).mapError Stuck.seen =
      Forest.toShunt (change (s.operators.dropWhile p)) <$>
        (s.operators.takeWhile p).foldlM Forest.perform s.forest := by
  rw [mapError_map, joinWhile_seen hp hwait rfl, Functor.map_map]
  rfl

/-- One token of the builder performs what the token releases. -/
theorem feed_seen {s : Shunt Trace} (hwait : Waiting s.operators) (token : String) :
    (s.feed token).mapError Stuck.seen =
      match Release.feed s.operators token with
      | .error e => .error (.build e, s.trace)
      | .ok (word, waiting) => Forest.toShunt waiting <$> word.foldlM Forest.perform s.forest := by
  rcases Token.cases token with hnum | ⟨op, rfl⟩ | rfl | rfl | ⟨hnum, hop, hgroup⟩
  · rw [Release.feed_numeral hnum]
    simp [feed, hnum, Forest.perform_numeral hnum]
    rfl
  · rw [Release.feed_symbol, feed_pushed (by simp) (by simp) (Token.symbol_ne_closing op)]
    exact joinWhile_map_seen (by simp [Release.yields]) hwait (op.symbol :: ·)
  · rw [feed_pushed (by simp) (by simp) Token.opening_ne_closing]
    rw [joinWhile_map_seen (by simp [Release.yields]) hwait (Token.opening :: ·), Release.feed_opening]
    cases s.operators <;> simp [Release.yields]
  · by_cases hopen : Token.opening ∈ s.operators
    · rw [Release.feed_closing hopen, feed_closing hopen]
      exact joinWhile_map_seen (by simp [Release.inGroup]) hwait List.tail
    · rw [Release.feed_unmatched hopen]
      simp [feed, resolve, hopen, Stuck.seen]
  · rw [Release.feed_unknown hnum hop hgroup]
    simp [feed, resolve, hnum, hop, hgroup, Stuck.seen]

theorem Waiting.dropWhile {operators : List String} (hwait : Waiting operators)
    (p : String → Bool) : Waiting (operators.dropWhile p) :=
  fun top htop => hwait top (List.dropWhile_subset p htop)

/-- An operator stack stays one of operator symbols and open parentheses. -/
theorem Waiting.feed {operators waiting word : List String} {token : String}
    (hwait : Waiting operators) (h : Release.feed operators token = .ok (word, waiting)) :
    Waiting waiting := by
  rcases Release.feed_eq_ok_cases h with ⟨-, -, rfl⟩ | ⟨op, rfl, -, rfl⟩ | ⟨rfl, -, rfl⟩ | ⟨rfl, -, -, rfl⟩
  · exact hwait
  · exact List.forall_mem_cons.mpr ⟨.inr (Token.isOperator_symbol op), hwait.dropWhile _⟩
  · exact List.forall_mem_cons.mpr ⟨.inl rfl, hwait⟩
  · exact fun top htop => hwait.dropWhile _ top (List.mem_of_mem_tail htop)

/-! ## Whole runs -/

/-- How a run ends once all released tokens are settled. -/
def close : Option BuildError → Forest → Except (Fault × Trace) (Shunt Trace)
  | some e, f => .error (.build e, f.trace)
  | none, f => .ok (f.toShunt [])

theorem drain_seen {s : Shunt Trace} (hwait : Waiting s.operators) :
    (drain s.operators s).mapError Stuck.seen =
      (Release.run s.operators []).1.foldlM Forest.perform s.forest >>=
        close (Release.run s.operators []).2 := by
  rw [drain_eq_joinWhile rfl, mapError_bind, joinWhile_seen (by simp [Release.inGroup]) hwait rfl,
    bind_map_left, Release.run]
  refine bind_congr fun f => ?_
  cases hrest : s.operators.dropWhile Release.inGroup with
  | nil =>
    have hopen := Release.dropWhile_inGroup_eq_nil_iff.mp hrest
    simp [hopen, close, Forest.toShunt]
  | cons top rest =>
    have hopen : Token.opening ∈ s.operators := by
      apply Classical.not_not.mp
      rw [← Release.dropWhile_inGroup_eq_nil_iff, hrest]
      exact List.cons_ne_nil top rest
    simp [hopen, close, Forest.toShunt, Stuck.seen]

/-- **The two stacks run apart.** A run of the builder performs the word that the operator stack releases,
then ends as the operator stack ends. -/
theorem run_seen {s : Shunt Trace} (hwait : Waiting s.operators) (tokens : List String) :
    (tokens.foldlM feed s >>= fun s => drain s.operators s).mapError Stuck.seen =
      (Release.run s.operators tokens).1.foldlM Forest.perform s.forest >>=
        close (Release.run s.operators tokens).2 := by
  induction tokens generalizing s with
  | nil => exact drain_seen hwait
  | cons token tokens ih =>
    rw [List.foldlM_cons, bind_assoc, mapError_bind, feed_seen hwait, Release.run]
    cases hfeed : Release.feed s.operators token with
    | error e => rfl
    | ok released =>
      obtain ⟨word, waiting⟩ := released
      simp only [List.foldlM_append, bind_assoc, bind_map_left]
      exact bind_congr fun f => ih (s := f.toShunt waiting) (hwait.feed hfeed)

end Shunt

/-! ## Whole expressions -/

/-- The result of a run: its fault, or the only tree. -/
def Forest.result (e : Option BuildError) (f : Forest) : Except Fault Tree :=
  match e, f.trees with
  | some e, _ => .error (.build e)
  | none, [t] => .ok t
  | none, [] => .error (.build (.noTree .inFix))
  | none, trees => .error (.build (.leftover .inFix trees.reverse))

theorem build_seen (tokens : List String) :
    (Shunt.build ([] : Trace) tokens).mapError Stuck.seen =
      (Release.run [] tokens).1.foldlM Forest.perform ⟨[], []⟩ >>= fun f =>
        Shunt.close (Release.run [] tokens).2 f >>= fun s => s.finish.mapError Stuck.seen := by
  have hrun := Shunt.run_seen (s := Shunt.fresh []) (fun _ h => absurd h List.not_mem_nil) tokens
  have hbuild : Shunt.build ([] : Trace) tokens =
      (tokens.foldlM Shunt.feed (Shunt.fresh ([] : Trace)) >>= fun s => Shunt.drain s.operators s) >>=
        Shunt.finish := by
    rw [bind_assoc]
    rfl
  rw [hbuild, mapError_bind, hrun, bind_assoc]
  rfl

/-- The infix builder settles what the operator stack releases from the tokens. -/
theorem readInfix_eq (tokens : List String) :
    readInfix tokens =
      match (Release.run [] tokens).1.foldlM Forest.perform ⟨[], []⟩ with
      | .error seen => ⟨.error seen.1, seen.2.reverse⟩
      | .ok f => ⟨f.result (Release.run [] tokens).2, f.trace.reverse⟩ := by
  have hseen : readInfix tokens =
      match (Shunt.build ([] : Trace) tokens).mapError Stuck.seen with
      | .error seen => ⟨.error seen.1, seen.2.reverse⟩
      | .ok (t, s) => ⟨.ok t, s.trace.reverse⟩ := by
    rw [readInfix]
    cases Shunt.build ([] : Trace) tokens <;> rfl
  rw [hseen, build_seen]
  cases (Release.run [] tokens).1.foldlM Forest.perform ⟨[], []⟩ with
  | error seen => rfl
  | ok f =>
    cases (Release.run [] tokens).2 with
    | some e => rfl
    | none =>
      obtain ⟨_ | ⟨t, _ | ⟨t', rest⟩⟩, trace⟩ := f <;> rfl

/-! ## Results -/

/-- Performing a token does with the trees what settling it does. -/
theorem Forest.trees_perform (f : Forest) (token : String) :
    (f.perform token).toOption.map Forest.trees = settleToken f.trees token := by
  unfold perform settleToken
  by_cases hnum : Token.isNumeral token = true
  · rw [if_pos hnum, if_pos hnum]
    rfl
  · rw [if_neg hnum, if_neg hnum]
    cases Operator.ofSymbol? token with
    | none => rfl
    | some op => cases hjoin : join op f.trees <;> simp [hjoin, Except.toOption]

theorem Forest.trees_foldlM_perform (f : Forest) (word : List String) :
    (word.foldlM Forest.perform f).toOption.map Forest.trees = settle f.trees word := by
  induction word generalizing f with
  | nil => rfl
  | cons token word ih =>
    rw [List.foldlM_cons, settle_cons, ← trees_perform]
    cases f.perform token with
    | error seen => rfl
    | ok f' => exact ih f'

/-- The infix builder returns a tree iff the operator stack meets no fault and the released word settles
to this tree. -/
theorem readInfix_eq_ok_iff {tokens : List String} {t : Tree} :
    (readInfix tokens).result = .ok t ↔
      (Release.run [] tokens).2 = none ∧ settle [] (Release.run [] tokens).1 = some [t] := by
  rw [readInfix_eq]
  have hsettle := Forest.trees_foldlM_perform ⟨[], []⟩ (Release.run [] tokens).1
  cases hrun : (Release.run [] tokens).1.foldlM Forest.perform ⟨[], []⟩ with
  | error seen =>
    rw [hrun] at hsettle
    simp [← hsettle, Except.toOption]
  | ok f =>
    rw [hrun] at hsettle
    rw [← hsettle]
    cases (Release.run [] tokens).2 with
    | some e => simp [Forest.result]
    | none =>
      obtain ⟨_ | ⟨t', _ | ⟨t'', rest⟩⟩, trace⟩ := f <;> simp [Forest.result, Except.toOption]

end Abacus
