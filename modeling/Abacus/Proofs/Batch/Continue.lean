import Abacus.Proofs.Batch.Run

/-!
# Going on after errors

A run that is to go on after errors, and that prints doubles, visits all lines with one exception: a literal with
more digits than an integer in a text may have has no value, and the fault is none of the expression. It escapes
and ends the run.

Results:
* `entries_lines`: the entries of a batch are its lines that are not blank.
* `Entry.isSome_escape?_iff`: the entries whose fault escapes, by their trees.
* `runSettings_continues`: a run goes on to the end unless the value of a tree meets a literal that is too long.
* `runSettings_overlong`: such a literal, which ends a run that is to go on.
-/

namespace Abacus

/-! ## Lines -/

theorem entriesFrom_lines (switching : Bool) (fixity : Fixity) (number : Nat) (lines : List String) :
    (entriesFrom switching fixity number lines).map Entry.line =
      (lines.map Text.trim).filter (!·.isEmpty) := by
  induction lines generalizing fixity number with
  | nil => rfl
  | cons raw rest ih =>
    rw [entriesFrom, List.map_cons]
    cases hblank : (Text.trim raw).isEmpty with
    | true =>
      rw [List.filter_cons_of_neg (by simp [hblank])]
      exact ih _ _
    | false =>
      rw [List.filter_cons_of_pos (by simp [hblank])]
      exact congrArg _ (ih _ _)

/-- The entries are the lines that are not blank, without the blanks around them. -/
theorem entries_lines (layout : Layout) (lines : List String) :
    (entries layout lines).map Entry.line = (lines.map Text.trim).filter (!·.isEmpty) := by
  cases layout with
  | auto => exact entriesFrom_lines true .postFix 1 lines
  | fixed fixity => exact entriesFrom_lines false fixity 1 lines

/-! ## Verdicts -/

namespace Entry

variable {options : Options} {entry : Entry} {t : Tree}

/-- The evaluation of the tree of the entry meets a literal with too many digits. -/
def Overlong (entry : Entry) : Prop :=
  ∃ t n, (constructLine entry.fixity entry.line).result = .ok t ∧ t.evaluate = .error (.literalLimit n)

/-- A tree without a value gives its fault. -/
theorem verdict_of_fault [Symbolic] (hexact : options.exact = false) {fault : Fault}
    (htree : (constructLine entry.fixity entry.line).result = .ok t) (hfault : t.evaluate = .error fault) :
    entry.verdict options = .ofResult (.error fault) := by
  have hvalue : valueText options t = .error fault := by
    rw [valueText, hexact, hfault]
    rfl
  rw [verdict_of_tree htree, block, hvalue]
  rfl

/-- A tree with a value gives a block: the value is finite, so its integer part can be printed too. -/
theorem verdict_of_value [Symbolic] (hexact : options.exact = false) {x : Float}
    (htree : (constructLine entry.fixity entry.line).result = .ok t) (hvalue : t.evaluate = .ok x) :
    ∃ text, entry.verdict options = .block text := by
  have ht : t.IsExpression := (constructLine_ofBuilder entry.fixity entry.line).tree t htree
  have hfinite : (Binary64.ofFloat x).isFinite = true := by
    have hgiven := ht.evaluate_given
    rw [hvalue] at hgiven
    cases hgiven with
    | value h => exact h
  obtain ⟨value, htext⟩ : ∃ value, valueText options t = .ok value := by
    rw [valueText_of_evaluate hexact hvalue]
    split
    · obtain ⟨n, -, htext⟩ := truncatedText_of_isFinite hfinite
      exact ⟨toString n, htext⟩
    · exact ⟨floatText x, rfl⟩
  obtain ⟨text, hblock⟩ : ∃ text, block options t = .ok text := ⟨_, by rw [block, htext]; rfl⟩
  exact ⟨text, by rw [verdict_of_tree htree, hblock]; rfl⟩

/-- A fault escapes iff it is that of a literal with too many digits. -/
theorem isSome_escape?_iff [Symbolic] (hexact : options.exact = false) :
    (entry.escape? options).isSome = true ↔ entry.Overlong := by
  have hbuilder := constructLine_ofBuilder entry.fixity entry.line
  constructor
  · intro hescape
    cases htree : (constructLine entry.fixity entry.line).result with
    | error fault =>
      obtain ⟨e, rfl⟩ := hbuilder.fault fault htree
      have hverdict : entry.verdict options = .failure (.build e) := by
        rw [verdict, outcome, htree]
        rfl
      rw [escape?, hverdict] at hescape
      cases hescape
    | ok t =>
      have hgiven := (hbuilder.tree t htree).evaluate_given
      cases hvalue : t.evaluate with
      | ok x =>
        obtain ⟨text, hverdict⟩ := verdict_of_value hexact htree hvalue
        rw [escape?, hverdict] at hescape
        cases hescape
      | error fault =>
        rw [hvalue] at hgiven
        cases hgiven with
        | error e =>
          rw [escape?, verdict_of_fault hexact htree hvalue] at hescape
          cases hescape
        | @tooLong literal _ _ _ => exact ⟨t, literal.length, htree, hvalue⟩
  · rintro ⟨t, n, htree, hvalue⟩
    rw [escape?, verdict_of_fault hexact htree hvalue]
    rfl

/-- An entry of this kind has a word of digits only that is too long. -/
theorem Overlong.exists_word (h : entry.Overlong) :
    ∃ word ∈ Text.words entry.line, Literal.isProper word = true ∧ Text.digitLimit < word.length := by
  obtain ⟨t, n, htree, hvalue⟩ := h
  have hread : (assemble entry.fixity (Text.words entry.line)).result = .ok t := by
    rw [← construct_result]
    exact htree
  have ht := assemble_isExpression hread
  have hgiven := ht.evaluate_given
  rw [hvalue] at hgiven
  cases hgiven with
  | tooLong hmem hproper hlong =>
    rw [← ht.filter_isNumeral] at hmem
    exact ⟨_, mem_of_assemble hread (List.mem_filter.mp hmem).1, hproper, hlong⟩

theorem not_overlong (h : ∀ word ∈ Text.words entry.line, word.length ≤ Text.digitLimit) :
    ¬entry.Overlong := by
  intro hlong
  obtain ⟨word, hmem, -, hlt⟩ := hlong.exists_word
  exact Nat.not_lt_of_le (h word hmem) hlt

theorem stops_eq [Symbolic] (hgo : options.continueOnError = true) (entry : Entry) :
    (entry.verdict options).stops options = (entry.escape? options).isSome := by
  rw [escape?]
  cases entry.verdict options with
  | block text => rfl
  | failure error => simp [hgo]
  | escape fault => rfl

end Entry

/-! ## Runs -/

/-- A run that is to go on after errors comes to the first fault that escapes. -/
theorem findSome?_visited [Symbolic] {options : Options} (hgo : options.continueOnError = true) (entries : List Entry) :
    (visited options entries).findSome? (Entry.escape? options) =
      entries.findSome? (Entry.escape? options) := by
  induction entries with
  | nil => rfl
  | cons entry rest ih =>
    rw [visited_cons, Entry.stops_eq hgo, List.findSome?_cons, List.findSome?_cons]
    cases hescape : entry.escape? options with
    | none => simpa using ih
    | some fault => rfl

theorem findSome?_escape?_eq_none_iff [Symbolic] {options : Options} (hexact : options.exact = false)
    {entries : List Entry} :
    entries.findSome? (Entry.escape? options) = none ↔ ∀ entry ∈ entries, ¬entry.Overlong := by
  rw [List.findSome?_eq_none_iff]
  refine forall₂_congr fun entry _ => ?_
  rw [← Entry.isSome_escape?_iff hexact, Option.not_isSome_iff_eq_none]

/-- A run has a status iff no fault escapes from the entries it has visited. -/
theorem exists_status_summed_iff [Symbolic] {options : Options} {seen : List Entry} :
    (∃ status, (summed options 0 0 seen).status = .ok status) ↔
      seen.findSome? (Entry.escape? options) = none := by
  rw [status_summed]
  cases seen.findSome? (Entry.escape? options) with
  | none => exact iff_of_true ⟨_, rfl⟩ rfl
  | some fault => simp

theorem status_summed_eq_zero_or_one [Symbolic] {options : Options} {seen : List Entry}
    (h : seen.findSome? (Entry.escape? options) = none) :
    (summed options 0 0 seen).status = .ok 0 ∨ (summed options 0 0 seen).status = .ok 1 := by
  rw [status_summed, h]
  by_cases hnone : 0 + (seen.filterMap (Entry.failed? options)).length = 0
  · exact .inl (congrArg _ (if_pos hnone))
  · exact .inr (congrArg _ (if_neg hnone))

/-- **Going on after errors.** Let the settings name a layout, ask to go on after errors and not ask for exact
values. The entries are the lines that are not blank. The run has a status iff the evaluation of no tree meets a
literal with too many digits. In this case the status is 0 or 1, the run visits all entries, it writes the blocks of
all entries that have one, and so does every entry whose tree has a value. -/
theorem runSettings_continues [Symbolic] {settings : Settings} {layout : Layout} (hlayout : settings.layout? = some layout)
    (hgo : settings.options.continueOnError = true) (hexact : settings.options.exact = false)
    (lines : List String) :
    let options := settings.options
    let all := entries layout lines
    let report := runSettings settings lines
    all.map Entry.line = (lines.map Text.trim).filter (!·.isEmpty) ∧
    ((∃ status, report.status = .ok status) ↔ ∀ entry ∈ all, ¬entry.Overlong) ∧
    ((∀ entry ∈ all, ¬entry.Overlong) →
      (report.status = .ok 0 ∨ report.status = .ok 1) ∧
      visited options all = all ∧
      report.output = String.join (all.filterMap (Entry.block? options)) ∧
      ∀ entry ∈ all, ∀ t x, (constructLine entry.fixity entry.line).result = .ok t →
        t.evaluate = .ok x → (entry.block? options).isSome = true) := by
  intro options all report
  have hreport : report = summed options 0 0 (visited options all) :=
    Settings.runSettings_eq hlayout lines
  have hnone : (visited options all).findSome? (Entry.escape? options) = none ↔
      ∀ entry ∈ all, ¬entry.Overlong := by
    rw [findSome?_visited hgo, findSome?_escape?_eq_none_iff hexact]
  refine ⟨entries_lines layout lines, ?_, ?_⟩
  · rw [hreport, exists_status_summed_iff, hnone]
  · intro hall
    have hseen : visited options all = all := by
      refine visited_eq_self fun entry hentry => ?_
      rw [Entry.stops_eq hgo, Bool.eq_false_iff, Ne, Entry.isSome_escape?_iff hexact]
      exact hall entry hentry
    refine ⟨?_, hseen, ?_, ?_⟩
    · rw [hreport]
      exact status_summed_eq_zero_or_one (hnone.mpr hall)
    · rw [hreport, output_summed, hseen]
    · intro entry _ t x htree hvalue
      obtain ⟨text, hverdict⟩ := Entry.verdict_of_value hexact htree hvalue
      rw [Entry.block?, hverdict]
      rfl

/-- The first line has no tree, the second one has a value. -/
theorem runSettings_continues_mixed :
    let settings := { Settings.standard with continueOnError := .bool true }
    let all := entries .auto ["1 +", "5"]
    let report := runSettings settings ["1 +", "5"]
    (report.status = .ok 0 ∨ report.status = .ok 1) ∧ visited settings.options all = all ∧
      (Entry.block? settings.options ⟨2, .postFix, "5"⟩).isSome = true := by
  obtain ⟨-, -, hrun⟩ := @runSettings_continues _ { Settings.standard with continueOnError := .bool true }
    .auto rfl rfl rfl ["1 +", "5"]
  have hshort : ∀ entry ∈ entries .auto ["1 +", "5"], ¬entry.Overlong := by
    have hwords : ∀ entry ∈ entries .auto ["1 +", "5"], ∀ word ∈ Text.words entry.line,
        word.length ≤ Text.digitLimit := by decide
    exact fun entry hentry => Entry.not_overlong (hwords entry hentry)
  obtain ⟨hstatus, hseen, -, hblock⟩ := hrun hshort
  have hvalue : (Tree.operand "5").evaluate = .ok (Float.ofBits 0x4014000000000000) :=
    (Tree.evaluate_operand "5").trans rfl
  exact ⟨hstatus, hseen, hblock ⟨2, .postFix, "5"⟩ (by decide) _ _ rfl hvalue⟩

/-! ## A run that does not go on -/

namespace Literal

variable {literal : String}

theorem isProper_iff : isProper literal = true ↔ literal ≠ "" ∧ ∀ c ∈ literal.toList, c.isDigit = true := by
  simp [isProper]

theorem isNumeral_of_isProper (h : isProper literal = true) : Token.isNumeral literal = true := by
  obtain ⟨hne, hdigits⟩ := isProper_iff.mp h
  unfold Token.isNumeral
  split
  · next hnil => exact absurd (String.toList_eq_nil_iff.mp hnil) hne
  · next c rest hcons => exact hdigits c (hcons ▸ List.mem_cons_self)

theorem isWord_of_isProper (h : isProper literal = true) : Text.IsWord literal := by
  obtain ⟨hne, hdigits⟩ := isProper_iff.mp h
  refine ⟨fun hnil => hne (String.toList_eq_nil_iff.mp hnil), fun c hc => ?_⟩
  exact Text.isBlank_of_isDigit (hdigits c hc)

end Literal

/-- A line that is a literal with too many digits gives the fault of this literal. -/
theorem Entry.verdict_overlong [Symbolic] {options : Options} (hexact : options.exact = false) {entry : Entry}
    (hproper : Literal.isProper entry.line = true) (hlong : Text.digitLimit < entry.line.length) :
    entry.verdict options = .escape (.literalLimit entry.line.length) := by
  have hvalue : (Tree.operand entry.line).evaluate = .error (.literalLimit entry.line.length) := by
    rw [Tree.evaluate_operand, Literal.double, Literal.value_of_isProper hproper, if_pos hlong]
    rfl
  have htree := constructLine_numeral (Literal.isWord_of_isProper hproper) (Literal.isNumeral_of_isProper hproper)
    entry.fixity
  rw [verdict_of_fault hexact htree hvalue]
  rfl

/-- A literal with too many digits between two short ones: the run writes the block of the first, and it
neither reports the second nor comes to the third. -/
theorem runSettings_between [Symbolic] {literal : String} (hproper : Literal.isProper literal = true)
    (hlong : Text.digitLimit < literal.length) :
    let report := runSettings { Settings.standard with continueOnError := .bool true } ["1", literal, "2"]
    report.status = .error (.literalLimit literal.length) ∧
      report.output = "Infix format: 1 \nPostfix format: 1 \nExpression value: 1\n\n" := by
  have hword := Literal.isWord_of_isProper hproper
  have hsome : literal.isEmpty = false := by
    simpa using hword.1
  have hentries : entries .auto ["1", literal, "2"] =
      [⟨1, .postFix, "1"⟩, ⟨2, .postFix, literal⟩, ⟨3, .postFix, "2"⟩] := by
    have hfirst : Text.trim "1" = "1" := rfl
    have hlast : Text.trim "2" = "2" := rfl
    simp [entries, entriesFrom, hfirst, Text.trim_word hword, hsome, hlast]
  have hdone : Entry.verdict ⟨true, true, false⟩ ⟨1, .postFix, "1"⟩ =
      .block "Infix format: 1 \nPostfix format: 1 \nExpression value: 1\n" :=
    @Entry.verdict_numeral _ ⟨true, true, false⟩ ⟨1, .postFix, "1"⟩ rfl rfl (Text.isWord_of_toList rfl rfl) rfl
      (Float.ofBits 0x3FF0000000000000) 1 rfl rfl
  have hescape : Entry.verdict ⟨true, true, false⟩ ⟨2, .postFix, literal⟩ =
      .escape (.literalLimit literal.length) :=
    @Entry.verdict_overlong _ ⟨true, true, false⟩ rfl ⟨2, .postFix, literal⟩ hproper hlong
  have hseen : visited ⟨true, true, false⟩ (entries .auto ["1", literal, "2"]) =
      [⟨1, .postFix, "1"⟩, ⟨2, .postFix, literal⟩] := by
    rw [hentries, visited_cons, visited_cons, hdone, hescape]
    rfl
  intro report
  have hreport : report = summed ⟨true, true, false⟩ 0 0 [⟨1, .postFix, "1"⟩, ⟨2, .postFix, literal⟩] := by
    rw [← hseen]
    exact Settings.runSettings_eq rfl _
  constructor
  · rw [hreport, status_summed]
    simp [Entry.escape?, hdone, hescape]
  · rw [hreport, output_summed]
    simp [Entry.block?, hdone, hescape]

/-- **A run that is to go on and does not.** The settings name a layout, ask to go on after errors and not for exact
values. -/
theorem runSettings_overlong :
    let settings := { Settings.standard with continueOnError := .bool true }
    let literal := String.ofList (List.replicate 4301 '7')
    let report := runSettings settings ["1", literal, "2"]
    settings.layout? = some .auto ∧ settings.options = ⟨true, true, false⟩ ∧
      report.status = .error (.literalLimit 4301) ∧
      report.output = "Infix format: 1 \nPostfix format: 1 \nExpression value: 1\n\n" := by
  have hlength : (String.ofList (List.replicate 4301 '7')).length = 4301 := by
    rw [String.length_ofList, List.length_replicate]
  have hdigits (n : Nat) (hn : n ≠ 0) :
      Literal.isProper (String.ofList (List.replicate n '7')) = true := by
    simp [Literal.isProper, hn]
  have hproper := hdigits 4301 (by decide)
  obtain ⟨hstatus, houtput⟩ := runSettings_between hproper (by rw [hlength]; decide)
  rw [hlength] at hstatus
  exact ⟨rfl, rfl, hstatus, houtput⟩

end Abacus
