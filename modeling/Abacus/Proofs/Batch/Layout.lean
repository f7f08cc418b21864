import Abacus.Batch.Lines
import Abacus.Build.Construct
import Abacus.Proofs.Text.Words

/-!
# The layout of a batch

The loop over the lines of a batch carries the number of the next line and the way it is written. Both depend on the
lines before it alone: the number is how many there are, and in the layout `auto` the way is infix as soon as one of
them is blank. So each line can be told its entry by itself, which is the invariant of the loop.

What is trimmed off a line is blank, and blanks are what the words of a line are cut at. So a line has an entry exactly
if it has a word, and the entry has the words of the line.

Results:
* `entriesFrom_eq`: the entries of the lines that are left, from the lines before them.
* `number_lt_of_entries`: the numbers of the entries increase.
* `exists_line_of_mem_entries`: an entry comes from one line, and has its words.
* `entries_layout`: the entries of a batch, line by line.
-/

namespace Abacus

/-- Has the line no other characters than blanks? -/
def isBlankLine (line : String) : Bool :=
  line.toList.all Text.isBlank

/-- How a line is written that comes after some lines: in the layout `auto` as infix if one of them is blank, else as
postfix. -/
def Layout.fixityAfter (before : List String) : Layout → Fixity
  | .auto => if before.any isBlankLine then .inFix else .postFix
  | .fixed fixity => fixity

/-- The entry of a line with its index, if it is not blank. -/
def Layout.entry? (layout : Layout) (lines : List String) (line : String × Nat) : Option Entry :=
  if isBlankLine line.1 then none
  else some ⟨line.2 + 1, layout.fixityAfter (lines.take line.2), Text.trim line.1⟩

/-! ## Blank lines -/

theorem isEmpty_trim (line : String) : (Text.trim line).isEmpty = isBlankLine line := by
  rw [Bool.eq_iff_iff, String.isEmpty_iff, Text.trim_eq_empty_iff, isBlankLine, List.all_eq_true]

/-- A line has a word unless it is blank. -/
theorem words_ne_nil {line : String} (h : isBlankLine line = false) : Text.words line ≠ [] := by
  intro hnone
  rw [isBlankLine, List.all_eq_true.mpr (Text.words_eq_nil_iff.mp hnone)] at h
  cases h

/-! ## All lines -/

theorem Layout.fixityAfter_append (layout : Layout) (before : List String) (line : String) :
    layout.fixityAfter (before ++ [line]) =
      if isBlankLine line && layout == .auto then .inFix else layout.fixityAfter before := by
  cases layout with
  | auto => cases h : isBlankLine line <;> simp [fixityAfter, h]
  | fixed fixity => simp [fixityAfter]

/-- **The invariant of the loop over the lines.** The number of the next line and the way it is written are those that
the lines before it give. -/
theorem entriesFrom_eq (layout : Layout) (before rest : List String) :
    entriesFrom (layout == .auto) (layout.fixityAfter before) (before.length + 1) rest =
      (rest.zipIdx before.length).filterMap (layout.entry? (before ++ rest)) := by
  induction rest generalizing before with
  | nil => rfl
  | cons line rest ih =>
    have hnext := ih (before ++ [line])
    rw [List.length_append, List.length_singleton, List.append_assoc, List.singleton_append,
      Layout.fixityAfter_append] at hnext
    rw [entriesFrom, List.zipIdx_cons, List.filterMap_cons, ← hnext]
    simp only [isEmpty_trim, Layout.entry?, List.take_left']
    cases isBlankLine line with
    | true => cases layout <;> rfl
    | false => rfl

theorem entries_eq_filterMap (layout : Layout) (lines : List String) :
    entries layout lines = lines.zipIdx.filterMap (layout.entry? lines) := by
  have hstart : entries layout lines = entriesFrom (layout == .auto) (layout.fixityAfter []) 1 lines := by
    cases layout <;> rfl
  rw [hstart]
  exact entriesFrom_eq layout [] lines

/-! ## Each entry -/

theorem number_lt_of_entries (layout : Layout) (lines : List String) :
    (entries layout lines).Pairwise (·.number < ·.number) := by
  have hindex : lines.zipIdx.Pairwise (·.2 < ·.2) := by
    rw [← List.pairwise_map (R := (· < ·)), List.zipIdx_map_snd]
    exact List.pairwise_lt_range'
  rw [entries_eq_filterMap, List.pairwise_filterMap]
  refine hindex.imp fun hlt a ha b hb => ?_
  unfold Layout.entry? at ha hb
  split at ha
  · cases ha
  · split at hb
    · cases hb
    · cases ha
      cases hb
      exact Nat.succ_lt_succ hlt

/-- An entry comes from the line with its number. -/
theorem exists_line_of_mem_entries {layout : Layout} {lines : List String} {entry : Entry}
    (h : entry ∈ entries layout lines) :
    ∃ line, lines[entry.number - 1]? = some line ∧ isBlankLine line = false ∧ entry.line = Text.trim line := by
  rw [entries_eq_filterMap, List.mem_filterMap] at h
  obtain ⟨⟨line, i⟩, hline, hentry⟩ := h
  unfold Layout.entry? at hentry
  split at hentry
  · cases hentry
  · next hblank =>
    cases hentry
    exact ⟨line, List.mk_mem_zipIdx_iff_getElem?.mp hline, by simpa using hblank, rfl⟩

theorem entries_fixed (fixity : Fixity) (lines : List String) :
    entries (.fixed fixity) lines = (entries .auto lines).map ({ · with fixity }) := by
  rw [entries_eq_filterMap, entries_eq_filterMap, List.map_filterMap]
  congr 1
  funext line
  cases h : isBlankLine line.1 <;> simp [Layout.entry?, Layout.fixityAfter, h]

/-- **The entries of a batch, line by line.** A line has an entry unless it is blank: its number, the way it is
written and its text without the blanks at the ends. In the layout `auto` a line is written as postfix if no line
before it is blank, and as infix if one is. The other two layouts give the same numbers and texts, written their way.
So the numbers increase, and each text has a word and reads as the whole line does. -/
theorem entries_layout (lines : List String) :
    (Layout.ofScalar (.text "auto") = .ok .auto ∧ Layout.ofScalar (.text "infix") = .ok (.fixed .inFix) ∧
      Layout.ofScalar (.text "postfix") = .ok (.fixed .postFix)) ∧
    (∀ layout, entries layout lines = lines.zipIdx.filterMap (layout.entry? lines)) ∧
    (∀ fixity, entries (.fixed fixity) lines = (entries .auto lines).map ({ · with fixity })) ∧
    ∀ layout, (entries layout lines).Pairwise (·.number < ·.number) ∧
      ∀ entry ∈ entries layout lines, Text.words entry.line ≠ [] ∧
        ∃ line, lines[entry.number - 1]? = some line ∧ Text.words entry.line = Text.words line ∧
          ∀ fixity, constructLine fixity entry.line = constructLine fixity line := by
  refine ⟨⟨rfl, rfl, rfl⟩, (entries_eq_filterMap · lines), (entries_fixed · lines), fun layout =>
    ⟨number_lt_of_entries layout lines, fun entry hentry => ?_⟩⟩
  obtain ⟨line, hline, hblank, htrim⟩ := exists_line_of_mem_entries hentry
  have hwords : Text.words entry.line = Text.words line := by rw [htrim, Text.words_trim]
  refine ⟨hwords ▸ words_ne_nil hblank, line, hline, hwords, fun fixity => ?_⟩
  rw [constructLine, constructLine, hwords]

/-- The first line that is blank has two kinds of blanks, and the second one ends nothing. -/
theorem entries_layout_two_blank_lines :
    let lines := ["7", "\u2003\t", " 3\u00a0+ 4 ", "", "5"]
    entries .auto lines = [⟨1, .postFix, "7"⟩, ⟨3, .inFix, "3\u00a0+ 4"⟩, ⟨5, .inFix, "5"⟩] ∧
      Text.words "3\u00a0+ 4" ≠ [] ∧
      constructLine .inFix "3\u00a0+ 4" = constructLine .inFix " 3\u00a0+ 4 " := by
  intro lines
  obtain ⟨-, -, -, hentries⟩ := entries_layout lines
  have hauto : entries .auto lines = [⟨1, .postFix, "7"⟩, ⟨3, .inFix, "3\u00a0+ 4"⟩, ⟨5, .inFix, "5"⟩] := by
    decide
  have hsecond : ⟨3, .inFix, "3\u00a0+ 4"⟩ ∈ entries .auto lines := by simp [hauto]
  obtain ⟨hwords, line, hline, -, hread⟩ := (hentries .auto).2 _ hsecond
  cases hline
  exact ⟨hauto, hwords, hread .inFix⟩

end Abacus
