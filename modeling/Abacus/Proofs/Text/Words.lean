import Abacus.Text.Blank
import Mathlib.Data.List.TakeWhile

/-!
# Words survive joining and cutting

Results:
* `words_terminated`: words that are written one after the other, each followed by a space, are cut out again
  as they were.
* `isWord_of_mem_words`: what is cut out of a text are words.
* `words_word`, `trim_word`: a word alone is its only word, and has no blanks around it.
* `words_trim`: the blanks at the ends of a text do not matter for its words.
* `words_eq_nil_iff`, `trim_eq_empty_iff`: a text has no words, and nothing is left of it, exactly if it is blank.
* `words_and_terminated`: cutting and joining are inverse on words, and on nothing else.
-/

namespace Abacus.Text

/-- A word has a character, and none of its characters is blank. -/
def IsWord (token : String) : Prop :=
  token.toList ≠ [] ∧ ∀ c ∈ token.toList, isBlank c = false

/-- A single character is a word unless it is blank. -/
theorem isWord_of_toList {token : String} {c : Char} (htoken : token.toList = [c])
    (hc : isBlank c = false) : IsWord token := by
  simp [IsWord, htoken, hc]

theorem isBlank_of_isDigit {c : Char} (h : c.isDigit = true) : isBlank c = false := by
  have hdigit : 48 ≤ c.toNat ∧ c.toNat ≤ 57 := by
    simpa [Char.isDigit, UInt32.le_iff_toNat_le] using h
  simp only [isBlank, Bool.or_eq_false_iff, Bool.and_eq_false_iff, decide_eq_false_iff_not, beq_eq_false_iff_ne]
  omega

/-! ## Joining, then cutting -/

/-- A blank ends the current word. -/
theorem wordsFrom_append_blank {xs word rest : List Char} {blank : Char}
    (hxs : ∀ c ∈ xs, isBlank c = false) (hblank : isBlank blank = true) (hne : word.reverse ++ xs ≠ []) :
    wordsFrom word (xs ++ blank :: rest) = (word.reverse ++ xs) :: wordsFrom [] rest := by
  induction xs generalizing word with
  | nil =>
    have hword : word ≠ [] := by simpa using hne
    simp [wordsFrom, hblank, hword]
  | cons c xs ih =>
    obtain ⟨hc, hrest⟩ := List.forall_mem_cons.mp hxs
    rw [List.cons_append, wordsFrom, hc, if_neg Bool.false_ne_true, ih hrest (by simp)]
    simp

theorem words_append_space {token rest : String} (h : IsWord token) :
    words (token ++ " " ++ rest) = token :: words rest := by
  obtain ⟨hne, hblank⟩ := h
  have hlist : (token ++ " " ++ rest).toList = token.toList ++ ' ' :: rest.toList := by simp
  rw [words, hlist, wordsFrom_append_blank hblank rfl (by simpa using hne)]
  simp [words]

theorem words_terminated {tokens : List String} (h : ∀ token ∈ tokens, IsWord token) :
    words (terminated tokens) = tokens := by
  induction tokens with
  | nil => rfl
  | cons token tokens ih =>
    obtain ⟨htoken, hrest⟩ := List.forall_mem_cons.mp h
    have hjoin : terminated (token :: tokens) = token ++ " " ++ terminated tokens := by
      simp [terminated]
    rw [hjoin, words_append_space htoken, ih hrest]

/-! ## Cutting -/

/-- The words that are cut out have characters, none of them blank. -/
theorem of_mem_wordsFrom {xs word out : List Char} (hword : ∀ c ∈ word, isBlank c = false)
    (h : out ∈ wordsFrom word xs) : out ≠ [] ∧ ∀ c ∈ out, isBlank c = false := by
  have hdone : word.isEmpty = false → word.reverse ≠ [] ∧ ∀ c ∈ word.reverse, isBlank c = false := by
    intro hne
    exact ⟨by simpa using hne, fun c hc => hword c (List.mem_reverse.mp hc)⟩
  fun_induction wordsFrom word xs with
  | case1 word hempty => cases h
  | case2 word hne =>
    obtain rfl := List.mem_singleton.mp h
    exact hdone (by simpa using hne)
  | case3 word c rest hc hempty ih => exact ih (by simp) h (by simp)
  | case4 word c rest hc hne ih =>
    rcases List.mem_cons.mp h with rfl | hrest
    · exact hdone (by simpa using hne)
    · exact ih (by simp) hrest (by simp)
  | case5 word c rest hc ih =>
    have hmore : ∀ c' ∈ c :: word, isBlank c' = false :=
      List.forall_mem_cons.mpr ⟨by simpa using hc, hword⟩
    refine ih hmore h fun _ => ⟨by simp, fun c' hc' => hmore c' (List.mem_reverse.mp hc')⟩

theorem isWord_of_mem_words {text token : String} (h : token ∈ words text) : IsWord token := by
  obtain ⟨out, hout, rfl⟩ := List.mem_map.mp h
  simpa [IsWord] using of_mem_wordsFrom (by simp) hout

/-! ## A word alone -/

theorem wordsFrom_of_forall {xs word : List Char} (hxs : ∀ c ∈ xs, isBlank c = false)
    (hne : word.reverse ++ xs ≠ []) : wordsFrom word xs = [word.reverse ++ xs] := by
  induction xs generalizing word with
  | nil =>
    have hword : word ≠ [] := by simpa using hne
    simp [wordsFrom, hword]
  | cons c xs ih =>
    obtain ⟨hc, hrest⟩ := List.forall_mem_cons.mp hxs
    rw [wordsFrom, hc, if_neg Bool.false_ne_true, ih hrest (by simp)]
    simp

theorem words_word {token : String} (h : IsWord token) : words token = [token] := by
  obtain ⟨hne, hblank⟩ := h
  rw [words, wordsFrom_of_forall hblank (by simpa using hne)]
  simp

theorem dropWhile_isBlank {xs : List Char} (hxs : ∀ c ∈ xs, isBlank c = false) :
    xs.dropWhile isBlank = xs := by
  cases xs with
  | nil => rfl
  | cons c xs => rw [List.dropWhile_cons_of_neg (by simp [hxs c List.mem_cons_self])]

theorem trim_word {token : String} (h : IsWord token) : trim token = token := by
  have hreverse : ∀ c ∈ token.toList.reverse, isBlank c = false :=
    fun c hc => h.2 c (List.mem_reverse.mp hc)
  rw [trim, dropWhile_isBlank h.2, dropWhile_isBlank hreverse, List.reverse_reverse, String.ofList_toList]

/-! ## Blanks at the ends -/

/-- Blanks in front of a text belong to no word. -/
theorem wordsFrom_blanks_append {blanks : List Char} (h : ∀ c ∈ blanks, isBlank c = true) (xs : List Char) :
    wordsFrom [] (blanks ++ xs) = wordsFrom [] xs := by
  induction blanks with
  | nil => rfl
  | cons c blanks ih =>
    obtain ⟨hc, hrest⟩ := List.forall_mem_cons.mp h
    rw [List.cons_append, wordsFrom, if_pos hc]
    exact ih hrest

/-- Blanks behind a text belong to no word. -/
theorem wordsFrom_append_blanks {blanks : List Char} (h : ∀ c ∈ blanks, isBlank c = true)
    (word xs : List Char) : wordsFrom word (xs ++ blanks) = wordsFrom word xs := by
  have hnone : wordsFrom [] blanks = [] := by
    rw [← List.append_nil blanks, wordsFrom_blanks_append h]
    rfl
  fun_induction wordsFrom word xs with
  | case1 word hempty =>
    rw [List.isEmpty_iff.mp hempty]
    exact hnone
  | case2 word hne =>
    cases blanks with
    | nil => simp [wordsFrom, hne]
    | cons c blanks =>
      obtain ⟨hc, hrest⟩ := List.forall_mem_cons.mp h
      rw [wordsFrom, if_pos hc, if_pos List.isEmpty_nil] at hnone
      rw [List.nil_append, wordsFrom, if_pos hc, if_neg hne, hnone]
  | case3 word c rest hc hempty ih => rw [List.cons_append, wordsFrom, if_pos hc, if_pos hempty, ih]
  | case4 word c rest hc hne ih => rw [List.cons_append, wordsFrom, if_pos hc, if_neg hne, ih]
  | case5 word c rest hc ih => rw [List.cons_append, wordsFrom, if_neg hc, ih]

/-- What is trimmed off are blanks at the two ends. -/
theorem toList_eq_append_trim (text : String) :
    ∃ before after, (∀ c ∈ before, isBlank c = true) ∧ (∀ c ∈ after, isBlank c = true) ∧
      text.toList = before ++ (trim text).toList ++ after := by
  let middle := text.toList.dropWhile isBlank
  refine ⟨text.toList.takeWhile isBlank, (middle.reverse.takeWhile isBlank).reverse,
    fun c hc => List.mem_takeWhile_imp hc, fun c hc => List.mem_takeWhile_imp (List.mem_reverse.mp hc), ?_⟩
  have hmiddle : (middle.reverse.dropWhile isBlank).reverse ++ (middle.reverse.takeWhile isBlank).reverse =
      middle := by
    rw [← List.reverse_append, List.takeWhile_append_dropWhile, List.reverse_reverse]
  rw [trim, String.toList_ofList, List.append_assoc, hmiddle, List.takeWhile_append_dropWhile]

/-- A text has the same words as without the blanks at its ends. -/
theorem words_trim (text : String) : words (trim text) = words text := by
  obtain ⟨before, after, hbefore, hafter, htext⟩ := toList_eq_append_trim text
  rw [words, words, htext, wordsFrom_append_blanks hafter, wordsFrom_blanks_append hbefore]

theorem wordsFrom_eq_nil_iff {word xs : List Char} :
    wordsFrom word xs = [] ↔ word = [] ∧ ∀ c ∈ xs, isBlank c = true := by
  fun_induction wordsFrom word xs with
  | case1 word hempty => simpa using hempty
  | case2 word hne => simpa using hne
  | case3 word c rest hc hempty ih => simp [ih, hc, List.isEmpty_iff.mp hempty]
  | case4 word c rest hc hne ih =>
    have hword : word ≠ [] := by simpa using hne
    simp [hword]
  | case5 word c rest hc ih => simp [ih, hc]

/-- The texts without words are the blank ones. -/
theorem words_eq_nil_iff {text : String} : words text = [] ↔ ∀ c ∈ text.toList, isBlank c = true := by
  rw [words, List.map_eq_nil_iff, wordsFrom_eq_nil_iff]
  simp

/-- Nothing is left of the blank texts, and of no others. -/
theorem trim_eq_empty_iff {text : String} : trim text = "" ↔ ∀ c ∈ text.toList, isBlank c = true := by
  constructor
  · intro h
    rw [← words_eq_nil_iff, ← words_trim, h]
    rfl
  · intro h
    rw [trim, List.dropWhile_eq_nil_iff.mpr h]
    rfl

/-! ## Cutting and joining -/

/-- Only words are cut out again as they were. -/
theorem words_terminated_eq_iff {tokens : List String} :
    words (terminated tokens) = tokens ↔ ∀ token ∈ tokens, IsWord token := by
  constructor
  · intro h token htoken
    rw [← h] at htoken
    exact isWord_of_mem_words htoken
  · exact words_terminated

/-- **Cutting and joining are inverse.** A text is cut into words, which are cut out again when they are joined; the
blanks at its ends do not matter, and nothing is left without them exactly if there are no words. A list of tokens is
cut out again when it is joined if and only if all of them are words: one that is empty is lost, and one with a blank
falls apart. -/
theorem words_and_terminated :
    (∀ text : String,
      (∀ token ∈ words text, token ≠ "" ∧ ∀ c ∈ token.toList, isBlank c = false) ∧
      words (terminated (words text)) = words text ∧
      words (trim text) = words text ∧
      (trim text = "" ↔ words text = [])) ∧
    ∀ tokens : List String,
      words (terminated tokens) = tokens ↔ ∀ token ∈ tokens, token ≠ "" ∧ ∀ c ∈ token.toList, isBlank c = false := by
  have hword (token : String) : IsWord token ↔ token ≠ "" ∧ ∀ c ∈ token.toList, isBlank c = false := by
    rw [IsWord, ne_eq, String.toList_eq_nil_iff]
  simp only [← hword]
  refine ⟨fun text => ⟨fun _ => isWord_of_mem_words, ?_, words_trim text, ?_⟩, fun _ => words_terminated_eq_iff⟩
  · exact words_terminated fun token => isWord_of_mem_words
  · rw [trim_eq_empty_iff, words_eq_nil_iff]

/-- Blanks of five sorts at the ends and in the middle; a zero-width space is no blank. A token with a blank and an
empty one do not survive. -/
theorem words_and_terminated_blanks :
    let text := "\u2003\t3\u200b \u00a0+\n"
    words text = ["3\u200b", "+"] ∧ (∀ c ∈ "3\u200b".toList, isBlank c = false) ∧
    words (terminated ["3\u200b", "+"]) = ["3\u200b", "+"] ∧
    words (terminated ["3 4"]) ≠ ["3 4"] ∧ words (terminated ["3", ""]) ≠ ["3", ""] := by
  intro text
  have hcut : words text = ["3\u200b", "+"] := by decide
  obtain ⟨htexts, hlists⟩ := words_and_terminated
  obtain ⟨hwords, hagain, -⟩ := htexts text
  rw [hcut] at hwords hagain
  refine ⟨hcut, (hwords "3\u200b" List.mem_cons_self).2, hagain, fun h => ?_, fun h => ?_⟩
  · obtain ⟨-, hblank⟩ := (hlists ["3 4"]).mp h "3 4" (List.mem_singleton_self _)
    exact absurd (hblank ' ' (by decide)) (by decide)
  · obtain ⟨hempty, -⟩ := (hlists ["3", ""]).mp h "" (by simp)
    exact hempty rfl

end Abacus.Text
