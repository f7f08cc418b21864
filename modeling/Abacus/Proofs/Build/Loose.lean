import Abacus.Proofs.Build.Grammar
import Abacus.Proofs.Build.Release

/-!
# The operator stack reads loose sentences

When the operator stack has read a phrase, a part of the postfix word of the phrase is released and the rest
waits on top of what was on the stack before. The waiting operators bind at least as tightly as the
phrase. So the next operator of a looser phrase, a closing parenthesis or the end releases all of them, and
nothing below. This is the invariant that ties the operator stack to a derivation.

Conversely, the tokens read without a fault are always loose sentences, one in each open group. Whatever
comes next and is no fault extends the innermost one, opens a group or closes it.

Results:
* `Reads.defers`: the invariant holds of every loose phrase.
* `Reads.snoc_operator`, `append_operands`: what may follow a loose phrase.
* `Nested.feed`: what one token does to the open groups.
* `Release.run_eq_iff_reads`: the operator stack releases a word without a fault iff the tokens are a loose
  sentence that reads as this word.
-/

namespace Abacus

/-- How tightly a phrase binds: the least rank of an operator that stands in it outside of parentheses. -/
def Phrase.rank : Phrase → Nat
  | sum => 0
  | product => 1
  | power => 2
  | sign => 3
  | operand => 4

namespace Release

/-! ## Moves of the operator stack -/

/-- Reading `xs` on one operator stack releases `word` and leaves another one. -/
def Moves (waiting xs word waiting' : List String) : Prop :=
  ∀ rest, run waiting (xs ++ rest) = (word ++ (run waiting' rest).1, (run waiting' rest).2)

theorem Moves.nil (waiting : List String) : Moves waiting [] [] waiting := by
  intro rest
  rfl

theorem Moves.append {waiting waiting' waiting'' xs ys us vs : List String}
    (hxs : Moves waiting xs us waiting') (hys : Moves waiting' ys vs waiting'') :
    Moves waiting (xs ++ ys) (us ++ vs) waiting'' := by
  intro rest
  rw [List.append_assoc, hxs, hys]
  simp

theorem Moves.of_feed {waiting waiting' word : List String} {token : String}
    (h : feed waiting token = .ok (word, waiting')) : Moves waiting [token] word waiting' := by
  intro rest
  rw [List.singleton_append, run, h]

/-! ## Which operators make way -/

/-- An operator on the stack is joined before another one arrives iff it binds more tightly, or as tightly
and to the left. -/
theorem yields_symbol_iff {op top : Operator} :
    yields op.symbol top.symbol = true ↔
      op.rank < top.rank ∨ op.rank = top.rank ∧ op.rank ≤ 1 := by
  simp only [yields, Shunt.waitsAbove, Token.precedence_symbol, Token.isRightAssociative_symbol,
    Bool.and_eq_true, bne_iff_ne, ne_eq, Token.symbol_ne_opening, not_false_eq_true, true_and,
    Bool.not_eq_true', Bool.or_eq_false_iff, Bool.and_eq_false_iff, decide_eq_false_iff_not,
    beq_eq_false_iff_ne]
  omega

theorem yields_opening (token : String) : yields token Token.opening = false := by
  simp [yields]

/-- Operators of rank `n` and more are pushed on this stack without joining anything. -/
def Admits (n : Nat) (waiting : List String) : Prop :=
  ∀ op : Operator, n ≤ op.rank → ∀ top ∈ waiting.head?, yields op.symbol top = false

theorem admits_nil (n : Nat) : Admits n [] := by
  simp [Admits]

theorem admits_opening (n : Nat) (waiting : List String) : Admits n (Token.opening :: waiting) := by
  simp [Admits, yields_opening]

theorem admits_symbol {n : Nat} {top : Operator} (h : top.rank < n ∨ top.rank = n ∧ 1 < n)
    (waiting : List String) : Admits n (top.symbol :: waiting) := by
  intro op hop top' htop'
  obtain rfl := Option.mem_some_iff.mp htop'
  rw [Bool.eq_false_iff, Ne, yields_symbol_iff]
  omega

theorem Admits.mono {n m : Nat} {waiting : List String} (h : Admits n waiting) (hnm : n ≤ m) :
    Admits m waiting :=
  fun op hop => h op (Nat.le_trans hnm hop)

/-- Operators of rank `n` and more, waiting on top of a stack. -/
def Pending (n : Nat) (pending : List String) : Prop :=
  ∀ top ∈ pending, ∃ op : Operator, top = op.symbol ∧ n ≤ op.rank

theorem Pending.mono {n m : Nat} {pending : List String} (h : Pending m pending) (hnm : n ≤ m) :
    Pending n pending := by
  intro top htop
  obtain ⟨op, rfl, hop⟩ := h top htop
  exact ⟨op, rfl, Nat.le_trans hnm hop⟩

theorem Pending.eq_nil {pending : List String} (h : Pending 4 pending) : pending = [] := by
  cases pending with
  | nil => rfl
  | cons top rest =>
    obtain ⟨op, -, hop⟩ := h top List.mem_cons_self
    have := op.rank_le_three
    omega

theorem Pending.inGroup {n : Nat} {pending : List String} (h : Pending n pending) :
    ∀ top ∈ pending, inGroup top = true := by
  intro top htop
  obtain ⟨op, rfl, -⟩ := h top htop
  simp [Release.inGroup, Token.symbol_ne_opening]

/-! ## A phrase on the operator stack -/

/-- Reading `xs` releases a part of the word `us`; the rest waits on top of the stack, in operators of rank
`n` and more. -/
def Defers (n : Nat) (waiting xs us : List String) : Prop :=
  ∃ word pending, us = word ++ pending ∧ Pending n pending ∧
    Moves waiting xs word (pending ++ waiting)

theorem moves_symbol {op : Operator} {waiting pending : List String}
    (hpending : ∀ top ∈ pending, yields op.symbol top = true)
    (hwaiting : ∀ top ∈ waiting.head?, yields op.symbol top = false) :
    Moves (pending ++ waiting) [op.symbol] pending (op.symbol :: waiting) := by
  have htake : waiting.takeWhile (yields op.symbol) = [] := by
    cases waiting with
    | nil => rfl
    | cons top rest => exact List.takeWhile_cons_of_neg (by simp [hwaiting top rfl])
  have hdrop : waiting.dropWhile (yields op.symbol) = waiting := by
    cases waiting with
    | nil => rfl
    | cons top rest => exact List.dropWhile_cons_of_neg (by simp [hwaiting top rfl])
  apply Moves.of_feed
  rw [feed_symbol, List.takeWhile_append_of_pos hpending, List.dropWhile_append_of_pos hpending, htake,
    hdrop, List.append_nil]

theorem moves_closing {waiting pending : List String}
    (hpending : ∀ top ∈ pending, inGroup top = true) :
    Moves (pending ++ Token.opening :: waiting) [Token.closing] pending waiting := by
  apply Moves.of_feed
  rw [feed_closing (by simp), List.takeWhile_append_of_pos hpending,
    List.dropWhile_append_of_pos hpending, List.takeWhile_cons_of_neg (by simp [inGroup]),
    List.dropWhile_cons_of_neg (by simp [inGroup]), List.append_nil, List.tail_cons]

/-- An operator between two phrases: it releases what the left one has left waiting, and waits itself
below what the right one leaves waiting. -/
theorem Defers.operator {op : Operator} {n nleft nright : Nat} {waiting xs ys us vs : List String}
    (hleft : Defers nleft waiting xs us) (hright : Defers nright (op.symbol :: waiting) ys vs)
    (hyields : ∀ top : Operator, nleft ≤ top.rank → yields op.symbol top.symbol = true)
    (hadmits : Admits n waiting) (hop : n ≤ op.rank) (hn : n ≤ nright) :
    Defers n waiting (xs ++ op.symbol :: ys) (us ++ vs ++ [op.symbol]) := by
  obtain ⟨wleft, pleft, rfl, hpleft, hmleft⟩ := hleft
  obtain ⟨wright, pright, rfl, hpright, hmright⟩ := hright
  have hall : ∀ top ∈ pleft, yields op.symbol top = true := by
    intro top htop
    obtain ⟨op', rfl, hop'⟩ := hpleft top htop
    exact hyields op' hop'
  have hmiddle := moves_symbol hall (hadmits op hop)
  refine ⟨wleft ++ (pleft ++ wright), pright ++ [op.symbol], by simp, ?_, ?_⟩
  · intro top htop
    rcases List.mem_append.mp htop with hin | hlast
    · exact (hpright.mono hn) top hin
    · obtain rfl := List.mem_singleton.mp hlast
      exact ⟨op, rfl, hop⟩
  · simpa using hmleft.append (hmiddle.append hmright)

/-- An operator that associates to the left stands between a phrase of its rank and a tighter one. -/
theorem Defers.leftAssociative {op : Operator} {n : Nat} {waiting xs ys us vs : List String} (hop : op.rank = n)
    (hn : n ≤ 1) (hleft : Admits n waiting → Defers n waiting xs us)
    (hright : ∀ waiting', Admits (n + 1) waiting' → Defers (n + 1) waiting' ys vs)
    (hadmits : Admits n waiting) : Defers n waiting (xs ++ op.symbol :: ys) (us ++ vs ++ [op.symbol]) := by
  have hwaits : Admits (n + 1) (op.symbol :: waiting) := admits_symbol (.inl (by omega)) waiting
  refine (hleft hadmits).operator (hright _ hwaits) ?_ hadmits (by omega) (by omega)
  intro top htop
  rw [yields_symbol_iff]
  omega

/-- An operator that associates to the right stands between a tighter phrase and one of its rank. -/
theorem Defers.rightAssociative {op : Operator} {n : Nat} {waiting xs ys us vs : List String} (hop : op.rank = n)
    (hn : 1 < n) (hleft : Admits (n + 1) waiting → Defers (n + 1) waiting xs us)
    (hright : ∀ waiting', Admits n waiting' → Defers n waiting' ys vs)
    (hadmits : Admits n waiting) : Defers n waiting (xs ++ op.symbol :: ys) (us ++ vs ++ [op.symbol]) := by
  have hwaits : Admits n (op.symbol :: waiting) := admits_symbol (.inr ⟨hop, hn⟩) waiting
  refine (hleft (hadmits.mono (by omega))).operator (hright _ hwaits) ?_ hadmits (by omega) (by omega)
  intro top htop
  rw [yields_symbol_iff]
  omega

theorem Defers.mono {n m : Nat} {waiting xs us : List String} (h : Defers m waiting xs us)
    (hnm : n ≤ m) : Defers n waiting xs us := by
  obtain ⟨word, pending, hus, hpending, hmoves⟩ := h
  exact ⟨word, pending, hus, hpending.mono hnm, hmoves⟩

/-- A row of operands leaves nothing waiting. -/
theorem Defers.moves {waiting xs us : List String} (h : Defers 4 waiting xs us) :
    Moves waiting xs us waiting := by
  obtain ⟨word, pending, rfl, hpending, hmoves⟩ := h
  obtain rfl := hpending.eq_nil
  simpa using hmoves

theorem Moves.defers {waiting xs us : List String} (h : Moves waiting xs us waiting) (n : Nat) :
    Defers n waiting xs us :=
  ⟨us, [], by simp, by simp [Pending], by simpa using h⟩

/-- A group releases its whole word when it is closed. -/
theorem Defers.group {n : Nat} {waiting ys vs : List String}
    (h : Defers n (Token.opening :: waiting) ys vs) :
    Moves waiting (Token.opening :: ys ++ [Token.closing]) vs waiting := by
  obtain ⟨word, pending, rfl, hpending, hmoves⟩ := h
  have hopen : Moves waiting [Token.opening] [] (Token.opening :: waiting) :=
    .of_feed (feed_opening waiting)
  simpa using hopen.append (hmoves.append (moves_closing hpending.inGroup))

end Release

/-- **The invariant of the operator stack.** A loose phrase releases its word but for operators that bind at
least as tightly as the phrase. -/
theorem Reads.defers {phrase : Phrase} {xs us : List String} (h : Reads phrase xs us) :
    ∀ waiting : List String, Release.Admits phrase.rank waiting →
      Release.Defers phrase.rank waiting xs us := by
  induction h with
  | sum hop _ _ ihl ihr =>
    intro waiting hadmits
    exact .leftAssociative (Operator.rank_eq_zero_iff.mpr hop) (Nat.zero_le 1) (ihl waiting) ihr hadmits
  | product hop _ _ ihl ihr =>
    intro waiting hadmits
    exact .leftAssociative (Operator.rank_eq_one_iff.mpr hop) (Nat.le_refl 1) (ihl waiting) ihr hadmits
  | power _ _ ihl ihr =>
    intro waiting hadmits
    exact .rightAssociative (Operator.rank_eq_two_iff.mpr rfl) (by decide) (ihl waiting) ihr hadmits
  | negation _ _ ihl ihr =>
    intro waiting hadmits
    exact .rightAssociative (Operator.rank_eq_three_iff.mpr rfl) (by decide) (ihl waiting) ihr hadmits
  | nothing =>
    intro waiting _
    exact (Release.Moves.nil waiting).defers _
  | numeral _ hnum ih =>
    intro waiting hadmits
    exact ((ih waiting hadmits).moves.append (.of_feed (Release.feed_numeral hnum waiting))).defers _
  | group _ _ ihbefore ih =>
    intro waiting hadmits
    have hgroup := (ih _ (Release.admits_opening _ waiting)).group
    have hmoves := (ihbefore waiting hadmits).moves.append hgroup
    rw [List.append_assoc]
    exact hmoves.defers _
  | ofProduct _ ih | ofPower _ ih | ofSign _ ih | ofOperand _ ih =>
    intro waiting hadmits
    exact (ih waiting (hadmits.mono (by simp [Phrase.rank]))).mono (by simp [Phrase.rank])

/-- A loose sentence is released without a fault, as the word that it reads as. -/
theorem Reads.run_eq {xs us : List String} (h : Reads .sum xs us) : Release.run [] xs = (us, none) := by
  obtain ⟨word, pending, rfl, hpending, hmoves⟩ := h.defers [] (Release.admits_nil _)
  have hopen : Token.opening ∉ pending := by
    intro hmem
    simpa [Release.inGroup] using hpending.inGroup _ hmem
  have htake : pending.takeWhile Release.inGroup = pending := by
    simpa using @List.takeWhile_append_of_pos _ _ pending [] hpending.inGroup
  simpa [Release.run, hopen, htake] using hmoves []

/-! ## Growing a loose phrase -/

namespace Reads

/-- An operator may follow a loose phrase that binds at most as tightly. It ends the parts that bind more
tightly and starts a new phrase, so far of no tokens, to its right. -/
theorem snoc_operator {phrase : Phrase} {xs us : List String} (h : Reads phrase xs us) {op : Operator}
    (hop : phrase.rank ≤ op.rank) : ∃ vs, Reads phrase (xs ++ [op.symbol]) vs := by
  induction h with
  | @sum op' xs ys us vs hop' hleft hright _ ih =>
    by_cases hzero : op.rank = 0
    · exact ⟨_, .sum (Operator.rank_eq_zero_iff.mp hzero) (.sum hop' hleft hright) (.nil _)⟩
    · obtain ⟨ws, hws⟩ := ih (by simp only [Phrase.rank]; omega)
      exact ⟨_, by simpa using Reads.sum hop' hleft hws⟩
  | @product op' xs ys us vs hop' hleft hright _ ih =>
    by_cases hone : op.rank = 1
    · exact ⟨_, .product (Operator.rank_eq_one_iff.mp hone) (.product hop' hleft hright) (.nil _)⟩
    · obtain ⟨ws, hws⟩ := ih (by simp only [Phrase.rank] at hop ⊢; omega)
      exact ⟨_, by simpa using Reads.product hop' hleft hws⟩
  | @power xs ys us vs hleft hright _ ih =>
    obtain ⟨ws, hws⟩ := ih hop
    exact ⟨_, by simpa using Reads.power hleft hws⟩
  | @negation xs ys us vs hbefore hsign _ ih =>
    obtain ⟨ws, hws⟩ := ih hop
    exact ⟨_, by simpa using Reads.negation hbefore hws⟩
  | nothing | numeral | group =>
    have := op.rank_le_three
    simp only [Phrase.rank] at hop
    omega
  | @ofProduct xs us hproduct ih =>
    by_cases hzero : op.rank = 0
    · exact ⟨_, .sum (Operator.rank_eq_zero_iff.mp hzero) (.ofProduct hproduct) (.nil _)⟩
    · obtain ⟨ws, hws⟩ := ih (by simp only [Phrase.rank]; omega)
      exact ⟨ws, .ofProduct hws⟩
  | @ofPower xs us hpower ih =>
    by_cases hone : op.rank = 1
    · exact ⟨_, .product (Operator.rank_eq_one_iff.mp hone) (.ofPower hpower) (.nil _)⟩
    · obtain ⟨ws, hws⟩ := ih (by simp only [Phrase.rank] at hop ⊢; omega)
      exact ⟨ws, .ofPower hws⟩
  | @ofSign xs us hsign ih =>
    by_cases htwo : op.rank = 2
    · obtain rfl := Operator.rank_eq_two_iff.mp htwo
      exact ⟨_, .power hsign (.nil _)⟩
    · obtain ⟨ws, hws⟩ := ih (by simp only [Phrase.rank] at hop ⊢; omega)
      exact ⟨ws, .ofSign hws⟩
  | @ofOperand xs us hoperand _ =>
    have hthree : op.rank = 3 := Nat.le_antisymm op.rank_le_three hop
    obtain rfl := Operator.rank_eq_three_iff.mp hthree
    exact ⟨_, .negation hoperand (.nil _)⟩

/-- Two rows of operands make one. -/
theorem append_operand {xs ys us vs : List String} (hxs : Reads .operand xs us)
    (hys : Reads .operand ys vs) : Reads .operand (xs ++ ys) (us ++ vs) := by
  generalize hphrase : Phrase.operand = phrase at hys
  induction hys with
  | nothing => simpa using hxs
  | numeral _ hnum ih => simpa using (ih hphrase).numeral hnum
  | group _ hys ih _ => simpa using (ih hphrase).group hys
  | _ => cases hphrase

/-- Operands may follow every loose phrase. -/
theorem append_operands {phrase : Phrase} {xs us : List String} (h : Reads phrase xs us)
    {zs ws : List String} (hzs : Reads .operand zs ws) : ∃ vs, Reads phrase (xs ++ zs) vs := by
  induction h with
  | sum hop hleft _ _ ih =>
    obtain ⟨vs, hvs⟩ := ih
    exact ⟨_, by simpa using Reads.sum hop hleft hvs⟩
  | product hop hleft _ _ ih =>
    obtain ⟨vs, hvs⟩ := ih
    exact ⟨_, by simpa using Reads.product hop hleft hvs⟩
  | power hleft _ _ ih =>
    obtain ⟨vs, hvs⟩ := ih
    exact ⟨_, by simpa using Reads.power hleft hvs⟩
  | negation hbefore _ _ ih =>
    obtain ⟨vs, hvs⟩ := ih
    exact ⟨_, by simpa using Reads.negation hbefore hvs⟩
  | nothing => exact ⟨_, append_operand .nothing hzs⟩
  | numeral hbefore hnum => exact ⟨_, (hbefore.numeral hnum).append_operand hzs⟩
  | group hbefore hys => exact ⟨_, (hbefore.group hys).append_operand hzs⟩
  | ofProduct _ ih =>
    obtain ⟨vs, hvs⟩ := ih
    exact ⟨vs, .ofProduct hvs⟩
  | ofPower _ ih =>
    obtain ⟨vs, hvs⟩ := ih
    exact ⟨vs, .ofPower hvs⟩
  | ofSign _ ih =>
    obtain ⟨vs, hvs⟩ := ih
    exact ⟨vs, .ofSign hvs⟩
  | ofOperand _ ih =>
    obtain ⟨vs, hvs⟩ := ih
    exact ⟨vs, .ofOperand hvs⟩

end Reads

/-! ## Runs without a fault -/

/-- The tokens are loose sentences inside each other: `depth` groups are still open, and a loose sentence
stands in each of them and before the outermost. -/
inductive Nested : Nat → List String → Prop
  | outside {xs us : List String} (h : Reads .sum xs us) : Nested 0 xs
  | inside {depth : Nat} {xs ys us : List String} (houter : Nested depth xs) (h : Reads .sum ys us) :
    Nested (depth + 1) (xs ++ Token.opening :: ys)

namespace Nested

/-- What may follow every loose sentence may follow in the innermost open group. -/
theorem grow {depth : Nat} {xs zs : List String} (h : Nested depth xs)
    (hgrow : ∀ {ys us : List String}, Reads .sum ys us → ∃ vs, Reads .sum (ys ++ zs) vs) :
    Nested depth (xs ++ zs) := by
  cases h with
  | outside h =>
    obtain ⟨vs, hvs⟩ := hgrow h
    exact .outside hvs
  | inside houter h =>
    obtain ⟨vs, hvs⟩ := hgrow h
    simpa using inside houter hvs

theorem opening {depth : Nat} {xs : List String} (h : Nested depth xs) :
    Nested (depth + 1) (xs ++ [Token.opening]) :=
  inside h (.nil _)

theorem closing {depth : Nat} {xs : List String} (h : Nested (depth + 1) xs) :
    Nested depth (xs ++ [Token.closing]) := by
  cases h with
  | @inside _ xs ys us houter h =>
    have hgroup : Reads .operand (Token.opening :: ys ++ [Token.closing]) us :=
      Reads.nothing.group h
    simpa using houter.grow fun hys => hys.append_operands hgroup

end Nested

namespace Release

/-- Popping operators leaves all open parentheses on the stack. -/
theorem count_opening_dropWhile {p : String → Bool} (hp : p Token.opening = false)
    (waiting : List String) :
    (waiting.dropWhile p).count Token.opening = waiting.count Token.opening := by
  induction waiting with
  | nil => rfl
  | cons top rest ih =>
    by_cases h : p top = true
    · have hne : top ≠ Token.opening := by
        rintro rfl
        simp [hp] at h
      rw [List.dropWhile_cons_of_pos h, ih, List.count_cons_of_ne hne]
    · rw [List.dropWhile_cons_of_neg h]

/-- Closing a group takes one open parenthesis from the stack. -/
theorem count_opening_tail {waiting : List String} (h : Token.opening ∈ waiting) :
    waiting.count Token.opening = (waiting.dropWhile inGroup).tail.count Token.opening + 1 := by
  rw [← count_opening_dropWhile (p := inGroup) (by simp [inGroup]) waiting]
  cases hdrop : waiting.dropWhile inGroup with
  | nil => exact absurd h (dropWhile_inGroup_eq_nil_iff.mp hdrop)
  | cons top rest =>
    have hout : inGroup top = false := by
      have := List.head?_dropWhile_not inGroup waiting
      simpa [hdrop] using this
    have htop : top = Token.opening := by simpa [inGroup] using hout
    simp [htop]

end Release

/-- One token keeps the sentences nested as deeply as parentheses are open on the operator stack. -/
theorem Nested.feed {waiting waiting' xs word : List String} {token : String}
    (h : Nested (waiting.count Token.opening) xs)
    (hfeed : Release.feed waiting token = .ok (word, waiting')) :
    Nested (waiting'.count Token.opening) (xs ++ [token]) := by
  rcases Release.feed_eq_ok_cases hfeed with
    ⟨hnum, -, rfl⟩ | ⟨op, rfl, -, rfl⟩ | ⟨rfl, -, rfl⟩ | ⟨rfl, hopen, -, rfl⟩
  · exact h.grow fun hys => hys.append_operands (Reads.nothing.numeral hnum)
  · rw [List.count_cons_of_ne (Token.symbol_ne_opening op),
      Release.count_opening_dropWhile (Release.yields_opening _)]
    exact h.grow fun hys => hys.snoc_operator (Nat.zero_le _)
  · rw [List.count_cons_self]
    exact h.opening
  · rw [Release.count_opening_tail hopen] at h
    exact h.closing

/-- A run that meets no fault completes a loose sentence. -/
theorem Nested.run {waiting xs tokens : List String} (h : Nested (waiting.count Token.opening) xs)
    (hrun : (Release.run waiting tokens).2 = none) : ∃ us, Reads .sum (xs ++ tokens) us := by
  induction tokens generalizing waiting xs with
  | nil =>
    have hopen : Token.opening ∉ waiting := by
      intro hmem
      simp [Release.run, hmem] at hrun
    rw [List.count_eq_zero_of_not_mem hopen] at h
    cases h with
    | @outside _ us h => exact ⟨us, by simpa using h⟩
  | cons token tokens ih =>
    rw [Release.run] at hrun
    cases hfeed : Release.feed waiting token with
    | error e => simp [hfeed] at hrun
    | ok released =>
      rw [hfeed] at hrun
      simpa using ih (h.feed hfeed) hrun

/-- **Loose sentences are what the operator stack reads.** It releases a word without a fault iff the
tokens are a loose sentence that reads as this word. -/
theorem Release.run_eq_iff_reads {tokens word : List String} :
    Release.run [] tokens = (word, none) ↔ Reads .sum tokens word := by
  constructor
  · intro hrun
    have hstart : Nested (([] : List String).count Token.opening) [] := .outside (.nil .sum)
    obtain ⟨us, hus⟩ := hstart.run (congrArg Prod.snd hrun)
    have hword : us = word := congrArg Prod.fst (hus.run_eq.symm.trans hrun)
    exact hword ▸ hus
  · exact Reads.run_eq

end Abacus
