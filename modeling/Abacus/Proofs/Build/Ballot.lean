import Abacus.Proofs.Build.Conservation

/-!
# Postfix words read by the infix builder

In a postfix word every prefix has more numerals than binary operators, as votes in a ballot that one side leads from
the first vote on. The infix builder joins the operators of such a word later than the postfix builder would, and in
another order, and still finds the operands of each: an operator waits, and the lead it would have used up is kept
with it.

Results:
* `Tree.IsExpression.countP_lt_of_isPrefix`: the lead of the numerals in a postfix word.
* `Leads.settle_run`: what the operator stack releases settles, as long as the numerals lead.
* `Tree.IsExpression.readInfix_postfixTokens`: the infix builder makes a tree of every postfix word, with the same
  leaves and operators.
-/

namespace Abacus

/-! ## Counting tokens -/

section Counts

variable {literal : String} (hnum : Token.isNumeral literal = true) (op : Operator) (tokens : List String)
include hnum

theorem countP_isNumeral_numeral_cons :
    (literal :: tokens).countP Token.isNumeral = tokens.countP Token.isNumeral + 1 :=
  List.countP_cons_of_pos hnum

theorem countP_isBinary_numeral_cons :
    (literal :: tokens).countP Token.isBinary = tokens.countP Token.isBinary :=
  List.countP_cons_of_neg (by simp [Token.isBinary_of_isNumeral hnum])

omit hnum

theorem countP_isNumeral_symbol_cons :
    (op.symbol :: tokens).countP Token.isNumeral = tokens.countP Token.isNumeral :=
  List.countP_cons_of_neg (by simp)

/-- An operator counts for the operands that it takes beyond the first. -/
theorem countP_isBinary_symbol_cons :
    (op.symbol :: tokens).countP Token.isBinary = tokens.countP Token.isBinary + (op.arity - 1) := by
  rw [List.countP_cons, Token.isBinary_symbol]
  rcases op.arity_eq_one_or_two with h | h <;> simp [h]

theorem countP_takeWhile_add_dropWhile (p q : String → Bool) :
    (tokens.takeWhile p).countP q + (tokens.dropWhile p).countP q = tokens.countP q := by
  rw [← List.countP_append, List.takeWhile_append_dropWhile]

end Counts

/-! ## The lead of the numerals -/

theorem countP_isNumeral_spelling {stack : List Tree} (h : AllExpressions stack) :
    (spelling stack).countP Token.isNumeral = (spelling stack).countP Token.isBinary + stack.length := by
  have hrev : AllExpressions stack.reverse := fun t ht => h t (List.mem_reverse.mp ht)
  simpa [spelling] using countP_isNumeral_flatMap hrev

/-- In every prefix of a postfix word, numerals are more than binary operators. The prefix settles to a stack of
trees, and each tree of the stack adds one to the lead. -/
theorem Tree.IsExpression.countP_lt_of_isPrefix {t : Tree} (h : t.IsExpression) {xs : List String} (hne : xs ≠ [])
    (hbegin : xs <+: t.postfixTokens) : xs.countP Token.isBinary < xs.countP Token.isNumeral := by
  obtain ⟨ys, hsplit⟩ := hbegin
  have hsettles : settle [] (xs ++ ys) = some [t] := by
    rw [hsplit]
    exact settle_postfixTokens h []
  rw [settle_append, Option.bind_eq_some_iff] at hsettles
  obtain ⟨stack, hxs, -⟩ := hsettles
  obtain ⟨hstack, rfl⟩ := settle_nil_eq_some_iff.mp hxs
  have hcount := countP_isNumeral_spelling hstack
  have hpos : 0 < stack.length := by
    rw [List.length_pos_iff]
    rintro rfl
    exact hne rfl
  omega

/-! ## Settling operators alone -/

/-- Joining takes as many trees as the operator needs and gives one back. -/
theorem join_length {op : Operator} {trees rest : List Tree} {t : Tree} (h : join op trees = some (t, rest)) :
    rest.length + op.arity = trees.length := by
  rcases join_eq_some_cases h with ⟨right, hop, rfl, -⟩ | ⟨left, right, hop, rfl, -⟩ <;> simp [hop]

/-- Operator symbols settle on a stack that holds more trees than there are binary ones among them, and each of these
costs one tree. -/
theorem settle_operators {ops : List String} (hops : ∀ op ∈ ops, Token.isOperator op = true) (stack : List Tree)
    (hlen : ops.countP Token.isBinary < stack.length) :
    ∃ stack', settle stack ops = some stack' ∧ stack'.length + ops.countP Token.isBinary = stack.length := by
  induction ops generalizing stack with
  | nil => exact ⟨stack, rfl, rfl⟩
  | cons token ops ih =>
    obtain ⟨htoken, hrest⟩ := List.forall_mem_cons.mp hops
    obtain ⟨op, rfl⟩ := Token.isOperator_iff.mp htoken
    have harity : op.arity = 1 ∨ op.arity = 2 := op.arity_eq_one_or_two
    rw [countP_isBinary_symbol_cons] at hlen ⊢
    have hfound : join op stack ≠ none := by
      rw [Ne, join_eq_none_iff]
      omega
    obtain ⟨⟨t, rest⟩, hjoin⟩ := Option.ne_none_iff_exists'.mp hfound
    have hlength := join_length hjoin
    have hshort : ops.countP Token.isBinary < (t :: rest).length := by
      rw [List.length_cons]
      omega
    obtain ⟨stack', hsettle, hcount⟩ := ih hrest (t :: rest) hshort
    refine ⟨stack', ?_, ?_⟩
    · rw [settle_cons, settleToken_symbol, hjoin]
      exact hsettle
    · rw [List.length_cons] at hcount
      omega

/-! ## Releasing and settling -/

/-- With `held` trees on the stack and some operators waiting, the numerals still to come keep ahead of all binary
operators, whenever one stops. -/
def Leads (waiting : List String) (held : Nat) (tokens : List String) : Prop :=
  ∀ xs, xs <+: tokens →
    waiting.countP Token.isBinary + xs.countP Token.isBinary < held + xs.countP Token.isNumeral

namespace Leads

variable {waiting tokens : List String} {held : Nat}

theorem countP_waiting (h : Leads waiting held tokens) : waiting.countP Token.isBinary < held := by
  simpa using h [] List.nil_prefix

/-- A numeral adds a tree. -/
theorem numeral {token : String} (hnum : Token.isNumeral token = true) (h : Leads waiting held (token :: tokens)) :
    Leads waiting (held + 1) tokens := by
  intro xs hxs
  have hstep := h (token :: xs) (List.cons_prefix_cons.mpr ⟨rfl, hxs⟩)
  rw [countP_isBinary_numeral_cons hnum, countP_isNumeral_numeral_cons hnum] at hstep
  omega

/-- An operator waits, and what yields to it costs the trees that its binary operators take. -/
theorem operator {op : Operator} (p : String → Bool) (h : Leads waiting held (op.symbol :: tokens)) {left : Nat}
    (hleft : left + (waiting.takeWhile p).countP Token.isBinary = held) :
    Leads (op.symbol :: waiting.dropWhile p) left tokens := by
  intro xs hxs
  have hstep := h (op.symbol :: xs) (List.cons_prefix_cons.mpr ⟨rfl, hxs⟩)
  have hsplit := countP_takeWhile_add_dropWhile waiting p Token.isBinary
  rw [countP_isBinary_symbol_cons, countP_isNumeral_symbol_cons] at hstep
  rw [countP_isBinary_symbol_cons]
  omega

/-- As long as the numerals lead, all that the operator stack releases settles, and no token is at fault. What is
left on the stack is the lead at the end. -/
theorem settle_run (hwait : ∀ top ∈ waiting, Token.isOperator top = true)
    (htokens : ∀ token ∈ tokens, Settles token) (stack : List Tree)
    (h : Leads waiting stack.length tokens) :
    ∃ word stack', Release.run waiting tokens = (word, none) ∧ settle stack word = some stack' ∧
      stack'.length + waiting.countP Token.isBinary + tokens.countP Token.isBinary =
        stack.length + tokens.countP Token.isNumeral := by
  induction tokens generalizing waiting stack with
  | nil =>
    have hopen : Token.opening ∉ waiting := fun hmem => by simpa using hwait _ hmem
    have hall : waiting.takeWhile Release.inGroup = waiting := by
      have hsplit := List.takeWhile_append_dropWhile (p := Release.inGroup) (l := waiting)
      rw [Release.dropWhile_inGroup_eq_nil_iff.mpr hopen, List.append_nil] at hsplit
      exact hsplit
    obtain ⟨stack', hsettle, hcount⟩ := settle_operators hwait stack h.countP_waiting
    refine ⟨waiting, stack', ?_, hsettle, ?_⟩
    · rw [Release.run, hall]
      simp [hopen]
    · simpa using hcount
  | cons token tokens ih =>
    obtain ⟨htoken, hrest⟩ := List.forall_mem_cons.mp htokens
    rcases htoken with hnum | hop
    · obtain ⟨word, stack', hrun, hsettle, hcount⟩ :=
        ih hwait hrest (.operand token :: stack) (h.numeral hnum)
      refine ⟨token :: word, stack', ?_, ?_, ?_⟩
      · simp [Release.run, Release.feed_numeral hnum, hrun]
      · rw [settle_cons, settleToken_numeral hnum]
        exact hsettle
      · rw [countP_isBinary_numeral_cons hnum, countP_isNumeral_numeral_cons hnum]
        rw [List.length_cons] at hcount
        omega
    · obtain ⟨op, rfl⟩ := Token.isOperator_iff.mp hop
      let p := Release.yields op.symbol
      have hsplit := countP_takeWhile_add_dropWhile waiting p Token.isBinary
      have hreleased : ∀ top ∈ waiting.takeWhile p, Token.isOperator top = true :=
        fun top htop => hwait top (List.takeWhile_subset _ htop)
      have hkept : ∀ top ∈ op.symbol :: waiting.dropWhile p, Token.isOperator top = true := by
        refine List.forall_mem_cons.mpr ⟨hop, fun top htop => ?_⟩
        exact hwait top (List.dropWhile_subset _ htop)
      have hlead := h.countP_waiting
      obtain ⟨middle, hmiddle, hcost⟩ := settle_operators hreleased stack (by omega)
      obtain ⟨word, stack', hrun, hsettle, hcount⟩ := ih hkept hrest middle (h.operator p hcost)
      refine ⟨waiting.takeWhile p ++ word, stack', ?_, ?_, ?_⟩
      · rw [Release.run, Release.feed_symbol]
        simp only [hrun, p]
      · rw [settle_append, hmiddle]
        exact hsettle
      · rw [countP_isBinary_symbol_cons] at hcount
        rw [countP_isBinary_symbol_cons, countP_isNumeral_symbol_cons]
        omega

end Leads

/-! ## Postfix words -/

namespace Tree.IsExpression

theorem settles_postfixTokens {t : Tree} (h : t.IsExpression) : ∀ token ∈ t.postfixTokens, Settles token := by
  induction h with
  | operand hnum => simp [Settles, hnum]
  | unary _ _ ih =>
    rw [postfixTokens_unary, List.forall_mem_append]
    exact ⟨ih, by simp [Settles]⟩
  | binary _ _ _ ihl ihr =>
    rw [postfixTokens_binary, List.forall_mem_append, List.forall_mem_append]
    exact ⟨⟨ihl, ihr⟩, by simp [Settles]⟩

/-- A postfix word starts with a numeral, and behind it the numerals keep their lead. -/
theorem postfixTokens_eq_cons {t : Tree} (h : t.IsExpression) :
    ∃ literal tokens, t.postfixTokens = literal :: tokens ∧ Token.isNumeral literal = true ∧
      Leads [] 1 tokens := by
  cases hword : t.postfixTokens with
  | nil =>
    have hcount := h.countP_isNumeral
    rw [hword] at hcount
    simp at hcount
  | cons literal tokens =>
    have hlead : ∀ xs, xs <+: tokens →
        (literal :: xs).countP Token.isBinary < (literal :: xs).countP Token.isNumeral := by
      intro xs hxs
      apply h.countP_lt_of_isPrefix (List.cons_ne_nil literal xs)
      rw [hword]
      exact List.cons_prefix_cons.mpr ⟨rfl, hxs⟩
    have hnum : Token.isNumeral literal = true := by
      by_contra hnot
      have hfirst := hlead [] List.nil_prefix
      simp [hnot] at hfirst
    refine ⟨literal, tokens, rfl, hnum, fun xs hxs => ?_⟩
    have hstep := hlead xs hxs
    rw [countP_isBinary_numeral_cons hnum, countP_isNumeral_numeral_cons hnum] at hstep
    rw [List.countP_nil]
    omega

/-- The infix builder makes a tree of every postfix word. -/
theorem exists_readInfix_postfixTokens {t : Tree} (h : t.IsExpression) :
    ∃ t', (readInfix t.postfixTokens).result = .ok t' := by
  obtain ⟨literal, tokens, hword, hnum, hleads⟩ := h.postfixTokens_eq_cons
  have htokens : ∀ token ∈ tokens, Settles token := fun token hmem =>
    h.settles_postfixTokens token (hword ▸ List.mem_cons_of_mem literal hmem)
  obtain ⟨word, stack, hrun, hsettle, hcount⟩ :=
    Leads.settle_run (fun _ hmem => absurd hmem List.not_mem_nil) htokens [.operand literal] hleads
  have hbalance : tokens.countP Token.isNumeral = tokens.countP Token.isBinary := by
    have hwhole := h.countP_isNumeral
    rw [hword, countP_isBinary_numeral_cons hnum, countP_isNumeral_numeral_cons hnum] at hwhole
    omega
  obtain ⟨t', rfl⟩ : ∃ t', stack = [t'] := by
    apply List.length_eq_one_iff.mp
    simp only [List.countP_nil, List.length_singleton] at hcount
    omega
  refine ⟨t', readInfix_eq_ok_iff.mpr ?_⟩
  have hfull : Release.run [] t.postfixTokens = (literal :: word, none) := by
    rw [hword, Release.run, Release.feed_numeral hnum]
    simp only [hrun, List.singleton_append]
  rw [hfull]
  refine ⟨rfl, ?_⟩
  rw [settle_cons, settleToken_numeral hnum]
  exact hsettle

/-- The tree has the numerals of the word as its leaves, in their order, and the operators of the word. -/
theorem readInfix_postfixTokens {t : Tree} (h : t.IsExpression) :
    ∃ t', (readInfix t.postfixTokens).result = .ok t' ∧ t'.leaves = t.leaves ∧
      t'.operatorTokens.Perm t.operatorTokens := by
  obtain ⟨t', hread⟩ := h.exists_readInfix_postfixTokens
  obtain ⟨ht', hreads⟩ := readInfix_eq_ok_iff_reads.mp hread
  refine ⟨t', hread, ?_, ?_⟩
  · calc t'.leaves = t'.postfixTokens.filter Token.isNumeral := ht'.filter_isNumeral.symm
      _ = t.postfixTokens.filter Token.isNumeral := hreads.filter_isNumeral
      _ = t.leaves := h.filter_isNumeral
  · have hsame : (t'.postfixTokens.filter Token.isOperator).Perm (t.postfixTokens.filter Token.isOperator) :=
      hreads.filter_perm fun _ => Token.isGrouping_of_isOperator
    exact (ht'.filter_isOperator.symm.trans hsame).trans h.filter_isOperator

end Tree.IsExpression

end Abacus
