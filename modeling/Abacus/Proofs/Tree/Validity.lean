import Abacus.Proofs.Build.RoundTrip
import Abacus.Proofs.Tree.Identity
import Abacus.Proofs.Value.Evaluate
import Abacus.Tree.Sketch

/-!
# What the check of the links promises

The check of a tree looks at one node after another. The operations of a tree rely on more than one node: a size on
those of the links, a value on theirs, and the postfix form on the order of the tokens. A tree that passes the check is
a term if its operator nodes came from their constructors, whatever happened to their links since, and on terms no
operation lacks an operand.

Results:
* `Sketch.exists_toTree_iff`: the trees made by hand without replaced tokens are those whose operator nodes have tokens
  that the constructors accept.
* `Tree.Linked.answers`: every request to a node of a tree that lacks no link has an answer, at any time.
* `Tree.isWellFormed_sound`: what holds of every tree made by hand that passes the check.
-/

namespace Abacus

open Memo

/-! ## Trees made by hand -/

namespace Sketch

/-- No token is replaced after the constructor has checked it. -/
inductive KeepsTokens : Sketch → Prop
  | missing : KeepsTokens missing
  | operand {literal : String} {left right : Sketch} (hleft : KeepsTokens left) (hright : KeepsTokens right) :
    KeepsTokens (operand literal left right none)
  | binary {symbol : String} {left right : Sketch} (hleft : KeepsTokens left) (hright : KeepsTokens right) :
    KeepsTokens (binary symbol left right none)
  | unary {symbol : String} {left inner : Sketch} (hleft : KeepsTokens left) (hinner : KeepsTokens inner) :
    KeepsTokens (unary symbol left inner none)
  | operator {symbol : String} {operands : List Sketch} (h : ∀ sketch ∈ operands, KeepsTokens sketch) :
    KeepsTokens (operator symbol operands)

theorem exists_of_mem_toTrees {sketches : List Sketch} {trees : List Tree} (h : toTrees sketches = .ok trees) :
    ∀ t ∈ trees, ∃ sketch ∈ sketches, sketch.toTree = .ok t := by
  induction sketches generalizing trees with
  | nil =>
    cases h
    exact fun t ht => absurd ht List.not_mem_nil
  | cons sketch rest ih =>
    rw [toTrees] at h
    obtain ⟨first, hfirst, h⟩ := bind_eq_ok_iff.mp h
    obtain ⟨others, hothers, h⟩ := bind_eq_ok_iff.mp h
    cases h
    rw [List.forall_mem_cons]
    refine ⟨⟨sketch, List.mem_cons_self, hfirst⟩, fun t ht => ?_⟩
    obtain ⟨other, hother, hmade⟩ := ih hothers t ht
    exact ⟨other, List.mem_cons_of_mem _ hother, hmade⟩

end Sketch

namespace Tree

theorem unary?_eq_ok_iff {symbol : String} {operand t : Tree} :
    unary? symbol operand = .ok t ↔ Token.isUnary symbol = true ∧ unary symbol operand = t := by
  rw [unary?]
  split <;> simp [*]

theorem binary?_eq_ok_iff {symbol : String} {left right t : Tree} :
    binary? symbol left right = .ok t ↔ Token.isBinary symbol = true ∧ binary symbol left right = t := by
  rw [binary?]
  split <;> simp [*]

/-- An operator node is made of its operands by a constructor. -/
theorem Constructed.ofOperands {symbol : String} {operands : List Tree} {t : Tree}
    (h : ∀ operand ∈ operands, operand.Constructed) (hmade : ofOperands symbol operands = .ok t) : t.Constructed := by
  unfold Tree.ofOperands at hmade
  split at hmade
  · split at hmade
    · obtain ⟨hsymbol, rfl⟩ := unary?_eq_ok_iff.mp hmade
      exact ⟨Kind.noConfusion, fun _ => hsymbol, trivial, h _ List.mem_cons_self⟩
    · cases hmade
  · split at hmade
    · obtain ⟨hsymbol, rfl⟩ := binary?_eq_ok_iff.mp hmade
      rw [List.forall_mem_cons, List.forall_mem_singleton] at h
      exact ⟨fun _ => hsymbol, Kind.noConfusion, h.1, h.2⟩
    · cases hmade

end Tree

namespace Sketch

/-- The constructors check the tokens of operator nodes, and these stay. -/
theorem KeepsTokens.constructed {sketch : Sketch} {t : Tree} (h : sketch.KeepsTokens)
    (hmade : sketch.toTree = .ok t) : t.Constructed := by
  induction h generalizing t with
  | missing =>
    cases hmade
    trivial
  | operand _ _ ihl ihr =>
    rw [toTree] at hmade
    obtain ⟨left, hleft, hmade⟩ := bind_eq_ok_iff.mp hmade
    obtain ⟨right, hright, hmade⟩ := bind_eq_ok_iff.mp hmade
    cases hmade
    exact ⟨Kind.noConfusion, Kind.noConfusion, ihl hleft, ihr hright⟩
  | binary _ _ ihl ihr =>
    rw [toTree] at hmade
    obtain ⟨checked, hchecked, hmade⟩ := bind_eq_ok_iff.mp hmade
    obtain ⟨left, hleft, hmade⟩ := bind_eq_ok_iff.mp hmade
    obtain ⟨right, hright, hmade⟩ := bind_eq_ok_iff.mp hmade
    cases hmade
    exact ⟨fun _ => (Tree.binary?_eq_ok_iff.mp hchecked).1, Kind.noConfusion, ihl hleft, ihr hright⟩
  | unary _ _ ihl ihr =>
    rw [toTree] at hmade
    obtain ⟨inner, hinner, hmade⟩ := bind_eq_ok_iff.mp hmade
    obtain ⟨checked, hchecked, hmade⟩ := bind_eq_ok_iff.mp hmade
    obtain ⟨left, hleft, hmade⟩ := bind_eq_ok_iff.mp hmade
    cases hmade
    exact ⟨Kind.noConfusion, fun _ => (Tree.unary?_eq_ok_iff.mp hchecked).1, ihl hleft, ihr hinner⟩
  | operator _ ih =>
    rw [toTree] at hmade
    obtain ⟨trees, htrees, hmade⟩ := bind_eq_ok_iff.mp hmade
    refine .ofOperands (fun operand hoperand => ?_) hmade
    obtain ⟨sketch, hsketch, hmade'⟩ := exists_of_mem_toTrees htrees operand hoperand
    exact ih sketch hsketch hmade'

/-- The trees made by hand without replaced tokens: every link of an operand may be set, every link of an operator may
be set or missing, and the tokens of operator nodes are those that their constructors accept. -/
theorem exists_toTree_iff {t : Tree} :
    (∃ sketch : Sketch, sketch.KeepsTokens ∧ sketch.toTree = .ok t) ↔ t.Constructed := by
  constructor
  · rintro ⟨sketch, hkeeps, hmade⟩
    exact hkeeps.constructed hmade
  · intro h
    induction t with
    | empty => exact ⟨missing, .missing, rfl⟩
    | node kind token left right ihl ihr =>
      obtain ⟨hbinary, hunary, hleft, hright⟩ := h
      obtain ⟨sketchLeft, hkeepsLeft, hmadeLeft⟩ := ihl hleft
      obtain ⟨sketchRight, hkeepsRight, hmadeRight⟩ := ihr hright
      cases kind with
      | operand =>
        refine ⟨operand token sketchLeft sketchRight none, .operand hkeepsLeft hkeepsRight, ?_⟩
        rw [toTree, hmadeLeft, hmadeRight]
        rfl
      | binary =>
        refine ⟨binary token sketchLeft sketchRight none, .binary hkeepsLeft hkeepsRight, ?_⟩
        rw [toTree, Tree.binary?_eq_ok_iff.mpr ⟨hbinary rfl, rfl⟩, hmadeLeft, hmadeRight]
        rfl
      | unary =>
        refine ⟨unary token sketchLeft sketchRight none, .unary hkeepsLeft hkeepsRight, ?_⟩
        rw [toTree, hmadeRight, hmadeLeft]
        change (do let _ ← Tree.unary? token right; _) = _
        rw [Tree.unary?_eq_ok_iff.mpr ⟨hunary rfl, rfl⟩]
        rfl

end Sketch

/-! ## Requests to a tree that lacks no link -/

namespace Tree

variable {η : Type} {mixer : Mixer η} {t : Tree}

theorem Linked.of_mem_postorder {place : Place} (h : t.Linked) (hplace : place ∈ t.postorder) :
    place.tree.Linked := by
  intro below hbelow
  have hshift : place.tree.postorder.map (·.tree) = (placesFrom place.path place.tree).map (·.tree) := by
    rw [postorder_eq_placesFrom, map_tree_placesFrom]
  have hmem : below.tree ∈ (placesFrom place.path place.tree).map (·.tree) :=
    hshift ▸ List.mem_map_of_mem hbelow
  obtain ⟨same, hsame, htree⟩ := List.mem_map.mp hmem
  rw [postorder_eq_placesFrom] at hplace
  rw [← htree]
  exact h same (postorder_eq_placesFrom t ▸ placesFrom_subset hplace hsame)

theorem Linked.hasDigest (mixer : Mixer η) (ht : t ≠ empty) (h : t.Linked) : t.HasDigest mixer := by
  obtain ⟨s, hs⟩ := (exists_summary_iff mixer ht).mpr h
  exact ⟨some s.digest, by rw [digest_eq_map ht, hs]; rfl⟩

variable [DecidableEq η]

/-- A comparison mixes the fingerprints of both trees, and only this can fail. -/
theorem error?_equals {a b : Tree} (ha : a ≠ empty) (hb : b ≠ empty) :
    error? (a.equals mixer b) = (error? (a.digest mixer)).or (error? (b.digest mixer)) := by
  rw [equals, isEmpty_eq_false_iff.mpr ha, isEmpty_eq_false_iff.mpr hb, digest_eq_value ha, digest_eq_value hb,
    error?_map, error?_map]
  cases value (fresh.digest mixer (.root a)) with
  | error fault => rfl
  | ok left =>
    cases value (fresh.digest mixer (.root b)) with
    | error fault => rfl
    | ok right =>
      change error? (ite (left = right) (pure _) (pure _)) = none
      split <;> rfl

/-- Every request to a node of a tree that lacks no link has an answer, whatever was asked for before. -/
theorem Linked.answers (h : t.Linked) {requests : List Request}
    (hplaces : ∀ request ∈ requests, ∀ place ∈ request.places, place ∈ t.postorder) {place : Place}
    (hplace : place ∈ t.postorder) :
    let memo := requests.foldl (Memo.answer mixer) fresh
    value (memo.size mixer place) = .ok place.tree.count ∧
      (∃ d, value (memo.digest mixer place) = .ok d) ∧
      ∀ other ∈ t.postorder, value (memo.equal mixer place other) = .ok (decide (place.tree = other.tree)) := by
  have hsound := (sound_fresh mixer t).foldl_answer hplaces
  have hlinked := h.of_mem_postorder hplace
  have hne := ne_empty_of_mem_postorder hplace
  obtain ⟨s, hs⟩ := (exists_summary_iff mixer hne).mpr hlinked
  refine ⟨?_, ⟨_, value_digest hsound hplace hs⟩, fun other hother => ?_⟩
  · rw [value_size hsound hplace hs, size_eq_count hne hs]
  · have hlinked' := h.of_mem_postorder hother
    have hne' := ne_empty_of_mem_postorder hother
    obtain ⟨s', hs'⟩ := (exists_summary_iff mixer hne').mpr hlinked'
    rw [value_equal hsound hplace hother hs hs',
      equals_of_hasDigest (hlinked.hasDigest mixer hne) (hlinked'.hasDigest mixer hne')]

/-- A comparison with a tree that has a fingerprint fails only if the other tree has none. -/
theorem HasDigest.error?_equals {other : Tree} (h : t.HasDigest mixer) (ht : t ≠ empty) :
    error? (t.equals mixer other) = error? (other.digest mixer) ∧
      error? (other.equals mixer t) = error? (other.digest mixer) := by
  obtain ⟨d, hd⟩ := h
  have hnone : error? (t.digest mixer) = none := by rw [hd]; rfl
  by_cases hother : other = empty
  · subst hother
    cases t with
    | empty => exact absurd rfl ht
    | node => exact ⟨rfl, rfl⟩
  · rw [Tree.error?_equals ht hother, Tree.error?_equals hother ht, hnone, Option.or_none]
    exact ⟨rfl, rfl⟩

/-- **A tree that passes the check has all its operations.** Let a tree be made by hand from the constructors, with
any links set afterwards but no token replaced. If the check passes, then whatever was asked for before, every node has
a size, which is the number of nodes below it, and a fingerprint, and two nodes can be compared; a comparison with any
other tree fails only if that tree has no fingerprint. Evaluation ends with a value, with an evaluation error, or with
the fault of a leaf that has more digits than an integer may have in a text. And if the leaves are numerals, the tree
is read back from its postfix form. -/
theorem isWellFormed_sound (mixer : Mixer η) {sketch : Sketch} {t : Tree} (hkeeps : sketch.KeepsTokens)
    (hmade : sketch.toTree = .ok t) (ht : t ≠ empty) (hvalid : t.isWellFormed = true) :
    (∀ requests : List Request, (∀ request ∈ requests, ∀ place ∈ request.places, place ∈ t.postorder) →
      ∀ place ∈ t.postorder,
        let memo := requests.foldl (Memo.answer mixer) fresh
        value (memo.size mixer place) = .ok place.tree.count ∧
        (∃ d, value (memo.digest mixer place) = .ok d) ∧
        ∀ other ∈ t.postorder, value (memo.equal mixer place other) = .ok (decide (place.tree = other.tree))) ∧
    (∀ other : Tree, error? (t.equals mixer other) = error? (other.digest mixer) ∧
      error? (other.equals mixer t) = error? (other.digest mixer)) ∧
    ((∃ x, t.evaluate = .ok x) ∨ (∃ e : EvalError, t.evaluate = .error (.eval e)) ∨
      ∃ literal ∈ t.leaves, Literal.isProper literal = true ∧ Text.digitLimit < literal.length ∧
        t.evaluate = .error (.literalLimit literal.length)) ∧
    ((∀ literal ∈ t.leaves, Token.isNumeral literal = true) →
      ∃ back, (readPostfix t.postfixTokens).result = .ok back ∧ back.equals mixer t = .ok true) := by
  have hwell := isWellFormed_iff.mp hvalid
  have hconstructed := hkeeps.constructed hmade
  have hlinked := hwell.linked hconstructed
  have hdigest := hlinked.hasDigest mixer ht
  have hterm : t.IsTerm := isTerm_iff.mpr ⟨ht, hwell, hconstructed⟩
  refine ⟨fun requests hplaces place hplace => hlinked.answers hplaces hplace,
    fun other => hdigest.error?_equals ht, ?_, fun hleaves => ?_⟩
  · have hgiven := hterm.evaluate_given
    generalize t.evaluate = outcome at hgiven
    cases hgiven with
    | @value x _ => exact .inl ⟨x, rfl⟩
    | error e => exact .inr (.inl ⟨e, rfl⟩)
    | @tooLong literal hmem hproper hlong => exact .inr (.inr ⟨literal, hmem, hproper, hlong, rfl⟩)
  · obtain ⟨-, hback, -⟩ := (hterm.isExpression (hterm.suited hleaves)).roundTrip
    exact ⟨t, hback, by rw [equals_of_hasDigest hdigest hdigest, decide_eq_true rfl]⟩

/-- A power whose links were set after it was made, over a literal that is a numeral and has no value. After its
exponent was asked for its fingerprint the power has its size. -/
theorem isWellFormed_sound_power :
    let literal (text : String) : Sketch := .operand text .missing .missing none
    let sketch : Sketch := .binary "^" (literal "0x") (.operator "!" [literal "2"]) none
    let exponent := unary "!" (operand "2")
    let t := binary "^" (operand "0x") exponent
    sketch.toTree = .ok t ∧ t.isWellFormed = true ∧
      value ((Memo.answer Mixer.standard fresh (.digest ⟨[.right], exponent⟩)).size Mixer.standard (.root t)) = .ok 4 ∧
      error? (t.equals Mixer.standard (node .unary "!" empty empty)) = some .noOperand ∧
      ((∃ x, t.evaluate = .ok x) ∨ ∃ e : EvalError, t.evaluate = .error (.eval e)) ∧
      ∃ back, (readPostfix ["0x", "2", "!", "^"]).result = .ok back ∧ back.equals Mixer.standard t = .ok true := by
  intro literal sketch exponent t
  have hkeeps : sketch.KeepsTokens := by
    refine .binary (.operand .missing .missing) (.operator fun operand hoperand => ?_)
    rw [List.mem_singleton.mp hoperand]
    exact .operand .missing .missing
  have hmade : sketch.toTree = .ok t := rfl
  have hvalid : t.isWellFormed = true :=
    isWellFormed_iff.mpr ⟨rfl, ⟨rfl, trivial, trivial⟩, rfl, trivial, rfl, trivial, trivial⟩
  obtain ⟨hanswers, hequals, hvalue, hback⟩ := isWellFormed_sound Mixer.standard hkeeps hmade Tree.noConfusion hvalid
  have hpostorder : t.postorder =
      [⟨[.left], operand "0x"⟩, ⟨[.right, .right], operand "2"⟩, ⟨[.right], exponent⟩, .root t] :=
    postorder_eq_placesFrom t
  refine ⟨hmade, hvalid, ?_, ?_, ?_, ?_⟩
  · have hrequests : ∀ request ∈ [Request.digest ⟨[.right], exponent⟩], ∀ place ∈ request.places,
        place ∈ t.postorder := by
      simp [Request.places, hpostorder]
    exact (hanswers _ hrequests (.root t) (root_mem_postorder Tree.noConfusion)).1
  · rw [(hequals _).1, digest_eq_map Tree.noConfusion, summary, fold_eq_results]
    rfl
  · rcases hvalue with hvalue | herror | ⟨literal, hmem, -, hlong, -⟩
    · exact .inl hvalue
    · exact .inr herror
    · have hshort : ∀ literal ∈ t.leaves, literal.length ≤ Text.digitLimit := by decide
      exact absurd hlong (Nat.not_lt.mpr (hshort literal hmem))
  · have htokens : t.postfixTokens = ["0x", "2", "!", "^"] := by simp [t, exponent]
    exact htokens ▸ hback (by decide)

end Tree

end Abacus
