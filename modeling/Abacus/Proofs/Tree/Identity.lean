import Abacus.Proofs.Tree.Memo

/-!
# Equality as structural identity

Two trees are compared by their fingerprints and then node by node. Nothing is assumed about how fingerprints are
mixed, so trees that differ may have the same one. What counts is that the fingerprint is computed from the tree
alone: then equal trees pass the first comparison, and the second one decides.

A node may keep its size and its fingerprint once they are known, and no walk goes below such a node. Whatever the nodes
keep, they give the same fingerprint as if they kept nothing.

Results:
* `Tree.eq_of_labelAt`: a tree is determined by what stands at each position.
* `Memo.Kept.value_digest`: the fingerprint of a node does not depend on what is kept.
* `Tree.equals_of_hasDigest`: the comparison decides equality.
* `Tree.equals_structural`: equality is structural identity, and agrees with the fingerprints.
-/

namespace Abacus

namespace Tree

/-! ## Positions -/

/-- The kind and the token of the node at the end of a route of links from the root; `none` if no node is there. -/
def labelAt : Tree → List Side → Option (Kind × String)
  | empty, _ => none
  | node kind token _ _, [] => some (kind, token)
  | node _ _ left _, .left :: route => left.labelAt route
  | node _ _ _ right, .right :: route => right.labelAt route

/-- A tree is determined by what stands at each position. -/
theorem eq_of_labelAt {a b : Tree} (h : ∀ route, a.labelAt route = b.labelAt route) : a = b := by
  induction a generalizing b with
  | empty =>
    cases b with
    | empty => rfl
    | node kind token left right => cases h []
  | node kind token left right ihl ihr =>
    cases b with
    | empty => cases h []
    | node kind' token' left' right' =>
      cases h []
      rw [ihl fun route => h (.left :: route), ihr fun route => h (.right :: route)]

/-! ## The comparison node by node -/

theorem sameFrom_iff (pairs : List (Tree × Tree)) : sameFrom pairs = true ↔ ∀ p ∈ pairs, p.1 = p.2 := by
  fun_induction sameFrom pairs with
  | case1 => simp
  | case2 rest ih => simp [ih]
  | case3 kind token left right kind' token' left' right' rest hroot ih =>
    obtain ⟨rfl, rfl⟩ := hroot
    simp [ih, and_assoc, and_left_comm]
  | case4 kind token left right kind' token' left' right' rest hroot =>
    simp only [Bool.false_eq_true, List.forall_mem_cons, node.injEq, false_iff]
    rintro ⟨⟨hkind, htoken, -⟩, -⟩
    exact hroot ⟨hkind, htoken⟩
  | case5 pairs hnil hempty hnode =>
    obtain _ | ⟨⟨a, b⟩, rest⟩ := pairs
    · exact absurd rfl hnil
    · have hne : a ≠ b := by
        rintro rfl
        cases a with
        | empty => exact hempty rest rfl
        | node kind token left right => exact hnode _ _ _ _ _ _ _ _ rest rfl
      simp [hne]

theorem sameFrom_singleton (a b : Tree) : sameFrom [(a, b)] = decide (a = b) := by
  rw [Bool.eq_iff_iff, sameFrom_iff, List.forall_mem_singleton, decide_eq_true_iff]

end Tree

/-! ## What the nodes keep -/

namespace Memo

variable {η : Type} {mixer : Mixer η} {t : Tree} {memo : Memo η} {place : Place}

/-- What the nodes of a tree may keep: at first nothing; then, in any order, one node after another what it can make
from that which its links keep. A step that fails may leave something too. -/
inductive Kept (mixer : Mixer η) (t : Tree) : Memo η → Prop
  | start : Kept mixer t fresh
  | keep {memo memo' : Memo η} {place : Place} (hmemo : Kept mixer t memo) (hplace : place ∈ t.postorder)
      (hstep : memo.keep mixer place = .ok memo') : Kept mixer t memo'
  | stop {memo : Memo η} {place : Place} {stuck : Stuck (Memo η)} (hmemo : Kept mixer t memo)
      (hplace : place ∈ t.postorder) (hstep : memo.keep mixer place = .error stuck) : Kept mixer t stuck.state

theorem Kept.sound (h : Kept mixer t memo) : Sound mixer t memo := by
  induction h with
  | start => exact sound_fresh mixer t
  | keep _ hplace hstep ih => simpa only [hstep] using ih.keep hplace
  | stop _ hplace hstep ih => simpa only [hstep] using ih.keep hplace

/-- The fingerprint of a node, or the fault of computing it, does not depend on what is kept. -/
theorem Kept.value_digest (h : Kept mixer t memo) (hplace : place ∈ t.postorder) :
    value (memo.digest mixer place) = (·.digest) <$> place.tree.summary mixer :=
  value_digest_eq_map h.sound hplace

/-- Nor does the size of a node that has a fingerprint. -/
theorem Kept.value_size (h : Kept mixer t memo) (hplace : place ∈ t.postorder) {s : Summary η}
    (hs : place.tree.summary mixer = .ok s) : value (memo.size mixer place) = .ok s.size :=
  Memo.value_size h.sound hplace hs

end Memo

/-! ## Equality -/

namespace Tree

open Memo

variable {η : Type}

/-- The fingerprint of a tree can be computed. -/
def HasDigest (mixer : Mixer η) (t : Tree) : Prop :=
  ∃ d, t.digest mixer = .ok d

theorem HasDigest.summary {mixer : Mixer η} {t : Tree} (h : t.HasDigest mixer) (ht : t ≠ empty) :
    ∃ s, t.summary mixer = .ok s := by
  obtain ⟨d, hd⟩ := h
  rw [digest_eq_map ht] at hd
  cases hsummary : t.summary mixer with
  | error e => cases hsummary ▸ hd
  | ok s => exact ⟨s, rfl⟩

/-- The comparison decides equality, however fingerprints are mixed. -/
theorem equals_of_hasDigest [DecidableEq η] {mixer : Mixer η} {a b : Tree} (ha : a.HasDigest mixer)
    (hb : b.HasDigest mixer) : a.equals mixer b = .ok (decide (a = b)) := by
  cases a with
  | empty => cases b <;> rfl
  | node kind token left right =>
    cases b with
    | empty => rfl
    | node kind' token' left' right' =>
      obtain ⟨s, hs⟩ := ha.summary Tree.noConfusion
      obtain ⟨s', hs'⟩ := hb.summary Tree.noConfusion
      rw [equals_eq Tree.noConfusion Tree.noConfusion hs hs', sameFrom_singleton]
      split
      · rfl
      · next hdigest =>
        have hne : node kind token left right ≠ node kind' token' left' right' := by
          intro heq
          rw [heq, hs'] at hs
          cases hs
          exact hdigest rfl
        rw [decide_eq_false hne]

/-- Two trees have the same shape, with the same kind and token at each position. -/
def SameStructure (a b : Tree) : Prop :=
  ∀ route, a.labelAt route = b.labelAt route

theorem sameStructure_iff {a b : Tree} : a.SameStructure b ↔ a = b := by
  refine ⟨eq_of_labelAt, ?_⟩
  rintro rfl route
  rfl

/-- **Equality is structural identity, however fingerprints are mixed.** For all trees that have a fingerprint, the
empty one among them, the comparison has an outcome, and it is that they are equal exactly if they have the same kind
and token at each position. Whatever the nodes of two trees keep from requests before, nodes of the same structure give
the same fingerprint, or the same fault, and if they have a fingerprint the same size. So equality is an equivalence
relation that the fingerprint respects. -/
theorem equals_structural [DecidableEq η] (mixer : Mixer η) :
    (∀ a b : Tree, a.HasDigest mixer → b.HasDigest mixer →
      ∃ same, a.equals mixer b = .ok same ∧ (same = true ↔ a.SameStructure b)) ∧
    (∀ (t t' : Tree) (memo memo' : Memo η), Kept mixer t memo → Kept mixer t' memo' →
      ∀ a ∈ t.postorder, ∀ b ∈ t'.postorder, a.tree.SameStructure b.tree →
        value (memo.digest mixer a) = value (memo'.digest mixer b) ∧
        (a.tree.HasDigest mixer → value (memo.size mixer a) = value (memo'.size mixer b))) ∧
    (Equivalence fun a b : {t : Tree // t.HasDigest mixer} => a.1.equals mixer b.1 = .ok true) ∧
    ∀ a b : Tree, a.HasDigest mixer → b.HasDigest mixer → a.equals mixer b = .ok true →
      a.digest mixer = b.digest mixer := by
  have hiff : ∀ a b : Tree, a.HasDigest mixer → b.HasDigest mixer → (a.equals mixer b = .ok true ↔ a = b) := by
    intro a b ha hb
    rw [equals_of_hasDigest ha hb, Except.ok.injEq, decide_eq_true_iff]
  refine ⟨?_, ?_, ⟨?_, ?_, ?_⟩, ?_⟩
  · intro a b ha hb
    exact ⟨decide (a = b), equals_of_hasDigest ha hb, by rw [sameStructure_iff, decide_eq_true_iff]⟩
  · intro t t' memo memo' hmemo hmemo' a ha b hb hsame
    have htree : a.tree = b.tree := sameStructure_iff.mp hsame
    refine ⟨by rw [hmemo.value_digest ha, hmemo'.value_digest hb, htree], fun hdigest => ?_⟩
    obtain ⟨s, hs⟩ := hdigest.summary (ne_empty_of_mem_postorder ha)
    rw [hmemo.value_size ha hs, hmemo'.value_size hb (htree ▸ hs)]
  · rintro ⟨a, ha⟩
    exact (hiff a a ha ha).mpr rfl
  · rintro ⟨a, ha⟩ ⟨b, hb⟩ hab
    exact (hiff b a hb ha).mpr ((hiff a b ha hb).mp hab).symm
  · rintro ⟨a, ha⟩ ⟨b, hb⟩ ⟨c, hc⟩ hab hbc
    exact (hiff a c ha hc).mpr (((hiff a b ha hb).mp hab).trans ((hiff b c hb hc).mp hbc))
  · intro a b ha hb hab
    rw [(hiff a b ha hb).mp hab]

/-- Where all fingerprints are the same, an operand with a link still differs from the one without, and so does the
empty tree from both; a node that keeps its fingerprint gives the same one as before, and so does its copy in another
tree. -/
theorem equals_structural_collision :
    let mixer : Mixer Unit := ⟨fun _ => (), fun _ _ _ => (), fun _ _ => ()⟩
    let linked := node .operand "1" (operand "2") empty
    let leaf : Place := ⟨[.left], operand "2"⟩
    let memo := (fresh.setSize leaf.path 1).setDigest leaf.path ()
    linked.digest mixer = (operand "1").digest mixer ∧ linked.equals mixer (operand "1") = .ok false ∧
      linked.equals mixer empty = .ok false ∧
      value (memo.digest mixer leaf) = value (fresh.digest mixer (.root (operand "2"))) := by
  intro mixer linked leaf memo
  have hlinked : linked.digest mixer = .ok (some ()) := by
    rw [digest_eq_map Tree.noConfusion, summary, fold_eq_results]
    rfl
  have hleaf : (operand "1").digest mixer = .ok (some ()) := by
    rw [digest_eq_map Tree.noConfusion, summary, fold_eq_results]
    rfl
  have hplace : leaf ∈ linked.postorder := by
    rw [postorder_eq_placesFrom]
    exact List.mem_cons_self
  have hkept : Kept mixer linked memo := .keep .start hplace rfl
  obtain ⟨hdecides, hkeeps, -⟩ := equals_structural mixer
  obtain ⟨same, hsame, hiff⟩ := hdecides linked (operand "1") ⟨_, hlinked⟩ ⟨_, hleaf⟩
  obtain ⟨same', hsame', hiff'⟩ := hdecides linked empty ⟨_, hlinked⟩ ⟨none, rfl⟩
  have hdiffer : same = false := Bool.eq_false_iff.mpr fun h => nomatch hiff.mp h [.left]
  have hdiffer' : same' = false := Bool.eq_false_iff.mpr fun h => nomatch hiff'.mp h []
  refine ⟨hlinked.trans hleaf.symm, hsame.trans (by rw [hdiffer]), hsame'.trans (by rw [hdiffer']), ?_⟩
  exact (hkeeps linked (operand "2") memo fresh hkept .start leaf hplace (.root (operand "2"))
    (root_mem_postorder Tree.noConfusion) fun _ => rfl).1

end Tree

end Abacus
