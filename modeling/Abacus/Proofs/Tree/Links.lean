import Abacus.Proofs.Tree.Recursion
import Abacus.Tree.Digest

/-!
# Links that a fingerprint needs

Whether a node has a fingerprint is a matter of its links alone: a binary node needs both of them, a unary node at least
one. A node that lacks one of them fails, whatever the tokens are and however fingerprints are mixed. The walk stops at
the first such node in post-order.

`Tree.summary` gives the size and the fingerprint of a tree by recursion, without keeping anything.

Results:
* `Tree.findSome?_linkFault?`: the fault of a tree is that of the first node in post-order that lacks a link.
* `Tree.size_eq_count`: if there is none, the size in the summary is the number of nodes.
* `Tree.WellFormed.linked`: a well-formed tree lacks no link.
-/

namespace Abacus.Tree

open Place (mapM_present error?_mapM_children)

variable {η : Type}

/-! ## Nodes that lack a link -/

/-- A binary node has both links, and a unary node at least one. -/
def HasLinks : Tree → Prop
  | node .binary _ left right => left ≠ empty ∧ right ≠ empty
  | node .unary _ left right => left ≠ empty ∨ right ≠ empty
  | _ => True

/-- Every node has the links that its fingerprint needs. -/
def Linked (t : Tree) : Prop :=
  ∀ place ∈ t.postorder, place.tree.HasLinks

/-- The fault of a node that lacks a link. -/
def linkFault? : Tree → Option Fault
  | t@(node .binary _ left right) =>
    if left.isEmpty || right.isEmpty then some (.operandCount 2 t.children.length) else none
  | node .unary _ left right => if left.isEmpty && right.isEmpty then some .noOperand else none
  | _ => none

theorem linkFault?_eq_none_iff {t : Tree} : t.linkFault? = none ↔ t.HasLinks := by
  cases t with
  | empty => simp [linkFault?, HasLinks]
  | node kind token left right =>
    cases kind with
    | operand => simp [linkFault?, HasLinks]
    | binary => simp [linkFault?, HasLinks, isEmpty_eq_true_iff]
    | unary =>
      simp only [linkFault?, HasLinks, ite_eq_right_iff, Bool.and_eq_true, isEmpty_eq_true_iff, reduceCtorEq, imp_false]
      exact not_and_or

theorem linked_iff {t : Tree} : t.Linked ↔ t.postorder.findSome? (·.tree.linkFault?) = none := by
  rw [List.findSome?_eq_none_iff]
  exact forall₂_congr fun _ _ => linkFault?_eq_none_iff.symm

/-- If some nodes lack a link, one of them comes first in post-order. -/
theorem exists_first_fault {t : Tree} (h : ¬t.Linked) :
    ∃ before place after fault, t.postorder = before ++ place :: after ∧
      (∀ earlier ∈ before, earlier.tree.HasLinks) ∧ place.tree.linkFault? = some fault ∧
      t.postorder.findSome? (·.tree.linkFault?) = some fault := by
  obtain ⟨fault, hfault⟩ := Option.ne_none_iff_exists'.mp (mt linked_iff.mpr h)
  obtain ⟨before, place, after, hsplit, hplace, hbefore⟩ := List.findSome?_eq_some_iff.mp hfault
  exact ⟨before, place, after, fault, hsplit,
    fun earlier hmem => linkFault?_eq_none_iff.mp (hbefore earlier hmem), hplace, hfault⟩

/-! ## Summaries by recursion -/

/-- The size and the fingerprint of a tree. -/
def summary (mixer : Mixer η) (t : Tree) : Except Fault (Summary η) :=
  t.fold .lostResult (Summary.combine mixer)

theorem summary_node (mixer : Mixer η) (path : Path) (kind : Kind) (token : String) (left right : Tree) :
    (node kind token left right).summary mixer =
      (Place.children ⟨path, node kind token left right⟩).mapM (·.tree.summary mixer) >>=
        Summary.combine mixer kind token :=
  (Place.recursive_byToken Fault.lostResult fun _ _ => rfl).step ⟨path, _⟩ Tree.noConfusion

/-! ## The fault and the size of a summary -/

theorem error?_twoValues {α : Type} (values : List α) :
    error? (twoValues values) = if values.length = 2 then none else some (.operandCount 2 values.length) := by
  rcases values with _ | ⟨a, _ | ⟨b, _ | ⟨c, rest⟩⟩⟩ <;> simp [twoValues, error?]

theorem error?_lastValue {α : Type} (values : List α) :
    error? (lastValue values) = if values.length = 0 then some .noOperand else none := by
  rcases values with _ | ⟨a, rest⟩
  · rfl
  · simp [lastValue, List.getLast?_cons, error?]

/-- Mixing fails at the nodes that lack a link. -/
theorem error?_combine (mixer : Mixer η) (kind : Kind) (token : String) (left right : Tree)
    {links : List (Summary η)} (hlinks : links.length = (node kind token left right).children.length) :
    error? (Summary.combine mixer kind token links) = (node kind token left right).linkFault? := by
  cases kind with
  | operand => rfl
  | binary =>
    have hmap : Summary.combine mixer .binary token links =
        (fun pair => ⟨total (links.map Summary.size) + 1, mixer.binary token pair.1.digest pair.2.digest⟩) <$>
          twoValues links := by
      rw [Summary.combine]
      cases twoValues links <;> rfl
    rw [hmap, error?_map, error?_twoValues, hlinks]
    cases left <;> cases right <;> rfl
  | unary =>
    have hmap : Summary.combine mixer .unary token links =
        (fun last => ⟨total (links.map Summary.size) + 1, mixer.unary token last.digest⟩) <$> lastValue links := by
      rw [Summary.combine]
      cases lastValue links <;> rfl
    rw [hmap, error?_map, error?_lastValue, hlinks]
    cases left <;> cases right <;> rfl

theorem length_of_mapM {α β ε : Type} {f : α → Except ε β} {as : List α} {bs : List β} (h : as.mapM f = .ok bs) :
    bs.length = as.length := by
  induction as generalizing bs with
  | nil =>
    cases h
    rfl
  | cons a as ih =>
    rw [List.mapM_cons] at h
    obtain ⟨b, -, h⟩ := bind_eq_ok_iff.mp h
    obtain ⟨rest, hrest, h⟩ := bind_eq_ok_iff.mp h
    cases h
    rw [List.length_cons, List.length_cons, ih hrest]

theorem findSome?_linkFault?_present (mixer : Mixer η) (t : Tree) (path : Path) :
    (placesFrom path t).findSome? (·.tree.linkFault?) =
      error? ((Place.present ⟨path, t⟩).mapM (·.tree.summary mixer)) := by
  induction t generalizing path with
  | empty => rfl
  | node kind token left right ihl ihr =>
    have hlength : (Place.children ⟨path, node kind token left right⟩).length =
        (node kind token left right).children.length := by
      cases left <;> cases right <;> rfl
    rw [placesFrom, List.findSome?_append, List.findSome?_append, ihl, ihr,
      ← error?_mapM_children (·.tree.summary mixer) path kind token, mapM_present Tree.noConfusion, error?_map,
      summary_node mixer path, error?_bind, List.findSome?_singleton]
    cases hlinks : (Place.children ⟨path, node kind token left right⟩).mapM (·.tree.summary mixer) with
    | error fault => rfl
    | ok links => exact (error?_combine mixer kind token left right ((length_of_mapM hlinks).trans hlength)).symm

/-- The fault of a tree is that of the first node in post-order that lacks a link. -/
theorem findSome?_linkFault? (mixer : Mixer η) {t : Tree} (ht : t ≠ empty) (path : Path) :
    (placesFrom path t).findSome? (·.tree.linkFault?) = error? (t.summary mixer) := by
  rw [findSome?_linkFault?_present mixer, mapM_present ht, error?_map]

/-- A tree has a summary if no node lacks a link. -/
theorem exists_summary_iff (mixer : Mixer η) {t : Tree} (ht : t ≠ empty) :
    (∃ s, t.summary mixer = .ok s) ↔ t.Linked := by
  rw [linked_iff, postorder_eq_placesFrom, findSome?_linkFault? mixer ht]
  cases t.summary mixer <;> simp [error?]

theorem size_combine {mixer : Mixer η} {kind : Kind} {token : String} {links : List (Summary η)} {s : Summary η}
    (h : Summary.combine mixer kind token links = .ok s) : s.size = total (links.map Summary.size) + 1 := by
  cases kind with
  | operand =>
    cases h
    rfl
  | binary =>
    obtain ⟨pair, -, h⟩ := bind_eq_ok_iff.mp h
    cases h
    rfl
  | unary =>
    obtain ⟨last, -, h⟩ := bind_eq_ok_iff.mp h
    cases h
    rfl

/-- The size in a summary is the number of nodes. -/
theorem total_sizes {mixer : Mixer η} {t : Tree} {links : List (Summary η)}
    (h : t.results (Summary.combine mixer) = .ok links) : total (links.map Summary.size) = t.count := by
  induction t generalizing links with
  | empty =>
    cases h
    rfl
  | node kind token left right ihl ihr =>
    obtain ⟨ls, hls, h⟩ := bind_eq_ok_iff.mp h
    obtain ⟨rs, hrs, h⟩ := bind_eq_ok_iff.mp h
    obtain ⟨s, hs, h⟩ := bind_eq_ok_iff.mp h
    cases h
    simp [size_combine hs, ihl hls, ihr hrs, count]

theorem size_eq_count {mixer : Mixer η} {t : Tree} {s : Summary η} (ht : t ≠ empty)
    (h : t.summary mixer = .ok s) : s.size = t.count := by
  have hresults : t.results (Summary.combine mixer) = .ok [s] := by
    rw [results_eq_map_fold .lostResult _ ht]
    exact congrArg _ h
  simpa using total_sizes hresults

theorem summary_eq_error (mixer : Mixer η) {t : Tree} (ht : t ≠ empty) {fault : Fault}
    (hfault : t.postorder.findSome? (·.tree.linkFault?) = some fault) : t.summary mixer = .error fault := by
  rwa [postorder_eq_placesFrom, findSome?_linkFault? mixer ht, error?_eq_some_iff] at hfault

/-! ## Well-formed trees -/

theorem WellFormed.linked {t : Tree} (h : t.WellFormed) (hconstructed : t.Constructed) : t.Linked := by
  rw [Linked, postorder_eq_placesFrom]
  generalize ([] : Path) = path
  induction t generalizing path with
  | empty => exact fun _ hplace => absurd hplace List.not_mem_nil
  | node kind token left right ihl ihr =>
    obtain ⟨hroot, hleft, hright⟩ := h
    obtain ⟨hbinary, hunary, hleft', hright'⟩ := hconstructed
    rw [placesFrom, List.forall_mem_append, List.forall_mem_append, List.forall_mem_singleton]
    refine ⟨⟨ihl hleft hleft' _, ihr hright hright' _⟩, ?_⟩
    cases kind with
    | operand => trivial
    | binary =>
      obtain ⟨op, rfl, hop⟩ := Token.isBinary_iff.mp (hbinary rfl)
      exact (hasArity_binary_iff hop).mp hroot
    | unary =>
      obtain ⟨op, rfl, hop⟩ := Token.isUnary_iff.mp (hunary rfl)
      exact .inr ((hasArity_unary_iff hop).mp hroot).2

theorem IsExpression.linked {t : Tree} (h : t.IsExpression) : t.Linked :=
  h.wellFormed.linked h.isTerm.constructed

end Abacus.Tree
