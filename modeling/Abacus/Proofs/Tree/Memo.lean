import Abacus.Proofs.Tree.Links
import Abacus.Proofs.Tree.Survey
import Abacus.Tree.Identity

/-!
# What the nodes of a tree keep

Requests for sizes and fingerprints leave values behind at the nodes, also those that fail. Whatever they leave, a node
that keeps a fingerprint keeps its own, and its own size with it, and no node keeps a size alone unless its summary
fails. This is the invariant of every step. So a later walk that does not enter the tree below a node misses nothing
there: the node has a summary, and no node below it lacks a link.

Results:
* `Memo.fillFrom_unvisited`: a walk for a tree, from any values that were kept before.
* `Memo.Sound.answer`: the invariant holds after every request.
* `Memo.value_ask`, `Memo.value_ask_error`: the answer to a request.
* `Memo.answers_of_links`: the answers that fresh nodes give, and that those of linked trees give at any time.
-/

namespace Abacus

open Abacus.Tree Place

namespace Memo

variable {α η : Type} {mixer : Mixer η} {whole : Tree} {memo : Memo η} {place : Place} {s : Summary η}

/-! ## The invariant -/

/-- What a node may keep: nothing, its summary, or anything but a fingerprint if it has no summary. -/
inductive Faithful (mixer : Mixer η) (memo : Memo η) (place : Place) : Prop
  | blank (hsize : memo.sizes place.path = none) (hdigest : memo.digests place.path = none)
  | kept {s : Summary η} (hs : place.tree.summary mixer = .ok s) (hsize : memo.sizes place.path = some s.size)
      (hdigest : memo.digests place.path = some s.digest)
  | failed {fault : Fault} (hfault : place.tree.summary mixer = .error fault)
      (hdigest : memo.digests place.path = none)

/-- All nodes of a tree keep what they may keep. -/
def Sound (mixer : Mixer η) (whole : Tree) (memo : Memo η) : Prop :=
  ∀ place ∈ whole.postorder, Faithful mixer memo place

theorem sound_fresh (mixer : Mixer η) (whole : Tree) : Sound mixer whole fresh :=
  fun _ _ => .blank (sizes_fresh _) (digests_fresh _)

/-- A node that keeps a fingerprint keeps its summary. -/
theorem Faithful.summary?_eq (h : Faithful mixer memo place) (hdigest : (memo.digests place.path).isSome = true) :
    ∃ s, place.tree.summary mixer = .ok s ∧ memo.summary? place.path = some s := by
  cases h with
  | blank _ hnone => simp [hnone] at hdigest
  | @kept s hs hsize hdigest => exact ⟨s, hs, by rw [summary?, hsize, hdigest]; rfl⟩
  | failed _ hnone => simp [hnone] at hdigest

/-- A node that has a summary keeps a size if and only if it keeps a fingerprint. -/
theorem Faithful.sizes_eq (h : Faithful mixer memo place) (hs : place.tree.summary mixer = .ok s) :
    memo.sizes place.path = (memo.digests place.path).map fun _ => s.size := by
  cases h with
  | blank hsize hdigest => rw [hsize, hdigest]; rfl
  | kept hs' hsize hdigest =>
    cases hs.symm.trans hs'
    rw [hsize, hdigest]
    rfl
  | failed hfault => cases hs.symm.trans hfault

theorem Faithful.digests_eq (h : Faithful mixer memo place) (hs : place.tree.summary mixer = .ok s) :
    memo.digests place.path = (memo.digests place.path).map fun _ => s.digest := by
  cases h with
  | blank _ hdigest => rw [hdigest]; rfl
  | kept hs' _ hdigest =>
    cases hs.symm.trans hs'
    rw [hdigest]
    rfl
  | failed hfault => cases hs.symm.trans hfault

theorem Faithful.digests_eq_none {fault : Fault} (h : Faithful mixer memo place)
    (hfault : place.tree.summary mixer = .error fault) : memo.digests place.path = none := by
  cases h with
  | blank _ hdigest => exact hdigest
  | kept hs => cases hfault.symm.trans hs
  | failed _ hdigest => exact hdigest

/-- All summaries that are kept are those of the subtrees that they are kept for. -/
def Consistent (mixer : Mixer η) (memo : Memo η) (places : List Place) : Prop :=
  ∀ place ∈ places, ∀ s, memo.summary? place.path = some s → place.tree.summary mixer = .ok s

theorem Consistent.mapM_summary {places : List Place} (h : Consistent mixer memo places) {links : List (Summary η)}
    (hlinks : places.mapM (fun c => memo.summary? c.path) = some links) :
    places.mapM (·.tree.summary mixer) = .ok links := by
  induction places generalizing links with
  | nil =>
    cases hlinks
    rfl
  | cons place places ih =>
    rw [List.mapM_cons] at hlinks
    obtain ⟨s, hs, hlinks⟩ := Option.bind_eq_some_iff.mp hlinks
    obtain ⟨ss, hss, hlinks⟩ := Option.bind_eq_some_iff.mp hlinks
    cases hlinks
    rw [Consistent, List.forall_mem_cons] at h
    obtain ⟨hplace, hplaces⟩ := h
    rw [List.mapM_cons, hplace s hs, ih hplaces hss]
    rfl

/-- What the nodes keep is right, wherever they keep a whole summary. -/
theorem Sound.consistent (h : Sound mixer whole memo) : Consistent mixer memo whole.postorder := by
  intro place hplace s hs
  cases h place hplace with
  | blank hsize =>
    rw [summary?, hsize] at hs
    cases hs
  | kept hs' hsize hdigest =>
    rw [summary?, hsize, hdigest] at hs
    cases hs
    exact hs'
  | failed _ hdigest =>
    simp [summary?, hdigest] at hs

/-- A step that changes one node keeps the invariant if it does so there. -/
theorem Sound.update {memo' : Memo η} (h : Sound mixer whole memo) (hplace : place ∈ whole.postorder)
    (hsizes : ∀ path ≠ place.path, memo'.sizes path = memo.sizes path)
    (hdigests : ∀ path ≠ place.path, memo'.digests path = memo.digests path)
    (hhere : Faithful mixer memo' place) : Sound mixer whole memo' := by
  intro other hother
  by_cases hsame : other.path = place.path
  · -- No other node of the tree has this path.
    rwa [List.inj_on_of_nodup_map (nodup_path_postorder (.root whole)) hother hplace hsame]
  · cases h other hother with
    | blank hsize hdigest => exact .blank ((hsizes _ hsame).trans hsize) ((hdigests _ hsame).trans hdigest)
    | kept hs hsize hdigest => exact .kept hs ((hsizes _ hsame).trans hsize) ((hdigests _ hsame).trans hdigest)
    | failed hfault hdigest => exact .failed hfault ((hdigests _ hsame).trans hdigest)

/-! ## One node -/

/-- The nodes below a node of a tree are nodes of the tree. -/
theorem placesFrom_subset {t : Tree} {path : Path} (h : place ∈ placesFrom path t) :
    placesFrom place.path place.tree ⊆ placesFrom path t := by
  induction t generalizing path with
  | empty => exact absurd h List.not_mem_nil
  | node kind token left right ihl ihr =>
    have hsplit := h
    rw [placesFrom, List.mem_append, List.mem_append, List.mem_singleton] at hsplit
    rcases hsplit with (hleft | hright) | rfl
    · exact fun _ hbelow => List.mem_append_left _ (List.mem_append_left _ (ihl hleft hbelow))
    · exact fun _ hbelow => List.mem_append_left _ (List.mem_append_right _ (ihr hright hbelow))
    · exact fun _ hbelow => hbelow

theorem forall_mem_children {path : Path} {kind : Kind} {token : String} {left right : Tree} {p : Place → Prop} :
    (∀ link ∈ Place.children ⟨path, node kind token left right⟩, p link) ↔
      (left ≠ empty → p ⟨.left :: path, left⟩) ∧ (right ≠ empty → p ⟨.right :: path, right⟩) := by
  cases left <;> cases right <;> simp [Place.children, isEmpty]

theorem children_subset {t : Tree} (h : place ∈ t.postorder) : place.children ⊆ t.postorder := by
  obtain ⟨path, _ | ⟨kind, token, left, right⟩⟩ := place
  · exact List.nil_subset _
  · rw [postorder_eq_placesFrom] at h ⊢
    refine forall_mem_children.mpr ⟨fun hl => placesFrom_subset h ?_, fun hr => placesFrom_subset h ?_⟩
    · exact List.mem_append_left _ (List.mem_append_left _ (root_mem_placesFrom hl _))
    · exact List.mem_append_left _ (List.mem_append_right _ (root_mem_placesFrom hr _))


/-- What a walk for a link may end with. If it fails, the first node below that lacks a link is at fault. -/
inductive Filled (mixer : Mixer η) (whole : Tree) (memo : Memo η) (path : Path) (t : Tree) :
    Except (Stuck (Memo η)) (Memo η) → Prop
  | done {memo' : Memo η} (hsound : Sound mixer whole memo')
      (hkept : ∀ p, (memo.digests p).isSome = true → (memo'.digests p).isSome = true)
      (hroot : t ≠ empty → (memo'.digests path).isSome = true) : Filled mixer whole memo path t (.ok memo')
  | stuck {fault : Fault} {memo' : Memo η} (hsound : Sound mixer whole memo')
      (hfault : (placesFrom path t).findSome? (·.tree.linkFault?) = some fault) :
      Filled mixer whole memo path t (.error ⟨fault, memo'⟩)

theorem exists_mapM {α β : Type} {f : α → Option β} {as : List α} (h : ∀ a ∈ as, ∃ b, f a = some b) :
    ∃ bs, as.mapM f = some bs := by
  induction as with
  | nil => exact ⟨[], rfl⟩
  | cons a as ih =>
    rw [List.forall_mem_cons] at h
    obtain ⟨⟨b, hb⟩, has⟩ := h
    obtain ⟨bs, hbs⟩ := ih has
    exact ⟨b :: bs, by rw [List.mapM_cons, hb, hbs]; rfl⟩

/-- The summary of a node whose links keep theirs. -/
theorem Sound.summary_eq {path : Path} {kind : Kind} {token : String} {left right : Tree}
    {links : List (Summary η)} (h : Sound mixer whole memo)
    (hplace : ⟨path, node kind token left right⟩ ∈ whole.postorder)
    (hkept : (Place.children ⟨path, node kind token left right⟩).mapM (fun link => memo.summary? link.path) =
      some links) :
    (node kind token left right).summary mixer = Summary.combine mixer kind token links := by
  have hconsistent : Consistent mixer memo (Place.children ⟨path, node kind token left right⟩) :=
    fun link hlink => h.consistent link (children_subset hplace hlink)
  rw [summary_node mixer path, hconsistent.mapM_summary hkept]
  rfl

/-- A step at a node whose links keep their summaries. -/
theorem Sound.filled {path : Path} {kind : Kind} {token : String} {left right : Tree} {links : List (Summary η)}
    (h : Sound mixer whole memo) (hplace : ⟨path, node kind token left right⟩ ∈ whole.postorder)
    (hkept : (Place.children ⟨path, node kind token left right⟩).mapM (fun link => memo.summary? link.path) =
      some links) :
    Filled mixer whole memo path (node kind token left right)
      (keep mixer memo ⟨path, node kind token left right⟩) := by
  have hsummary := h.summary_eq hplace hkept
  rw [keep]
  simp only [hkept]
  cases hcombine : Summary.combine mixer kind token links with
  | error fault =>
    rw [hcombine] at hsummary
    have hnone := (h _ hplace).digests_eq_none hsummary
    refine .stuck (h.update hplace (fun p hp => by simp [hp]) (fun p hp => rfl) (.failed hsummary hnone)) ?_
    rw [findSome?_linkFault? mixer Tree.noConfusion, hsummary]
    rfl
  | ok s =>
    rw [hcombine] at hsummary
    refine .done (h.update hplace (fun p hp => by simp [hp]) (fun p hp => by simp [hp]) ?_) ?_ ?_
    · exact .kept hsummary (by simp [size_combine hcombine]) (by simp)
    · intro p hp
      rw [digests_setDigest]
      split
      · rfl
      · exact hp
    · simp

/-- A node whose links keep their fingerprints. -/
theorem filled_keep {path : Path} {kind : Kind} {token : String} {left right : Tree} (h : Sound mixer whole memo)
    (hplace : ⟨path, node kind token left right⟩ ∈ whole.postorder)
    (hlinks : ∀ link ∈ Place.children ⟨path, node kind token left right⟩,
      (memo.digests link.path).isSome = true) :
    Filled mixer whole memo path (node kind token left right)
      (keep mixer memo ⟨path, node kind token left right⟩) := by
  have hsummaries : ∀ link ∈ Place.children ⟨path, node kind token left right⟩,
      ∃ s, memo.summary? link.path = some s := by
    intro link hlink
    obtain ⟨s, -, hs⟩ := (h link (children_subset hplace hlink)).summary?_eq (hlinks link hlink)
    exact ⟨s, hs⟩
  obtain ⟨links, hkept⟩ := exists_mapM hsummaries
  exact h.filled hplace hkept

/-- A step at any node keeps the invariant, whatever its links keep. -/
theorem Sound.keep (h : Sound mixer whole memo) (hplace : place ∈ whole.postorder) :
    match keep mixer memo place with
    | .ok memo' => Sound mixer whole memo'
    | .error stuck => Sound mixer whole stuck.state := by
  obtain ⟨path, _ | ⟨kind, token, left, right⟩⟩ := place
  · exact h
  · cases hkept : (Place.children ⟨path, node kind token left right⟩).mapM fun link => memo.summary? link.path with
    | none =>
      rw [Memo.keep]
      simp only [hkept]
      exact h
    | some links =>
      have hfilled := h.filled hplace hkept
      generalize Memo.keep mixer memo _ = filled at hfilled
      cases hfilled with
      | done hsound => exact hsound
      | stuck hsound => exact hsound

/-! ## A walk -/

theorem Filled.mono {memo' : Memo η} {path : Path} {t : Tree} {filled : Except (Stuck (Memo η)) (Memo η)}
    (h : Filled mixer whole memo' path t filled)
    (hgrown : ∀ p, (memo.digests p).isSome = true → (memo'.digests p).isSome = true) :
    Filled mixer whole memo path t filled := by
  cases h with
  | done hsound hkept hroot => exact .done hsound (fun p hp => hkept p (hgrown p hp)) hroot
  | stuck hsound hfault => exact .stuck hsound hfault

/-- A node that comes back on top of the stack is done if it keeps a fingerprint, else it is filled from its links. -/
theorem fillFrom_expanded (mixer : Mixer η) (memo : Memo η) (place : Place) (rest : List Pending) :
    fillFrom mixer memo (⟨place, true⟩ :: rest) =
      (if (memo.digests place.path).isSome then .ok memo else keep mixer memo place) >>= (fillFrom mixer · rest) := by
  rw [fillFrom]
  by_cases hkept : (memo.digests place.path).isSome = true
  · rw [if_pos hkept, if_pos hkept]
    rfl
  · rw [if_neg hkept, if_neg hkept, if_pos rfl]
    cases keep mixer memo place <;> rfl

/-- No node of a link lacks a link if the root keeps a fingerprint. -/
theorem Sound.findSome?_eq_none {t : Tree} {path : Path} (h : Sound mixer whole memo)
    (hplaces : placesFrom path t ⊆ whole.postorder) (hroot : t ≠ empty → (memo.digests path).isSome = true) :
    (placesFrom path t).findSome? (·.tree.linkFault?) = none := by
  by_cases ht : t = empty
  · rw [ht]
    rfl
  · obtain ⟨s, hs, -⟩ := (h ⟨path, t⟩ (hplaces (root_mem_placesFrom ht path))).summary?_eq (hroot ht)
    rw [findSome?_linkFault? mixer ht, hs]
    rfl

/-- A node comes back on top of the stack when its links are filled. -/
theorem filled_expanded {path : Path} {kind : Kind} {token : String} {left right : Tree} (h : Sound mixer whole memo)
    (hplaces : placesFrom path (node kind token left right) ⊆ whole.postorder)
    (hleft : left ≠ empty → (memo.digests (.left :: path)).isSome = true)
    (hright : right ≠ empty → (memo.digests (.right :: path)).isSome = true) :
    Filled mixer whole memo path (node kind token left right)
      (if (memo.digests path).isSome then .ok memo else keep mixer memo ⟨path, node kind token left right⟩) := by
  split
  · next hpath => exact .done h (fun _ hp => hp) fun _ => hpath
  · exact filled_keep h (hplaces (root_mem_placesFrom Tree.noConfusion path))
      (forall_mem_children.mpr ⟨hleft, hright⟩)

/-- **The invariant of the walk.** Whatever the nodes keep, a pending link is filled, and then the walk goes on. -/
theorem fillFrom_unvisited (t : Tree) (path : Path) (hplaces : placesFrom path t ⊆ whole.postorder)
    (h : Sound mixer whole memo) (rest : List Pending) :
    ∃ filled, Filled mixer whole memo path t filled ∧
      fillFrom mixer memo (unvisited path t ++ rest) = filled >>= (fillFrom mixer · rest) := by
  induction t generalizing path memo rest with
  | empty => exact ⟨.ok memo, .done h (fun _ hp => hp) (absurd rfl), rfl⟩
  | node kind token left right ihl ihr =>
    have hhead : unvisited path (node kind token left right) ++ rest =
        ⟨⟨path, node kind token left right⟩, false⟩ :: rest := rfl
    have hplacesLeft : placesFrom (.left :: path) left ⊆ whole.postorder :=
      fun _ hplace => hplaces (List.mem_append_left _ (List.mem_append_left _ hplace))
    have hplacesRight : placesFrom (.right :: path) right ⊆ whole.postorder :=
      fun _ hplace => hplaces (List.mem_append_left _ (List.mem_append_right _ hplace))
    rw [hhead, fillFrom]
    by_cases hkept : (memo.digests path).isSome = true
    · exact ⟨.ok memo, .done h (fun _ hp => hp) fun _ => hkept, by rw [if_pos hkept]; rfl⟩
    rw [if_neg hkept, if_neg Bool.false_ne_true, expand_node]
    obtain ⟨filledLeft, hleft, hrunLeft⟩ := ihl (.left :: path) hplacesLeft h
      (unvisited (.right :: path) right ++ ⟨⟨path, node kind token left right⟩, true⟩ :: rest)
    rw [hrunLeft]
    cases hleft with
    | @stuck fault memoLeft hsound hfault =>
      refine ⟨.error ⟨fault, memoLeft⟩, .stuck hsound ?_, rfl⟩
      rw [placesFrom, List.findSome?_append, List.findSome?_append, hfault]
      rfl
    | @done memoLeft hsoundLeft hkeptLeft hrootLeft =>
      obtain ⟨filledRight, hright, hrunRight⟩ := ihr (.right :: path) hplacesRight hsoundLeft
        (⟨⟨path, node kind token left right⟩, true⟩ :: rest)
      change ∃ filled, _ ∧ fillFrom mixer memoLeft _ = _
      rw [hrunRight]
      cases hright with
      | @stuck fault memoRight hsound hfault =>
        refine ⟨.error ⟨fault, memoRight⟩, .stuck hsound ?_, rfl⟩
        rw [placesFrom, List.findSome?_append, List.findSome?_append, hfault,
          hsoundLeft.findSome?_eq_none hplacesLeft hrootLeft]
        rfl
      | @done memoRight hsound hkeptRight hrootRight =>
        have hgrown (p : Path) (hp : (memo.digests p).isSome = true) : (memoRight.digests p).isSome = true :=
          hkeptRight p (hkeptLeft p hp)
        have hfilled := filled_expanded hsound hplaces (fun hl => hkeptRight _ (hrootLeft hl)) hrootRight
        exact ⟨_, hfilled.mono hgrown, fillFrom_expanded mixer memoRight ⟨path, node kind token left right⟩ rest⟩

/-! ## Requests -/

theorem length_nodes (t : Tree) (order : Order) : (t.nodes order).length = t.count := by
  cases order with
  | breadthFirst => exact t.breadthFirst_perm_preorder.length_eq.trans t.length_preorder
  | depthFirst => exact (congrArg List.length t.depthFirst_eq_preorder).trans t.length_preorder

theorem ne_empty_of_mem_postorder {t : Tree} (h : place ∈ t.postorder) : place.tree ≠ empty :=
  ne_empty_of_mem_preorder ((postorder_perm_preorder t).mem_iff.mp (List.mem_map_of_mem h))

/-- A walk for a node of the tree. -/
theorem filled_fillFrom (h : Sound mixer whole memo) (hplace : place ∈ whole.postorder) :
    Filled mixer whole memo place.path place.tree (fillFrom mixer memo [⟨place, false⟩]) := by
  have hplaces : placesFrom place.path place.tree ⊆ whole.postorder := by
    rw [postorder_eq_placesFrom] at hplace ⊢
    exact placesFrom_subset hplace
  have hstart : [⟨place, false⟩] = unvisited place.path place.tree ++ [] := by
    rw [unvisited, isEmpty_eq_false_iff.mpr (ne_empty_of_mem_postorder hplace)]
    rfl
  obtain ⟨filled, hfilled, hrun⟩ := fillFrom_unvisited place.tree place.path hplaces h []
  have hdone : fillFrom mixer memo [⟨place, false⟩] = filled := by
    rw [hstart, hrun]
    cases filled with
    | error stuck => rfl
    | ok memo' => exact fillFrom.eq_1 mixer memo'
  rwa [hdone]

theorem Sound.after_ask (h : Sound mixer whole memo) (hplace : place ∈ whole.postorder)
    (kept : Memo η → Path → Option α) : Sound mixer whole (after (ask mixer kept memo place)) := by
  have hfilled := filled_fillFrom h hplace
  rw [ask]
  split
  · exact h
  · generalize fillFrom mixer memo [⟨place, false⟩] = filled at hfilled
    cases hfilled with
    | stuck hsound => exact hsound
    | done hsound =>
      dsimp only
      split <;> exact hsound

theorem Sound.after_digest (h : Sound mixer whole memo) (hplace : place ∈ whole.postorder) :
    Sound mixer whole (after (memo.digest mixer place)) :=
  h.after_ask hplace digests

/-- What holds after two requests in a row. -/
theorem Sound.bind {β : Type} {answer : Except (Stuck (Memo η)) (α × Memo η)}
    {next : α × Memo η → Except (Stuck (Memo η)) (β × Memo η)} (h : Sound mixer whole (after answer))
    (hnext : ∀ a memo', Sound mixer whole memo' → Sound mixer whole (after (next (a, memo')))) :
    Sound mixer whole (after (answer >>= next)) := by
  cases answer with
  | error stuck => exact h
  | ok result => exact hnext result.1 result.2 h

/-- A node that has a summary gives its own value, whatever is kept. -/
theorem value_ask {kept : Memo η → Path → Option α} {a : α} (h : Sound mixer whole memo)
    (hplace : place ∈ whole.postorder) (hs : place.tree.summary mixer = .ok s)
    (hkept : ∀ memo', Faithful mixer memo' place →
      kept memo' place.path = (memo'.digests place.path).map fun _ => a) :
    value (ask mixer kept memo place) = .ok a := by
  have hfilled := filled_fillFrom h hplace
  rw [ask, hkept memo (h place hplace)]
  cases memo.digests place.path with
  | some d => rfl
  | none =>
    rw [Option.map_none]
    generalize fillFrom mixer memo [⟨place, false⟩] = filled at hfilled
    cases hfilled with
    | stuck _ hfault =>
      rw [findSome?_linkFault? mixer (ne_empty_of_mem_postorder hplace), hs] at hfault
      cases hfault
    | done hsound _ hroot =>
      obtain ⟨d, hd⟩ := Option.isSome_iff_exists.mp (hroot (ne_empty_of_mem_postorder hplace))
      simp only [hkept _ (hsound place hplace), hd, Option.map_some]
      rfl

/-- A node without a summary, which keeps nothing that answers the request, gives the fault of the summary. -/
theorem value_ask_error {kept : Memo η → Path → Option α} {fault : Fault} (h : Sound mixer whole memo)
    (hplace : place ∈ whole.postorder) (hfault : place.tree.summary mixer = .error fault)
    (hnone : kept memo place.path = none) : value (ask mixer kept memo place) = .error fault := by
  have hfilled := filled_fillFrom h hplace
  rw [ask, hnone]
  generalize fillFrom mixer memo [⟨place, false⟩] = filled at hfilled
  cases hfilled with
  | stuck _ hfirst =>
    rw [findSome?_linkFault? mixer (ne_empty_of_mem_postorder hplace), hfault] at hfirst
    cases hfirst
    rfl
  | done hsound _ hroot =>
    have hkept := hroot (ne_empty_of_mem_postorder hplace)
    rw [(hsound place hplace).digests_eq_none hfault] at hkept
    cases hkept

theorem value_size (h : Sound mixer whole memo) (hplace : place ∈ whole.postorder)
    (hs : place.tree.summary mixer = .ok s) : value (memo.size mixer place) = .ok s.size :=
  value_ask h hplace hs fun _ hfaithful => hfaithful.sizes_eq hs

theorem value_digest (h : Sound mixer whole memo) (hplace : place ∈ whole.postorder)
    (hs : place.tree.summary mixer = .ok s) : value (memo.digest mixer place) = .ok s.digest :=
  value_ask h hplace hs fun _ hfaithful => hfaithful.digests_eq hs

/-- The fingerprint of a node, or the fault of computing it, does not depend on what is kept. -/
theorem value_digest_eq_map (h : Sound mixer whole memo) (hplace : place ∈ whole.postorder) :
    value (memo.digest mixer place) = (·.digest) <$> place.tree.summary mixer := by
  cases hs : place.tree.summary mixer with
  | ok s => exact value_digest h hplace hs
  | error fault => exact value_ask_error h hplace hs ((h place hplace).digests_eq_none hs)

theorem eq_ok_of_value {answer : Except (Stuck (Memo η)) (α × Memo η)} {a : α} (h : value answer = .ok a) :
    answer = .ok (a, after answer) := by
  cases answer with
  | error stuck => cases h
  | ok result =>
    cases h
    rfl

/-! ## Nodes that keep nothing yet -/

theorem root_mem_postorder {t : Tree} (ht : t ≠ empty) : Place.root t ∈ t.postorder := by
  rw [postorder_eq_placesFrom]
  exact root_mem_placesFrom ht []

/-- The first requests to a tree in which no node lacks a link. -/
theorem value_fresh {t : Tree} (ht : t ≠ empty) (hs : t.summary mixer = .ok s) :
    value (fresh.size mixer (.root t)) = .ok t.count ∧ value (fresh.digest mixer (.root t)) = .ok s.digest := by
  have hsound := sound_fresh mixer t
  rw [← size_eq_count ht hs]
  exact ⟨value_size hsound (root_mem_postorder ht) hs, value_digest hsound (root_mem_postorder ht) hs⟩

/-- A request for the size of a tree in which no node lacks a link, whatever its nodes keep. -/
theorem Sound.exists_size {t : Tree} (h : Sound mixer t memo) (ht : t ≠ empty) (hs : t.summary mixer = .ok s) :
    ∃ memo', memo.size mixer (.root t) = .ok (t.count, memo') ∧ Sound mixer t memo' := by
  have hroot := root_mem_postorder ht
  have hvalue : value (memo.size mixer (.root t)) = .ok t.count := by
    rw [value_size h hroot hs, size_eq_count ht hs]
  exact ⟨_, eq_ok_of_value hvalue, h.after_ask hroot sizes⟩

/-- The first requests to a tree in which some node lacks a link. -/
theorem value_fresh_error {t : Tree} (ht : t ≠ empty) {fault : Fault} (hfault : t.summary mixer = .error fault) :
    value (fresh.size mixer (.root t)) = .error fault ∧ value (fresh.digest mixer (.root t)) = .error fault := by
  have hsound := sound_fresh mixer t
  exact ⟨value_ask_error hsound (root_mem_postorder ht) hfault (sizes_fresh _),
    value_ask_error hsound (root_mem_postorder ht) hfault (digests_fresh _)⟩

/-- The comparison of two trees whose nodes keep nothing yet. -/
theorem equals_eq [DecidableEq η] {a b : Tree} {s s' : Summary η} (ha : a ≠ empty) (hb : b ≠ empty)
    (hs : a.summary mixer = .ok s) (hs' : b.summary mixer = .ok s') :
    a.equals mixer b = .ok (if s.digest = s'.digest then sameFrom [(a, b)] else false) := by
  rw [equals, isEmpty_eq_false_iff.mpr ha, isEmpty_eq_false_iff.mpr hb, (value_fresh ha hs).2, (value_fresh hb hs').2]
  change ite (s.digest = s'.digest) (pure _) (pure _) = _
  split <;> rfl

/-! ## Equality -/

section Equality

variable [DecidableEq η]

/-- The comparison of two nodes, whatever is kept, is that of the two trees. -/
theorem value_equal {other : Place} {s' : Summary η} (h : Sound mixer whole memo) (hplace : place ∈ whole.postorder)
    (hother : other ∈ whole.postorder) (hs : place.tree.summary mixer = .ok s)
    (hs' : other.tree.summary mixer = .ok s') :
    value (memo.equal mixer place other) = place.tree.equals mixer other.tree := by
  have hleft := eq_ok_of_value (value_digest h hplace hs)
  have hright := eq_ok_of_value (value_digest (h.after_digest hplace) hother hs')
  have hcompare : value (memo.equal mixer place other) =
      .ok (if s.digest = s'.digest then sameFrom [(place.tree, other.tree)] else false) := by
    rw [equal, hleft]
    change value (digest mixer _ other >>= _) = _
    rw [hright]
    rfl
  rw [hcompare, equals_eq (ne_empty_of_mem_postorder hplace) (ne_empty_of_mem_postorder hother) hs hs']

/-- The invariant holds after every request, also after one that fails. -/
theorem Sound.answer (h : Sound mixer whole memo) {request : Request}
    (hplaces : ∀ place ∈ request.places, place ∈ whole.postorder) :
    Sound mixer whole (memo.answer mixer request) := by
  cases request with
  | size place => exact h.after_ask (hplaces place (List.mem_singleton_self _)) sizes
  | digest place => exact h.after_digest (hplaces place (List.mem_singleton_self _))
  | equal a b =>
    have ha : a ∈ whole.postorder := hplaces a List.mem_cons_self
    have hb : b ∈ whole.postorder := hplaces b (List.mem_cons_of_mem a (List.mem_singleton_self b))
    exact .bind (h.after_digest ha) fun _ _ hleft => .bind (hleft.after_digest hb) fun _ _ hright => hright

theorem Sound.foldl_answer (h : Sound mixer whole memo) {requests : List Request}
    (hplaces : ∀ request ∈ requests, ∀ place ∈ request.places, place ∈ whole.postorder) :
    Sound mixer whole (requests.foldl (Memo.answer mixer) memo) := by
  induction requests generalizing memo with
  | nil => exact h
  | cons request requests ih =>
    rw [List.forall_mem_cons] at hplaces
    exact ih (h.answer hplaces.1) hplaces.2

end Equality

end Memo

/-! ## Trees -/

namespace Tree

open Memo

variable {η : Type} {mixer : Mixer η}

theorem size_eq_value {t : Tree} (ht : t ≠ empty) : t.size = value (fresh.size Mixer.standard (.root t)) := by
  rw [Tree.size, isEmpty_eq_false_iff.mpr ht, if_neg Bool.false_ne_true]

theorem digest_eq_value {t : Tree} (ht : t ≠ empty) :
    t.digest mixer = some <$> value (fresh.digest mixer (.root t)) := by
  rw [Tree.digest, isEmpty_eq_false_iff.mpr ht, if_neg Bool.false_ne_true]

theorem digest_eq_map {t : Tree} (ht : t ≠ empty) : t.digest mixer = (some ·.digest) <$> t.summary mixer := by
  rw [digest_eq_value ht, value_digest_eq_map (sound_fresh mixer t) (root_mem_postorder ht)]
  exact (comp_map _ _ _).symm

theorem Linked.size_eq {t : Tree} (ht : t ≠ empty) (h : t.Linked) : t.size = .ok t.count := by
  obtain ⟨s, hs⟩ := (exists_summary_iff Mixer.standard ht).mpr h
  rw [size_eq_value ht, (value_fresh ht hs).1]

theorem IsExpression.size_eq {t : Tree} (h : t.IsExpression) : t.size = .ok t.count :=
  h.linked.size_eq h.ne_empty

theorem size_eq_error {t : Tree} (ht : t ≠ empty) {fault : Fault}
    (hfault : t.postorder.findSome? (·.tree.linkFault?) = some fault) : t.size = .error fault := by
  rw [size_eq_value ht, (value_fresh_error ht (summary_eq_error Mixer.standard ht hfault)).1]

end Tree

namespace Memo

variable {η : Type}

/-- **Sizes and fingerprints depend on the links alone.** For every tree that has a node, also one made by hand, a first
request for the size or the fingerprint of the root succeeds if and only if every binary node has both links and every
unary node at least one. Then the size is the number of nodes in a list of all of them. Otherwise both requests fail
with the fault of the first node in post-order that lacks a link: the number of links of a binary node, and for a unary
node that there is none. Well-formed trees whose operator tokens the constructors accept lack no link. And whatever
requests were made to nodes of a tree before, whether they failed or not, a node below which no link is lacking gives
the size, the fingerprint and the outcomes of comparisons that it gives at first. -/
theorem answers_of_links [DecidableEq η] (mixer : Mixer η) :
    (∀ t ≠ empty,
      ((∃ n, value (fresh.size mixer (.root t)) = .ok n) ↔ t.Linked) ∧
      ((∃ d, value (fresh.digest mixer (.root t)) = .ok d) ↔ t.Linked) ∧
      (t.Linked → ∀ order, value (fresh.size mixer (.root t)) = .ok (t.nodes order).length) ∧
      (¬t.Linked → ∃ before place after fault, t.postorder = before ++ place :: after ∧
        (∀ earlier ∈ before, earlier.tree.HasLinks) ∧ place.tree.linkFault? = some fault ∧
        value (fresh.size mixer (.root t)) = .error fault ∧ value (fresh.digest mixer (.root t)) = .error fault) ∧
      value (fresh.size mixer (.root t)) = t.size ∧
      some <$> value (fresh.digest mixer (.root t)) = t.digest mixer) ∧
    (∀ t : Tree, t.WellFormed → t.Constructed → t.Linked) ∧
    ∀ (t : Tree) (requests : List Request),
      (∀ request ∈ requests, ∀ place ∈ request.places, place ∈ t.postorder) →
      ∀ place ∈ t.postorder, place.tree.Linked →
        let memo := requests.foldl (answer mixer) fresh
        value (memo.size mixer place) = place.tree.size ∧
        some <$> value (memo.digest mixer place) = place.tree.digest mixer ∧
        ∀ other ∈ t.postorder, other.tree.Linked →
          value (memo.equal mixer place other) = place.tree.equals mixer other.tree := by
  refine ⟨?_, fun t => WellFormed.linked, ?_⟩
  · intro t ht
    by_cases hlinked : t.Linked
    · obtain ⟨s, hs⟩ := (exists_summary_iff mixer ht).mpr hlinked
      obtain ⟨hsize, hdigest⟩ := value_fresh ht hs
      refine ⟨iff_of_true ⟨_, hsize⟩ hlinked, iff_of_true ⟨_, hdigest⟩ hlinked, ?_, absurd hlinked, ?_, ?_⟩
      · rintro - order
        rw [hsize, length_nodes]
      · rw [hsize, hlinked.size_eq ht]
      · rw [hdigest, digest_eq_map ht, hs]
        rfl
    · obtain ⟨before, place, after, fault, hsplit, hbefore, hplace, hfault⟩ := exists_first_fault hlinked
      have hsummary := summary_eq_error mixer ht hfault
      obtain ⟨hsize, hdigest⟩ := value_fresh_error ht hsummary
      refine ⟨iff_of_false ?_ hlinked, iff_of_false ?_ hlinked, fun h => absurd h hlinked,
        fun _ => ⟨before, place, after, fault, hsplit, hbefore, hplace, hsize, hdigest⟩, ?_, ?_⟩
      · simp [hsize]
      · simp [hdigest]
      · rw [hsize, size_eq_error ht hfault]
      · rw [hdigest, digest_eq_map ht, hsummary]
        rfl
  · intro t requests hplaces place hplace hlinked
    have hsound := (sound_fresh mixer t).foldl_answer hplaces
    have hne := ne_empty_of_mem_postorder hplace
    obtain ⟨s, hs⟩ := (exists_summary_iff mixer hne).mpr hlinked
    refine ⟨?_, ?_, ?_⟩
    · rw [value_size hsound hplace hs, size_eq_count hne hs, hlinked.size_eq hne]
    · rw [value_digest hsound hplace hs, digest_eq_map hne, hs]
      rfl
    · intro other hother hlinked'
      obtain ⟨s', hs'⟩ := (exists_summary_iff mixer (ne_empty_of_mem_postorder hother)).mpr hlinked'
      exact value_equal hsound hplace hother hs hs'

/-- A binary node that lacks a link stands behind a unary one without any, which is at fault. After a request that fails
and a comparison that fails, the operand below the binary node still gives its size. -/
theorem answers_of_links_two_faults :
    let mixer := Mixer.standard
    let negation := node .unary "!" empty empty
    let t := binary "+" negation (node .binary "*" (operand "2") empty)
    let leaf : Place := ⟨[.left, .right], operand "2"⟩
    let requests : List Request := [.digest (.root t), .equal leaf (.root t)]
    value (fresh.size mixer (.root t)) = .error .noOperand ∧
      value (fresh.size mixer (.root (unary "!" (operand "2")))) = .ok 2 ∧
      value ((requests.foldl (answer mixer) fresh).size mixer leaf) = .ok 1 := by
  intro mixer negation t leaf requests
  obtain ⟨hfresh, hwellFormed, hlater⟩ := answers_of_links mixer
  have hpostorder : t.postorder =
      [⟨[.left], negation⟩, leaf, ⟨[.right], node .binary "*" (operand "2") empty⟩, .root t] :=
    postorder_eq_placesFrom t
  have hleaf : (operand "2").Linked := hwellFormed _ ⟨rfl, trivial, trivial⟩ (by simp [operand, Constructed])
  refine ⟨?_, ?_, ?_⟩
  · have hlacking : ¬t.Linked := by
      intro h
      rw [Linked, hpostorder] at h
      exact (h _ List.mem_cons_self).elim (absurd rfl) (absurd rfl)
    obtain ⟨-, -, -, hfault, -⟩ := hfresh t Tree.noConfusion
    obtain ⟨before, place, after, fault, hsplit, hbefore, hplace, hsize, -⟩ := hfault hlacking
    rw [hpostorder] at hsplit
    cases before with
    | nil =>
      cases hsplit
      cases hplace
      exact hsize
    | cons first before =>
      rw [List.cons_append, List.cons.injEq] at hsplit
      obtain ⟨rfl, -⟩ := hsplit
      exact (hbefore _ List.mem_cons_self).elim (absurd rfl) (absurd rfl)
  · have hlinked : (unary "!" (operand "2")).Linked :=
      hwellFormed _ ⟨by decide, trivial, rfl, trivial, trivial⟩
        ⟨Kind.noConfusion, fun _ => by decide, trivial, by simp [operand, Constructed]⟩
    obtain ⟨-, -, hsize, -⟩ := hfresh (unary "!" (operand "2")) Tree.noConfusion
    rw [hsize hlinked .breadthFirst, length_nodes]
    rfl
  · have hmem : leaf ∈ t.postorder := by simp [hpostorder]
    have hroot : .root t ∈ t.postorder := by simp [hpostorder]
    have hrequests : ∀ request ∈ requests, ∀ place ∈ request.places, place ∈ t.postorder := by
      simp [requests, Request.places, hmem, hroot]
    obtain ⟨hsize, -⟩ := hlater t requests hrequests leaf hmem hleaf
    rw [hsize, hleaf.size_eq Tree.noConfusion]
    rfl

end Memo

end Abacus
