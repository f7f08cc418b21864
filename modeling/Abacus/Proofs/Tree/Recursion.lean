import Abacus.Proofs.Tree.Fold
import Abacus.Value.Evaluate
import Abacus.Value.Exact
import Mathlib.Data.List.Nodup
import Mathlib.Logic.Function.Basic

/-!
# Bottom-up evaluation as a recursive definition

An evaluation of a tree is recursive if the value of a node is what `combine` makes of the values of its links. This
alone decides which error is reported: the one of the first node in post-order at which `combine` fails.

The loop keeps the results that no parent has used yet in a table, under one key for each node. Which keys these are
does not matter as long as they tell the nodes apart. Then the subtree that has been visited leaves one entry, under the
key of its root, and every other key is free again. This is the invariant of the table.

Results:
* `Place.Recursive.of_step`, `Place.Stepwise.eq`: the recursion decides the errors and all values.
* `Place.foldlM_keyedStep`, `Place.foldKeyed_eq_fold`: the table under any keys that tell the nodes apart.
* `Place.fold_recursive`: the loop is recursive, and so are the value in doubles and the symbolic expression.
-/

namespace Abacus

/-! ## Errors -/

section Errors

variable {ε α β : Type}

/-- The error of a step that fails. -/
def error? : Except ε α → Option ε
  | .ok _ => none
  | .error e => some e

theorem error?_eq_some_iff {x : Except ε α} {e : ε} : error? x = some e ↔ x = .error e := by
  cases x <;> simp [error?]

theorem error?_map (f : α → β) (x : Except ε α) : error? (f <$> x) = error? x := by
  cases x <;> rfl

/-- The error of two steps in a row is that of the first one that fails. -/
theorem error?_bind (x : Except ε α) (f : α → Except ε β) :
    error? (x >>= f) = (error? x).or (x.toOption.bind fun a => error? (f a)) := by
  cases x <;> rfl

end Errors

/-! ## Recursive evaluations -/

namespace Place

open Abacus.Tree

variable {ι α ε : Type}

/-- The place as a list of one place, or of none if no node is there. -/
def present (place : Place) : List Place :=
  if place.tree.isEmpty then [] else [place]

/-- The error of `combine` at a node, if the links have values and `combine` fails on them. -/
def rootError? (combine : Place → List α → Except ε α) (value : Place → Except ε α) (place : Place) : Option ε :=
  (place.children.mapM value).toOption.bind fun values => error? (combine place values)

/-- The value of a node is what `combine` makes of the values of the links that are present, left before right. -/
def Stepwise (combine : Place → List α → Except ε α) (value : Place → Except ε α) : Prop :=
  ∀ place : Place, place.tree ≠ .empty → value place = place.children.mapM value >>= combine place

/-- A recursive evaluation. Its error is the one of the first node in post-order at which `combine` fails. -/
structure Recursive (combine : Place → List α → Except ε α) (value : Place → Except ε α) : Prop where
  step : Stepwise combine value
  error_iff : ∀ place : Place, place.tree ≠ .empty → ∀ e, value place = .error e ↔
    place.postorder.findSome? (rootError? combine value) = some e

theorem children_node (path : Path) (kind : Kind) (token : String) (left right : Tree) :
    children ⟨path, .node kind token left right⟩ =
      present ⟨.left :: path, left⟩ ++ present ⟨.right :: path, right⟩ := by
  cases left <;> cases right <;> rfl

theorem mapM_present {place : Place} (ht : place.tree ≠ .empty) (value : Place → Except ε α) :
    place.present.mapM value = (fun a => [a]) <$> value place := by
  rw [present, Tree.isEmpty_eq_false_iff.mpr ht, if_neg Bool.false_ne_true, List.mapM_cons, List.mapM_nil]
  cases value place <;> rfl

/-- The error of the links is that of the left one, or else that of the right one. -/
theorem error?_mapM_children (value : Place → Except ε α) (path : Path) (kind : Kind) (token : String)
    (left right : Tree) :
    error? ((children ⟨path, .node kind token left right⟩).mapM value) =
      (error? ((present ⟨.left :: path, left⟩).mapM value)).or
        (error? ((present ⟨.right :: path, right⟩).mapM value)) := by
  rw [children_node, List.mapM_append, error?_bind]
  cases (present ⟨.left :: path, left⟩).mapM value with
  | error e => rfl
  | ok ls => cases (present ⟨.right :: path, right⟩).mapM value <;> rfl

/-- The first error among the nodes of a link is the error of its value. -/
theorem findSome?_placesFrom {combine : Place → List α → Except ε α} {value : Place → Except ε α}
    (hstep : Stepwise combine value) (t : Tree) (path : Path) :
    (Tree.placesFrom path t).findSome? (rootError? combine value) = error? ((present ⟨path, t⟩).mapM value) := by
  induction t generalizing path with
  | empty => rfl
  | node kind token left right ihl ihr =>
    rw [Tree.placesFrom, List.findSome?_append, List.findSome?_append, ihl, ihr,
      ← error?_mapM_children value path kind token, mapM_present Tree.noConfusion, error?_map,
      hstep _ Tree.noConfusion, error?_bind, List.findSome?_singleton]
    rfl

/-- The recursion decides which error is reported. -/
theorem Recursive.of_step {combine : Place → List α → Except ε α} {value : Place → Except ε α}
    (hstep : Stepwise combine value) : Recursive combine value where
  step := hstep
  error_iff := by
    intro place ht e
    rw [Tree.postorder_place, findSome?_placesFrom hstep, mapM_present ht, error?_map, error?_eq_some_iff]

theorem mapM_present_congr {value value' : Place → Except ε α} {place : Place}
    (h : place.tree ≠ .empty → value place = value' place) :
    place.present.mapM value = place.present.mapM value' := by
  by_cases ht : place.tree = .empty
  · rw [present, ht]
    rfl
  · rw [mapM_present ht, mapM_present ht, h ht]

/-- The recursion decides all values. -/
theorem Stepwise.eq {combine : Place → List α → Except ε α} {value value' : Place → Except ε α}
    (h : Stepwise combine value) (h' : Stepwise combine value') {place : Place} (ht : place.tree ≠ .empty) :
    value place = value' place := by
  obtain ⟨path, t⟩ := place
  induction t generalizing path with
  | empty => exact absurd rfl ht
  | node kind token left right ihl ihr =>
    rw [h _ ht, h' _ ht, children_node, List.mapM_append, List.mapM_append, mapM_present_congr (ihl _),
      mapM_present_congr (ihr _)]

/-- The value of an empty tree does not matter. -/
theorem Stepwise.congr {combine : Place → List α → Except ε α} {value value' : Place → Except ε α}
    (h : Stepwise combine value) (heq : ∀ place : Place, place.tree ≠ .empty → value' place = value place) :
    Stepwise combine value' := by
  rintro ⟨path, _ | ⟨kind, token, left, right⟩⟩ ht
  · exact absurd rfl ht
  · rw [heq _ ht, h _ ht, children_node, List.mapM_append, List.mapM_append, mapM_present_congr (heq ⟨_, left⟩),
      mapM_present_congr (heq ⟨_, right⟩)]

/-! ## The loop is recursive -/

theorem resultsFrom_eq_mapM (lost : ε) (combine : Place → List α → Except ε α) (path : Path) (t : Tree) :
    t.resultsFrom combine path = (present ⟨path, t⟩).mapM (·.fold lost combine) := by
  by_cases ht : t = .empty
  · rw [ht]
    rfl
  · rw [mapM_present ht]
    exact resultsFrom_eq_map_fold lost combine ⟨path, t⟩ ht

theorem fold_stepwise (lost : ε) (combine : Place → List α → Except ε α) :
    Stepwise combine (·.fold lost combine) := by
  rintro ⟨path, _ | ⟨kind, token, left, right⟩⟩ ht
  · exact absurd rfl ht
  · change fold lost combine _ = _
    rw [fold_eq_results, Tree.resultsFrom, resultsFrom_eq_mapM lost, resultsFrom_eq_mapM lost, children_node,
      List.mapM_append]
    simp only [bind_assoc, pure_bind]
    refine bind_congr fun ls => bind_congr fun rs => ?_
    cases combine ⟨path, .node kind token left right⟩ (ls ++ rs) <;> rfl

/-! ## A table under keys -/

section Keys

variable [DecidableEq ι]

/-- Takes the results under several keys out of a table, in their order; `lost` if one is missing. -/
def takeKeys (lost : ε) : List ι → (ι → Option α) → Except ε (List α × (ι → Option α))
  | [], table => .ok ([], table)
  | key :: keys, table =>
    match table key with
    | none => .error lost
    | some a => do
      let (values, table) ← takeKeys lost keys (Function.update table key none)
      return (a :: values, table)

/-- Enters the result of one node under its key. -/
def keyedStep (key : Place → ι) (lost : ε) (combine : Place → List α → Except ε α)
    (table : ι → Option α) (place : Place) : Except ε (ι → Option α) := do
  let (values, table) ← takeKeys lost (place.children.map key) table
  let a ← combine place values
  return Function.update table (key place) (some a)

/-- The result at a node of a tree whose nodes are told apart by keys. -/
def foldKeyed (key : Place → ι) (lost : ε) (combine : Place → List α → Except ε α) (place : Place) :
    Except ε α := do
  let table ← place.postorder.foldlM (keyedStep key lost combine) fun _ => none
  match table (key place) with
  | some a => return a
  | none => throw lost

/-- What a link that is missing or present leaves in the table. -/
def enterKey (key : ι) (table : ι → Option α) : List α → ι → Option α
  | [] => table
  | a :: _ => Function.update table key (some a)

theorem enterKey_of_ne {key other : ι} {as : List α} (h : as ≠ [] → other ≠ key) (table : ι → Option α) :
    enterKey key table as other = table other := by
  cases as with
  | nil => rfl
  | cons a as => exact Function.update_of_ne (h (List.cons_ne_nil a as)) _ _

/-- Taking out the result that was entered last leaves the table as it was before. -/
theorem takeKeys_update (lost : ε) {key : ι} {keys : List ι} {a : α} {table : ι → Option α}
    (hfree : table key = none) :
    takeKeys lost (key :: keys) (Function.update table key (some a)) =
      takeKeys lost keys table >>= fun taken => .ok (a :: taken.1, taken.2) := by
  have hback : Function.update table key none = table := Function.update_eq_self_iff.mpr hfree.symm
  rw [takeKeys, Function.update_self, Function.update_idem, hback]
  rfl

/-- A parent takes the results of its links and leaves their keys free again. -/
theorem takeKeys_enterKey (lost : ε) {key : Place → ι} {path : Path} (kind : Kind) (token : String)
    {left right : Tree} {ls rs : List α} (hls : ls.length = if left.isEmpty then 0 else 1)
    (hrs : rs.length = if right.isEmpty then 0 else 1) {table : ι → Option α}
    (hne : left ≠ empty → right ≠ empty → key ⟨.left :: path, left⟩ ≠ key ⟨.right :: path, right⟩)
    (hleft : left ≠ empty → table (key ⟨.left :: path, left⟩) = none)
    (hright : right ≠ empty → table (key ⟨.right :: path, right⟩) = none) :
    takeKeys lost ((Place.children ⟨path, node kind token left right⟩).map key)
        (enterKey (key ⟨.right :: path, right⟩) (enterKey (key ⟨.left :: path, left⟩) table ls) rs) =
      .ok (ls ++ rs, table) := by
  cases left <;> cases right <;>
    simp only [isEmpty, if_true, if_false, Bool.false_eq_true, List.length_eq_zero_iff,
      List.length_eq_one_iff] at hls hrs
  · subst hls hrs
    rfl
  · obtain ⟨r, rfl⟩ := hrs
    subst hls
    exact takeKeys_update lost (hright Tree.noConfusion)
  · obtain ⟨l, rfl⟩ := hls
    subst hrs
    exact takeKeys_update lost (hleft Tree.noConfusion)
  · obtain ⟨l, rfl⟩ := hls
    obtain ⟨r, rfl⟩ := hrs
    have hdistinct := hne Tree.noConfusion Tree.noConfusion
    have hfree := hleft Tree.noConfusion
    rw [enterKey, enterKey, Function.update_comm hdistinct]
    refine (takeKeys_update lost ?_).trans ?_
    · rwa [Function.update_of_ne hdistinct]
    · change takeKeys lost [key ⟨.right :: path, _⟩] _ >>= _ = _
      rw [takeKeys_update lost (hright Tree.noConfusion)]
      rfl

theorem root_mem_placesFrom {t : Tree} (ht : t ≠ empty) (path : Path) : ⟨path, t⟩ ∈ placesFrom path t := by
  cases t with
  | empty => exact absurd rfl ht
  | node kind token left right => simp [placesFrom]

/-- Where there is a result, there is a node. -/
theorem ne_empty_of_resultsFrom {combine : Place → List α → Except ε α} {path : Path} {t : Tree} {as : List α}
    (h : t.resultsFrom combine path = .ok as) (has : as ≠ []) : t ≠ empty := by
  rintro rfl
  cases h
  exact has rfl

/-- **The invariant of the table.** Where the keys of a tree are distinct and still free, visiting its places enters the
result of the tree under the key of its root, and changes nothing else. -/
theorem foldlM_keyedStep {key : Place → ι} (lost : ε) (combine : Place → List α → Except ε α) (t : Tree)
    (path : Path) (hdistinct : ((placesFrom path t).map key).Nodup) {table : ι → Option α}
    (hfree : ∀ place ∈ placesFrom path t, table (key place) = none) :
    (placesFrom path t).foldlM (keyedStep key lost combine) table =
      enterKey (key ⟨path, t⟩) table <$> t.resultsFrom combine path := by
  induction t generalizing path table with
  | empty => rfl
  | node kind token left right ihl ihr =>
    rw [placesFrom, List.map_append, List.map_append] at hdistinct
    obtain ⟨hboth, -, -⟩ := List.nodup_append.mp hdistinct
    obtain ⟨hdl, hdr, hapart⟩ := List.nodup_append.mp hboth
    rw [placesFrom] at hfree
    obtain ⟨hlinks, -⟩ := List.forall_mem_append.mp hfree
    obtain ⟨hfl, hfr⟩ := List.forall_mem_append.mp hlinks
    have hne : ∀ place ∈ placesFrom (.right :: path) right, left ≠ empty →
        key place ≠ key ⟨.left :: path, left⟩ := by
      intro place hplace hleft hsame
      exact hapart _ (List.mem_map_of_mem (root_mem_placesFrom hleft _)) _ (List.mem_map_of_mem hplace) hsame.symm
    rw [placesFrom, List.foldlM_append, List.foldlM_append, ihl _ hdl hfl, resultsFrom]
    cases hls : left.resultsFrom combine (.left :: path) with
    | error e => rfl
    | ok ls =>
      -- The nodes of the right link do not meet the entry that the left link has left behind.
      have hfree' : ∀ place ∈ placesFrom (.right :: path) right,
          enterKey (key ⟨.left :: path, left⟩) table ls (key place) = none := by
        intro place hplace
        rw [enterKey_of_ne fun has => hne place hplace (ne_empty_of_resultsFrom hls has)]
        exact hfr place hplace
      have hright := ihr _ hdr hfree'
      cases hrs : right.resultsFrom combine (.right :: path) with
      | error e => simp [hright, hrs, bind, Except.bind, Functor.map, Except.map]
      | ok rs =>
        have htake := takeKeys_enterKey lost kind token (length_of_resultsFrom hls)
          (length_of_resultsFrom hrs)
          (fun hleft hright hsame => hne _ (root_mem_placesFrom hright _) hleft hsame.symm)
          (fun hleft => hfl _ (root_mem_placesFrom hleft _))
          (fun hright => hfr _ (root_mem_placesFrom hright _))
        simp only [hright, hrs, bind, Except.bind, Functor.map, Except.map, List.foldlM_cons,
          List.foldlM_nil, keyedStep, htake]
        cases combine ⟨path, node kind token left right⟩ (ls ++ rs) <;> rfl

/-- Under keys that tell the nodes apart, the loop finds every entry and gives the same result. -/
theorem foldKeyed_eq_fold {key : Place → ι} {place : Place} (ht : place.tree ≠ empty)
    (hdistinct : (place.postorder.map key).Nodup) (lost lost' : ε) (combine : Place → List α → Except ε α) :
    place.foldKeyed key lost' combine = place.fold lost combine := by
  have hresults := resultsFrom_eq_map_fold lost combine place ht
  rw [postorder_place] at hdistinct
  rw [foldKeyed, postorder_place, foldlM_keyedStep lost' combine _ _ hdistinct fun _ _ => rfl, hresults]
  cases place.fold lost combine with
  | error e => rfl
  | ok a => simp [enterKey, bind, Except.bind, Functor.map, Except.map]; rfl

end Keys

/-! ## Paths as keys -/

theorem suffix_of_mem_placesFrom {t : Tree} {path : Path} {place : Place} (h : place ∈ placesFrom path t) :
    path <:+ place.path := by
  induction t generalizing path with
  | empty => exact absurd h List.not_mem_nil
  | node kind token left right ihl ihr =>
    rw [placesFrom, List.mem_append, List.mem_append, List.mem_singleton] at h
    rcases h with (hleft | hright) | rfl
    · exact (List.suffix_cons _ _).trans (ihl hleft)
    · exact (List.suffix_cons _ _).trans (ihr hright)
    · exact List.suffix_rfl

/-- The nodes below the two links have different paths. -/
theorem path_ne_of_sides {path suffix : Path} (hleft : (.left :: path) <:+ suffix) :
    ¬(.right :: path) <:+ suffix := by
  intro hright
  have hsame := (List.suffix_of_suffix_length_le hleft hright (Nat.le_refl _)).eq_of_length rfl
  cases hsame

theorem nodup_path_placesFrom (t : Tree) (path : Path) : ((placesFrom path t).map (·.path)).Nodup := by
  induction t generalizing path with
  | empty => exact List.nodup_nil
  | node kind token left right ihl ihr =>
    rw [placesFrom, List.map_append, List.map_append]
    refine List.nodup_append.mpr ⟨List.nodup_append.mpr ⟨ihl _, ihr _, ?_⟩, List.nodup_singleton _, ?_⟩
    · intro p hp q hq hsame
      obtain ⟨place, hplace, rfl⟩ := List.mem_map.mp hp
      obtain ⟨place', hplace', rfl⟩ := List.mem_map.mp hq
      exact path_ne_of_sides (hsame ▸ suffix_of_mem_placesFrom hplace) (suffix_of_mem_placesFrom hplace')
    · intro p hp q hq hsame
      rw [← List.map_append] at hp
      obtain ⟨place, hplace, rfl⟩ := List.mem_map.mp hp
      have hlonger : path.length < place.path.length := by
        rcases List.mem_append.mp hplace with hleft | hright
        · exact (suffix_of_mem_placesFrom hleft).length_le
        · exact (suffix_of_mem_placesFrom hright).length_le
      rw [hsame, List.mem_singleton.mp hq] at hlonger
      exact absurd hlonger (Nat.lt_irrefl _)

theorem nodup_path_postorder (place : Place) : (place.postorder.map (·.path)).Nodup := by
  rw [postorder_place]
  exact nodup_path_placesFrom place.tree place.path

/-! ## The evaluations -/

/-- An evaluation of which the kinds and the tokens decide. -/
theorem recursive_byToken {combine : Kind → String → List α → Except ε α} {value : Tree → Except ε α} (lost : ε)
    (h : ∀ t ≠ empty, value t = t.fold lost combine) : Recursive (byToken lost combine) (value ·.tree) := by
  refine .of_step ((fold_stepwise lost (byToken lost combine)).congr fun place ht => ?_)
  rw [fold_byToken]
  exact h place.tree ht

theorem evaluate_recursive : Recursive (byToken Fault.lostResult combineDoubles) (·.tree.evaluate) := by
  refine recursive_byToken Fault.lostResult fun t ht => ?_
  rw [evaluate, isEmpty_eq_false_iff.mpr ht, if_neg Bool.false_ne_true]

theorem toSymbolic_recursive [Symbolic] (evaluate : Bool) :
    Recursive (byToken Fault.lostResult (combineSymbolic evaluate)) (·.tree.toSymbolic evaluate) := by
  refine recursive_byToken Fault.lostResult fun t ht => ?_
  rw [toSymbolic, isEmpty_eq_false_iff.mpr ht, if_neg Bool.false_ne_true]

/-- **The evaluation loop is structural recursion.** No two nodes of a tree have the same path. Under these and under
all other keys that tell the nodes apart, the loop finds the result of every link in its table, so that no error stands
for a missing one, and it gives what any recursive evaluation by `combine` gives: at a node what `combine` makes of this
node and of the values of the links that are present, left before right, or else the error of the first node in
post-order at which `combine` fails. So does the value in doubles, and so does the symbolic expression over any library,
evaluated or not. -/
theorem fold_recursive [DecidableEq ι] (lost : ε) (combine : Place → List α → Except ε α) :
    (∀ place : Place, (place.postorder.map (·.path)).Nodup) ∧
    (∀ (key : Place → ι) (place : Place), place.tree ≠ empty → (place.postorder.map key).Nodup →
      ∀ lost', place.foldKeyed key lost' combine = place.fold lost combine) ∧
    Recursive combine (·.fold lost combine) ∧
    (∀ value, Stepwise combine value → ∀ place : Place, place.tree ≠ empty →
      place.fold lost combine = value place) ∧
    Recursive (byToken Fault.lostResult combineDoubles) (·.tree.evaluate) ∧
    ∀ [Symbolic] (evaluate : Bool),
      Recursive (byToken Fault.lostResult (combineSymbolic evaluate)) (·.tree.toSymbolic evaluate) := by
  refine ⟨nodup_path_postorder, ?_, .of_step (fold_stepwise lost combine), ?_, evaluate_recursive,
    toSymbolic_recursive⟩
  · intro key place ht hdistinct lost'
    exact foldKeyed_eq_fold ht hdistinct lost lost' combine
  · intro value hvalue place ht
    exact (fold_stepwise lost combine).eq hvalue ht

/-- An operand that has a link, and three nodes that fail; the first of them in post-order is the one below the
operand. -/
theorem fold_recursive_first_error :
    let combine : Place → List Nat → Except String Nat := fun place values =>
      if place.tree.token = "1" then .ok values.length else .error place.tree.token
    (Place.root (binary "/" (node .operand "1" empty (operand "2x")) (operand "0"))).foldKeyed (·.path) "gone"
      combine = .error "2x" := by
  intro combine
  obtain ⟨hpaths, hkeyed, -⟩ := @fold_recursive Path Nat String _ "lost" combine
  rw [hkeyed (·.path) _ Tree.noConfusion (hpaths _) "gone", fold_eq_results]
  rfl

end Place

end Abacus
