import Abacus.Proofs.Steps
import Abacus.Proofs.Tree.Forms
import Abacus.Tree.Fold

/-!
# Bottom-up evaluation by recursion

The evaluation loop visits the nodes in post-order and keeps the results that no parent has used yet in a
table. When it has visited a tree, it has entered one result for the root in front of what the table held
before, and taken all results below the root out again. This is the invariant of the loop; it needs no
assumption on the table, because a parent finds the latest entries first.

Results:
* `Tree.foldlM_foldStep`: the loop enters what recursion on the tree gives.
* `Place.fold_eq_results`: an evaluation from any place down.
* `Tree.fold_operand`, `fold_unary`, `fold_binary`: the equations of an evaluation on expressions, where only the kinds
  and the tokens of the nodes matter.
-/

namespace Abacus

variable {α ε : Type}

namespace Tree

/-! ## Recursion on the tree -/

/-- The results of a tree by recursion: none for a missing link, otherwise the one that `combine` makes at
the root from the results of the links; `path` leads from the root further up. -/
def resultsFrom (combine : Place → List α → Except ε α) (path : Path) : Tree → Except ε (List α)
  | empty => .ok []
  | node kind token left right => do
    let leftResults ← left.resultsFrom combine (.left :: path)
    let rightResults ← right.resultsFrom combine (.right :: path)
    let a ← combine ⟨path, node kind token left right⟩ (leftResults ++ rightResults)
    return [a]

/-- What a link that is missing or present leaves in the table. -/
def enter (path : Path) (table : Table α) (as : List α) : Table α :=
  as.map (path, ·) ++ table

/-- There is one result for a tree, and none for a missing link. -/
theorem length_of_resultsFrom {combine : Place → List α → Except ε α} {path : Path} {t : Tree} {as : List α}
    (h : t.resultsFrom combine path = .ok as) : as.length = if t.isEmpty then 0 else 1 := by
  cases t with
  | empty =>
    cases h
    rfl
  | node kind token left right =>
    obtain ⟨ls, -, h⟩ := bind_eq_ok_iff.mp h
    obtain ⟨rs, -, h⟩ := bind_eq_ok_iff.mp h
    obtain ⟨a, -, h⟩ := bind_eq_ok_iff.mp h
    cases h
    rfl

/-- A parent takes the results of its links, which are the latest entries. -/
theorem takeAll_enter (lost : ε) (path : Path) (kind : Kind) (token : String) (left right : Tree)
    {ls rs : List α} (hls : ls.length = if left.isEmpty then 0 else 1)
    (hrs : rs.length = if right.isEmpty then 0 else 1) (table : Table α) :
    (enter (.right :: path) (enter (.left :: path) table ls) rs).takeAll lost
        ((Place.children ⟨path, node kind token left right⟩).map (·.path)) =
      .ok (ls ++ rs, table) := by
  have hside : (Side.right :: path) ≠ (Side.left :: path) := by simp
  cases left <;> cases right <;>
    simp only [isEmpty, if_true, if_false, Bool.false_eq_true, List.length_eq_zero_iff,
      List.length_eq_one_iff] at hls hrs
  · subst hls hrs
    rfl
  · obtain ⟨r, rfl⟩ := hrs
    subst hls
    simp [Place.children, enter, isEmpty, Table.takeAll, Table.take?]
  · obtain ⟨l, rfl⟩ := hls
    subst hrs
    simp [Place.children, enter, isEmpty, Table.takeAll, Table.take?]
  · obtain ⟨l, rfl⟩ := hls
    obtain ⟨r, rfl⟩ := hrs
    simp [Place.children, enter, isEmpty, Table.takeAll, Table.take?]

/-- A parent enters its result in place of those of its links. -/
theorem foldStep_enter (lost : ε) (combine : Place → List α → Except ε α) (path : Path) (kind : Kind)
    (token : String) (left right : Tree) {ls rs : List α}
    (hls : ls.length = if left.isEmpty then 0 else 1)
    (hrs : rs.length = if right.isEmpty then 0 else 1) (table : Table α) :
    Place.foldStep lost combine (enter (.right :: path) (enter (.left :: path) table ls) rs)
        ⟨path, node kind token left right⟩ =
      (fun a => (path, a) :: table) <$> combine ⟨path, node kind token left right⟩ (ls ++ rs) := by
  simp only [Place.foldStep, takeAll_enter lost path kind token left right hls hrs, bind, Except.bind]
  cases combine ⟨path, node kind token left right⟩ (ls ++ rs) <;> rfl

/-- **The invariant of the evaluation loop.** Visiting the places of a tree enters the result of the tree and
leaves the rest of the table as it was. -/
theorem foldlM_foldStep (lost : ε) (combine : Place → List α → Except ε α) (t : Tree)
    (path : Path) (table : Table α) :
    (placesFrom path t).foldlM (Place.foldStep lost combine) table =
      enter path table <$> t.resultsFrom combine path := by
  induction t generalizing path table with
  | empty => rfl
  | node kind token left right ihl ihr =>
    rw [placesFrom, List.foldlM_append, List.foldlM_append, ihl, resultsFrom]
    cases hleft : left.resultsFrom combine (.left :: path) with
    | error e => rfl
    | ok ls =>
      cases hright : right.resultsFrom combine (.right :: path) with
      | error e => simp [ihr, hright, bind, Except.bind, Functor.map, Except.map]
      | ok rs =>
        have hstep := foldStep_enter lost combine path kind token left right (length_of_resultsFrom hleft)
          (length_of_resultsFrom hright) table
        simp only [ihr, hright, bind, Except.bind, Functor.map, Except.map, List.foldlM_cons,
          List.foldlM_nil, hstep]
        cases combine ⟨path, node kind token left right⟩ (ls ++ rs) <;> rfl

end Tree

/-- An evaluation gives the only result of the recursion. -/
theorem Place.fold_eq_results (lost : ε) (combine : Place → List α → Except ε α) (place : Place) :
    place.fold lost combine =
      place.tree.resultsFrom combine place.path >>= fun as => match as with
        | [] => .error lost
        | a :: _ => .ok a := by
  rw [Place.fold, Tree.postorder_place, Tree.foldlM_foldStep]
  cases h : place.tree.resultsFrom combine place.path with
  | error e => rfl
  | ok as =>
    cases as with
    | nil => rfl
    | cons a as => simp [Tree.enter, Table.take?, bind, Except.bind, Functor.map, Except.map]; rfl

/-- The results of a tree that is present, as its evaluation gives them. -/
theorem Place.resultsFrom_eq_map_fold (lost : ε) (combine : Place → List α → Except ε α) (place : Place)
    (ht : place.tree ≠ .empty) :
    place.tree.resultsFrom combine place.path = (fun a => [a]) <$> place.fold lost combine := by
  rw [Place.fold_eq_results]
  cases h : place.tree.resultsFrom combine place.path with
  | error e => rfl
  | ok as =>
    have hlen := Tree.length_of_resultsFrom h
    rw [Tree.isEmpty_eq_false_iff.mpr ht, if_neg Bool.false_ne_true] at hlen
    obtain ⟨a, rfl⟩ := List.length_eq_one_iff.mp hlen
    rfl

/-! ## Kinds and tokens -/

namespace Tree

/-- The results of a tree where only the kinds and the tokens of the nodes matter. -/
def results (combine : Kind → String → List α → Except ε α) : Tree → Except ε (List α)
  | empty => .ok []
  | node kind token left right => do
    let leftResults ← left.results combine
    let rightResults ← right.results combine
    let a ← combine kind token (leftResults ++ rightResults)
    return [a]

theorem resultsFrom_byToken (lost : ε) (combine : Kind → String → List α → Except ε α) (t : Tree) (path : Path) :
    t.resultsFrom (Place.byToken lost combine) path = t.results combine := by
  induction t generalizing path with
  | empty => rfl
  | node kind token left right ihl ihr =>
    rw [resultsFrom, ihl, ihr, results]
    rfl

/-- Where only kinds and tokens matter, it does not matter where a tree stands. -/
theorem fold_byToken (lost : ε) (combine : Kind → String → List α → Except ε α) (place : Place) :
    place.fold lost (Place.byToken lost combine) = place.tree.fold lost combine := by
  rw [fold, Place.fold_eq_results, Place.fold_eq_results, resultsFrom_byToken, resultsFrom_byToken]
  rfl

theorem results_eq_map_fold (lost : ε) (combine : Kind → String → List α → Except ε α) {t : Tree}
    (ht : t ≠ empty) : t.results combine = (fun a => [a]) <$> t.fold lost combine := by
  rw [← resultsFrom_byToken lost combine t []]
  exact Place.resultsFrom_eq_map_fold lost _ (.root t) ht

/-- A link that is present has the result of its evaluation. -/
theorem results_bind (lost : ε) (combine : Kind → String → List α → Except ε α) {t : Tree}
    (ht : t ≠ empty) {β : Type} (f : List α → Except ε β) :
    t.results combine >>= f = t.fold lost combine >>= fun a => f [a] := by
  rw [results_eq_map_fold lost combine ht]
  cases t.fold lost combine <;> rfl

theorem fold_eq_results (lost : ε) (combine : Kind → String → List α → Except ε α) (t : Tree) :
    t.fold lost combine =
      t.results combine >>= fun as => match as with
        | [] => .error lost
        | a :: _ => .ok a := by
  rw [fold, Place.fold_eq_results, resultsFrom_byToken]
  rfl

/-! ## Expressions -/

theorem fold_node (lost : ε) (combine : Kind → String → List α → Except ε α) (kind : Kind)
    (token : String) (left right : Tree) :
    (node kind token left right).fold lost combine =
      left.results combine >>= fun ls => right.results combine >>= fun rs =>
        combine kind token (ls ++ rs) := by
  rw [fold_eq_results, results]
  cases left.results combine with
  | error e => rfl
  | ok ls =>
    cases right.results combine with
    | error e => rfl
    | ok rs => cases h : combine kind token (ls ++ rs) <;> simp [h, bind, Except.bind, pure, Except.pure]

theorem fold_operand (lost : ε) (combine : Kind → String → List α → Except ε α) (literal : String) :
    (operand literal).fold lost combine = combine .operand literal [] := by
  rw [operand, fold_node]
  rfl

theorem fold_unary (lost : ε) (combine : Kind → String → List α → Except ε α) (symbol : String)
    {t : Tree} (ht : t ≠ empty) :
    (unary symbol t).fold lost combine =
      t.fold lost combine >>= fun a => combine .unary symbol [a] := by
  rw [unary, fold_node, ← results_bind lost combine ht (combine .unary symbol)]
  rfl

theorem fold_binary (lost : ε) (combine : Kind → String → List α → Except ε α) (symbol : String)
    {left right : Tree} (hleft : left ≠ empty) (hright : right ≠ empty) :
    (binary symbol left right).fold lost combine =
      left.fold lost combine >>= fun a => right.fold lost combine >>= fun b =>
        combine .binary symbol [a, b] := by
  rw [binary, fold_node, results_bind lost combine hleft]
  refine bind_congr fun a => ?_
  rw [results_bind lost combine hright]
  rfl

end Tree

end Abacus
