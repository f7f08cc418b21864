import Abacus.Tree.Digest
import Std.Data.HashMap

/-!
# Nodes that keep their sizes and fingerprints

The size and the fingerprint of a node are computed once. The first request for either of them walks the nodes below,
and every node on the way keeps both. Later walks do not enter the trees below nodes that keep a fingerprint.

A node keeps its size before its fingerprint is mixed. If the mixing fails the size stays, and so does everything that
was kept before the walk came to this node.
-/

namespace Abacus

variable {α η : Type}

/-- The sizes and the fingerprints that the nodes of a tree keep, by path (`_size_cache`, `_hash_cache`). -/
structure Memo (η : Type) where
  sizeTable : Std.HashMap Path Nat
  digestTable : Std.HashMap Path η

namespace Memo

/-- No node keeps anything. -/
def fresh : Memo η :=
  ⟨∅, ∅⟩

/-- The size that a node keeps. -/
def sizes (memo : Memo η) (path : Path) : Option Nat :=
  memo.sizeTable[path]?

/-- The fingerprint that a node keeps. -/
def digests (memo : Memo η) (path : Path) : Option η :=
  memo.digestTable[path]?

/-- Keeps a size. -/
def setSize (memo : Memo η) (path : Path) (size : Nat) : Memo η :=
  { memo with sizeTable := memo.sizeTable.insert path size }

/-- Keeps a fingerprint. -/
def setDigest (memo : Memo η) (path : Path) (digest : η) : Memo η :=
  { memo with digestTable := memo.digestTable.insert path digest }

@[simp] theorem sizes_fresh (path : Path) : (fresh : Memo η).sizes path = none :=
  Std.HashMap.getElem?_empty

@[simp] theorem digests_fresh (path : Path) : (fresh : Memo η).digests path = none :=
  Std.HashMap.getElem?_empty

@[simp] theorem sizes_setSize (memo : Memo η) (path : Path) (size : Nat) (p : Path) :
    (memo.setSize path size).sizes p = if p = path then some size else memo.sizes p := by
  simp only [sizes, setSize, Std.HashMap.getElem?_insert, beq_iff_eq, eq_comm (a := p)]

@[simp] theorem digests_setSize (memo : Memo η) (path : Path) (size : Nat) (p : Path) :
    (memo.setSize path size).digests p = memo.digests p := rfl

@[simp] theorem sizes_setDigest (memo : Memo η) (path : Path) (digest : η) (p : Path) :
    (memo.setDigest path digest).sizes p = memo.sizes p := rfl

@[simp] theorem digests_setDigest (memo : Memo η) (path : Path) (digest : η) (p : Path) :
    (memo.setDigest path digest).digests p = if p = path then some digest else memo.digests p := by
  simp only [digests, setDigest, Std.HashMap.getElem?_insert, beq_iff_eq, eq_comm (a := p)]

/-- The summary of a node that keeps its size and its fingerprint. -/
def summary? (memo : Memo η) (path : Path) : Option (Summary η) := do
  let size ← memo.sizes path
  let digest ← memo.digests path
  return ⟨size, digest⟩

/-- The size and the fingerprint of a node from those that its links keep (the expanded branch of
`Node._fill_caches`). -/
def keep (mixer : Mixer η) (memo : Memo η) (place : Place) : Except (Stuck (Memo η)) (Memo η) :=
  match place.tree with
  | .empty => .ok memo
  | .node kind token _ _ =>
    match place.children.mapM fun link => memo.summary? link.path with
    | none => .error ⟨.lostResult, memo⟩
    | some links =>
      let sized := memo.setSize place.path (total (links.map Summary.size) + 1)
      match Summary.combine mixer kind token links with
      | .error fault => .error ⟨fault, sized⟩
      | .ok summary => .ok (sized.setDigest place.path summary.digest)

/-- Lets all nodes on the stack and below keep their sizes and fingerprints, except below those that keep a
fingerprint already (`Node._fill_caches`). -/
def fillFrom (mixer : Mixer η) (memo : Memo η) (stack : List Pending) : Except (Stuck (Memo η)) (Memo η) :=
  match stack with
  | [] => .ok memo
  | ⟨p, expanded⟩ :: rest =>
    if (memo.digests p.path).isSome then fillFrom mixer memo rest
    else if expanded then
      match keep mixer memo p with
      | .error stuck => .error stuck
      | .ok memo => fillFrom mixer memo rest
    else fillFrom mixer memo (Pending.expand p rest)
termination_by Pending.work stack
decreasing_by
  · simp only [Pending.work_cons]
    split <;> omega
  · simp_all [Pending.work_cons]
  · simp_all [Pending.work_expand p rest]

/-! ## Requests -/

/-- What a node keeps, and if it keeps nothing yet, what it keeps after a walk. -/
def ask (mixer : Mixer η) (kept : Memo η → Path → Option α) (memo : Memo η) (place : Place) :
    Except (Stuck (Memo η)) (α × Memo η) :=
  match kept memo place.path with
  | some a => .ok (a, memo)
  | none =>
    match fillFrom mixer memo [⟨place, false⟩] with
    | .error stuck => .error stuck
    | .ok memo =>
      match kept memo place.path with
      | some a => .ok (a, memo)
      | none => .error ⟨.lostResult, memo⟩

/-- The size of a node (`Node.size`). -/
def size (mixer : Mixer η) (memo : Memo η) (place : Place) : Except (Stuck (Memo η)) (Nat × Memo η) :=
  ask mixer sizes memo place

/-- The fingerprint of a node (`Node.__hash__`). -/
def digest (mixer : Mixer η) (memo : Memo η) (place : Place) : Except (Stuck (Memo η)) (η × Memo η) :=
  ask mixer digests memo place

/-- Are two nodes equal (`Node.__eq__`)? Their fingerprints are compared first. -/
def equal [DecidableEq η] (mixer : Mixer η) (memo : Memo η) (a b : Place) :
    Except (Stuck (Memo η)) (Bool × Memo η) := do
  let (left, memo) ← memo.digest mixer a
  let (right, memo) ← memo.digest mixer b
  return (if left = right then Tree.sameFrom [(a.tree, b.tree)] else false, memo)

/-- The value of a request, or the fault that ends it. -/
def value (answer : Except (Stuck (Memo η)) (α × Memo η)) : Except Fault α :=
  match answer with
  | .error stuck => .error stuck.fault
  | .ok (a, _) => .ok a

/-- What the nodes keep after a request, also after one that fails. -/
def after (answer : Except (Stuck (Memo η)) (α × Memo η)) : Memo η :=
  match answer with
  | .error stuck => stuck.state
  | .ok (_, memo) => memo

/-- A request to one or two nodes. -/
inductive Request
  | size (place : Place)
  | digest (place : Place)
  | equal (a b : Place)

/-- The nodes that a request is made to. -/
def Request.places : Request → List Place
  | size place | digest place => [place]
  | equal a b => [a, b]

/-- What the nodes keep after one request. -/
def answer [DecidableEq η] (mixer : Mixer η) (memo : Memo η) : Request → Memo η
  | .size place => after (memo.size mixer place)
  | .digest place => after (memo.digest mixer place)
  | .equal a b => after (memo.equal mixer a b)

end Memo

end Abacus
