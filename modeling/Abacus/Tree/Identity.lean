import Abacus.Tree.Memo

/-!
# Size, fingerprint and equality

What is asked of a tree whose nodes keep nothing yet. An empty tree has the size 0, no fingerprint, and is equal only
to itself.
-/

namespace Abacus.Tree

variable {η : Type}

/-- The number of nodes, for a tree in which every node has the links that its fingerprint needs
(`ExpressionTree.size`). -/
def size (t : Tree) : Except Fault Nat :=
  if t.isEmpty then .ok 0 else Memo.value (Memo.fresh.size Mixer.standard (.root t))

/-- The fingerprint of a tree; an empty tree has none (`ExpressionTree.__hash__`). -/
def digest (mixer : Mixer η) (t : Tree) : Except Fault (Option η) :=
  if t.isEmpty then .ok none else some <$> Memo.value (Memo.fresh.digest mixer (.root t))

/-- Are two trees equal (`ExpressionTree.__eq__`)? Their fingerprints are compared first; an empty tree equals only
itself. -/
def equals [DecidableEq η] (mixer : Mixer η) (a b : Tree) : Except Fault Bool :=
  if a.isEmpty || b.isEmpty then .ok (a.isEmpty && b.isEmpty)
  else do
    let left ← Memo.value (Memo.fresh.digest mixer (.root a))
    let right ← Memo.value (Memo.fresh.digest mixer (.root b))
    if left = right then return sameFrom [(a, b)] else return false

/-- Are two trees equal, by the standard fingerprints? -/
def equal (a b : Tree) : Except Fault Bool :=
  equals Mixer.standard a b

/-- The number of distinct trees in a list. -/
def distinct (trees : List Tree) : Except Fault Nat := do
  let kept ← trees.foldlM (fun (kept : List Tree) t => do
    let _ ← t.digest Mixer.standard
    if ← kept.anyM (equal t) then return kept else return t :: kept) []
  return kept.length

end Abacus.Tree
