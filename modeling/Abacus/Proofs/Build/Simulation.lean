import Abacus.Build.Construct

/-!
# Builders and their listeners

The steps of a builder ask their listener what it wants to know and tell it what happens, and the listener is part of
their state. Still it has no part in what they do. Let two listeners stay related whatever they are told. Then two
builders, one with each listener, go through the same stacks step by step, end with the same tree or fail at the same
step with the same fault, and in the end their listeners are related.

Results:
* `Listener.Related`: what two listeners have to keep.
* `Lockstep.bind`, `Lockstep.foldlM`: steps that go together, one after another.
* `Shunt.feed_lockstep`, `Stack.feed_lockstep`: one token.
* `Shunt.build_lockstep`, `Stack.build_lockstep`: a whole list of tokens.
-/

namespace Abacus

variable {μ ν : Type}

/-- Two listeners stay related when both are told an event, and when both are asked before. -/
structure Listener.Related [Listener μ] [Listener ν] (r : μ → ν → Prop) : Prop where
  tell {m : μ} {n : ν} (event : Event) (h : r m n) : r (Listener.tell event m) (Listener.tell event n)
  report {m : μ} {n : ν} (event : Event) (h : r m n) :
    r (Listener.report event.required event m) (Listener.report event.required event n)

/-! ## Steps that go together -/

/-- Two steps succeed with results that belong together, or they fail with one fault in states that do. -/
inductive Lockstep {σ τ α β : Type} (p : σ → τ → Prop) (q : α → β → Prop) :
    Except (Stuck σ) α → Except (Stuck τ) β → Prop
  | ok {a : α} {b : β} (h : q a b) : Lockstep p q (.ok a) (.ok b)
  | error {s : σ} {t : τ} (fault : Fault) (h : p s t) : Lockstep p q (.error ⟨fault, s⟩) (.error ⟨fault, t⟩)

namespace Lockstep

variable {σ τ α β α' β' ι : Type} {p : σ → τ → Prop} {q : α → β → Prop} {q' : α' → β' → Prop}

theorem cases {x : Except (Stuck σ) α} {y : Except (Stuck τ) β} (h : Lockstep p q x y) :
    (∃ a b, x = .ok a ∧ y = .ok b ∧ q a b) ∨ ∃ fault s t, x = .error ⟨fault, s⟩ ∧ y = .error ⟨fault, t⟩ ∧ p s t := by
  cases h with
  | ok hab => exact .inl ⟨_, _, rfl, rfl, hab⟩
  | error fault hst => exact .inr ⟨fault, _, _, rfl, rfl, hst⟩

theorem bind {x : Except (Stuck σ) α} {y : Except (Stuck τ) β} {f : α → Except (Stuck σ) α'}
    {g : β → Except (Stuck τ) β'} (h : Lockstep p q x y) (hfg : ∀ a b, q a b → Lockstep p q' (f a) (g b)) :
    Lockstep p q' (x >>= f) (y >>= g) := by
  cases h with
  | ok hab => exact hfg _ _ hab
  | error fault hst => exact .error fault hst

theorem foldlM {f : α → ι → Except (Stuck σ) α} {g : β → ι → Except (Stuck τ) β}
    (hfg : ∀ a b i, q a b → Lockstep p q (f a i) (g b i)) (is : List ι) {a : α} {b : β} (hab : q a b) :
    Lockstep p q (is.foldlM f a) (is.foldlM g b) := by
  induction is generalizing a b with
  | nil => exact .ok hab
  | cons i is ih =>
    rw [List.foldlM_cons, List.foldlM_cons]
    exact (hfg a b i hab).bind fun _ _ => ih

end Lockstep

/-! ## Infix tokens -/

namespace Shunt

/-- The same stacks, with listeners that are related. -/
structure Alike (r : μ → ν → Prop) (s : Shunt μ) (s' : Shunt ν) : Prop where
  operands : s.operands = s'.operands
  operators : s.operators = s'.operators
  trace : r s.trace s'.trace

/-- A tree and the state behind it. -/
def AlikeBuilt (r : μ → ν → Prop) (built : Tree × Shunt μ) (built' : Tree × Shunt ν) : Prop :=
  built.1 = built'.1 ∧ built.2.Alike r built'.2

variable {r : μ → ν → Prop} {s : Shunt μ} {s' : Shunt ν}

theorem Alike.setOperators (h : s.Alike r s') (operators : List String) :
    Alike r { s with operators } { s' with operators } :=
  ⟨h.operands, rfl, h.trace⟩

theorem finish_lockstep (h : s.Alike r s') : Lockstep (Alike r) (AlikeBuilt r) s.finish s'.finish := by
  unfold finish
  rw [← h.operands]
  split
  · exact .ok ⟨rfl, rfl, h.operators, h.trace⟩
  · exact .error _ h
  · exact .error _ h

variable [Listener μ] [Listener ν] (hr : Listener.Related r)

include hr

/-- The step that tells its listener: the node is made of the same operands before. -/
theorem reduce_lockstep (symbol : String) (h : s.Alike r s') :
    Lockstep (Alike r) (Alike r) (reduce symbol s) (reduce symbol s') := by
  obtain ⟨operands, operators, m⟩ := s
  obtain ⟨_, _, n⟩ := s'
  obtain ⟨rfl, rfl, hmn⟩ := h
  unfold reduce
  cases symbolArity symbol with
  | error fault => exact .error fault ⟨rfl, rfl, hmn⟩
  | ok needed =>
    dsimp only
    split
    · exact .error _ ⟨rfl, rfl, hmn⟩
    · cases Tree.ofOperands symbol (operands.take needed).reverse with
      | error fault => exact .error fault ⟨rfl, rfl, hmn⟩
      | ok t => exact .ok ⟨rfl, rfl, hr.report (.reduced .inFix symbol t) hmn⟩

theorem closeGroup_lockstep (operators : List String) (h : s.Alike r s') :
    Lockstep (Alike r) (Alike r) (closeGroup operators s) (closeGroup operators s') := by
  induction operators generalizing s s' with
  | nil => exact .error _ h
  | cons top rest ih =>
    rw [closeGroup, closeGroup]
    split
    · exact .ok (h.setOperators rest)
    · rcases (reduce_lockstep hr top (h.setOperators rest)).cases with
        ⟨next, next', hx, hy, hnext⟩ | ⟨fault, stuck, stuck', hx, hy, hstuck⟩
      · -- The listeners have been told of the node, and the loop goes on from states that are alike.
        rw [hx, hy]
        exact ih hnext
      · rw [hx, hy]
        exact .error fault hstuck

theorem makeWay_lockstep (token : String) (operators : List String) (h : s.Alike r s') :
    Lockstep (Alike r) (Alike r) (makeWay token operators s) (makeWay token operators s') := by
  induction operators generalizing s s' with
  | nil => exact .ok h
  | cons top rest ih =>
    rw [makeWay, makeWay]
    split
    · exact .ok h
    · rcases (reduce_lockstep hr top (h.setOperators rest)).cases with
        ⟨next, next', hx, hy, hnext⟩ | ⟨fault, stuck, stuck', hx, hy, hstuck⟩
      · rw [hx, hy]
        exact ih hnext
      · rw [hx, hy]
        exact .error fault hstuck

theorem resolve_lockstep (token : String) (h : s.Alike r s') :
    Lockstep (Alike r) (Alike r) (resolve token s) (resolve token s') := by
  unfold resolve
  rw [h.operators]
  split
  · exact .error _ h
  · split
    · split
      · exact closeGroup_lockstep hr s'.operators h
      · exact .error _ h
    · rcases (makeWay_lockstep hr token s'.operators h).cases with
        ⟨next, next', hx, hy, hnext⟩ | ⟨fault, stuck, stuck', hx, hy, hstuck⟩
      · rw [hx, hy]
        exact .ok ⟨hnext.operands, congrArg (token :: ·) hnext.operators, hnext.trace⟩
      · rw [hx, hy]
        exact .error fault hstuck

/-- **One infix token.** -/
theorem feed_lockstep (s : Shunt μ) (s' : Shunt ν) (token : String) (h : s.Alike r s') :
    Lockstep (Alike r) (Alike r) (s.feed token) (s'.feed token) := by
  unfold feed
  split
  · exact .ok ⟨congrArg (_ :: ·) h.operands, h.operators, h.trace⟩
  · exact resolve_lockstep hr token h

theorem drain_lockstep (operators : List String) (h : s.Alike r s') :
    Lockstep (Alike r) (Alike r) (drain operators s) (drain operators s') := by
  induction operators generalizing s s' with
  | nil => exact .ok h
  | cons top rest ih =>
    rw [drain, drain]
    split
    · exact .error _ (h.setOperators rest)
    · rcases (reduce_lockstep hr top (h.setOperators rest)).cases with
        ⟨next, next', hx, hy, hnext⟩ | ⟨fault, stuck, stuck', hx, hy, hstuck⟩
      · rw [hx, hy]
        exact ih hnext
      · rw [hx, hy]
        exact .error fault hstuck

/-- **A list of infix tokens.** Listeners that are related make no difference to a builder. -/
theorem build_lockstep {m : μ} {n : ν} (hmn : r m n) (tokens : List String) :
    Lockstep (Alike r) (AlikeBuilt r) (build m tokens) (build n tokens) := by
  have hfresh : Alike r (fresh m) (fresh n) := ⟨rfl, rfl, hmn⟩
  refine (Lockstep.foldlM (feed_lockstep hr) tokens hfresh).bind fun s s' h => ?_
  rw [h.operators]
  exact (drain_lockstep hr s'.operators h).bind fun _ _ => finish_lockstep

end Shunt

/-! ## Postfix tokens -/

namespace Stack

/-- The same stack at the same position, with listeners that are related. -/
structure Alike (r : μ → ν → Prop) (s : Stack μ) (s' : Stack ν) : Prop where
  trees : s.trees = s'.trees
  position : s.position = s'.position
  trace : r s.trace s'.trace

/-- A tree and the state behind it. -/
def AlikeBuilt (r : μ → ν → Prop) (built : Tree × Stack μ) (built' : Tree × Stack ν) : Prop :=
  built.1 = built'.1 ∧ built.2.Alike r built'.2

variable {r : μ → ν → Prop} {s : Stack μ} {s' : Stack ν}

theorem finish_lockstep (h : s.Alike r s') : Lockstep (Alike r) (AlikeBuilt r) s.finish s'.finish := by
  unfold finish
  rw [← h.trees]
  split
  · exact .ok ⟨rfl, rfl, h.position, h.trace⟩
  · exact .error _ h
  · exact .error _ h

variable [Listener μ] [Listener ν] (hr : Listener.Related r)

include hr

theorem reduce_lockstep (symbol : String) (h : s.Alike r s') :
    Lockstep (Alike r) (Alike r) (reduce symbol s) (reduce symbol s') := by
  obtain ⟨trees, position, m⟩ := s
  obtain ⟨_, _, n⟩ := s'
  obtain ⟨rfl, rfl, hmn⟩ := h
  unfold reduce
  cases symbolArity symbol with
  | error fault => exact .error fault ⟨rfl, rfl, hmn⟩
  | ok needed =>
    dsimp only
    split
    · exact .error _ ⟨rfl, rfl, hmn⟩
    · cases Tree.ofOperands symbol (trees.take needed).reverse with
      | error fault => exact .error fault ⟨rfl, rfl, hmn⟩
      | ok t => exact .ok ⟨rfl, rfl, hr.report (.reduced .postFix symbol t) hmn⟩

/-- **One postfix token.** -/
theorem feed_lockstep (s : Stack μ) (s' : Stack ν) (token : String) (h : s.Alike r s') :
    Lockstep (Alike r) (Alike r) (s.feed token) (s'.feed token) := by
  unfold feed
  rw [h.position, h.trees]
  split
  · exact .ok ⟨rfl, rfl, h.trace⟩
  · split
    · exact .error _ h
    · split
      · exact .ok ⟨rfl, rfl, hr.tell _ h.trace⟩
      · exact reduce_lockstep hr token h

/-- **A list of postfix tokens.** Listeners that are related make no difference to a builder. -/
theorem build_lockstep {m : μ} {n : ν} (hmn : r m n) (tokens : List String) :
    Lockstep (Alike r) (AlikeBuilt r) (build m tokens) (build n tokens) := by
  have hfresh : Alike r (fresh m) (fresh n) := ⟨rfl, rfl, hmn⟩
  exact (Lockstep.foldlM (feed_lockstep hr) tokens hfresh).bind fun _ _ => finish_lockstep

end Stack

end Abacus
