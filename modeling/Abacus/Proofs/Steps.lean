/-!
# Runs of steps that may fail

A step gives a value or a fault, and a run ends with the first fault.

Results:
* `bind_eq_ok_iff`, `bind_eq_error_iff`: when two steps in a row succeed, and where they fail.
* `foldlM_ok`, `foldlM_error`: what every step keeps holds at the end of a run, and in the state in which a run
  fails.
* `foldlM_split`: a run that fails has succeeded up to the step that fails.
-/

namespace Abacus

variable {ε α β σ : Type}

theorem bind_eq_ok_iff {x : Except ε α} {f : α → Except ε β} {b : β} :
    x >>= f = .ok b ↔ ∃ a, x = .ok a ∧ f a = .ok b := by
  cases x <;> simp [bind, Except.bind]

theorem bind_eq_error_iff {x : Except ε α} {f : α → Except ε β} {e : ε} :
    x >>= f = .error e ↔ x = .error e ∨ ∃ a, x = .ok a ∧ f a = .error e := by
  cases x <;> simp [bind, Except.bind]

/-- What every step keeps, a run keeps. -/
theorem foldlM_ok {p : σ → Prop} {step : σ → α → Except ε σ}
    (hstep : ∀ s a s', p s → step s a = .ok s' → p s') {as : List α} {s s' : σ} (hs : p s)
    (hrun : as.foldlM step s = .ok s') : p s' := by
  induction as generalizing s with
  | nil =>
    cases hrun
    exact hs
  | cons a as ih =>
    rw [List.foldlM_cons, bind_eq_ok_iff] at hrun
    obtain ⟨middle, hfirst, hrest⟩ := hrun
    exact ih (hstep s a middle hs hfirst) hrest

/-- A run fails at one of its steps, in a state in which everything holds that the steps keep. -/
theorem foldlM_error {p : σ → Prop} {step : σ → α → Except ε σ}
    (hstep : ∀ s a s', p s → step s a = .ok s' → p s') {as : List α} {s : σ} {e : ε} (hs : p s)
    (hrun : as.foldlM step s = .error e) : ∃ s' a, p s' ∧ a ∈ as ∧ step s' a = .error e := by
  induction as generalizing s with
  | nil => cases hrun
  | cons a as ih =>
    rw [List.foldlM_cons, bind_eq_error_iff] at hrun
    rcases hrun with hnow | ⟨middle, hfirst, hrest⟩
    · exact ⟨s, a, hs, List.mem_cons_self, hnow⟩
    · obtain ⟨s', a', hs', ha', hfail⟩ := ih (hstep s a middle hs hfirst) hrest
      exact ⟨s', a', hs', List.mem_cons_of_mem a ha', hfail⟩

/-- What a step succeeds on, a run that succeeds has met throughout. -/
theorem forall_mem_of_foldlM {q : α → Prop} {step : σ → α → Except ε σ}
    (hstep : ∀ s a s', step s a = .ok s' → q a) {as : List α} {s s' : σ}
    (hrun : as.foldlM step s = .ok s') : ∀ a ∈ as, q a := by
  induction as generalizing s with
  | nil => exact fun a hmem => absurd hmem List.not_mem_nil
  | cons a as ih =>
    rw [List.foldlM_cons, bind_eq_ok_iff] at hrun
    obtain ⟨middle, hfirst, hrest⟩ := hrun
    exact List.forall_mem_cons.mpr ⟨hstep s a middle hfirst, ih hrest⟩

/-- A run that fails has succeeded up to the step that fails. -/
theorem foldlM_split {step : σ → α → Except ε σ} {as : List α} {s : σ} {e : ε}
    (hrun : as.foldlM step s = .error e) :
    ∃ before a after s', as = before ++ a :: after ∧ before.foldlM step s = .ok s' ∧
      step s' a = .error e := by
  induction as generalizing s with
  | nil => cases hrun
  | cons a as ih =>
    rw [List.foldlM_cons, bind_eq_error_iff] at hrun
    rcases hrun with hnow | ⟨middle, hfirst, hrest⟩
    · exact ⟨[], a, as, s, rfl, rfl, hnow⟩
    · obtain ⟨before, a', after, s', rfl, hbefore, hfail⟩ := ih hrest
      refine ⟨a :: before, a', after, s', rfl, ?_, hfail⟩
      rw [List.foldlM_cons, hfirst]
      exact hbefore

end Abacus
