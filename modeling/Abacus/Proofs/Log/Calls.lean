import Abacus.Log.Logger

/-!
# What a logger shows after any calls

A logger gets its console when it is created and keeps it for life, while its level can be changed later. So two
levels decide what a message does: the one that was named last, and the one with which the logger was created.
They agree on whether there is anything to show unless the logger was created `silent` and its level raised later:
then it passes messages that it has nowhere to write.

Results:
* `Logging.logger_after`: the logger after any calls, from the two levels.
* `Logging.written_after`: what a message writes to the console, and when this is what the logger says it passes.
* `Logging.passes_unwritten`: a message that passes and is not written.
-/

namespace Abacus

/-- Only a `silent` logger passes nothing that requires anything. -/
theorem Level.eq_silent_iff {level : Level} :
    level = .silent ↔ ∀ required, required ≠ .silent → level.passes required = false := by
  constructor
  · rintro rfl required hrequired
    cases required with
    | silent => exact absurd rfl hrequired
    | minimal | moderate | detailed | verbose => rfl
  · intro hnothing
    have hminimal := hnothing .minimal Level.noConfusion
    cases level with
    | silent => rfl
    | minimal | moderate | detailed | verbose => cases hminimal

/-- A call that creates the logger in use or changes it; there is no log file. -/
inductive LogCall
  /-- Asks for the logger. -/
  | get
  | setLevel (level : Level)
  | configure (level : Level)
  deriving DecidableEq, Repr

namespace LogCall

/-- What a call does. -/
def apply (logging : Logging) : LogCall → Logging
  | get => logging.touched
  | setLevel level => logging.setLevel level
  | configure level => .configure level none

/-- The level that a call names. -/
def level? : LogCall → Option Level
  | get => none
  | setLevel level | configure level => some level

/-- The level with which a call creates a logger whether there is one or not. -/
def configured? : LogCall → Option Level
  | configure level => some level
  | _ => none

end LogCall

namespace Logging

/-- The state after calls, when there was no logger before. -/
def after (calls : List LogCall) : Logging :=
  calls.foldl LogCall.apply .initial

/-! ## The two levels -/

/-- The level that was named last; the default one if none was. -/
def lastLevel (calls : List LogCall) : Level :=
  (calls.filterMap LogCall.level?).getLast?.getD .minimal

/-- The level with which the logger in use was created: by the last call that configures one, and if there is no
such call, by the first one. -/
def creationLevel (calls : List LogCall) : Level :=
  (calls.filterMap LogCall.configured?).getLast?.getD ((calls.head?.bind LogCall.level?).getD .minimal)

/-- The last of the values that are there, or the value from before. -/
theorem getLast?_filterMap_cons {α β : Type} (f : α → Option β) (a : α) (as : List α) (b : β) :
    ((a :: as).filterMap f).getLast?.getD b = (as.filterMap f).getLast?.getD ((f a).getD b) := by
  cases h : f a with
  | none => rw [List.filterMap_cons_none h, Option.getD_none]
  | some b' => rw [List.filterMap_cons_some h, List.getLast?_cons, Option.getD_some, Option.getD_some]

/-- From a logger on, the last level that is named holds, and the console is that of the last configuration. -/
theorem foldl_apply (calls : List LogCall) (level created : Level) :
    calls.foldl LogCall.apply (some ⟨level, created != .silent, none⟩) =
      some ⟨(calls.filterMap LogCall.level?).getLast?.getD level,
        (calls.filterMap LogCall.configured?).getLast?.getD created != .silent, none⟩ := by
  induction calls generalizing level created with
  | nil => rfl
  | cons call calls ih =>
    rw [List.foldl_cons, getLast?_filterMap_cons, getLast?_filterMap_cons]
    cases call with
    | get => exact ih level created
    | setLevel level' => exact ih level' created
    | configure level' => exact ih level' level'

/-- **The logger after any calls.** -/
theorem logger_after (calls : List LogCall) :
    (after calls).logger = ⟨lastLevel calls, creationLevel calls != .silent, none⟩ := by
  cases calls with
  | nil => rfl
  | cons call calls =>
    -- The first call creates the logger, with the level that it names.
    have hfirst : LogCall.apply .initial call =
        some ⟨call.level?.getD .minimal, call.level?.getD .minimal != .silent, none⟩ := by
      cases call <;> rfl
    rw [after, List.foldl_cons, hfirst, foldl_apply, lastLevel, creationLevel, getLast?_filterMap_cons,
      getLast?_filterMap_cons]
    cases call <;> rfl

/-! ## What a message writes -/

/-- A message is no warning, so without a console it is lost. -/
theorem consoleLines_note (logger : Logger) (elapsed message : String) (required : Level) :
    logger.consoleLines elapsed [.note message required] =
      if logger.enabled required && logger.console then [Logger.stamped elapsed (.note message required)] else [] := by
  have hrequired : (Event.note message required).required = required := rfl
  have hurgent : Logger.isUrgent (.note message required) = false := rfl
  rw [Logger.consoleLines, List.filterMap_cons, List.filterMap_nil]
  unfold Logger.consoleLine?
  rw [hrequired, hurgent]
  cases logger.enabled required <;> cases logger.console <;> simp

/-- **What a message writes after any calls.** The logger says that it passes what requires at most the level that
was named last. A message that passes is written as one line if the logger was created with a level other than
`silent`, and it is lost otherwise. So what the logger says is what it writes, for all messages that require anything
at all, iff it was created with such a level or its level is `silent` now. -/
theorem written_after (calls : List LogCall) (elapsed message : String) :
    let logging := after calls
    let passes required := logging.logger.enabled required
    let written required := logging.touched.logger.consoleLines elapsed [.note message required]
    (∀ required, passes required = decide (required.rank ≤ (lastLevel calls).rank)) ∧
    (∀ required, written required =
      if passes required && creationLevel calls != .silent then [Logger.stamped elapsed (.note message required)]
      else []) ∧
    ((∀ required, required ≠ .silent → (written required).length = if passes required then 1 else 0) ↔
      creationLevel calls ≠ .silent ∨ lastLevel calls = .silent) := by
  intro logging passes written
  have hpasses (required : Level) : passes required = decide (required.rank ≤ (lastLevel calls).rank) := by
    show (after calls).logger.enabled required = _
    rw [logger_after]
    rfl
  have hwritten (required : Level) : written required =
      if passes required && creationLevel calls != .silent then [Logger.stamped elapsed (.note message required)]
      else [] := by
    have hconsole : logging.touched.logger.console = (creationLevel calls != .silent) := by
      show (after calls).logger.console = _
      rw [logger_after]
    show logging.touched.logger.consoleLines elapsed [.note message required] = _
    rw [consoleLines_note, hconsole]
    rfl
  have hlength (required : Level) : (written required).length = (if passes required then 1 else 0) ↔
      (passes required = true → creationLevel calls ≠ .silent) := by
    rw [hwritten]
    by_cases hcreated : creationLevel calls = .silent
    · cases passes required <;> simp [hcreated]
    · cases passes required <;> simp [hcreated]
  have hnothing : lastLevel calls = .silent ↔ ∀ required, required ≠ .silent → passes required = false := by
    rw [Level.eq_silent_iff]
    simp only [hpasses]
    rfl
  refine ⟨hpasses, hwritten, ?_⟩
  simp only [hlength]
  constructor
  · intro hall
    by_cases hcreated : creationLevel calls = .silent
    · refine .inr (hnothing.mpr fun required hrequired => ?_)
      rw [Bool.eq_false_iff]
      exact fun hpass => hall required hrequired hpass hcreated
    · exact .inl hcreated
  · rintro (hcreated | hlast) required hrequired hpass
    · exact hcreated
    · rw [hnothing.mp hlast required hrequired] at hpass
      cases hpass

/-- **A message that passes and is not written.** The logger is created `silent`, and its level is raised later. -/
theorem passes_unwritten :
    let logging := after [.configure .silent, .setLevel .minimal]
    logging.logger.enabled .minimal = true ∧
      logging.touched.logger.consoleLines "0.000s" [.note "hello" .minimal] = [] :=
  ⟨rfl, rfl⟩

end Logging

end Abacus
