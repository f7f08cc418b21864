import Abacus.Log.Event

/-!
# Listeners

Building an expression is told to a listener step by step, while it goes on. A listener may want to know of some levels
only; what takes work to be told is told only if it wants to know. What it has heard is part of the state of whoever
tells it, so nothing that is done for it can get lost when a step fails.

The plainest listener keeps all events.
-/

namespace Abacus

/-- Something that can be told events. -/
class Listener (μ : Type) where
  /-- Does the listener want to know what requires a given level (`log_enabled`)? -/
  enabled : Level → μ → Bool
  /-- Tells an event. -/
  tell : Event → μ → μ

namespace Listener

variable {μ : Type} [Listener μ]

/-- Tells an event if the listener wants to know. -/
def report (required : Level) (event : Event) (heard : μ) : μ :=
  if enabled required heard then tell event heard else heard

end Listener

/-- All events, the latest first. -/
abbrev Trace := List Event

/-- A trace takes all events. -/
instance : Listener Trace where
  enabled _ _ := true
  tell event trace := event :: trace

namespace Trace

@[simp] theorem tell_eq (event : Event) (trace : Trace) : Listener.tell event trace = event :: trace := rfl

@[simp] theorem report_eq (required : Level) (event : Event) (trace : Trace) :
    Listener.report required event trace = event :: trace := rfl

end Trace

end Abacus
