/-
Counters of what a context has done.
-/

namespace EdgeWait

/-- The counters that a context keeps itself. -/
structure Counters where
  waitsAdded : Nat := 0
  flushes : Nat := 0
  registrations : Nat := 0
  batchedRegistrations : Nat := 0
  notifications : Nat := 0
  fired : Nat := 0
  ignored : Nat := 0
  stale : Nat := 0
  cancelled : Nat := 0
deriving DecidableEq

/-- A snapshot of all counters, those of the hand-over to the scheduler included. -/
structure Stats extends Counters where
  dispatchCalls : Nat := 0
  dispatchedTasks : Nat := 0
  /-- Nanoseconds spent in the scheduler. Nothing is measured unless the context profiles; what a
  profiling host measures is not known here. -/
  dispatchTime : Option Nat := some 0
deriving DecidableEq

/-- Waits per registration, as a double: both counts are rounded to doubles before they are divided.
Without registrations the ratio is zero. -/
def Stats.waitsPerRegistration (s : Stats) : Float :=
  if s.registrations = 0 then 0.0
  else s.waitsAdded.toUInt64.toFloat / s.registrations.toUInt64.toFloat

end EdgeWait
