/-
The event queue: value changes to come, in the order in which they happen.

Events are ordered by time, and by the order of scheduling among those of one time. The queue is
kept sorted, so the next event is at its head.
-/
import EdgeWait.SimTime

namespace EdgeWait

/-- A signal of the simulator, by its place in the table of signals. -/
structure SignalId where
  raw : UInt32
deriving DecidableEq, Ord

instance : ToString SignalId := ⟨fun s => s!"s{s.raw}"⟩

instance : LogText SignalId := ⟨fun s => s!"SignalId({s.raw})"⟩

/-- A scheduled change of a signal. -/
structure Event where
  time : SimTime
  /-- The number of events scheduled before this one. -/
  seq : Nat
  signal : SignalId
  value : Logic
deriving DecidableEq

/-- The order in which events happen: by time, then by the order of scheduling. -/
def Event.before (a b : Event) : Bool :=
  a.time.fs < b.time.fs || (a.time.fs = b.time.fs && a.seq < b.seq)

/-- Puts an event into a sorted queue, behind all that happen before it. -/
def enqueue (e : Event) : List Event → List Event
  | [] => [e]
  | a :: rest => if a.before e then a :: enqueue e rest else e :: a :: rest

end EdgeWait
