/-
A context of the multiplexer, and the state it starts from.

A `Mux` holds the waits recorded since the last flush, the live registrations, the bridge to the
scheduler and the counters. The native layer and the scheduler are not part of it, so any number of
contexts can share them.
-/
import EdgeWait.Config
import EdgeWait.PendingWaits
import EdgeWait.Scheduler
import EdgeWait.Stats
import EdgeWait.Subscriptions

namespace EdgeWait

/-- A context on signals `σ`, whose native layer hands out handles `η`. -/
structure Mux (σ η : Type) where
  policy : BatchPolicy
  unknownAsZero : Bool
  pending : PendingWaits σ
  subscriptions : Subscriptions σ η
  bridge : Bridge
  counters : Counters
  /-- Set once a registration has failed. -/
  failed : Bool

namespace Mux

variable {σ η : Type}

/-- A context as a configuration asks for it. Arity bounds that no policy allows are a fault. -/
def ofConfig (config : Config) (picks : List Nat) : Except Fault (Mux σ η) := do
  let policy ← config.batching.policy
  return {
    policy
    unknownAsZero := config.values.unknownAsZero
    pending := .empty
    subscriptions := .ofPool (config.pool.pool picks)
    bridge := { profiling := config.profiling.enabled }
    counters := {}
    failed := false }

/-- A context is unusable after a failed registration and after a failed hand-over. -/
def isPoisoned (m : Mux σ η) : Bool := m.failed || m.bridge.tornDown

/-- The value that counts as observed when a signal is reported at `v`. -/
def observe (m : Mux σ η) (v : Logic) : Logic := if m.unknownAsZero then v.unknownAsZero else v

/-- The live registration under a key. -/
def registration? (m : Mux σ η) (key : RegistrationKey) : Option (Registration σ) :=
  m.subscriptions.arena.get? key

/-- A key is active as long as its registration is live. -/
def isActive (m : Mux σ η) (key : RegistrationKey) : Bool :=
  m.subscriptions.arena.contains key

/-- The number of live registrations. -/
def activeRegistrations (m : Mux σ η) : Nat := m.subscriptions.arena.live

/-- A snapshot of all counters. -/
def stats (m : Mux σ η) : Stats where
  toCounters := m.counters
  dispatchCalls := m.bridge.dispatchCalls
  dispatchedTasks := m.bridge.dispatchedTasks
  dispatchTime := m.bridge.dispatchTime

/-- Records that a task waits for an edge. Nothing is subscribed before the next flush. -/
def addWait [DecidableEq σ] [LogText σ] (m : Mux σ η) (signal : σ) (edge : Edge) (task : TaskId) :
    Except Fault (Mux σ η) := do
  let pending ← m.pending.add signal edge task
  return { m with
    pending
    counters := { m.counters with waitsAdded := m.counters.waitsAdded + 1 } }

end Mux

end EdgeWait
