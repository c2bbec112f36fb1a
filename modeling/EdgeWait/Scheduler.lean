/-
The scheduler that resumes tasks, and the bridge over which woken batches reach it.

`Bridge.dispatch` hands over a whole batch in one call. When the scheduler fails, its environment is
finalized there and then, and the bridge lets nothing pass any more.
-/
import EdgeWait.Log

namespace EdgeWait

/-- A task scheduler with states of type `T`. -/
class Scheduler (T : Type) where
  /-- Resumes tasks, in the order given. -/
  scheduleMany : T → List TaskId → Except ScriptError Unit × T
  /-- Closes the script environment. -/
  finalize : T → T

/-- The way from a context to the scheduler. -/
structure Bridge where
  profiling : Bool
  tornDown : Bool := false
  dispatchCalls : Nat := 0
  dispatchedTasks : Nat := 0
deriving DecidableEq

namespace Bridge

/-- Time spent in the scheduler, which is nothing as long as nobody measures it. -/
def dispatchTime (b : Bridge) : Option Nat := if b.profiling then none else some 0

/-- Hands a batch over in one call. Only the tasks of a successful call count as dispatched. -/
def dispatch {T : Type} [Scheduler T] (b : Bridge) (scheduler : T) (log : Log)
    (tasks : List TaskId) : Outcome MuxError (Bridge × T × Log) Unit :=
  if b.tornDown then
    .failed .poisoned (b, scheduler, log)
  else
    let b := { b with dispatchCalls := b.dispatchCalls + 1 }
    match Scheduler.scheduleMany scheduler tasks with
    | (.ok (), scheduler) =>
      .done () ({ b with dispatchedTasks := b.dispatchedTasks + tasks.length }, scheduler, log)
    | (.error cause, scheduler) =>
      .failed (.dispatchFailed cause)
        ({ b with tornDown := true }, Scheduler.finalize scheduler,
          log.push (.schedulerFailed tasks.length cause))

end Bridge

/-- A scheduler that keeps a record of its calls and answers them by a script. -/
structure ScriptedScheduler where
  /-- The answer to a call, given all calls up to and including it, the latest in front. -/
  answer : List (List TaskId) → Except ScriptError Unit
  /-- The calls so far, the latest in front. -/
  calls : List (List TaskId) := []
  /-- How often the environment has been finalized. -/
  finalized : Nat := 0

namespace ScriptedScheduler

instance : Scheduler ScriptedScheduler where
  scheduleMany s tasks :=
    let calls := tasks :: s.calls
    (s.answer calls, { s with calls })
  finalize s := { s with finalized := s.finalized + 1 }

/-- Fails the calls with the given numbers, counted from one, and no others. -/
def failingAt (numbers : List Nat) (cause : ScriptError) : ScriptedScheduler where
  answer calls := if calls.length ∈ numbers then .error cause else .ok ()

end ScriptedScheduler

end EdgeWait
