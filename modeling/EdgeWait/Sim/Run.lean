/-
Running the simulator together with a context.

One step flushes the pending waits of the context, moves on to the time of the next event, and
applies every event of that time in the order of scheduling. A change of value is reported at once
to each callback of the signal, in the order of subscription; events that leave the value as it is
report nothing.

* `Bench.step` takes one step and says whether there was an event to apply;
* `Bench.run` takes steps until the queue is empty;
* `Bench.runUntil` takes the steps up to a limit, and then flushes once more.

An error stops a step where it is: the event that led to it has left the queue, the later ones have
not, and the step is not counted.

An event can be scheduled on a signal that does not exist. Nothing is said against it until its turn
comes, and then it is a fault.

Design note: nothing that happens during a step schedules an event, so the events of the next time
can be read off the queue when the step begins, and the queue bounds the number of steps of a run.
Each step visits the signals of a flush in an order of its own, which a run takes from `orders`.
-/
import EdgeWait.Bench
import EdgeWait.Sim.Basic

namespace EdgeWait

/-- What a step found to do. -/
inductive StepResult where
  /-- There was an event to apply. -/
  | continued
  /-- The queue was empty. -/
  | done
deriving DecidableEq

/-- A context on the simulator. -/
abbrev SimBench (T : Type) := Bench Sim T SignalId CallbackHandle

namespace Bench

variable {T : Type}

/-- Changes the simulator. -/
def onSim (b : SimBench T) (f : Sim → Sim) : SimBench T := { b with native := f b.native }

variable [Scheduler T]

/-- Reports a value to the given callbacks, in turn, passing over those that have been removed
meanwhile. Stops at the first error. -/
def reportTo (value : Logic) :
    List (CallbackHandle × Callback) → SimBench T → Outcome MuxError (SimBench T) Unit
  | [], b => .done () b
  | (handle, callback) :: rest, b =>
    if b.native.isLive handle then
      let b := b.onSim fun s => { s with delivered := s.delivered + 1 }
      match b.deliver callback.key value with
      | .fault f => .fault f
      | .failed e b => .failed e b
      | .done _ b => reportTo value rest b
    else
      reportTo value rest b

/-- Applies a change to a signal, and reports it if it is one. A signal that does not exist is a
fault. -/
def applyChange (b : SimBench T) (signal : SignalId) (value : Logic) :
    Outcome MuxError (SimBench T) Unit :=
  match b.native.change signal value with
  | .error f => .fault f
  | .ok none => .done () b
  | .ok (some (before, native)) =>
    let b := b.note (.changed b.native.now before.name before.value value)
    let b := b.onSim fun _ => native
    reportTo value (b.native.subscribers signal) b

/-- Applies events from the head of the queue, in turn. Each of them leaves the queue before it is
applied. -/
def applyEvents : List Event → SimBench T → Outcome MuxError (SimBench T) Unit
  | [], b => .done () b
  | e :: rest, b =>
    let b := b.onSim fun s => { s with queue := s.queue.tail }
    match b.applyChange e.signal e.value with
    | .fault f => .fault f
    | .failed e b => .failed e b
    | .done _ b => applyEvents rest b

/-- One step: a flush, then every event of the next time. -/
def step (order : VisitOrder SignalId) (b : SimBench T) :
    Outcome SimError (SimBench T) StepResult :=
  match b.flush order with
  | .fault f => .fault f
  | .failed e b => .failed (.mux e) b
  | .done _ b =>
    match b.native.nextTime? with
    | none => .done .done b
    | some now =>
      let b := b.onSim fun s => { s with now }
      match applyEvents (b.native.queue.takeWhile (·.time = now)) b with
      | .fault f => .fault f
      | .failed e b => .failed (.mux e) b
      | .done _ b => .done .continued (b.onSim fun s => { s with steps := s.steps + 1 })

/-- Takes at most `n` steps, and one more to find the queue empty. -/
def runSteps : Nat → (Nat → VisitOrder SignalId) → SimBench T →
    Outcome SimError (SimBench T) Unit
  | 0, orders, b => (b.step (orders 0)).andThen fun _ b => .done () b
  | n + 1, orders, b =>
    match b.step (orders 0) with
    | .fault f => .fault f
    | .failed e b => .failed e b
    | .done .done b => .done () b
    | .done .continued b => runSteps n (fun i => orders (i + 1)) b

/-- Takes steps until the queue is empty. Answers the time reached. -/
def run (orders : Nat → VisitOrder SignalId) (b : SimBench T) :
    Outcome SimError (SimBench T) SimTime :=
  (runSteps b.native.queue.length orders b).andThen fun _ b =>
    .done b.native.now
      (b.note (.finished b.native.now b.native.steps b.native.delivered))

/-- Takes at most `n` steps up to and including the limit, and then flushes. -/
def runStepsUntil (limit : SimTime) : Nat → (Nat → VisitOrder SignalId) → SimBench T →
    Outcome SimError (SimBench T) Unit
  | 0, orders, b => ((b.flush (orders 0)).mapError .mux).andThen fun _ b => .done () b
  | n + 1, orders, b =>
    if b.native.nextTime?.any (·.fs ≤ limit.fs) then
      match b.step (orders 0) with
      | .fault f => .fault f
      | .failed e b => .failed e b
      | .done _ b => runStepsUntil limit n (fun i => orders (i + 1)) b
    else
      ((b.flush (orders 0)).mapError .mux).andThen fun _ b => .done () b

/-- Takes every step up to and including a limit, and then flushes the waits that the last of them
has left. Answers the time reached. -/
def runUntil (orders : Nat → VisitOrder SignalId) (limit : SimTime) (b : SimBench T) :
    Outcome SimError (SimBench T) SimTime :=
  (runStepsUntil limit b.native.queue.length orders b).andThen fun _ b => .done b.native.now b

end Bench

end EdgeWait
