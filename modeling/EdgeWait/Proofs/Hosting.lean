/-
What a host does with a context and its simulator, and the calls of callbacks in it.

* `host`, `hostAll` — an operation of the host, and one operation after another; what each keeps
  holds after all (`hostAll_induction`);
* `stages` — what happens meanwhile, flush by flush and event by event;
* `calls`, `allCalls` — the callbacks whose turn comes in these stages, each with the state in which
  it does (`Call`);
* `firings`, `allFirings` — how many one-shot registrations fire.

Design notes: nobody counts the one-shot registrations that fire, and the simulator does not tell of
a callback that it passes over.  So both are read off the stages of a run.
-/
import EdgeWait.Proofs.Reporting

namespace EdgeWait

open Sim

/-! ### Operations of both -/

/-- What a host can do with a context and its simulator. -/
inductive HostOp where
  | context (op : Op SignalId)
  | addSignal (name : String) (initial : Logic)
  | schedule (time : SimTime) (signal : SignalId) (value : Logic)
  | scheduleClock (signal : SignalId) (half : SimTime) (cycles : UInt32)
  | step (order : VisitOrder SignalId)
  | run (orders : Nat → VisitOrder SignalId)
  | runUntil (orders : Nat → VisitOrder SignalId) (limit : SimTime)

/-- The host reports a value to the context itself, past the simulator. -/
def HostOp.isReport : HostOp → Bool
  | context (.deliver _ _) => true
  | _ => false

/-- The host prepares what is to happen, and nothing happens yet. -/
def HostOp.prepares : HostOp → Bool
  | addSignal _ _ | schedule _ _ _ | scheduleClock _ _ _ => true
  | _ => false

/-- The host lets the simulator go on. -/
def HostOp.drives : HostOp → Bool
  | step _ | run _ | runUntil _ _ => true
  | _ => false

/-- A callback whose turn has come in a report, and the state in which it has. -/
structure Call (T : Type) where
  bench : SimBench T
  handle : CallbackHandle
  callback : Callback
  value : Logic

namespace Bench

variable {T : Type}

/-- A report fires the registration under a key, and ends it. -/
def fires (b : SimBench T) (key : RegistrationKey) (value : Logic) : Bool :=
  (b.mux.registration? key).any fun r => b.ends key r (.deliver key value)

end Bench

namespace Call

variable {T : Type}

/-- The callback is still subscribed. -/
def isLive (call : Call T) : Bool := call.bench.native.isLive call.handle

/-- The call fires a one-shot registration. -/
def fires (call : Call T) : Bool := call.bench.fires call.callback.key call.value

end Call

namespace Bench

variable {T : Type} [Scheduler T]

/-- The state after an operation of the host, which goes on after an error. -/
def host (b : SimBench T) : HostOp → Except Fault (SimBench T)
  | .context op => (b.perform op).final
  | .addSignal name initial =>
    .ok (b.onSim fun s => ((s.addSignal name initial).toOption.map (·.2)).getD s)
  | .schedule time signal value =>
    .ok (b.onSim fun s => (s.schedule time signal value).toOption.getD s)
  | .scheduleClock signal half cycles =>
    (b.native.scheduleClock signal half cycles).final.map fun s => b.onSim fun _ => s
  | .step order => (b.step order).final
  | .run orders => (b.run orders).final
  | .runUntil orders limit => (b.runUntil orders limit).final

def hostAll : List HostOp → SimBench T → Except Fault (SimBench T)
  | [], b => .ok b
  | op :: rest, b =>
    match b.host op with
    | .error f => .error f
    | .ok b => hostAll rest b

/-- What holds at the start and is kept by every operation holds after all of them. -/
theorem hostAll_induction {P : SimBench T → Prop}
    (hstep : ∀ b op b', P b → b.host op = .ok b' → P b') (ops : List HostOp) :
    ∀ b b' : SimBench T, P b → hostAll ops b = .ok b' → P b' := by
  induction ops with
  | nil =>
    rintro b b' h ⟨⟩
    exact h
  | cons op rest ih =>
    intro b b' h hrun
    rw [hostAll] at hrun
    cases hop : b.host op with
    | error f =>
      rw [hop] at hrun
      cases hrun
    | ok b₁ =>
      rw [hop] at hrun
      exact ih b₁ b' (hstep b op b₁ h hop) hrun

/-! ### Calls of callbacks -/

/-- The calls of a report to the given callbacks. -/
def reportCalls (value : Logic) : List (CallbackHandle × Callback) → SimBench T → List (Call T)
  | [], _ => []
  | (handle, callback) :: rest, b =>
    ⟨b, handle, callback, value⟩ ::
      if b.native.isLive handle then
        match (b.onSim fun s => { s with delivered := s.delivered + 1 }).deliver callback.key
            value with
        | .done _ b => reportCalls value rest b
        | _ => []
      else
        reportCalls value rest b

/-- The calls of a change. -/
def changeCalls (b : SimBench T) (signal : SignalId) (value : Logic) : List (Call T) :=
  match b.native.signal? signal with
  | none => []
  | some before =>
    if before.value = value then []
    else
      let b := b.note (.changed b.native.now before.name before.value value)
      let b := b.onSim fun s => s.withValue signal value
      reportCalls value (b.native.subscribers signal) b

end Bench

/-- The calls of callbacks that come of an event. -/
def Moment.calls {T : Type} [Scheduler T] (m : Moment T) : List (Call T) :=
  m.bench.changeCalls m.event.signal m.event.value

/-- The calls of callbacks in a stage. -/
def Stage.calls {T : Type} [Scheduler T] : Stage T → List (Call T)
  | flush _ _ => []
  | event m => m.calls

namespace Bench

variable {T : Type} [Scheduler T]

/-- The stages of an operation of the host. -/
def stages (b : SimBench T) : HostOp → List (Stage T)
  | .step order => b.stepStages order
  | .run orders => b.runStages orders
  | .runUntil orders limit => b.runUntilStages orders limit
  | _ => []

/-- The calls of an operation of the host. -/
def calls (b : SimBench T) (op : HostOp) : List (Call T) := (b.stages op).flatMap (·.calls)

/-- The calls of a run. -/
def allCalls : List HostOp → SimBench T → List (Call T)
  | [], _ => []
  | op :: rest, b =>
    b.calls op ++
      match b.host op with
      | .error _ => []
      | .ok b => allCalls rest b

/-- The number of one-shot registrations that an operation fires. -/
def firings (b : SimBench T) : HostOp → Nat
  | .context (.deliver key value) => if b.fires key value then 1 else 0
  | op => (b.calls op).countP (·.fires)

/-- The number of one-shot registrations that a run fires. -/
def allFirings : List HostOp → SimBench T → Nat
  | [], _ => 0
  | op :: rest, b =>
    b.firings op +
      match b.host op with
      | .error _ => 0
      | .ok b => allFirings rest b

end Bench

end EdgeWait
