/-
A machine without batches, and sessions of a context on a simulator.

* `Unbatched` keeps each wait as an entry of its own, in the order of registration.  A change wakes
  the entries on its signal that accept the new value, and deletes the one-shot entries among them;
* `Session` is a context on a simulator whose scheduler keeps a record of its calls;
* `Request` is what a host asks for; both machines can play a list of requests.

Both machines tell of each applied change which tasks it has woken (`Waking`).  What a session has
woken is read off its stages, from the record of its scheduler before and after each change.  Where
the simulator stops on a fault, because it lacks the signal of an event, the machine without batches
has nothing to tell.
-/
import EdgeWait.Proofs.Hosting

namespace EdgeWait

/-- A change of value that has been applied, and the tasks that it has woken. -/
structure Waking where
  event : Event
  tasks : List TaskId
deriving DecidableEq

/-! ### The machine without batches -/

/-- A wait that has been registered by itself. -/
structure Entry where
  signal : SignalId
  edge : Edge
  task : TaskId
  mode : Mode
  /-- The number of the request that has subscribed it at once. -/
  request : Option Nat
deriving DecidableEq

/-- A change of `signal` to `value` wakes the entry. -/
def Entry.wakesOn (a : Entry) (signal : SignalId) (value : Logic) : Bool :=
  decide (a.signal = signal) && a.edge.condition.accepts value

/-- Waits on the signals of a simulator that calls nobody. -/
structure Unbatched where
  unknownAsZero : Bool
  sim : Sim
  pending : PendingWaits SignalId := .empty
  entries : List Entry := []

namespace Unbatched

/-- The value that counts as observed when a signal changes to `v`. -/
def observe (u : Unbatched) (v : Logic) : Logic := if u.unknownAsZero then v.unknownAsZero else v

def onSim (u : Unbatched) (f : Sim → Sim) : Unbatched := { u with sim := f u.sim }

/-- Registers the pending waits, list by list, each of them front to back. -/
def flush (order : VisitOrder SignalId) (u : Unbatched) : Unbatched :=
  { u with
    pending := u.pending.clear
    entries := u.entries ++ (u.pending.visits order).flatMap fun (signal, edge) =>
      (u.pending.waiting signal edge).map fun task => ⟨signal, edge, task, .oneShot, none⟩ }

/-- Registers one wait at once. -/
def subscribe (u : Unbatched) (request : Nat) (signal : SignalId) (edge : Edge) (task : TaskId)
    (mode : Mode) : Unbatched :=
  { u with entries := u.entries ++ [⟨signal, edge, task, mode, some request⟩] }

/-- Deletes the entry that a request has subscribed. -/
def cancel (u : Unbatched) (request : Nat) : Unbatched :=
  { u with entries := u.entries.filter (·.request ≠ some request) }

/-- Deletes all entries and all pending waits. -/
def shutdown (u : Unbatched) : Unbatched := { u with pending := u.pending.clear, entries := [] }

/-- Applies an event: a change of value wakes the entries that accept it, in their order. -/
def applyEvent (u : Unbatched) (e : Event) : Option (List Waking × Unbatched) :=
  match u.sim.signal? e.signal with
  | none => none
  | some before =>
    if before.value = e.value then some ([], u)
    else
      let v := u.observe e.value
      let woken := u.entries.filter (·.wakesOn e.signal v)
      let stay := u.entries.filter fun a => !(a.wakesOn e.signal v && decide (a.mode = .oneShot))
      some ([⟨e, woken.map (·.task)⟩],
        { u with sim := u.sim.withValue e.signal e.value, entries := stay })

/-- Applies events from the head of the queue, in turn. -/
def applyEvents : List Event → Unbatched → Option (List Waking × Unbatched)
  | [], u => some ([], u)
  | e :: rest, u =>
    match (u.onSim fun s => { s with queue := s.queue.tail }).applyEvent e with
    | none => none
    | some (woken, u) => (applyEvents rest u).map fun (more, u) => (woken ++ more, u)

/-- One step: a flush, then every event of the next time. -/
def step (order : VisitOrder SignalId) (u : Unbatched) :
    Option (StepResult × List Waking × Unbatched) :=
  let u := u.flush order
  match u.sim.nextTime? with
  | none => some (.done, [], u)
  | some now =>
    (applyEvents (u.sim.queue.takeWhile (·.time = now)) (u.onSim fun s => { s with now })).map
      fun answer => (.continued, answer)

/-- Takes at most `n` steps, and one more to find the queue empty. -/
def runSteps : Nat → (Nat → VisitOrder SignalId) → Unbatched → Option (List Waking × Unbatched)
  | 0, orders, u => (u.step (orders 0)).map (·.2)
  | n + 1, orders, u =>
    match u.step (orders 0) with
    | none => none
    | some (.done, woken, u) => some (woken, u)
    | some (.continued, woken, u) =>
      (runSteps n (fun i => orders (i + 1)) u).map fun (more, u) => (woken ++ more, u)

/-- Takes at most `n` steps up to and including the limit, and then flushes. -/
def runStepsUntil (limit : SimTime) :
    Nat → (Nat → VisitOrder SignalId) → Unbatched → Option (List Waking × Unbatched)
  | 0, orders, u => some ([], u.flush (orders 0))
  | n + 1, orders, u =>
    if u.sim.nextTime?.any (·.fs ≤ limit.fs) then
      match u.step (orders 0) with
      | none => none
      | some (_, woken, u) =>
        (runStepsUntil limit n (fun i => orders (i + 1)) u).map fun (more, u) => (woken ++ more, u)
    else some ([], u.flush (orders 0))

end Unbatched

/-! ### What a session wakes -/

/-- The tasks that have been handed over from `b` to `b'`, in turn. -/
def Bench.resumedUntil {T : Type} (b b' : SimBench (SchedulerRecord T)) : List TaskId :=
  (b'.resumed.drop b.resumed.length).flatten

section Wakings

variable {T : Type} [Scheduler T]

/-- The waking of a moment, if its event changes the value of its signal. -/
def Moment.wakings (m : Moment (SchedulerRecord T)) : List Waking :=
  match m.bench.native.signal? m.event.signal with
  | none => []
  | some before =>
    if before.value = m.event.value then []
    else
      match m.bench.applyChange m.event.signal m.event.value with
      | .done _ b => [⟨m.event, m.bench.resumedUntil b⟩]
      | _ => []

/-- The wakings of a stage. -/
def Stage.wakings : Stage (SchedulerRecord T) → List Waking
  | flush _ _ => []
  | event m => m.wakings

/-- The wakings of an operation of the host. -/
def Bench.wakings (b : SimBench (SchedulerRecord T)) (op : HostOp) : List Waking :=
  (b.stages op).flatMap Stage.wakings

end Wakings

/-! ### Requests -/

/-- What a host asks a context and its simulator for. -/
inductive Request where
  | addWait (signal : SignalId) (edge : Edge) (task : TaskId)
  | flush (order : VisitOrder SignalId)
  | waitNow (signal : SignalId) (edge : Edge) (task : TaskId)
  | watch (signal : SignalId) (edge : Edge) (task : TaskId)
  /-- Cancels the key that an earlier request has been answered, by the number of that request. -/
  | cancel (request : Nat)
  | shutdown
  /-- Schedules a change; a time that has passed is refused. -/
  | schedule (time : SimTime) (signal : SignalId) (value : Logic)
  | step (order : VisitOrder SignalId)
  | run (orders : Nat → VisitOrder SignalId)
  | runUntil (orders : Nat → VisitOrder SignalId) (limit : SimTime)

/-- If the request schedules a change, it is one of the first `n` signals. -/
def Request.Names (n : Nat) : Request → Prop
  | schedule _ signal _ => signal.raw.toNat < n
  | _ => True

namespace Unbatched

/-- Answers a request, which is the one with the given number. -/
def respond (u : Unbatched) (number : Nat) : Request → Option (List Waking × Unbatched)
  | .addWait signal edge task =>
    (u.pending.add signal edge task).toOption.map fun pending => ([], { u with pending })
  | .flush order => some ([], u.flush order)
  | .waitNow signal edge task => some ([], u.subscribe number signal edge task .oneShot)
  | .watch signal edge task => some ([], u.subscribe number signal edge task .persistent)
  | .cancel request => some ([], u.cancel request)
  | .shutdown => some ([], u.shutdown)
  | .schedule time signal value =>
    some ([], u.onSim fun s => (s.schedule time signal value).toOption.getD s)
  | .step order => (u.step order).map (·.2)
  | .run orders => u.runSteps u.sim.queue.length orders
  | .runUntil orders limit => u.runStepsUntil limit u.sim.queue.length orders

/-- Answers requests, in turn, the first of which has the given number. -/
def play : Nat → List Request → Unbatched → Option (List Waking × Unbatched)
  | _, [], u => some ([], u)
  | number, r :: rest, u => do
    let (woken, u) ← u.respond number r
    let (more, u) ← play (number + 1) rest u
    return (woken ++ more, u)

end Unbatched

/-- A context on a simulator, and the keys that its requests have been answered. -/
structure Session (T : Type) where
  bench : SimBench (SchedulerRecord T)
  answers : List (Option RegistrationKey) := []

namespace Session

variable {T : Type}

/-- A new session on a simulator, as a configuration asks for it. -/
def start (mux : Mux SignalId CallbackHandle) (sim : Sim) (scheduler : T) : Session T where
  bench := { mux, native := sim, scheduler := ⟨scheduler, []⟩ }

/-- The session after a request that has led to `b`. -/
def next (s : Session T) (b : SimBench (SchedulerRecord T)) (answer : Option RegistrationKey) :
    Session T :=
  ⟨b, s.answers ++ [answer]⟩

/-- What an operation on the context comes to in the session, when it has made the given wakings. -/
def conclude {α : Type} (s : Session T) (wakings : List Waking)
    (answer : α → Option RegistrationKey) :
    Outcome SimError (SimBench (SchedulerRecord T)) α → Outcome SimError (Session T) (List Waking)
  | .done a b => .done wakings (s.next b (answer a))
  | .failed e b => .failed e (s.next b none)
  | .fault f => .fault f

/-- No slot of the arena has been used more than 2^32 times. -/
def Unwrapped (s : Session T) : Prop := ∀ i, (keysOf i s.bench.log.issued).length ≤ 2 ^ 32

theorem unwrapped_of_length_le {s : Session T} (h : s.bench.log.issued.length ≤ 2 ^ 32) :
    s.Unwrapped :=
  fun _ => Nat.le_trans (List.length_filter_le _ _) h

variable [Scheduler T]

def respond (s : Session T) : Request → Outcome SimError (Session T) (List Waking)
  | .addWait signal edge task =>
    s.conclude [] (fun _ => none)
      (.ofExcept ((s.bench.addWait signal edge task).map fun b => ((), b)))
  | .flush order => s.conclude [] (fun _ => none) ((s.bench.flush order).mapError .mux)
  | .waitNow signal edge task =>
    s.conclude [] some ((s.bench.waitNow signal edge task).mapError .mux)
  | .watch signal edge task =>
    s.conclude [] some ((s.bench.watch signal edge task).mapError .mux)
  | .cancel request =>
    match s.answers[request]?.join with
    | none => .done [] (s.next s.bench none)
    | some key => s.conclude [] (fun _ => none) (.ofExcept (s.bench.cancel key))
  | .shutdown => s.conclude [] (fun _ => none) (.ofExcept s.bench.shutdown)
  | .schedule time signal value =>
    .done [] (s.next
      (s.bench.onSim fun sim => (sim.schedule time signal value).toOption.getD sim) none)
  | .step order =>
    s.conclude (s.bench.wakings (.step order)) (fun _ => none) (s.bench.step order)
  | .run orders =>
    s.conclude (s.bench.wakings (.run orders)) (fun _ => none) (s.bench.run orders)
  | .runUntil orders limit =>
    s.conclude (s.bench.wakings (.runUntil orders limit)) (fun _ => none)
      (s.bench.runUntil orders limit)

def play : List Request → Session T → Outcome SimError (Session T) (List Waking)
  | [], s => .done [] s
  | r :: rest, s =>
    (s.respond r).andThen fun woken s =>
      (play rest s).andThen fun more s => .done (woken ++ more) s

end Session

end EdgeWait
