/-
A context at work: its operations on a native layer, a scheduler and a log.

* `Bench.flush` turns the pending waits into batched registrations;
* `Bench.waitNow` and `Bench.watch` subscribe for one task at once;
* `Bench.deliver` takes the report of a changed value: it fires the registration, leaves it waiting,
  or finds that it is gone;
* `Bench.cancel` and `Bench.shutdown` end registrations without waking anybody.

An operation that reports an error leaves the bench as far as it had got. After an error the context
is poisoned: flushing, subscribing and delivering are refused and change nothing, while recording
waits, cancelling and shutting down still work.
-/
import EdgeWait.Mux

namespace EdgeWait

/-- What the report of a changed value did. -/
inductive Delivery where
  /-- It woke so many tasks. -/
  | fired (tasks : Nat)
  /-- It is not what the registration waits for. -/
  | ignored
  /-- The registration is gone. -/
  | stale
deriving DecidableEq

/-- A context with what it works on. -/
structure Bench (N T σ η : Type) where
  mux : Mux σ η
  native : N
  scheduler : T
  log : Log := #[]

namespace Bench

variable {N T σ η : Type}

/-- Adds an entry to the log. -/
def note (b : Bench N T σ η) (entry : LogEntry) : Bench N T σ η :=
  { b with log := b.log.push entry }

/-- Changes the counters of the context. -/
def count (b : Bench N T σ η) (f : Counters → Counters) : Bench N T σ η :=
  { b with mux := { b.mux with counters := f b.mux.counters } }

/-- Puts other registrations, and the native layer that belongs to them, in place. -/
def withSubscriptions (b : Bench N T σ η) (s : Subscriptions σ η) (native : N) : Bench N T σ η :=
  { b with mux := { b.mux with subscriptions := s }, native }

/-- Marks the context as unusable after a failed registration. -/
def poison (b : Bench N T σ η) (error : MuxError) : Bench N T σ η :=
  { b with mux := { b.mux with failed := true } }.note (.poisoned error)

/-- Records a wait. -/
def addWait [DecidableEq σ] [LogText σ] (b : Bench N T σ η) (signal : σ) (edge : Edge)
    (task : TaskId) : Except Fault (Bench N T σ η) := do
  return { b with mux := ← b.mux.addWait signal edge task }

section Registering

variable [NativeLayer N σ η] [LogText σ] [LogText η]

/-- Makes one registration and counts it. -/
def register (b : Bench N T σ η) (signal : σ) (edge : Edge) (tasks : List TaskId) (mode : Mode) :
    Outcome MuxError (Bench N T σ η) RegistrationKey :=
  match b.mux.subscriptions.subscribe b.native signal edge tasks mode with
  | .error f => .fault f
  | .ok none => .failed (.poolExhausted b.mux.subscriptions.pool.capacity) b
  | .ok (some opened) =>
    let b := b.withSubscriptions opened.subscriptions opened.native
    let b := b.count fun c =>
      { c with
        registrations := c.registrations + 1
        batchedRegistrations := c.batchedRegistrations + if 1 < tasks.length then 1 else 0 }
    .done opened.key
      (b.note (.registered opened.key opened.id (logText signal) edge tasks.length))

/-- Makes a one-shot registration for each batch, until one fails. -/
def registerBatches (signal : σ) (edge : Edge) :
    List (List TaskId) → Bench N T σ η × FlushSummary →
      Outcome MuxError (Bench N T σ η × FlushSummary) Unit
  | [], s => .done () s
  | batch :: rest, (b, summary) =>
    match b.register signal edge batch .oneShot with
    | .fault f => .fault f
    | .failed e b => .failed e (b, summary)
    | .done _ b =>
      registerBatches signal edge rest (b,
        { summary with
          registrations := summary.registrations + 1
          singleTask := summary.singleTask + if batch.length = 1 then 1 else 0 })

/-- Makes the registrations for one list of waiting tasks. -/
def registerList (signal : σ) (edge : Edge) (tasks : List TaskId)
    (s : Bench N T σ η × FlushSummary) :
    Outcome MuxError (Bench N T σ η × FlushSummary) Unit :=
  (registerBatches signal edge (s.1.mux.policy.split tasks) s).andThen fun _ (b, summary) =>
    .done () (b, { summary with waits := summary.waits + tasks.length })

/-- Turns the pending waits into registrations, list by list. Without pending waits there is nothing
to do, and nothing is counted. When a registration fails, the list it was made for and the lists not
yet visited stay pending. -/
def flush [DecidableEq σ] (order : VisitOrder σ) (b : Bench N T σ η) :
    Outcome MuxError (Bench N T σ η) FlushSummary :=
  if b.mux.isPoisoned then .failed .poisoned b
  else if b.mux.pending.isEmpty then .done {} b
  else
    match b.mux.pending.drainWith order registerList (b, {}) with
    | .fault f => .fault f
    | .failed e (pending, b, _) =>
      .failed e ({ b with mux := { b.mux with pending } }.poison e)
    | .done _ (pending, b, summary) =>
      let b := { b with mux := { b.mux with pending } }
      let b := b.count fun c => { c with flushes := c.flushes + 1 }
      .done summary (b.note (.flushed summary))

/-- Makes a registration for one task at once. -/
def registerSingle (b : Bench N T σ η) (signal : σ) (edge : Edge) (task : TaskId) (mode : Mode) :
    Outcome MuxError (Bench N T σ η) RegistrationKey :=
  if b.mux.isPoisoned then .failed .poisoned b
  else
    let b := b.count fun c => { c with waitsAdded := c.waitsAdded + 1 }
    match b.register signal edge [task] mode with
    | .fault f => .fault f
    | .failed e b => .failed e (b.poison e)
    | .done key b => .done key b

/-- Subscribes for one task at once; the registration is removed when it fires. -/
def waitNow (b : Bench N T σ η) (signal : σ) (edge : Edge) (task : TaskId) :
    Outcome MuxError (Bench N T σ η) RegistrationKey :=
  b.registerSingle signal edge task .oneShot

/-- Subscribes for one task at once; the registration stays until it is cancelled. -/
def watch (b : Bench N T σ η) (signal : σ) (edge : Edge) (task : TaskId) :
    Outcome MuxError (Bench N T σ η) RegistrationKey :=
  b.registerSingle signal edge task .persistent

end Registering

section Removing

variable [NativeLayer N σ η]

/-- Ends a registration; `none`, and the same bench, for a key that is not live. -/
def tearDown (b : Bench N T σ η) (key : RegistrationKey) :
    Except Fault (Option (Registration σ) × Bench N T σ η) :=
  match b.mux.subscriptions.unsubscribe b.native key with
  | .error f => .error f
  | .ok none => .ok (none, b)
  | .ok (some closed) =>
    .ok (some closed.registration, b.withSubscriptions closed.subscriptions closed.native)

/-- Ends a registration without waking its tasks. Says whether there was one to end. -/
def cancel (b : Bench N T σ η) (key : RegistrationKey) :
    Except Fault (Bool × Bench N T σ η) :=
  match b.tearDown key with
  | .error f => .error f
  | .ok (none, b) => .ok (false, b)
  | .ok (some _, b) =>
    let b := b.count fun c => { c with cancelled := c.cancelled + 1 }
    .ok (true, b.note (.cancelled key))

/-- Ends the registrations under the given keys, in turn. -/
def tearDownAll : List RegistrationKey → Bench N T σ η → Except Fault (Bench N T σ η)
  | [], b => .ok b
  | key :: rest, b =>
    match b.tearDown key with
    | .error f => .error f
    | .ok (_, b) => tearDownAll rest b

/-- Drops the pending waits and ends every registration. Answers how many there were to end. -/
def shutdown (b : Bench N T σ η) : Except Fault (Nat × Bench N T σ η) :=
  let dropped := b.mux.pending.size
  let b := { b with mux := { b.mux with pending := b.mux.pending.clear } }
  let keys := b.mux.subscriptions.arena.keys
  match tearDownAll keys b with
  | .error f => .error f
  | .ok b =>
    let b := b.count fun c => { c with cancelled := c.cancelled + keys.length }
    let stats := b.mux.stats
    .ok (keys.length,
      b.note (.shutDown keys.length dropped stats.registrations stats.waitsAdded stats.fired
        stats.dispatchedTasks))

end Removing

section Delivering

variable [NativeLayer N σ η] [Scheduler T]

/-- Hands a woken batch over to the scheduler. -/
def dispatch (b : Bench N T σ η) (tasks : List TaskId) :
    Outcome MuxError (Bench N T σ η) Unit :=
  (b.mux.bridge.dispatch b.scheduler b.log tasks).mapState fun (bridge, scheduler, log) =>
    { b with mux := { b.mux with bridge }, scheduler, log }

/-- Takes the report that the signal of a registration has changed to a value. On a match the tasks
are resumed; a one-shot registration is ended before they are. -/
def deliver (b : Bench N T σ η) (key : RegistrationKey) (value : Logic) :
    Outcome MuxError (Bench N T σ η) Delivery :=
  if b.mux.isPoisoned then .failed .poisoned b
  else
    let b := b.count fun c => { c with notifications := c.notifications + 1 }
    let observed := b.mux.observe value
    match b.mux.registration? key with
    | none =>
      let b := b.count fun c => { c with stale := c.stale + 1 }
      .done .stale (b.note (.stale key))
    | some registration =>
      if registration.accepts observed then
        let ended :=
          if registration.mode = .oneShot then (b.tearDown key).map (·.2) else .ok b
        match ended with
        | .error f => .fault f
        | .ok b =>
          let b := b.count fun c => { c with fired := c.fired + 1 }
          let b := b.note (.fired key observed registration.tasks.length)
          (b.dispatch registration.tasks).andThen fun _ b =>
            .done (.fired registration.tasks.length) b
      else
        .done .ignored (b.count fun c => { c with ignored := c.ignored + 1 })

/-- Takes a report where an error leaves no way to go on. -/
def deliverOrStop (b : Bench N T σ η) (key : RegistrationKey) (value : Logic) :
    Outcome MuxError (Bench N T σ η) Delivery :=
  match b.deliver key value with
  | .failed e _ => .fault (.fatal e)
  | outcome => outcome

end Delivering

end Bench

end EdgeWait
