/-
A discrete-event simulator of single-bit signals, seen as a native layer.

It holds named signals, a queue of scheduled value changes, and the callbacks subscribed to value
changes. Callbacks are kept in a `SlotMap`; each of them remembers when it was subscribed, so that
they can be called in that order whatever slots they are in.

Scheduling (`Sim.schedule`, `Sim.scheduleClock`) refuses times that have passed. Running the
simulation is in `EdgeWait.Sim.Run`.
-/
import EdgeWait.Sim.Queue
import EdgeWait.Subscriptions

namespace EdgeWait

/-- The handle of a subscription to value changes. -/
abbrev CallbackHandle := SlotKey

instance : LogText SlotKey :=
  ⟨fun h => "NativeCallbackHandle \x7b index: " ++ toString h.index ++ ", generation: " ++
    toString h.generation ++ " \x7d"⟩

/-- A named signal and its present value. -/
structure Signal where
  name : String
  value : Logic
deriving DecidableEq

/-- A subscription to the changes of a signal. -/
structure Callback where
  signal : SignalId
  condition : Condition
  key : RegistrationKey
  /-- The number of subscriptions made before this one. -/
  order : Nat
deriving DecidableEq

/-- The errors of the simulator. -/
inductive SimError where
  | duplicateSignal (name : String)
  | unknownSignal (name : String)
  | eventInPast (time now : SimTime)
  /-- An error of the context that a step was driven with. -/
  | mux (error : MuxError)
deriving DecidableEq

/-- The wording of the error. -/
def SimError.text : SimError → String
  | duplicateSignal name => s!"signal '{name}' is already defined"
  | unknownSignal name => s!"unknown signal '{name}'"
  | eventInPast time now =>
    s!"cannot schedule an event at {time.fs} fs, simulation is already at {now.fs} fs"
  | mux error => error.text

/-- The simulator. -/
structure Sim where
  now : SimTime := .zero
  /-- The events to come, sorted. -/
  queue : List Event := []
  /-- The number of events ever scheduled. -/
  nextSeq : Nat := 0
  signals : Array Signal := #[]
  callbacks : SlotMap Callback := {}
  /-- The number of subscriptions ever made. -/
  nextOrder : Nat := 0
  registered : Nat := 0
  removed : Nat := 0
  /-- Reports delivered to a context. -/
  delivered : Nat := 0
  steps : Nat := 0

namespace Sim

/-- The simulator before anything has been added to it. -/
def initial : Sim := {}

/-! ## Signals -/

/-- The signal of a name. -/
def findSignal (s : Sim) (name : String) : Option SignalId :=
  (s.signals.toList.findIdx? (·.name == name)).map fun i => ⟨UInt32.ofNat i⟩

/-- The signal of a name, or the error that there is none. -/
def signalNamed (s : Sim) (name : String) : Except SimError SignalId :=
  match s.findSignal name with
  | some id => .ok id
  | none => .error (.unknownSignal name)

/-- Adds a signal. No two signals have the same name. -/
def addSignal (s : Sim) (name : String) (initial : Logic) : Except SimError (SignalId × Sim) :=
  match s.findSignal name with
  | some _ => .error (.duplicateSignal name)
  | none =>
    .ok (⟨UInt32.ofNat s.signals.size⟩, { s with signals := s.signals.push ⟨name, initial⟩ })

/-- The name and the value of a signal. -/
def signal? (s : Sim) (id : SignalId) : Option Signal := s.signals[id.raw.toNat]?

/-- Gives a signal a value. Answers the signal as it was and the simulator as it is then, or nothing
when the signal has the value already. A signal that does not exist is a fault. -/
def change (s : Sim) (id : SignalId) (value : Logic) : Except Fault (Option (Signal × Sim)) :=
  if h : id.raw.toNat < s.signals.size then
    let before := s.signals[id.raw.toNat]
    if before.value = value then .ok none
    else
      .ok (some (before, { s with signals := s.signals.set id.raw.toNat { before with value } h }))
  else .error (.indexOutOfBounds s.signals.size id.raw.toNat)

/-! ## Scheduling -/

/-- The time of the next event. -/
def nextTime? (s : Sim) : Option SimTime := s.queue.head?.map (·.time)

theorem nextTime?_nil {s : Sim} (h : s.queue = []) : s.nextTime? = none := by
  rw [nextTime?, h]
  rfl

theorem nextTime?_cons {s : Sim} {e : Event} {rest : List Event} (h : s.queue = e :: rest) :
    s.nextTime? = some e.time := by
  rw [nextTime?, h]
  rfl

/-- Schedules a change of a signal. A time that has passed is refused. -/
def schedule (s : Sim) (time : SimTime) (signal : SignalId) (value : Logic) :
    Except SimError Sim :=
  if time.fs < s.now.fs then .error (.eventInPast time s.now)
  else
    .ok { s with
      queue := enqueue ⟨time, s.nextSeq, signal, value⟩ s.queue
      nextSeq := s.nextSeq + 1 }

/-- The value that a clock takes at its `k`-th edge. -/
def clockValue (k : Nat) : Logic := if k % 2 = 1 then .one else .zero

/-- Schedules the edges `k`, `k + 1`, … of a clock, so many of them. Edge `k` comes `k` half periods
after the present time. -/
def scheduleEdges (signal : SignalId) (half : SimTime) (k : Nat) :
    Nat → Sim → Outcome SimError Sim Unit
  | 0, s => .done () s
  | n + 1, s =>
    match s.now.later half (UInt64.ofNat k) with
    | .error f => .fault f
    | .ok time =>
      match s.schedule time signal (clockValue k) with
      | .error e => .failed e s
      | .ok s => scheduleEdges signal half (k + 1) n s

/-- Schedules so many periods of a clock, starting with a rising edge half a period from now. -/
def scheduleClock (s : Sim) (signal : SignalId) (half : SimTime) (cycles : UInt32) :
    Outcome SimError Sim Unit :=
  scheduleEdges signal half 1 (2 * cycles.toNat) s

/-! ## Callbacks -/

/-- Puts a callback behind those that have been subscribed before it. -/
def insertByOrder (c : CallbackHandle × Callback) :
    List (CallbackHandle × Callback) → List (CallbackHandle × Callback)
  | [] => [c]
  | a :: rest => if a.2.order ≤ c.2.order then a :: insertByOrder c rest else c :: a :: rest

/-- The callbacks subscribed to a signal, in the order of their subscription. -/
def subscribers (s : Sim) (signal : SignalId) : List (CallbackHandle × Callback) :=
  (s.callbacks.toList.filter (·.2.signal = signal)).foldr insertByOrder []

/-- The conditions of the callbacks subscribed to a signal, in the order of their subscription. -/
def conditionsOn (s : Sim) (signal : SignalId) : List Condition :=
  (s.subscribers signal).map (·.2.condition)

/-- A handle is live as long as its callback is subscribed. -/
def isLive (s : Sim) (handle : CallbackHandle) : Bool := s.callbacks.contains handle

/-- Subscribes a callback. -/
def subscribe (s : Sim) (signal : SignalId) (condition : Condition) (key : RegistrationKey) :
    CallbackHandle × Sim :=
  let (handle, callbacks) := s.callbacks.insert ⟨signal, condition, key, s.nextOrder⟩
  (handle,
    { s with
      callbacks
      nextOrder := s.nextOrder + 1
      registered := s.registered + 1 })

/-- Removes a callback. A handle that is not live is a fault. -/
def unsubscribe (s : Sim) (handle : CallbackHandle) : Except Fault Sim :=
  match s.callbacks.erase? handle with
  | none => .error (.notSubscribed (logText handle))
  | some (_, callbacks) => .ok { s with callbacks, removed := s.removed + 1 }

instance : NativeLayer Sim SignalId CallbackHandle where
  subscribe := subscribe
  unsubscribe := unsubscribe

end Sim

end EdgeWait
