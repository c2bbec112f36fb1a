/-
A native layer that does nothing but keep the record of its subscriptions.

Handles are numbered from one. `Bench.announce` plays the part of a simulator: it reports a value to
every subscription of a signal.
-/
import EdgeWait.Bench

namespace EdgeWait

/-- A signal of a switchboard. -/
structure Pin where
  number : UInt32
deriving DecidableEq, Ord

instance : LogText Pin := ⟨fun p => toString p.number⟩

instance : LogText Nat := ⟨fun n => toString n⟩

/-- One subscription on record. -/
structure Connection where
  handle : Nat
  pin : Pin
  condition : Condition
  key : RegistrationKey
deriving DecidableEq

/-- The subscriptions there are, in the order of their handles, and the recent history: what has
been added and removed since the record was last cleared. -/
structure Switchboard where
  nextHandle : Nat := 1
  live : List Connection := []
  added : List Connection := []
  removed : List Connection := []

namespace Switchboard

instance : NativeLayer Switchboard Pin Nat where
  subscribe s pin condition key :=
    let c : Connection := ⟨s.nextHandle, pin, condition, key⟩
    (s.nextHandle,
      { s with
        nextHandle := s.nextHandle + 1
        live := s.live ++ [c]
        added := s.added ++ [c] })
  unsubscribe s handle :=
    match s.live.find? (·.handle = handle) with
    | none => .error (.notSubscribed (logText handle))
    | some c =>
      .ok { s with
        live := s.live.filter (·.handle ≠ handle)
        removed := s.removed ++ [c] }

/-- Clears the history. The subscriptions stay. -/
def forgetHistory (s : Switchboard) : Switchboard := { s with added := [], removed := [] }

/-- The subscriptions of a pin, in the order of their handles. -/
def on (s : Switchboard) (pin : Pin) : List Connection := s.live.filter (·.pin = pin)

/-- A subscription is live until it has been removed. -/
def isLive (s : Switchboard) (handle : Nat) : Bool := s.live.any (·.handle = handle)

end Switchboard

namespace Bench

variable {T : Type} [Scheduler T]

/-- Reports a value to the given subscriptions, in turn, passing over those that have been removed
meanwhile. Stops at the first error. Answers what each report did. -/
def announceTo (value : Logic) :
    List Connection → Bench Switchboard T Pin Nat → List (Except MuxError Delivery) →
      Except Fault (List (Except MuxError Delivery) × Bench Switchboard T Pin Nat)
  | [], b, answers => .ok (answers.reverse, b)
  | c :: rest, b, answers =>
    if b.native.isLive c.handle then
      match b.deliver c.key value with
      | .fault f => .error f
      | .failed e b => .ok ((.error e :: answers).reverse, b)
      | .done d b => announceTo value rest b (.ok d :: answers)
    else
      announceTo value rest b answers

/-- Reports a value to every subscription of a pin. -/
def announce (b : Bench Switchboard T Pin Nat) (pin : Pin) (value : Logic) :
    Except Fault (List (Except MuxError Delivery) × Bench Switchboard T Pin Nat) :=
  announceTo value (b.native.on pin) b []

end Bench

end EdgeWait
