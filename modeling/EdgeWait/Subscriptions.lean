/-
The live registrations of a context, with their ids and their native handles.

A registration is in three places at once: in the arena, under its key; in the pool, where its id is
in use; and in the table of native handles, in the row of its id. `subscribe` and `unsubscribe` are
the only operations, and each of them changes all three together with the native layer.

* `subscribe` answers nothing, and changes nothing, when the pool has no id left;
* `unsubscribe` answers nothing, and changes nothing, for a key that is not live.

Design notes:
* That the three places agree is not built into the type. Where they disagree, the operations end in
  a fault.
* The exception is an id without a row in the table of native handles, which is an index out of
  bounds. Nothing is filed then, where an array access would fail. It cannot happen: `ofPool` makes
  a row for each id of the pool, the pool hands out no others, and no operation changes the number
  of rows or the capacity.
-/
import EdgeWait.IdPool
import EdgeWait.Registration

namespace EdgeWait

/-- A native layer with states of type `N`: it owns the signals, and calls back when one of them
changes. `σ` are its signals and `η` its handles for subscriptions. -/
class NativeLayer (N : Type) (σ η : outParam Type) where
  /-- Subscribes to the changes of a signal. The key comes back with every report. -/
  subscribe : N → σ → Condition → RegistrationKey → η × N
  /-- Ends a subscription. -/
  unsubscribe : N → η → Except Fault N

/-- The live registrations, the ids, and the native handle of each id in use. -/
structure Subscriptions (σ η : Type) where
  pool : IdPool
  arena : Arena σ
  handles : Array (Option η)

namespace Subscriptions

variable {N σ η : Type}

/-- No registration, and all ids of the pool to come. -/
def ofPool (pool : IdPool) : Subscriptions σ η where
  pool := pool
  arena := .empty
  handles := Array.replicate pool.capacity none

/-- The native handle filed under an id. -/
def handle? (s : Subscriptions σ η) (id : CallbackId) : Option η :=
  s.handles[id.index]?.join

/-- What a new registration leads to. -/
structure Opened (N σ η : Type) where
  key : RegistrationKey
  id : CallbackId
  subscriptions : Subscriptions σ η
  native : N

/-- Takes an id, stores a registration under a key, subscribes natively with that key, and files the
native handle under the id. -/
def subscribe [NativeLayer N σ η] [LogText η] (s : Subscriptions σ η) (native : N) (signal : σ)
    (edge : Edge) (tasks : List TaskId) (mode : Mode) :
    Except Fault (Option (Opened N σ η)) := do
  let some (id, pool) ← s.pool.alloc | return none
  let registration ← Registration.make id signal edge tasks mode
  if let some index := s.arena.blockedSlot? then throw (.slotOccupied index)
  let (key, arena) := s.arena.insert registration
  let (handle, native) := NativeLayer.subscribe native signal edge.condition key
  if let some filed := s.handle? id then throw (.handleTaken id (logText filed))
  let handles := s.handles.setIfInBounds id.index (some handle)
  return some ⟨key, id, { pool, arena, handles }, native⟩

/-- What the end of a registration leads to. -/
structure Closed (N σ η : Type) where
  registration : Registration σ
  subscriptions : Subscriptions σ η
  native : N

/-- Takes a registration out of the arena, ends its native subscription, and releases its id. -/
def unsubscribe [NativeLayer N σ η] (s : Subscriptions σ η) (native : N)
    (key : RegistrationKey) : Except Fault (Option (Closed N σ η)) := do
  let some (registration, arena) := s.arena.erase? key | return none
  let id := registration.id
  let some handle := s.handle? id | throw (.handleMissing id)
  let handles := s.handles.setIfInBounds id.index none
  let native ← NativeLayer.unsubscribe native handle
  let pool ← s.pool.release id
  if registration.isActive then
    return some ⟨registration.retire, { pool, arena, handles }, native⟩
  else
    throw (.removedTwice key)

end Subscriptions

end EdgeWait
