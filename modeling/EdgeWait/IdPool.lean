/-
The pool of callback ids.

Ids are the numbers below the pool's capacity. Free ids form a stack, so the id released last is
the next one handed out, and a flag per id says whether it is in use. `alloc` answers nothing when
no id is free; `release` of an id that is not in use is a fault.

Design note: the number of ids in use is read off the stack (`inUseCount`), not counted in the
flags. That the two agree is an invariant of every pool that has been built here.
-/
import EdgeWait.Fault
import EdgeWait.Random.Shuffle

namespace EdgeWait

/-- Free ids with the next one in front, and a flag for each id. -/
structure IdPool where
  free : List CallbackId
  inUse : Array Bool

namespace IdPool

/-- The number of ids that the pool manages. -/
def capacity (p : IdPool) : Nat := p.inUse.size

/-- The number of ids that can still be handed out. -/
def available (p : IdPool) : Nat := p.free.length

/-- The number of ids that have been handed out and not released. -/
def inUseCount (p : IdPool) : Nat := p.capacity - p.available

/-- Says whether an id is handed out; an id that the pool does not manage is not. -/
def isInUse (p : IdPool) (id : CallbackId) : Bool := p.inUse[id.index]?.getD false

/-- A pool that hands out its ids in ascending order. -/
def ascending (capacity : UInt32) : IdPool where
  free := (List.range capacity.toNat).map fun n => ⟨UInt32.ofNat n⟩
  inUse := Array.replicate capacity.toNat false

/-- A pool whose stack of free ids has been shuffled by the given picks. The end of the shuffled
array is the top of the stack. -/
def shuffledBy (picks : List Nat) (capacity : UInt32) : IdPool :=
  let plain := ascending capacity
  { plain with free := (shuffle picks plain.free.reverse.toArray).toList.reverse }

/-- A pool shuffled by the picks of a seed. -/
def shuffled (capacity : UInt32) (seed : UInt64) : IdPool :=
  shuffledBy (seededPicks seed capacity.toNat) capacity

/-- Hands out the id on top of the stack; `none` when the stack is empty. -/
def alloc (p : IdPool) : Except Fault (Option (CallbackId × IdPool)) :=
  match p.free with
  | [] => .ok none
  | id :: rest =>
    if p.isInUse id then .error (.idAllocatedTwice id)
    else .ok (some (id, { free := rest, inUse := p.inUse.setIfInBounds id.index true }))

/-- Takes back an id that is in use and puts it on top of the stack. -/
def release (p : IdPool) (id : CallbackId) : Except Fault IdPool :=
  match p.inUse[id.index]? with
  | none => .error (.idOutOfRange id p.capacity)
  | some false => .error (.idNotInUse id)
  | some true => .ok { free := id :: p.free, inUse := p.inUse.setIfInBounds id.index false }

end IdPool

end EdgeWait
