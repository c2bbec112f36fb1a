/-
A table of slots with generation-checked keys.

A value is put into the slot that was freed last, or into a new slot when none is free
(`SlotMap.insert`). The key handed out names the slot and the generation of the slot at that time.
Erasing a value moves its slot on to the next generation (`SlotMap.erase?`), so a key that outlives
its value finds nothing (`SlotMap.get?`), also when the slot holds a later value.

Design notes:
* Generations are 32-bit words that wrap around: a key can come back after 2^32 erasures of one
  slot, and not before.
* `live` is counted along rather than computed, so that asking for the size is cheap.
* A table can be written down whose free list names a slot that it does not have; in an array access
  that would be an index out of bounds. `insert` takes a default there, and the case does not occur:
  the free list names empty slots of the table, in the table without slots and after every `insert`
  and `erase?`, and `erase?` writes to the slot that it has just read.
-/

namespace EdgeWait

/-- A slot, and the generation of it for which the key was issued. -/
structure SlotKey where
  index : UInt32
  generation : UInt32
deriving DecidableEq

instance : ToString SlotKey := ⟨fun k => s!"#{k.index}.{k.generation}"⟩

/-- One slot: the generation that its next key, or the key of its present value, carries. -/
structure Slot (α : Type) where
  generation : UInt32
  entry : Option α

/-- Slots, the indices of the free ones with the one freed last in front, and the number of values
held. -/
structure SlotMap (α : Type) where
  slots : Array (Slot α) := #[]
  free : List UInt32 := []
  live : Nat := 0

namespace SlotMap

variable {α : Type}

/-- A table without slots. -/
def empty : SlotMap α := {}

/-- The slot at an index, if there is one. -/
def slot? (m : SlotMap α) (index : UInt32) : Option (Slot α) :=
  m.slots[index.toNat]?

/-- The value that a key refers to, as long as the slot is still at the key's generation. -/
def get? (m : SlotMap α) (key : SlotKey) : Option α :=
  match m.slot? key.index with
  | some slot => if slot.generation = key.generation then slot.entry else none
  | none => none

/-- A key is live as long as it refers to a value. -/
def contains (m : SlotMap α) (key : SlotKey) : Bool :=
  (m.get? key).isSome

/-- Puts a value into the slot freed last, or into a new slot, and issues the key for it. -/
def insert (m : SlotMap α) (a : α) : SlotKey × SlotMap α :=
  match m.free with
  | index :: rest =>
    let generation := ((m.slot? index).map (·.generation)).getD 0
    (⟨index, generation⟩,
      { slots := m.slots.setIfInBounds index.toNat ⟨generation, some a⟩
        free := rest
        live := m.live + 1 })
  | [] =>
    (⟨UInt32.ofNat m.slots.size, 0⟩,
      { slots := m.slots.push ⟨0, some a⟩
        free := []
        live := m.live + 1 })

/-- Takes out the value of a live key; its slot becomes the next one to be used. -/
def erase? (m : SlotMap α) (key : SlotKey) : Option (α × SlotMap α) :=
  (m.get? key).map fun a =>
    (a,
      { slots := m.slots.setIfInBounds key.index.toNat ⟨key.generation + 1, none⟩
        free := key.index :: m.free
        live := m.live - 1 })

/-- The values and their keys, in the order of the slots. -/
def toList (m : SlotMap α) : List (SlotKey × α) :=
  m.slots.toList.zipIdx.filterMap fun (slot, i) =>
    slot.entry.map fun a => (⟨UInt32.ofNat i, slot.generation⟩, a)

/-- The live keys, in the order of the slots. -/
def keys (m : SlotMap α) : List SlotKey :=
  m.toList.map (·.1)

/-- The index of the slot that the next value would go into although it holds one already. -/
def blockedSlot? (m : SlotMap α) : Option UInt32 :=
  match m.free with
  | index :: _ => if ((m.slot? index).bind (·.entry)).isSome then some index else none
  | [] => none

end SlotMap

end EdgeWait
