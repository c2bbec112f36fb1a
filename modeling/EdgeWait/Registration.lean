/-
One native subscription and the batch of tasks that waits behind it.
-/
import EdgeWait.Fault

namespace EdgeWait

/-- What a matching change does to a registration besides waking its tasks. -/
inductive Mode where
  /-- It is removed. -/
  | oneShot
  /-- It stays until it is cancelled. -/
  | persistent
deriving DecidableEq

namespace Mode

/-- The word for a mode in data files. -/
def name : Mode → String
  | oneShot => "one_shot"
  | persistent => "persistent"

/-- The mode a word stands for. -/
def ofName? (s : String) : Option Mode :=
  [oneShot, persistent].find? (·.name == s)

end Mode

/-- Where a registration is in its life. -/
inductive Phase where
  /-- Subscribed, and waiting for a match. -/
  | active
  /-- No longer subscribed, and its id released. -/
  | removed
deriving DecidableEq

/-- A registration on a signal of type `σ`. -/
structure Registration (σ : Type) where
  id : CallbackId
  signal : σ
  edge : Edge
  tasks : List TaskId
  mode : Mode
  phase : Phase
deriving DecidableEq

namespace Registration

variable {σ : Type}

/-- An active registration; a batch without tasks or beyond `batchCapacity` is a fault. -/
def make (id : CallbackId) (signal : σ) (edge : Edge) (tasks : List TaskId) (mode : Mode) :
    Except Fault (Registration σ) :=
  if 1 ≤ tasks.length ∧ tasks.length ≤ batchCapacity then
    .ok { id, signal, edge, tasks, mode, phase := .active }
  else
    .error (.malformedBatch tasks.length)

/-- The condition under which the native layer's report is a match. -/
def condition (r : Registration σ) : Condition := r.edge.condition

/-- A registration is active from its making to its end. -/
def isActive (r : Registration σ) : Bool := r.phase = .active

/-- Says whether a change to `v` wakes the tasks. -/
def accepts (r : Registration σ) (v : Logic) : Bool := r.condition.accepts v

/-- The registration at the end of its life. -/
def retire (r : Registration σ) : Registration σ := { r with phase := .removed }

end Registration

/-- The key by which the native layer and the host refer to a registration. -/
abbrev RegistrationKey := SlotKey

/-- The live registrations of a context, by key. -/
abbrev Arena (σ : Type) := SlotMap (Registration σ)

end EdgeWait
