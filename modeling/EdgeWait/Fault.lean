/-
What can go wrong, by cause.

* `MuxError` is reported to the caller. After the first one a context refuses further work.
* `Fault` is a broken rule of use, or arithmetic that leaves its word: the computation stops there.
* `Outcome` is what an operation ends with. An error still leaves a state, which later operations
  see; a fault leaves none.
-/
import EdgeWait.Value
import EdgeWait.Ident
import EdgeWait.SlotMap

namespace EdgeWait

/-- A failure inside the host's script environment while it resumed tasks. -/
structure ScriptError where
  message : String
  traceback : String
deriving DecidableEq

/-- The text of a script failure; the traceback is shown only by those who report it. -/
def ScriptError.text (e : ScriptError) : String := e.message

/-- The errors of a context. Every one of them is final for it. -/
inductive MuxError where
  /-- The scheduler failed while it resumed a batch. -/
  | dispatchFailed (cause : ScriptError)
  /-- An earlier error has made the context unusable. -/
  | poisoned
  /-- No callback id is left for a new registration. -/
  | poolExhausted (capacity : Nat)
deriving DecidableEq

/-- The wording of the error. -/
def MuxError.text : MuxError → String
  | dispatchFailed cause => s!"task dispatch failed: {cause.message}\n{cause.traceback}"
  | poisoned => "edge multiplexer is torn down after a fatal error"
  | poolExhausted capacity => s!"callback id pool exhausted (capacity {capacity})"

/-- The largest number of tasks in one registration. -/
def batchCapacity : Nat := 16

/-- A rule of use that was broken. -/
inductive Fault where
  /-- Arity bounds outside 2 to `batchCapacity`, or the wrong way round. -/
  | arityBounds (least most : Nat)
  /-- A registration for no task, or for more than `batchCapacity`. -/
  | malformedBatch (size : Nat)
  /-- A task that waits twice for the same edge of the same signal between two drains. -/
  | duplicateWait (task : TaskId) (edge : Edge) (signal : String)
  /-- A free id that is marked as in use. -/
  | idAllocatedTwice (id : CallbackId)
  /-- A released id that the pool does not manage. -/
  | idOutOfRange (id : CallbackId) (capacity : Nat)
  /-- A released id that is not in use. -/
  | idNotInUse (id : CallbackId)
  /-- A free slot that holds a value. -/
  | slotOccupied (index : UInt32)
  /-- A fresh id under which a native handle is filed already. -/
  | handleTaken (id : CallbackId) (handle : String)
  /-- The id of a live registration without a native handle. -/
  | handleMissing (id : CallbackId)
  /-- A live registration that is marked as removed. -/
  | removedTwice (key : SlotKey)
  /-- A native handle that is not subscribed. -/
  | notSubscribed (handle : String)
  /-- An error where the caller cannot go on after one. -/
  | fatal (error : MuxError)
  /-- A place that is not in a table of the given size. -/
  | indexOutOfBounds (size index : Nat)
  /-- A sum that does not fit its word. -/
  | addOverflow
  /-- A product that does not fit its word. -/
  | mulOverflow
deriving DecidableEq

/-- The wording with which the computation stops. -/
def Fault.text : Fault → String
  | arityBounds least most => s!"invalid arity bounds {least}..={most} (capacity {batchCapacity})"
  | malformedBatch size => s!"malformed batch of {size} tasks (capacity {batchCapacity})"
  | duplicateWait task edge signal =>
    s!"task {task} already waits for {edge.keyword} on {signal}"
  | idAllocatedTwice id => s!"id {id} allocated twice"
  | idOutOfRange id capacity =>
    s!"released callback id {id} is out of range (capacity {capacity})"
  | idNotInUse id => s!"callback id {id} released while not in use"
  | slotOccupied index => s!"free slot {index} is occupied"
  | handleTaken id handle =>
    s!"callback id {id} is already mapped to native handle Some({handle})"
  | handleMissing id => s!"callback id {id} has no native handle; removed twice"
  | removedTwice key => s!"registration {key} removed twice"
  | notSubscribed handle => s!"native callback {handle} removed twice or never registered"
  | fatal error => s!"fatal error in edge callback: {error.text}"
  | indexOutOfBounds size index =>
    s!"index out of bounds: the len is {size} but the index is {index}"
  | addOverflow => "attempt to add with overflow"
  | mulOverflow => "attempt to multiply with overflow"

/-- How an operation on a state of type `S` ends, where `ε` are the errors it may report. -/
inductive Outcome (ε S α : Type) where
  | done (answer : α) (state : S)
  | failed (error : ε) (state : S)
  | fault (cause : Fault)

namespace Outcome

variable {ε ε' S S' α β : Type}

/-- Goes on with the answer and the state, unless there is none to go on with. -/
def andThen (o : Outcome ε S α) (next : α → S → Outcome ε S β) : Outcome ε S β :=
  match o with
  | done a s => next a s
  | failed e s => failed e s
  | fault f => fault f

/-- Restates the error in wider terms. -/
def mapError (g : ε → ε') : Outcome ε S α → Outcome ε' S α
  | done a s => done a s
  | failed e s => failed (g e) s
  | fault f => fault f

/-- Changes what counts as the state. -/
def mapState (g : S → S') : Outcome ε S α → Outcome ε S' α
  | done a s => done a (g s)
  | failed e s => failed e (g s)
  | fault f => fault f

/-- The outcome of an operation that reports no errors. -/
def ofExcept : Except Fault (α × S) → Outcome ε S α
  | .ok (a, s) => done a s
  | .error f => fault f

end Outcome

end EdgeWait
