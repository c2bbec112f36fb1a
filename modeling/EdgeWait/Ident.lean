/-
Identifiers: tasks, callback ids, and the way signals and native handles appear in texts.

Tasks and callback ids are opaque 32-bit numbers. A callback id also serves as an index
(`CallbackId.index`) into the tables that a context keeps per id.
-/

namespace EdgeWait

/-- A task of the host's scheduler. -/
structure TaskId where
  raw : UInt32
deriving DecidableEq, Ord

instance : ToString TaskId := ⟨fun t => toString t.raw⟩

/-- An id from a context's pool; it belongs to at most one live registration at a time. -/
structure CallbackId where
  raw : UInt32
deriving DecidableEq, Ord

instance : ToString CallbackId := ⟨fun i => toString i.raw⟩

/-- The row of an id in tables kept per id. -/
def CallbackId.index (i : CallbackId) : Nat := i.raw.toNat

/-- How a signal or a native handle is written in log lines and in the texts of faults. -/
class LogText (α : Type) where
  logText : α → String

export LogText (logText)

end EdgeWait
