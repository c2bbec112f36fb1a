/-
The log: what is worth telling about a run, by cause, with its level and its wording.

No operation reads the log, so it decides nothing.
-/
import EdgeWait.SimTime

namespace EdgeWait

/-- How much an entry matters. -/
inductive LogLevel where
  | trace
  | debug
  | info
  | error
deriving DecidableEq

/-- The level as it stands in front of a line. -/
def LogLevel.name : LogLevel → String
  | trace => "TRACE"
  | debug => "DEBUG"
  | info => "INFO"
  | error => "ERROR"

/-- What one flush did. -/
structure FlushSummary where
  /-- Waits taken out of the pending ones. -/
  waits : Nat := 0
  /-- Registrations made for them. -/
  registrations : Nat := 0
  /-- Registrations among them for one task alone. -/
  singleTask : Nat := 0
deriving DecidableEq

/-- One entry of the log. -/
inductive LogEntry where
  | registered (key : SlotKey) (id : CallbackId) (signal : String) (edge : Edge) (tasks : Nat)
  | flushed (summary : FlushSummary)
  | poisoned (error : MuxError)
  | stale (key : SlotKey)
  | fired (key : SlotKey) (observed : Logic) (tasks : Nat)
  | schedulerFailed (tasks : Nat) (cause : ScriptError)
  | cancelled (key : SlotKey)
  | shutDown (removed dropped registrations waits firings resumed : Nat)
  | changed (time : SimTime) (signal : String) (before after : Logic)
  | finished (time : SimTime) (steps notifications : Nat)
deriving DecidableEq

namespace LogEntry

/-- Single events are for tracing, and what goes wrong is an error. -/
def level : LogEntry → LogLevel
  | registered .. | stale .. | fired .. | cancelled .. | changed .. => .trace
  | flushed .. | finished .. => .debug
  | shutDown .. => .info
  | poisoned .. | schedulerFailed .. => .error

/-- The wording of an entry. The time spent resuming tasks is only measured by a profiling host, so
a shutdown reports none. -/
def text : LogEntry → String
  | registered key id signal edge tasks =>
    s!"registered {key} (id {id}) on {signal} for {edge.keyword} with {tasks} task(s)"
  | flushed summary =>
    s!"flush: {summary.waits} wait(s) -> {summary.registrations} registration(s) " ++
      s!"({summary.singleTask} single-task)"
  | poisoned error => s!"edge multiplexer poisoned: {error.text}"
  | stale key => s!"stale notification for {key} ignored"
  | fired key observed tasks =>
    s!"{key} fired on {observed.symbol}, resuming {tasks} task(s)"
  | schedulerFailed tasks cause =>
    s!"scheduler failed while resuming {tasks} task(s): {cause.message}\n{cause.traceback}"
  | cancelled key => s!"cancelled {key}"
  | shutDown removed dropped registrations waits firings resumed =>
    s!"edge multiplexer shut down: {removed} registration(s) removed, " ++
      s!"{dropped} pending wait(s) dropped; {registrations} registration(s) for " ++
      s!"{waits} wait(s), {firings} fired, {resumed} task(s) resumed in 0ns"
  | changed time signal before after =>
    s!"{time.text}: {signal} {before.symbol} -> {after.symbol}"
  | finished time steps notifications =>
    s!"simulation finished at {time.text} after {steps} step(s), " ++
      s!"{notifications} notification(s)"

/-- An entry as a line: its level and its wording. -/
def line (e : LogEntry) : String := s!"{e.level.name} {e.text}"

end LogEntry

/-- The entries of a run, the oldest first. -/
abbrev Log := Array LogEntry

end EdgeWait
