/-
Four-state signal values, the edges a task can wait for, and the condition that each edge puts on
the value a signal has changed to.

A wait names an `Edge`; the native callback made for it carries the edge's `Condition`
(`Edge.condition`), and a change fires the wait when the new value meets that condition
(`Condition.accepts`). Waiting for either edge accepts every value, unknown ones included.
-/

namespace EdgeWait

/-- The value of a single-bit signal: driven low, driven high, unknown, or not driven. -/
inductive Logic where
  | zero
  | one
  | x
  | z
deriving DecidableEq

namespace Logic

/-- Every value, in the order in which tables list them. -/
def all : List Logic := [zero, one, x, z]

/-- A driven value is known. -/
def isKnown : Logic → Bool
  | zero | one => true
  | x | z => false

/-- Reads an unknown or undriven signal as low. -/
def unknownAsZero : Logic → Logic
  | one => one
  | zero | x | z => zero

/-- The one-character form used in waveforms and log lines. -/
def symbol : Logic → String
  | zero => "0"
  | one => "1"
  | x => "X"
  | z => "Z"

/-- The word for a value in data files. -/
def name : Logic → String
  | zero => "Zero"
  | one => "One"
  | x => "X"
  | z => "Z"

/-- The value a word stands for. -/
def ofName? (s : String) : Option Logic :=
  all.find? (·.name == s)

end Logic

/-- The condition a native callback puts on the value its signal has changed to. -/
inductive Condition where
  | low
  | high
  | dontCare
deriving DecidableEq

namespace Condition

/-- Every condition, by number. -/
def all : List Condition := [low, high, dontCare]

/-- The number native interfaces use for a condition. -/
def number : Condition → Nat
  | low => 0
  | high => 1
  | dontCare => 2

/-- A level is met by that driven value alone; an unknown value meets neither level. -/
def accepts : Condition → Logic → Bool
  | low, v => v = .zero
  | high, v => v = .one
  | dontCare, _ => true

/-- The word for a condition in data files. -/
def name : Condition → String
  | low => "Low"
  | high => "High"
  | dontCare => "DontCare"

/-- The condition a word stands for. -/
def ofName? (s : String) : Option Condition :=
  all.find? (·.name == s)

end Condition

/-- The change of a signal that a task waits for. -/
inductive Edge where
  | rising
  | falling
  | either
deriving DecidableEq

namespace Edge

/-- Every edge, in the order in which a flush visits them. -/
def all : List Edge := [rising, falling, either]

/-- The place of an edge in `Edge.all`. -/
def index : Edge → Nat
  | rising => 0
  | falling => 1
  | either => 2

/-- What the new value has to be for the edge to have happened. -/
def condition : Edge → Condition
  | rising => .high
  | falling => .low
  | either => .dontCare

/-- The hardware designer's word for an edge, used in log lines. -/
def keyword : Edge → String
  | rising => "posedge"
  | falling => "negedge"
  | either => "edge"

/-- The word for an edge in data files. -/
def name : Edge → String
  | rising => "rising"
  | falling => "falling"
  | either => "either"

/-- The edge a word stands for. -/
def ofName? (s : String) : Option Edge :=
  all.find? (·.name == s)

end Edge

end EdgeWait
