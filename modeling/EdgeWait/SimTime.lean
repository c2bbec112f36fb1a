/-
Points in simulated time, in femtoseconds.

Times are 64-bit words. Arithmetic that leaves the word is a fault (`SimTime.ofNanoseconds`,
`SimTime.plus`, `SimTime.later`) rather than a time that has wrapped around.
-/
import EdgeWait.Fault

namespace EdgeWait

/-- A point in time, so many femtoseconds after the start. -/
structure SimTime where
  fs : UInt64
deriving DecidableEq, Ord

/-- The product of two words, when it is one. -/
def mulWord (a b : UInt64) : Except Fault UInt64 :=
  if a.toNat * b.toNat < UInt64.size then .ok (a * b) else .error .mulOverflow

/-- The sum of two words, when it is one. -/
def addWord (a b : UInt64) : Except Fault UInt64 :=
  if a.toNat + b.toNat < UInt64.size then .ok (a + b) else .error .addOverflow

namespace SimTime

/-- The start of the simulation. -/
def zero : SimTime := ⟨0⟩

/-- Femtoseconds in a picosecond. -/
def fsPerPs : UInt64 := 1000

/-- Femtoseconds in a nanosecond. -/
def fsPerNs : UInt64 := 1000000

/-- Femtoseconds in a microsecond. -/
def fsPerUs : UInt64 := 1000000000

/-- The time so many nanoseconds after the start. -/
def ofNanoseconds (ns : UInt64) : Except Fault SimTime := do
  return ⟨← mulWord ns fsPerNs⟩

/-- Whole nanoseconds since the start; a fraction is dropped. -/
def nanoseconds (t : SimTime) : UInt64 := t.fs / fsPerNs

/-- The sum of two times. -/
def plus (t u : SimTime) : Except Fault SimTime := do
  return ⟨← addWord t.fs u.fs⟩

/-- The time `k` periods after `t`. The product is formed before the sum, so a product that leaves
its word is the fault that is found first. -/
def later (t period : SimTime) (k : UInt64) : Except Fault SimTime := do
  return ⟨← addWord t.fs (← mulWord period.fs k)⟩

/-- A time in the largest unit, up to microseconds, that it is a whole number of. -/
def text (t : SimTime) : String :=
  if t.fs = 0 then "0 fs"
  else if t.fs % fsPerUs = 0 then s!"{t.fs / fsPerUs} us"
  else if t.fs % fsPerNs = 0 then s!"{t.fs / fsPerNs} ns"
  else if t.fs % fsPerPs = 0 then s!"{t.fs / fsPerPs} ps"
  else s!"{t.fs} fs"

end SimTime

end EdgeWait
