/-
The JSON forms of the small values.

A logic value, an edge or a condition is written as its word, and also read from an object that has
the word as its only member, with null. An identifier is a bare 32-bit number. A time is an object
with its femtoseconds, and also read from an array with nothing else in it.
-/
import EdgeWait.Json.Text
import EdgeWait.SimTime

namespace EdgeWait

namespace Json

/-- The word of a value that has only a name. -/
def variant? : Json → Option String
  | .string text => text
  | .object [(name, .null)] => name
  | _ => none

/-- A number of digits alone that is below `bound`. -/
def naturalBelow? (bound : Nat) : Json → Option Nat
  | .number (some n) => if n < bound then some n else none
  | _ => none

/-- A number that fits 32 bits. -/
def word32? (j : Json) : Option UInt32 := (j.naturalBelow? UInt32.size).map UInt32.ofNat

/-- A number that fits 64 bits. -/
def word64? (j : Json) : Option UInt64 := (j.naturalBelow? UInt64.size).map UInt64.ofNat

/-- A word between quotation marks. Words hold nothing that would have to be escaped. -/
def quoted (word : String) : String := "\"" ++ word ++ "\""

end Json

/-- A type with a JSON form. -/
class JsonForm (α : Type) where
  encode : α → String
  decode? : Json → Option α

namespace JsonForm

instance : JsonForm Logic where
  encode v := Json.quoted v.name
  decode? j := j.variant?.bind Logic.ofName?

instance : JsonForm Edge where
  encode e := Json.quoted e.name
  decode? j := j.variant?.bind Edge.ofName?

instance : JsonForm Condition where
  encode c := Json.quoted c.name
  decode? j := j.variant?.bind Condition.ofName?

instance : JsonForm TaskId where
  encode t := toString t.raw
  decode? j := j.word32?.map TaskId.mk

instance : JsonForm CallbackId where
  encode i := toString i.raw
  decode? j := j.word32?.map CallbackId.mk

instance : JsonForm SimTime where
  encode t := "\x7b\"fs\":" ++ toString t.fs ++ "\x7d"
  decode?
    | .array [j] => j.word64?.map SimTime.mk
    | .object members =>
      if members.all (·.1.isSome) then
        match members.filter (·.1 = some "fs") with
        | [(_, j)] => j.word64?.map SimTime.mk
        | _ => none
      else none
    | _ => none

/-- Reads a value from a text. -/
def ofText? {α : Type} [JsonForm α] (text : String) : Option α :=
  (Json.parse text).bind decode?

end JsonForm

end EdgeWait
