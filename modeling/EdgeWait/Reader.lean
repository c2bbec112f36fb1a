/-
Readers: functions that take the characters of a text and give a value with the characters left, or
nothing where the text is not of their form.
-/

namespace EdgeWait

/-- Reads an `α` from the front of a text. -/
abbrev Reader (α : Type) := List Char → Option (α × List Char)

namespace Reader

/-- Takes the given character away from the front of a text. -/
def skipChar (c : Char) : List Char → Option (List Char)
  | d :: rest => if d = c then some rest else none
  | [] => none

/-- Takes the given characters away from the front of a text. -/
def skipChars : List Char → List Char → Option (List Char)
  | [], rest => some rest
  | c :: cs, text => (skipChar c text).bind (skipChars cs)

/-- The value of a hexadecimal digit of either case. -/
def hexValue? (c : Char) : Option Nat :=
  if '0' ≤ c ∧ c ≤ '9' then some (c.toNat - '0'.toNat)
  else if 'a' ≤ c ∧ c ≤ 'f' then some (c.toNat - 'a'.toNat + 10)
  else if 'A' ≤ c ∧ c ≤ 'F' then some (c.toNat - 'A'.toNat + 10)
  else none

/-- The number that hexadecimal digits stand for. -/
def hexNumber? (digits : List Char) : Option Nat :=
  digits.foldlM (fun n c => (hexValue? c).map (n * 16 + ·)) 0

/-- The number that decimal digits stand for, the first digit leading. -/
def decimalNumber (digits : List Char) : Nat :=
  digits.foldl (fun n c => n * 10 + (c.toNat - '0'.toNat)) 0

/-- The character with a code point, unless the code point is a surrogate or out of range. -/
def charOfCode? (n : Nat) : Option Char :=
  if n.isValidChar then some (Char.ofNat n) else none

/-- Reads exactly `n` decimal digits as a number. -/
def fixedDigits (n : Nat) : Reader Nat := fun text =>
  let digits := text.take n
  if digits.length = n ∧ digits.all Char.isDigit then some (decimalNumber digits, text.drop n)
  else none

end Reader

end EdgeWait
