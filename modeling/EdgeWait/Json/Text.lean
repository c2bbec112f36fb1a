/-
JSON texts as trees.

Two things about a text are kept that a tree of plain values would lose: whether a number is written
in digits alone, which is the only form identifiers and times are accepted in, and whether a string
holds a surrogate without its partner, which makes it no text.
-/
import EdgeWait.Reader

namespace EdgeWait

/-- A JSON value. -/
inductive Json where
  | null
  | boolean (value : Bool)
  /-- A number; with its value when it is written in digits alone. -/
  | number (digits : Option Nat)
  /-- A string; with its text when it is one. -/
  | string (text : Option String)
  | array (items : List Json)
  | object (members : List (Option String × Json))

namespace Json

open Reader

/-- The white space between the parts of a text. -/
def isSpace (c : Char) : Bool := c = ' ' || c = '\t' || c = '\n' || c = '\r'

/-- Goes on to the next character that is no white space. -/
def skipSpace (text : List Char) : List Char := text.dropWhile isSpace

/-! ## Strings -/

/-- What a backslash with one character after it stands for. -/
def shortEscape? : Char → Option Char
  | '"' => some '"'
  | '\\' => some '\\'
  | '/' => some '/'
  | 'b' => some '\x08'
  | 'f' => some '\x0c'
  | 'n' => some '\n'
  | 'r' => some '\r'
  | 't' => some '\t'
  | _ => none

/-- A code unit written by four hexadecimal digits is the first half of a pair. -/
def isHighSurrogate (n : Nat) : Bool := 0xd800 ≤ n && n < 0xdc00

/-- A code unit written by four hexadecimal digits is the second half of a pair. -/
def isLowSurrogate (n : Nat) : Bool := 0xdc00 ≤ n && n < 0xe000

/-- The code units and characters of a string behind its opening quotation mark. -/
def stringUnits : Reader (List (Nat ⊕ Char))
  | '"' :: rest => some ([], rest)
  | '\\' :: 'u' :: a :: b :: c :: d :: rest => do
    let unit ← hexNumber? [a, b, c, d]
    let (units, rest) ← stringUnits rest
    return (.inl unit :: units, rest)
  | '\\' :: e :: rest => do
    let char ← shortEscape? e
    let (units, rest) ← stringUnits rest
    return (.inr char :: units, rest)
  | c :: rest =>
    if 0x20 ≤ c.toNat ∧ c ≠ '\\' then do
      let (units, rest) ← stringUnits rest
      return (.inr c :: units, rest)
    else none
  | [] => none

/-- The text of a string: a first half goes together with the second half directly behind it. -/
def joinUnits : List (Nat ⊕ Char) → Option (List Char)
  | [] => some []
  | .inr c :: rest => return c :: (← joinUnits rest)
  | [.inl n] => return [← charOfCode? n]
  | .inl n :: .inl m :: rest =>
    if isHighSurrogate n && isLowSurrogate m then
      return (← charOfCode? (0x10000 + (n - 0xd800) * 0x400 + (m - 0xdc00))) :: (← joinUnits rest)
    else
      return (← charOfCode? n) :: (← joinUnits (.inl m :: rest))
  | .inl n :: .inr c :: rest => return (← charOfCode? n) :: c :: (← joinUnits rest)

/-- A string behind its opening quotation mark. -/
def stringText : Reader (Option String) := fun text => do
  let (units, rest) ← stringUnits text
  return ((joinUnits units).map String.ofList, rest)

/-! ## Numbers -/

/-- At least one digit. -/
def digits : Reader (List Char) := fun text =>
  let found := text.takeWhile Char.isDigit
  if found.isEmpty then none else some (found, text.dropWhile Char.isDigit)

/-- A number without a sign, a fraction or an exponent; no zero leads, zero itself apart. -/
def naturalDigits : Reader Nat
  | '0' :: rest => if rest.head?.any Char.isDigit then none else some (0, rest)
  | text => (digits text).map fun (found, rest) => (decimalNumber found, rest)

/-- The fraction of a number, if there is one. Says whether there is. -/
def skipFraction : List Char → Option (Bool × List Char)
  | '.' :: rest => (digits rest).map fun (_, rest) => (true, rest)
  | text => some (false, text)

/-- The exponent of a number, if there is one. Says whether there is. -/
def skipExponent : List Char → Option (Bool × List Char)
  | c :: rest =>
    if c = 'e' || c = 'E' then
      let unsigned :=
        match rest with
        | '+' :: unsigned | '-' :: unsigned => unsigned
        | _ => rest
      (digits unsigned).map fun (_, rest) => (true, rest)
    else some (false, c :: rest)
  | [] => some (false, [])

/-- A number of any form. -/
def numberValue : Reader Json := fun text => do
  let (negative, unsigned) :=
    match text with
    | '-' :: rest => (true, rest)
    | _ => (false, text)
  let (n, rest) ← naturalDigits unsigned
  let (hasFraction, rest) ← skipFraction rest
  let (hasExponent, rest) ← skipExponent rest
  return (.number (if negative || hasFraction || hasExponent then none else some n), rest)

/-! ## Values -/

/-- The items of an array behind its opening bracket or a comma, of which there are at most `n`. -/
def arrayItems (item : Reader Json) : Nat → Reader (List Json)
  | 0, _ => none
  | n + 1, text => do
    let (first, rest) ← item text
    match skipSpace rest with
    | ']' :: rest => return ([first], rest)
    | ',' :: rest =>
      let (others, rest) ← arrayItems item n rest
      return (first :: others, rest)
    | _ => none

/-- The members of an object behind its opening brace or a comma, of which there are at most `n`. -/
def objectMembers (item : Reader Json) : Nat → Reader (List (Option String × Json))
  | 0, _ => none
  | n + 1, text => do
    let rest ← skipChar '"' (skipSpace text)
    let (name, rest) ← stringText rest
    let rest ← skipChar ':' (skipSpace rest)
    let (first, rest) ← item rest
    match skipSpace rest with
    | '}' :: rest => return ([(name, first)], rest)
    | ',' :: rest =>
      let (others, rest) ← objectMembers item n rest
      return ((name, first) :: others, rest)
    | _ => none

/-- A value, with white space before it, that is nested at most `depth` deep. -/
def value : Nat → Reader Json
  | 0, _ => none
  | depth + 1, text =>
    match skipSpace text with
    | 'n' :: 'u' :: 'l' :: 'l' :: rest => some (.null, rest)
    | 't' :: 'r' :: 'u' :: 'e' :: rest => some (.boolean true, rest)
    | 'f' :: 'a' :: 'l' :: 's' :: 'e' :: rest => some (.boolean false, rest)
    | '"' :: rest => (stringText rest).map fun (s, rest) => (.string s, rest)
    | '[' :: rest =>
      match skipSpace rest with
      | ']' :: rest => some (.array [], rest)
      | rest => (arrayItems (value depth) rest.length rest).map fun (items, rest) =>
        (.array items, rest)
    | '{' :: rest =>
      match skipSpace rest with
      | '}' :: rest => some (.object [], rest)
      | rest => (objectMembers (value depth) rest.length rest).map fun (members, rest) =>
        (.object members, rest)
    | rest => numberValue rest

/-- The value of a text that holds one value and white space. A text cannot be nested deeper than it
is long. -/
def parse (text : String) : Option Json :=
  let chars := text.toList
  match value (chars.length + 1) chars with
  | some (v, rest) => if (skipSpace rest).isEmpty then some v else none
  | none => none

end Json

end EdgeWait
