/-
Numbers, truth values, dates and times in TOML texts.

* Integers fit 64 bits with a sign. Other bases than ten are written without a sign.
* A float whose magnitude is too large is refused, unless it is negative.
* Dates follow the calendar; a minute may have a leap second.
-/
import EdgeWait.Toml.Lexeme
import EdgeWait.Toml.Node

namespace EdgeWait.Toml

open Reader

/-! ## Digits -/

/-- Digits behind a first one; an underscore may stand between two digits. -/
def moreDigits (isDigit : Char → Bool) : Reader (List Char)
  | '_' :: c :: rest => if isDigit c then onto c (moreDigits isDigit rest) else none
  | ['_'] => none
  | c :: rest => if isDigit c then onto c (moreDigits isDigit rest) else some ([], c :: rest)
  | [] => some ([], [])

/-- At least one digit. -/
def digitRun (isDigit : Char → Bool) : Reader (List Char)
  | c :: rest => if isDigit c then onto c (moreDigits isDigit rest) else none
  | [] => none

/-- A sign, if there is one. Says whether the number is negative. -/
def sign : List Char → Bool × List Char
  | '+' :: rest => (false, rest)
  | '-' :: rest => (true, rest)
  | text => (false, text)

/-- Decimal digits without a leading zero, zero itself apart. -/
def plainDigits : Reader (List Char)
  | '0' :: rest => some (['0'], rest)
  | text => digitRun Char.isDigit text

/-! ## Integers -/

/-- An integer, if it fits 64 bits with a sign. -/
def wordInteger (n : Int) : Option Node :=
  if Int64.minValue.toInt ≤ n ∧ n ≤ Int64.maxValue.toInt then some (.integer n) else none

/-- An integer in the given base, behind the mark of the base. -/
def basedInteger (base : Nat) : Reader Node := fun text => do
  let isDigit (c : Char) : Bool := (hexValue? c).any (· < base)
  let (digits, rest) ← digitRun isDigit text
  let n := digits.foldl (fun n c => n * base + (hexValue? c).getD 0) 0
  return (← wordInteger n, rest)

/-- An integer in base two, eight, ten or sixteen. -/
def integerValue : Reader Node := fun text =>
  match text with
  | '0' :: 'x' :: rest => basedInteger 16 rest
  | '0' :: 'o' :: rest => basedInteger 8 rest
  | '0' :: 'b' :: rest => basedInteger 2 rest
  | _ => do
    let (negative, rest) := sign text
    let (digits, rest) ← plainDigits rest
    let n : Int := decimalNumber digits
    return (← wordInteger (if negative then -n else n), rest)

/-! ## Floats -/

/-- The double nearest to `digits · 10^exponent`, without going through powers far beyond the range
of doubles. -/
def decimalFloat (digits : Nat) (exponent : Int) : Float :=
  let magnitude := (Nat.toDigits 10 digits).length + exponent
  if digits = 0 || magnitude < -400 then 0.0
  else if 400 < magnitude then 1.0 / 0.0
  else
    match exponent with
    | .ofNat e => Float.ofScientific digits false e
    | .negSucc e => Float.ofScientific digits true (e + 1)

/-- A part after the point: digits, which may begin with zeros. -/
def fraction : Reader (List Char)
  | '.' :: rest => digitRun Char.isDigit rest
  | _ => none

/-- The exponent behind `e` or `E`. -/
def exponent : Reader Int := fun text =>
  match text with
  | c :: rest =>
    if c = 'e' || c = 'E' then do
      let (negative, rest) := sign rest
      let (digits, rest) ← digitRun Char.isDigit rest
      let n : Int := decimalNumber digits
      return (if negative then -n else n, rest)
    else none
  | [] => none

/-- The digits after the point and the exponent; one of the two has to be there. -/
def floatTail : Reader (List Char × Int) := fun text =>
  match fraction text with
  | some (digits, rest) =>
    match exponent rest with
    | some (e, rest) => some ((digits, e), rest)
    | none => some ((digits, 0), rest)
  | none => (exponent text).map fun (e, rest) => (([], e), rest)

/-- A float in decimal digits. -/
def decimalValue : Reader Node := fun text => do
  let (negative, rest) := sign text
  let (whole, rest) ← plainDigits rest
  let ((places, e), rest) ← floatTail rest
  let x := decimalFloat (decimalNumber (whole ++ places)) (e - places.length)
  if negative then return (.float (-x), rest)
  else if x.isInf then none
  else return (.float x, rest)

/-- The words for values that digits do not express. -/
def specialFloat : Reader Node := fun text =>
  let (negative, rest) := sign text
  match rest with
  | 'i' :: 'n' :: 'f' :: rest => some (.float (if negative then -1.0 / 0.0 else 1.0 / 0.0), rest)
  | 'n' :: 'a' :: 'n' :: rest => some (.float (0.0 / 0.0), rest)
  | _ => none

/-! ## Dates and times -/

/-- Reads so many digits as a number between two bounds. -/
def boundedDigits (n least most : Nat) : Reader Nat := fun text => do
  let (value, rest) ← fixedDigits n text
  if least ≤ value ∧ value ≤ most then return (value, rest) else none

/-- A year of 366 days. -/
def isLeapYear (year : Nat) : Bool :=
  year % 4 = 0 && (year % 100 ≠ 0 || year % 400 = 0)

/-- The number of days of a month, counted from one. -/
def daysInMonth (year month : Nat) : Nat :=
  if month = 2 then if isLeapYear year then 29 else 28
  else if month ∈ [4, 6, 9, 11] then 30
  else 31

/-- A day of the calendar. -/
def skipDate (text : List Char) : Option (List Char) := do
  let (year, rest) ← fixedDigits 4 text
  let rest ← skipChar '-' rest
  let (month, rest) ← boundedDigits 2 1 12 rest
  let rest ← skipChar '-' rest
  let (_, rest) ← boundedDigits 2 1 (daysInMonth year month) rest
  return rest

/-- A fraction of a second, if there is one. -/
def skipFraction : List Char → List Char
  | '.' :: c :: rest => if c.isDigit then rest.dropWhile Char.isDigit else '.' :: c :: rest
  | text => text

/-- A time of the day. -/
def skipTime (text : List Char) : Option (List Char) := do
  let (_, rest) ← boundedDigits 2 0 23 text
  let rest ← skipChar ':' rest
  let (_, rest) ← boundedDigits 2 0 59 rest
  let rest ← skipChar ':' rest
  let (_, rest) ← boundedDigits 2 0 60 rest
  return skipFraction rest

/-- The distance from universal time. -/
def skipOffset : List Char → Option (List Char)
  | c :: rest =>
    if c = 'Z' || c = 'z' then some rest
    else if c = '+' || c = '-' then do
      let (_, rest) ← boundedDigits 2 0 23 rest
      let rest ← skipChar ':' rest
      let (_, rest) ← boundedDigits 2 0 59 rest
      return rest
    else none
  | [] => none

/-- A time behind a date, with its offset if it has one. A sign behind a time begins an offset. -/
def skipTimeOfDate : List Char → Option (List Char)
  | c :: rest =>
    if c = 'T' || c = 't' || c = ' ' then do
      let rest ← skipTime rest
      match rest with
      | '+' :: _ | '-' :: _ => skipOffset rest
      | _ => return (skipOffset rest).getD rest
    else none
  | [] => none

/-- A date, a date with a time, or a time. -/
def dateTimeValue : Reader Node := fun text =>
  match skipDate text with
  | some rest => some (.dateTime, (skipTimeOfDate rest).getD rest)
  | none => (skipTime text).map fun rest => (.dateTime, rest)

/-! ## All of them -/

/-- A value that holds no other values. -/
def scalar : Reader Node := fun text =>
  match text with
  | 't' :: 'r' :: 'u' :: 'e' :: rest => some (.boolean true, rest)
  | 'f' :: 'a' :: 'l' :: 's' :: 'e' :: rest => some (.boolean false, rest)
  | '"' :: _ | '\'' :: _ => (stringValue text).map fun (s, rest) => (.string s, rest)
  | _ =>
    dateTimeValue text <|> decimalValue text <|> specialFloat text <|> integerValue text

end EdgeWait.Toml
