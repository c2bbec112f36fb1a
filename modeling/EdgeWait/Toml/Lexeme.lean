/-
The smallest parts of a TOML text: blanks, comments, line ends, strings and keys.

A line ends with a line feed; the reader of documents turns a carriage return before a line feed
into nothing first. A control character other than the tab is allowed nowhere else.
-/
import EdgeWait.Reader

namespace EdgeWait.Toml

open Reader

/-- The blanks inside a line. -/
def isBlank (c : Char) : Bool := c = ' ' || c = '\t'

/-- The characters of comments and strings. -/
def isText (c : Char) : Bool := c = '\t' || (0x20 ≤ c.toNat && c.toNat ≠ 0x7f)

/-- The characters of keys without quotes. -/
def isBare (c : Char) : Bool := c.isAlphanum || c = '_' || c = '-'

/-- Goes on to the next character that is no blank. -/
def skipBlanks (text : List Char) : List Char := text.dropWhile isBlank

/-- Skips blanks, a comment, and the end of the line, which the end of the text may stand for. -/
def skipLineEnd (text : List Char) : Option (List Char) :=
  let afterComment :=
    match skipBlanks text with
    | '#' :: comment => comment.dropWhile isText
    | rest => rest
  match afterComment with
  | [] => some []
  | '\n' :: rest => some rest
  | _ => none

/-- Skips blanks, comments and line ends. `inComment` says whether a comment has begun. -/
def skipBreaks (inComment : Bool) : List Char → Option (List Char)
  | [] => if inComment then none else some []
  | '\n' :: rest => skipBreaks false rest
  | c :: rest =>
    if inComment then
      if isText c then skipBreaks true rest else none
    else if isBlank c then skipBreaks false rest
    else if c = '#' then skipBreaks true rest
    else some (c :: rest)

/-! ## Strings -/

/-- What a backslash with one character after it stands for. -/
def shortEscape? : Char → Option Char
  | 'b' => some '\x08'
  | 't' => some '\t'
  | 'n' => some '\n'
  | 'f' => some '\x0c'
  | 'r' => some '\r'
  | '"' => some '"'
  | '\\' => some '\\'
  | _ => none

/-- Puts a character in front of what a reader has found. -/
def onto (c : Char) (found : Option (List Char × List Char)) : Option (List Char × List Char) :=
  found.map fun (chars, rest) => (c :: chars, rest)

/-- The rest of a string behind its opening quotation mark. -/
def basicString : Reader (List Char)
  | '"' :: rest => some ([], rest)
  | '\\' :: 'u' :: a :: b :: c :: d :: rest => do
    let char ← charOfCode? (← hexNumber? [a, b, c, d])
    onto char (basicString rest)
  | '\\' :: 'U' :: a :: b :: c :: d :: e :: f :: g :: h :: rest => do
    let char ← charOfCode? (← hexNumber? [a, b, c, d, e, f, g, h])
    onto char (basicString rest)
  | '\\' :: e :: rest => do
    let char ← shortEscape? e
    onto char (basicString rest)
  | c :: rest => if isText c && c ≠ '\\' then onto c (basicString rest) else none
  | [] => none

/-- The rest of a string between apostrophes behind the opening one. -/
def literalString : Reader (List Char)
  | '\'' :: rest => some ([], rest)
  | c :: rest => if isText c then onto c (literalString rest) else none
  | [] => none

/-- A backslash at the end of a line, blanks aside, joins it to the text that follows. -/
def joinsLines (text : List Char) : Bool := (skipBlanks text).head? = some '\n'

/-- The rest of a string of several lines behind its opening marks. `joining` holds from a backslash
at the end of a line up to the next character that is neither blank nor a line end. Up to two
quotation marks may stand directly before the closing ones. -/
def multilineBasic (joining : Bool) : Reader (List Char)
  | '"' :: '"' :: '"' :: '"' :: '"' :: rest => some (['"', '"'], rest)
  | '"' :: '"' :: '"' :: '"' :: rest => some (['"'], rest)
  | '"' :: '"' :: '"' :: rest => some ([], rest)
  | '\\' :: 'u' :: a :: b :: c :: d :: rest => do
    let char ← charOfCode? (← hexNumber? [a, b, c, d])
    onto char (multilineBasic false rest)
  | '\\' :: 'U' :: a :: b :: c :: d :: e :: f :: g :: h :: rest => do
    let char ← charOfCode? (← hexNumber? [a, b, c, d, e, f, g, h])
    onto char (multilineBasic false rest)
  | '\\' :: e :: rest =>
    if joinsLines (e :: rest) then multilineBasic true (e :: rest)
    else do
      let char ← shortEscape? e
      onto char (multilineBasic false rest)
  | c :: rest =>
    if joining && (isBlank c || c = '\n') then multilineBasic true rest
    else if c = '\n' || (isText c && c ≠ '\\') then onto c (multilineBasic false rest)
    else none
  | [] => none

/-- The rest of a string of several lines between apostrophes behind its opening marks. -/
def multilineLiteral : Reader (List Char)
  | '\'' :: '\'' :: '\'' :: '\'' :: '\'' :: rest => some (['\'', '\''], rest)
  | '\'' :: '\'' :: '\'' :: '\'' :: rest => some (['\''], rest)
  | '\'' :: '\'' :: '\'' :: rest => some ([], rest)
  | c :: rest => if c = '\n' || isText c then onto c (multilineLiteral rest) else none
  | [] => none

/-- A line end directly behind the opening marks of a string of several lines is not part of it. -/
def skipFirstBreak : List Char → List Char
  | '\n' :: rest => rest
  | text => text

/-- A string of any of the four kinds. -/
def stringValue : Reader String := fun text =>
  let found :=
    match text with
    | '"' :: '"' :: '"' :: rest => multilineBasic false (skipFirstBreak rest)
    | '"' :: rest => basicString rest
    | '\'' :: '\'' :: '\'' :: rest => multilineLiteral (skipFirstBreak rest)
    | '\'' :: rest => literalString rest
    | _ => none
  found.map fun (chars, rest) => (String.ofList chars, rest)

/-! ## Keys -/

/-- One part of a key. -/
def simpleKey : Reader String := fun text =>
  match text with
  | '"' :: rest => (basicString rest).map fun (chars, rest) => (String.ofList chars, rest)
  | '\'' :: rest => (literalString rest).map fun (chars, rest) => (String.ofList chars, rest)
  | _ =>
    let chars := text.takeWhile isBare
    if chars.isEmpty then none else some (String.ofList chars, text.dropWhile isBare)

/-- A key of at most `n` parts with dots between them. Blanks around a part are not part of it. -/
def keyPath : Nat → Reader (List String)
  | 0, _ => none
  | n + 1, text => do
    let (key, rest) ← simpleKey (skipBlanks text)
    match skipBlanks rest with
    | '.' :: rest => do
      let (path, rest) ← keyPath n rest
      return (key :: path, rest)
    | rest => return ([key], rest)

/-- The largest number of parts of a key, and the deepest nesting of arrays and inline tables. -/
def depthLimit : Nat := 79

end EdgeWait.Toml
