/-
TOML documents.

A text is read into statements first (`statements`), and the statements then build the tree
(`Entries.ofStatements`). `parse` gives the entries of the outermost table, or nothing for a text
that is not TOML 1.0.
-/
import EdgeWait.Toml.Scalar

namespace EdgeWait.Toml

open Reader

/-! ## Values -/

/-- The items of an array behind its opening bracket; a comma may follow the last one. There are no
more than `n` of them. -/
def arrayItems (item : Reader Node) : Nat → Reader (List Node)
  | 0, _ => none
  | n + 1, text => do
    match ← skipBreaks false text with
    | ']' :: rest => return ([], rest)
    | text =>
      let (node, rest) ← item text
      match ← skipBreaks false rest with
      | ']' :: rest => return ([node], rest)
      | ',' :: rest =>
        let (nodes, rest) ← arrayItems item n rest
        return (node :: nodes, rest)
      | _ => none

/-- A key, an equals sign, and a value. -/
def assignment (item : Reader Node) : Reader (List String × Node) := fun text => do
  let (path, rest) ← keyPath depthLimit text
  let rest ← skipChar '=' rest
  let (node, rest) ← item (skipBlanks rest)
  return ((path, node), rest)

/-- The assignments of an inline table, of which there is at least one; no comma follows the last.
There are no more than `n` of them. -/
def inlineAssignments (item : Reader Node) : Nat → Reader (List (List String × Node))
  | 0, _ => none
  | n + 1, text => do
    let (first, rest) ← assignment item text
    match skipBlanks rest with
    | '}' :: rest => return ([first], rest)
    | ',' :: rest =>
      let (others, rest) ← inlineAssignments item n rest
      return (first :: others, rest)
    | _ => none

/-- An inline table behind its opening brace. -/
def inlineTable (item : Reader Node) : Reader Node := fun text =>
  match skipBlanks text with
  | '}' :: rest => some (.table .inline [], rest)
  | rest => do
    let (assignments, rest) ← inlineAssignments item rest.length rest
    return (.table .inline (← Entries.assignAll assignments []), rest)

/-- A value in which arrays and inline tables are nested at most `depth` deep. -/
def value : Nat → Reader Node
  | 0 => scalar
  | depth + 1 => fun text =>
    match text with
    | '[' :: rest => do
      let (items, rest) ← arrayItems (value depth) rest.length rest
      return (.array items, rest)
    | '{' :: rest => inlineTable (value depth) rest
    | _ => scalar text

/-! ## Statements -/

/-- A statement of a document. -/
inductive Statement where
  /-- Gives a value to a key of the table opened last. -/
  | assign (path : List String) (value : Node)
  /-- Opens a table. -/
  | openTable (path : List String)
  /-- Opens one more table of an array. -/
  | addTable (path : List String)

/-- A header behind its opening brackets, up to the closing ones. -/
def header (closing : List Char) : Reader (List String) := fun text => do
  let (path, rest) ← keyPath depthLimit text
  return (path, ← skipChars closing rest)

/-- The statements of a text of no more than `n` characters. Each stands on lines of its own. -/
def statements : Nat → List Char → Option (List Statement)
  | 0, text => if text.isEmpty then some [] else none
  | n + 1, text =>
    match skipBlanks text with
    | [] => some []
    | '\n' :: rest => statements n rest
    | '#' :: rest => do statements n (← skipLineEnd ('#' :: rest))
    | '[' :: '[' :: rest => do
      let (path, rest) ← header [']', ']'] rest
      return .addTable path :: (← statements n (← skipLineEnd rest))
    | '[' :: rest => do
      let (path, rest) ← header [']'] rest
      return .openTable path :: (← statements n (← skipLineEnd rest))
    | text => do
      let ((path, node), rest) ← assignment (value depthLimit) text
      return .assign path node :: (← statements n (← skipLineEnd rest))

/-! ## Documents -/

/-- The assignments in front of the next header, and the statements from there on. -/
def leadingAssignments : List Statement → List (List String × Node) × List Statement
  | .assign path node :: rest =>
    let (assignments, others) := leadingAssignments rest
    ((path, node) :: assignments, others)
  | rest => ([], rest)

/-- Builds tables from the headers among some statements, each with the assignments behind it. -/
def Entries.addSections (entries : Entries) : List Statement → Option Entries
  | [] => some entries
  | .assign _ _ :: rest => entries.addSections rest
  | .openTable path :: rest => do
    (← entries.openTable path (leadingAssignments rest).1).addSections rest
  | .addTable path :: rest => do
    (← entries.addTable path (leadingAssignments rest).1).addSections rest

/-- The outermost table of a document: the assignments before the first header, then the
sections. -/
def Entries.ofStatements (statements : List Statement) : Option Entries := do
  let (assignments, sections) := leadingAssignments statements
  (← Entries.assignAll assignments []).addSections sections

/-- Makes every line end a single line feed. -/
def plainLineEnds : List Char → List Char
  | '\r' :: '\n' :: rest => '\n' :: plainLineEnds rest
  | c :: rest => c :: plainLineEnds rest
  | [] => []

/-- A text without the mark that may stand in front of it to tell its encoding. -/
def withoutMark : List Char → List Char
  | '\ufeff' :: rest => rest
  | text => text

/-- The entries of a document's outermost table. -/
def parse (text : String) : Option Entries := do
  let chars := plainLineEnds (withoutMark text.toList)
  Entries.ofStatements (← statements chars.length chars)

end EdgeWait.Toml
