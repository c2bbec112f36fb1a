/-
The tree of a TOML document, and the rules by which assignments and headers build it.

Each table remembers how it came about (`Origin`), because that decides who may add to it:

* an inline table is complete, and takes no more entries;
* the table of a header may be opened by one header only, and is closed to dotted keys from outside;
* a table that only stands on the path of a header may still get a header of its own;
* a table that dotted keys have made takes entries by dotted keys only.

A key is never assigned twice.
-/

namespace EdgeWait.Toml

/-- How a table came about. -/
inductive Origin where
  /-- Written between braces. -/
  | inline
  /-- Opened by a header. -/
  | header
  /-- Implied by the header of a table inside it. -/
  | implied
  /-- Made by dotted keys. -/
  | dotted
deriving DecidableEq

/-- A value, a table, or an array of tables. Dates and times are told apart from other values, but
their parts are not kept: no setting is one. -/
inductive Node where
  | string (text : String)
  | integer (value : Int)
  | float (value : Float)
  | boolean (value : Bool)
  | dateTime
  | array (items : List Node)
  | table (origin : Origin) (entries : List (String × Node))
  /-- The tables of a repeated header, in the order in which they were opened. -/
  | tables (items : List Node)

/-- The entries of a table, in the order in which they were made. -/
abbrev Entries := List (String × Node)

namespace Entries

/-- The entry of a key. -/
def get? (entries : Entries) (key : String) : Option Node := entries.lookup key

/-- Makes an entry, or replaces the one there is. -/
def put (key : String) (node : Node) : Entries → Entries
  | [] => [(key, node)]
  | (k, n) :: rest => if k == key then (k, node) :: rest else (k, n) :: put key node rest

/-- Assigns a value to a dotted key. The tables on the way come about by dotted keys, or do so now;
one implied by a header may be passed through, but takes no entry this way. -/
def assign (value : Node) : List String → Entries → Option Entries
  | [], _ => none
  | [key], entries =>
    match entries.get? key with
    | none => some (entries.put key value)
    | some _ => none
  | key :: path, entries =>
    match entries.get? key with
    | none => return entries.put key (.table .dotted (← assign value path []))
    | some (.table .dotted inner) =>
      return entries.put key (.table .dotted (← assign value path inner))
    | some (.table .implied inner) =>
      if path.length = 1 then none
      else return entries.put key (.table .implied (← assign value path inner))
    | some (.tables items) =>
      match items.getLast? with
      | some (.table .header inner) =>
        if path.length = 1 then none
        else
          return entries.put key
            (.tables (items.dropLast ++ [.table .header (← assign value path inner)]))
      | _ => none
    | some _ => none

/-- Assigns several values, in turn. -/
def assignAll (assignments : List (List String × Node)) (entries : Entries) : Option Entries :=
  assignments.foldlM (fun es a => assign a.2 a.1 es) entries

/-- Changes what stands at the path of a header. Tables on the way that do not exist are implied. In
an array of tables the way leads through the table opened last. -/
def change (f : Option Node → Option Node) : List String → Entries → Option Entries
  | [], _ => none
  | [key], entries => return entries.put key (← f (entries.get? key))
  | key :: path, entries =>
    match entries.get? key with
    | none => return entries.put key (.table .implied (← change f path []))
    | some (.table .inline _) => none
    | some (.table origin inner) => return entries.put key (.table origin (← change f path inner))
    | some (.tables items) =>
      match items.getLast? with
      | some (.table origin inner) =>
        return entries.put key (.tables (items.dropLast ++ [.table origin (← change f path inner)]))
      | _ => none
    | some _ => none

/-- Opens the table of a header and makes its assignments. -/
def openTable (path : List String) (assignments : List (List String × Node)) (entries : Entries) :
    Option Entries :=
  entries.change (fun present =>
    match present with
    | none => return .table .header (← assignAll assignments [])
    | some (.table .implied inner) => return .table .header (← assignAll assignments inner)
    | some _ => none) path

/-- Adds a table to the array of a repeated header and makes its assignments. -/
def addTable (path : List String) (assignments : List (List String × Node)) (entries : Entries) :
    Option Entries :=
  entries.change (fun present => do
    let table := Node.table .header (← assignAll assignments [])
    match present with
    | none => return .tables [table]
    | some (.tables items) => return .tables (items ++ [table])
    | some _ => none) path

end Entries

end EdgeWait.Toml
