/-
Reading a configuration from a TOML text, and from the file that holds it.

Every section and every setting may be missing and then takes its default; a section or a setting
that is not known is refused. A section may also be an array of its settings in their order, where
missing ones take their defaults and further items are passed over. Ranges are checked last.
-/
import EdgeWait.Config
import EdgeWait.Toml.Document

namespace EdgeWait

open Toml

/-! ## Settings -/

namespace Setting

/-- A number that is not negative. -/
def natural (key : String) : Node → Except ConfigError Nat
  | .integer n =>
    if 0 ≤ n then .ok n.toNat else .error (.malformed s!"{key} must not be negative")
  | _ => .error (.malformed s!"{key} must be an integer")

/-- A number that fits 32 bits. -/
def word32 (key : String) (node : Node) : Except ConfigError UInt32 := do
  let n ← natural key node
  if n < UInt32.size then return UInt32.ofNat n else throw (.malformed s!"{key} is too large")

/-- A number that is not negative; the numbers of a document end below 2^63. -/
def word64 (key : String) (node : Node) : Except ConfigError UInt64 := do
  return UInt64.ofNat (← natural key node)

/-- A truth value. -/
def boolean (key : String) : Node → Except ConfigError Bool
  | .boolean b => .ok b
  | _ => .error (.malformed s!"{key} must be true or false")

/-- The settings of a section with the given keys, by key. -/
def section? (name : String) (keys : List String) :
    Node → Except ConfigError (String → Option Node)
  | .table _ entries =>
    match entries.map (·.1) |>.find? (¬ keys.contains ·) with
    | some key => .error (.malformed s!"unknown setting {name}.{key}")
    | none => .ok (Entries.get? entries)
  | .array items | .tables items => .ok fun key => (keys.zip items).lookup key
  | _ => .error (.malformed s!"{name} must be a table")

/-- Reads a setting, or takes its default. -/
def orDefault {α : Type} (default : α) (read : Node → Except ConfigError α) :
    Option Node → Except ConfigError α
  | some node => read node
  | none => .ok default

end Setting

open Setting

/-! ## Sections -/

/-- The arity bounds in a section. -/
def BatchingConfig.ofNode (node : Node) : Except ConfigError BatchingConfig := do
  let setting ← section? "batching" ["min_arity", "max_arity"] node
  let defaults : BatchingConfig := {}
  return {
    minArity := ← orDefault defaults.minArity (natural "min_arity") (setting "min_arity")
    maxArity := ← orDefault defaults.maxArity (natural "max_arity") (setting "max_arity") }

/-- The settings of the id pool in a section. -/
def PoolConfig.ofNode (node : Node) : Except ConfigError PoolConfig := do
  let setting ← section? "pool" ["capacity", "shuffle", "seed"] node
  let defaults : PoolConfig := {}
  return {
    capacity := ← orDefault defaults.capacity (word32 "capacity") (setting "capacity")
    shuffle := ← orDefault defaults.shuffle (boolean "shuffle") (setting "shuffle")
    seed := ← orDefault defaults.seed (fun n => some <$> word64 "seed" n) (setting "seed") }

/-- The settings for profiling in a section. -/
def ProfilingConfig.ofNode (node : Node) : Except ConfigError ProfilingConfig := do
  let setting ← section? "profiling" ["enabled"] node
  let defaults : ProfilingConfig := {}
  return {
    enabled := ← orDefault defaults.enabled (boolean "enabled") (setting "enabled") }

/-- The reading of values in a section. -/
def ValueConfig.ofNode (node : Node) : Except ConfigError ValueConfig := do
  let setting ← section? "values" ["resolve_x_as_zero"] node
  let defaults : ValueConfig := {}
  return {
    unknownAsZero :=
      ← orDefault defaults.unknownAsZero (boolean "resolve_x_as_zero")
          (setting "resolve_x_as_zero") }

namespace Config

/-- The configuration in the outermost table of a document, ranges unchecked. -/
def ofEntries (entries : Entries) : Except ConfigError Config := do
  let sections := ["batching", "pool", "profiling", "values"]
  match entries.map (·.1) |>.find? (¬ sections.contains ·) with
  | some key => throw (.malformed s!"unknown section {key}")
  | none =>
    return {
      batching := ← orDefault {} BatchingConfig.ofNode (entries.get? "batching")
      pool := ← orDefault {} PoolConfig.ofNode (entries.get? "pool")
      profiling := ← orDefault {} ProfilingConfig.ofNode (entries.get? "profiling")
      values := ← orDefault {} ValueConfig.ofNode (entries.get? "values") }

/-- The configuration in a text, ranges unchecked. -/
def parse (text : String) : Except ConfigError Config :=
  match Toml.parse text with
  | some entries => ofEntries entries
  | none => .error (.malformed "not a TOML document")

/-- The configuration that is read from a text in some way, with its ranges checked. -/
def load (read : String → Except ConfigError Config) (text : String) :
    Except ConfigError Config := do
  let config ← read text
  match config.check with
  | .ok () => return config
  | .error cause => throw (.outOfRange cause)

/-- The configuration in a text. -/
def ofText (text : String) : Except ConfigError Config := load parse text

/-- What is found where a configuration file is looked for. -/
inductive FileContent where
  | missing
  | directory
  | bytes (content : ByteArray)

/-- The name of the configuration file in its directory. -/
def fileName : String := "edgemux.toml"

/-- The configuration in the file of a directory. -/
def ofFile (directory : String) (content : FileContent) : Except ConfigError Config :=
  let unreadable (reason : String) : Except ConfigError Config :=
    .error (.unreadable s!"{directory}/{fileName}" reason)
  match content with
  | .missing => unreadable "No such file or directory (os error 2)"
  | .directory => unreadable "Is a directory (os error 21)"
  | .bytes content =>
    match String.fromUTF8? content with
    | some text => ofText text
    | none => unreadable "stream did not contain valid UTF-8"

end Config

end EdgeWait
