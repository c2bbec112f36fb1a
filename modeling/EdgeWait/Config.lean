/-
The configuration of a context: arity bounds, the id pool, profiling, and the reading of unknown
values.

A configuration that is within the supported ranges (`Config.check`) can be run: its arity bounds
make a `BatchPolicy` and its pool has at least one id.
-/
import EdgeWait.BatchPolicy
import EdgeWait.IdPool

namespace EdgeWait

/-- Bounds on the batches of a flush. -/
structure BatchingConfig where
  minArity : Nat := 2
  maxArity : Nat := 8
deriving DecidableEq

/-- The size of the id pool and the order in which it hands out its ids. -/
structure PoolConfig where
  capacity : UInt32 := 10000
  shuffle : Bool := false
  seed : Option UInt64 := none
deriving DecidableEq

/-- Whether a context measures itself. -/
structure ProfilingConfig where
  /-- Measures the time spent in the scheduler. -/
  enabled : Bool := false
deriving DecidableEq

/-- How observed values are read. -/
structure ValueConfig where
  /-- Reads an unknown or undriven signal as low. -/
  unknownAsZero : Bool := false
deriving DecidableEq

/-- All settings of a context; each has a default. -/
structure Config where
  batching : BatchingConfig := {}
  pool : PoolConfig := {}
  profiling : ProfilingConfig := {}
  values : ValueConfig := {}
deriving DecidableEq

/-- A setting outside the supported range, with the values found. -/
inductive RangeError where
  | minArityTooSmall (minArity : Nat)
  | maxArityTooLarge (maxArity : Nat)
  | aritiesCrossed (minArity maxArity : Nat)
  | noCapacity
deriving DecidableEq

namespace RangeError

/-- The key of the setting at fault. -/
def key : RangeError → String
  | minArityTooSmall _ => "batching.min_arity"
  | maxArityTooLarge _ | aritiesCrossed _ _ => "batching.max_arity"
  | noCapacity => "pool.capacity"

/-- What is supported, and what was found. -/
def reason : RangeError → String
  | minArityTooSmall minArity => s!"must be >= 2, got {minArity}"
  | maxArityTooLarge maxArity => s!"must be <= {batchCapacity}, got {maxArity}"
  | aritiesCrossed minArity maxArity =>
    s!"{maxArity} must not be below batching.min_arity ({minArity})"
  | noCapacity => "must be greater than zero"

end RangeError

/-- Why there is no configuration. -/
inductive ConfigError where
  /-- The file could not be read. -/
  | unreadable (path reason : String)
  /-- The text is not TOML, or holds other settings than these. -/
  | malformed (reason : String)
  | outOfRange (cause : RangeError)
deriving DecidableEq

/-- The wording of the error. -/
def ConfigError.text : ConfigError → String
  | unreadable path reason => s!"cannot read {path}: {reason}"
  | malformed reason => s!"malformed multiplexer configuration: {reason}"
  | outOfRange cause => s!"`{cause.key}` out of range: {cause.reason}"

/-- The first setting that is outside its range. -/
def Config.check (c : Config) : Except RangeError Unit :=
  if c.batching.minArity < 2 then .error (.minArityTooSmall c.batching.minArity)
  else if batchCapacity < c.batching.maxArity then .error (.maxArityTooLarge c.batching.maxArity)
  else if c.batching.maxArity < c.batching.minArity then
    .error (.aritiesCrossed c.batching.minArity c.batching.maxArity)
  else if c.pool.capacity = 0 then .error .noCapacity
  else .ok ()

/-- The batch policy of a configuration. -/
def BatchingConfig.policy (c : BatchingConfig) : Except Fault BatchPolicy :=
  BatchPolicy.make c.minArity c.maxArity

/-- The id pool of a configuration. A shuffle without a seed follows `picks`, which the host draws
from whatever source of randomness it has. -/
def PoolConfig.pool (c : PoolConfig) (picks : List Nat) : IdPool :=
  match c.shuffle, c.seed with
  | false, _ => .ascending c.capacity
  | true, some seed => .shuffled c.capacity seed
  | true, none => .shuffledBy picks c.capacity

end EdgeWait
