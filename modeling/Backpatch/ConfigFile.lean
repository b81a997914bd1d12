import Backpatch.Config
import Backpatch.Toml.Document

/-!
# Configuration files

A configuration file is a TOML text with at most the keys `base_address`,
`check_displacement_overflow`, `endian` and `listing`; what it leaves out keeps its default. Any
other key, and any value of another type, makes the whole file unreadable. Whether the base address
is that of a word is only asked of a file that was read in full.
-/

namespace Backpatch

open Toml (Value Table)

/-- The byte order with a name. -/
def ByteOrder.ofName? : String → Option ByteOrder
  | "little" => some .little
  | "big" => some .big
  | _ => none

/-- Whether a value is a table or an array that holds nothing. -/
def Toml.Value.isVoid : Value → Bool
  | .table _ [] | .array [] => true
  | _ => false

/-- The byte order that a value denotes: its name, or the name as the only key of a table, with
nothing in it. -/
def ByteOrder.ofValue? : Value → Option ByteOrder
  | .string name => ofName? name
  | .table _ [(name, value)] => if value.isVoid then ofName? name else none
  | _ => none

/-- The address that a value denotes. -/
def Address.ofValue? : Value → Option Address
  | .integer value =>
    if 0 ≤ value ∧ value < 0x1_0000_0000 then some (BitVec.ofInt 32 value) else none
  | _ => none

namespace Config

/-- Changes the setting that a key names. -/
def set (config : Config) : String × Value → Option Config
  | ("base_address", value) => do
    return { config with baseAddress := ← Address.ofValue? value }
  | ("check_displacement_overflow", .boolean value) =>
    some { config with checkRanges := value }
  | ("endian", value) => do
    return { config with byteOrder := ← ByteOrder.ofValue? value }
  | ("listing", .boolean value) => some { config with listing := value }
  | _ => none

/-- The settings in a table. -/
def ofTable? (table : Table) : Option Config :=
  table.foldlM set {}

/-- Reads the text of a configuration file. -/
def read (text : String) : Except ConfigError Config :=
  match (Toml.parse? text).bind ofTable? with
  | some config => config.checked
  | none => .error .unreadable

end Config

end Backpatch
