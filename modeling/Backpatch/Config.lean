import Backpatch.PatchError
import Backpatch.Source.LineError

/-!
# Configurations and reports

What an assembly run can be told to do otherwise than by default, and the ways in which a whole run
fails: the source is refused, labels or references are, the configuration is, or a file cannot be
used.
-/

namespace Backpatch

/-- The settings of an assembly run. -/
structure Config where
  /-- The address of the first instruction. -/
  baseAddress : Address := 0
  /-- Whether a target that its field cannot designate is an error; otherwise it is truncated. -/
  checkRanges : Bool := true
  /-- The order of the bytes in the output. -/
  byteOrder : ByteOrder := .little
  /-- Whether the command line prints a listing. -/
  listing : Bool := false
  deriving DecidableEq, Repr

/-- Why a configuration is refused. -/
inductive ConfigError where
  /-- The text is no configuration. -/
  | unreadable
  /-- The first instruction cannot stand at the base address. -/
  | misalignedBase (base : Address)
  deriving DecidableEq, Repr

/-- The sentence that reports a refused configuration. -/
def ConfigError.message : ConfigError → String
  | .unreadable => "TOML parse error"
  | .misalignedBase base => s!"base_address {Text.hexWord base} is not word-aligned"

/-- The configuration, if its base address is that of a word. -/
def Config.checked (config : Config) : Except ConfigError Config :=
  if IsAligned config.baseAddress then .ok config
  else .error (.misalignedBase config.baseAddress)

/-- Why an assembly run fails as a whole. -/
inductive AssemblyError where
  /-- Lines of the source are refused; each is given with its number. -/
  | parse (refused : List (Nat × LineError))
  /-- Labels or references are refused. -/
  | patch (diagnostics : Diagnostics)
  /-- The configuration is refused. -/
  | config (error : ConfigError)
  /-- A file cannot be used; the text tells which and why. -/
  | io (text : String)
  deriving DecidableEq, Repr

/-- The report of a failed run, one line for each error. -/
def AssemblyError.message : AssemblyError → String
  | .parse refused =>
    reportLines (refused.map fun (number, error) => s!"line {number}: {error.message}")
  | .patch diagnostics => diagnostics.message
  | .config error => s!"Configuration error: {error.message}"
  | .io text => s!"IO error: {text}"

end Backpatch
