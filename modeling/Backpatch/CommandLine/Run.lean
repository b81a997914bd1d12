import Backpatch.Assemble
import Backpatch.CommandLine.Options
import Backpatch.ConfigFile

/-!
# Command-line runs

A run reads at most two files, the configuration and the source, and writes at most one, the
output. It meets its surroundings only through a `Host`, so the same definition runs on the real
system and on a value. The write comes after everything that can be refused: a run that fails for
any reason but the write itself has written nothing. What a run prints, it prints in order, which
shows when the output goes to the stream that it prints on.
-/

namespace Backpatch.CommandLine

/-- The surroundings of a run. A failure of a file is the reason, in the words of the system. -/
structure Host (m : Type → Type) where
  read : String → m (Except String ByteArray)
  write : String → ByteArray → m (Except String Unit)
  /-- Prints on the standard output. -/
  print : String → m Unit
  /-- Prints on the standard error. -/
  printError : String → m Unit

/-- Messages, each on a line of its own. -/
def asLines (messages : List String) : String :=
  String.join (messages.map (· ++ "\n"))

/-- The explanation of the arguments. -/
def usage : String :=
  asLines [
    "Usage: mipsasm [options] <input.s>",
    "",
    "Options:",
    "  -o, --output <file>    Output filename (default: input.bin)",
    "  -c, --config <file>    TOML configuration file",
    "  -l, --listing          Print a disassembly listing",
    "  -v, --verbose          Verbose output",
    "  -h, --help             Show this help message",
    "",
    "Configuration keys:",
    "  base_address                 Address of the first instruction (default 0)",
    "  check_displacement_overflow  Reject out-of-range branches (default true)",
    "  endian                       \"little\" or \"big\" (default little)",
    "  listing                      Same as -l",
    "",
    "Set RUST_LOG=debug to trace label definitions and patches."]

/-- Reports a failure; the exit status is 1. -/
def fail [Monad m] (host : Host m) (message : String) : m Nat := do
  host.printError (message ++ "\n")
  return 1

/-- Reads a file as text. -/
def readText [Monad m] (host : Host m) (name : String) : m (Except String String) := do
  match ← host.read name with
  | .error reason => return .error reason
  | .ok bytes =>
    match String.fromUTF8? bytes with
    | some text => return .ok text
    | none => return .error "stream did not contain valid UTF-8"

/-- The configuration in a file, or the default one when no file is named. -/
def loadConfig [Monad m] (host : Host m) (name : String) : m (Except AssemblyError Config) := do
  if name.isEmpty then return .ok {}
  else
    match ← readText host name with
    | .error reason => return .error (.io s!"Cannot read config '{name}': {reason}")
    | .ok text => return (Config.read text).mapError .config

/-- The name of a byte order in a report. -/
def byteOrderName : ByteOrder → String
  | .little => "Little"
  | .big => "Big"

/-- The line that a verbose run starts with. -/
def openingLine (input output : String) (config : Config) : String :=
  s!"Assembling {input} -> {output} (base {Text.hexWord config.baseAddress}, " ++
    s!"{byteOrderName config.byteOrder} endian)"

/-- The line that a verbose run ends with. -/
def closingLine (output : String) (words bytes : Nat) : String :=
  s!"Wrote {words} instructions ({bytes} bytes) to {output}"

/-- Writes the output of an assembled program, after the listing if it is wanted. -/
def emit [Monad m] (host : Host m) (options : Options) (output : String) (assembly : Assembly) :
    m Nat := do
  if options.listing || assembly.config.listing then host.print (asLines assembly.listing)
  match assembly.finalBytes with
  | .error error => fail host s!"error: {error.message}"
  | .ok bytes =>
    match ← host.write output (ByteArray.mk bytes.toArray) with
    | .error reason => fail host s!"Error writing '{output}': {reason}"
    | .ok () =>
      if options.verbose then
        host.print (asLines [closingLine output assembly.image.size bytes.length])
      return 0

/-- Assembles the input and writes the output. -/
def assembleFile [Monad m] (host : Host m) (options : Options) (output : String)
    (config : Config) : m Nat := do
  if options.verbose then host.print (asLines [openingLine options.input output config])
  match ← readText host options.input with
  | .error reason => fail host s!"Error reading '{options.input}': {reason}"
  | .ok source =>
    match assemble config source with
    | .error error => fail host error.message
    | .ok assembly => emit host options output assembly

/-- Carries out a run that is to assemble. -/
def runOptions [Monad m] (host : Host m) (options : Options) : m Nat := do
  match options.outputName? with
  | none => fail host "Error: Invalid input filename"
  | some output =>
    match ← loadConfig host options.config with
    | .error error => fail host error.message
    | .ok config => assembleFile host options output config

/-- Carries out a run with the given arguments and returns its exit status. -/
def run [Monad m] (host : Host m) (arguments : List String) : m Nat := do
  if arguments.isEmpty then
    host.print usage
    return 1
  else
    match readArguments {} arguments with
    | .error error =>
      if error.showsUsage then host.print usage
      fail host s!"Error: {error.message}"
    | .ok .help =>
      host.print usage
      return 0
    | .ok (.assemble options) => runOptions host options

end Backpatch.CommandLine
