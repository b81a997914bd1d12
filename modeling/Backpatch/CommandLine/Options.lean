import Backpatch.Text.Split

/-!
# Command-line arguments

Arguments are read from left to right. An option that takes a file name takes whatever argument
follows, even one that looks like an option. Help ends the reading at once, and so does the first
argument that is refused. When an option is repeated, its last value counts.
-/

namespace Backpatch.CommandLine

/-- What the arguments ask for. An empty name stands for one that was not given. -/
structure Options where
  input : String := ""
  output : String := ""
  config : String := ""
  listing : Bool := false
  verbose : Bool := false
  deriving DecidableEq, Repr

/-- The role of an argument. -/
inductive Argument where
  | output
  | config
  | listing
  | verbose
  | help
  /-- It looks like an option and is none. -/
  | unknown
  /-- The name of the input. -/
  | input
  deriving DecidableEq, Repr

/-- The role that an argument has when it is not the value of an option. -/
def Argument.ofText (text : String) : Argument :=
  if text = "-o" ∨ text = "--output" then .output
  else if text = "-c" ∨ text = "--config" then .config
  else if text = "-l" ∨ text = "--listing" then .listing
  else if text = "-v" ∨ text = "--verbose" then .verbose
  else if text = "-h" ∨ text = "--help" then .help
  else if text.toList.head? = some '-' then .unknown
  else .input

/-- Why the arguments are refused. -/
inductive ArgumentError where
  | noOutputName
  | noConfigName
  | unknownOption (text : String)
  | severalInputs
  | noInput
  deriving DecidableEq, Repr

namespace ArgumentError

/-- The sentence that reports refused arguments. -/
def message : ArgumentError → String
  | .noOutputName => "-o requires a filename"
  | .noConfigName => "-c requires a filename"
  | .unknownOption text => s!"Unknown option '{text}'"
  | .severalInputs => "Multiple input files specified"
  | .noInput => "No input file specified"

/-- Whether the usage is shown with the report. -/
def showsUsage : ArgumentError → Bool
  | .unknownOption _ | .noInput => true
  | .noOutputName | .noConfigName | .severalInputs => false

end ArgumentError

/-- What a run is to do. -/
inductive Task where
  /-- Show the usage. -/
  | help
  /-- Assemble a file. -/
  | assemble (options : Options)
  deriving DecidableEq, Repr

/-- Reads arguments on top of the options that earlier ones have set. -/
def readArguments (options : Options) : List String → Except ArgumentError Task
  | [] => if options.input.isEmpty then .error .noInput else .ok (.assemble options)
  | text :: rest =>
    match Argument.ofText text, rest with
    | .output, [] => .error .noOutputName
    | .output, name :: rest => readArguments { options with output := name } rest
    | .config, [] => .error .noConfigName
    | .config, name :: rest => readArguments { options with config := name } rest
    | .listing, rest => readArguments { options with listing := true } rest
    | .verbose, rest => readArguments { options with verbose := true } rest
    | .help, _ => .ok .help
    | .unknown, _ => .error (.unknownOption text)
    | .input, rest =>
      if options.input.isEmpty then readArguments { options with input := text } rest
      else .error .severalInputs

/-! ## Names of outputs -/

/-- The last part of a path that names something. Parts that are empty or a single dot do not
count; a path that ends by going up names nothing. -/
def fileName? (path : List Char) : Option (List Char) :=
  ((Text.splitOn '/' path).filter fun part => part ≠ [] ∧ part ≠ ['.']).getLast?.filter
    (· ≠ ['.', '.'])

/-- A file name without its extension. A dot in front starts no extension. -/
def stem (name : List Char) : List Char :=
  let front := ['.'].intercalate (Text.splitOn '.' name).dropLast
  if front.isEmpty then name else front

/-- The name of the output: the one that was asked for, or else one made from the input's. -/
def Options.outputName? (options : Options) : Option String :=
  if options.output.isEmpty then
    (fileName? options.input.toList).map fun name => String.ofList (stem name) ++ ".bin"
  else some options.output

end Backpatch.CommandLine
