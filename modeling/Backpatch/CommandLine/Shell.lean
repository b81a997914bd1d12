import Backpatch.CommandLine.Directory
import Backpatch.CommandLine.Path
import Backpatch.CommandLine.Run

/-!
# Runs as computations

A shell is a working directory together with what has been printed on the two streams so far. It
stands in for the system where a run is to be computed or reasoned about.
-/

namespace Backpatch.CommandLine

/-- A working directory, and the bytes on the standard output and the standard error. -/
structure Shell where
  directory : Directory := {}
  stdout : ByteArray := ByteArray.empty
  stderr : ByteArray := ByteArray.empty

namespace Shell

/-- Finds a target, or tells why it is not there. -/
def find (shell : Shell) : Target → Except PathError Unit
  | .inside name => if (shell.directory.find? name).isSome then .ok () else .error .missing
  | .outside => .error .missing
  | .absent reading _ => .error reading
  | .terminal | .void | .endless | .full | .output | .error => .ok ()

/-- What a target holds. -/
def content (shell : Shell) : Target → Except PathError ByteArray
  | .inside name =>
    match shell.directory.find? name with
    | some content => .ok content
    | none => .error .missing
  | .outside => .error .missing
  | .absent reading _ => .error reading
  | .terminal => .error .noDevice
  | .void | .output | .error => .ok ByteArray.empty
  | .endless | .full => .error .outOfMemory

/-- The shell after a target has been written. A stream takes what is written behind what it has. -/
def fill (content : ByteArray) (shell : Shell) : Target → Except PathError Shell
  | .inside name => .ok { shell with directory := shell.directory.put name content }
  | .outside | .void | .endless => .ok shell
  | .absent _ writing => .error writing
  | .terminal => .error .noDevice
  | .full => if content.isEmpty then .ok shell else .error .noSpace
  | .output => .ok { shell with stdout := shell.stdout ++ content }
  | .error => .ok { shell with stderr := shell.stderr ++ content }

/-- The content of the file that a path leads to. A slash behind its name asks for a directory. -/
def read (shell : Shell) (path : String) : Except PathError ByteArray := do
  match ← Place.ofPath shell.find path with
  | .folder => .error .isDirectory
  | .target target slash =>
    if slash then
      shell.find target
      .error .notDirectory
    else shell.content target

/-- The shell after the file that a path leads to has been written. A name with a slash behind it is
refused before it is looked up. -/
def write (shell : Shell) (path : String) (content : ByteArray) : Except PathError Shell := do
  match ← Place.ofPath shell.find path with
  | .folder => .error .isDirectory
  | .target target slash => if slash then .error .isDirectory else shell.fill content target

/-- A shell as the surroundings of a run. -/
def host : Host (StateM Shell) where
  read path := do
    return ((← get).read path).mapError PathError.reason
  write path content := do
    match (← get).write path content with
    | .error error => return .error error.reason
    | .ok shell =>
      set shell
      return .ok ()
  print text := modify fun shell => { shell with stdout := shell.stdout ++ text.toUTF8 }
  printError text := modify fun shell => { shell with stderr := shell.stderr ++ text.toUTF8 }

end Shell

/-- Carries out a run in a directory: the exit status, and the shell afterwards. -/
def runIn (directory : Directory) (arguments : List String) : Nat × Shell :=
  (run Shell.host arguments).run { directory }

end Backpatch.CommandLine
