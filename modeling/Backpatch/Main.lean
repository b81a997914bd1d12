import Backpatch.CommandLine.Run

/-!
# The assembler as a program

The command line on the real system.
-/

namespace Backpatch.CommandLine

/-- The reason of a failure, in the words of the system. -/
def failureReason : IO.Error → String
  | .noFileOrDirectory _ code details | .permissionDenied _ code details
  | .inappropriateType _ code details | .resourceExhausted _ code details
  | .invalidArgument _ code details | .alreadyExists _ code details
  | .noSuchThing _ code details =>
    s!"{details} (os error {code})"
  | error => error.toString

/-- Prints a text at once, so that it stands before whatever is written next. -/
def printOn (stream : IO.FS.Stream) (text : String) : IO Unit := do
  stream.putStr text
  stream.flush

/-- Reads a file as it comes, without asking for its size first. -/
def readFile (name : String) : IO ByteArray :=
  IO.FS.withFile name .read fun file => file.readBinToEnd

/-- Writes a file. The flush reports a device that is full, which closing the file would not. -/
def writeFile (name : String) (content : ByteArray) : IO Unit :=
  IO.FS.withFile name .write fun file => do
    file.write content
    file.flush

/-- The real system as the surroundings of a run. -/
def system : Host IO where
  read name := do
    try
      return .ok (← readFile name)
    catch error => return .error (failureReason error)
  write name content := do
    try
      writeFile name content
      return .ok ()
    catch error => return .error (failureReason error)
  print text := do printOn (← IO.getStdout) text
  printError text := do printOn (← IO.getStderr) text

end Backpatch.CommandLine

/-- Carries out one run. -/
def main (arguments : List String) : IO UInt32 := do
  return UInt32.ofNat (← Backpatch.CommandLine.run Backpatch.CommandLine.system arguments)
