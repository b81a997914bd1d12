import Backpatch.Source.Statement
import Backpatch.Text.Split

/-!
# Source lines

A line is read in four steps. A comment runs from the first `#` or `;` to the end and is dropped
with the blanks at either end. Then every leading piece that a colon ends and that is a label name
is taken off. Up to its first blank the rest is a mnemonic, in any case of letters. What follows
the blank is a list of operands, separated by commas.

A piece before a colon that is no label name ends the labels: the colon then belongs to the
statement, where it will be refused.
-/

namespace Backpatch

open Text

/-- What one source line says: labels for the place it stands at, then at most one statement. -/
structure SourceLine where
  labels : List String := []
  statement : Option Statement := none
  deriving DecidableEq, Repr

namespace SourceLine

/-- A line without its comment and without the blanks around what is left. -/
def code (line : List Char) : List Char :=
  trim (line.takeWhile fun c => c ≠ '#' ∧ c ≠ ';')

/-- The leading pieces of a line that name labels. Behind the last colon there is no label. -/
def leadingLabels (pieces : List (List Char)) : List (List Char) :=
  (pieces.dropLast.map trim).takeWhile Operand.isLabelName

/-- The labels in front of a statement, and the text of the statement. -/
def splitLabels (code : List Char) : List String × List Char :=
  let pieces := splitOn ':' code
  let labels := leadingLabels pieces
  (labels.map String.ofList, trimStart ([':'].intercalate (pieces.drop labels.length)))

/-- The operands in the text behind a mnemonic. -/
def splitOperands (text : List Char) : List (List Char) :=
  if text.isEmpty then [] else (splitOn ',' text).map trim

/-- Reads the text of a statement, which is not empty. -/
def readStatement (text : List Char) : Except LineError Statement :=
  let (mnemonic, operands) := text.span fun c => !isBlank c
  let name := String.ofList (mnemonic.map Char.toLower)
  match Operation.ofMnemonic? name with
  | some operation => operation.read name (splitOperands (trim operands))
  | none => .error (.unknownOperation name)

/-- Reads one source line. -/
def parse (line : List Char) : Except LineError SourceLine :=
  let (labels, text) := splitLabels (code line)
  if text.isEmpty then .ok { labels }
  else do
    let statement ← readStatement text
    return { labels, statement := some statement }

end SourceLine

/-! ## Source texts -/

/-- Reads every line of a source text; line numbers start at 1. A line ends at a line feed, and
since a carriage return is blank, one in front of the line feed makes no difference. -/
def readLines (source : String) : List (Nat × Except LineError SourceLine) :=
  (splitOn '\n' source.toList).zipIdx.map fun (line, index) => (index + 1, SourceLine.parse line)

/-- The lines of a source text, or all refused ones with their numbers. -/
def readSource (source : String) : Except (List (Nat × LineError)) (List SourceLine) :=
  let lines := readLines source
  let refused := lines.filterMap fun
    | (number, .error error) => some (number, error)
    | (_, .ok _) => none
  if refused.isEmpty then .ok (lines.filterMap fun (_, line) => line.toOption)
  else .error refused

end Backpatch
