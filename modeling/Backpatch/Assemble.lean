import Backpatch.Assembly
import Backpatch.Source.Line

/-!
# Assembling a source text

`assemble` reads every line of a source text, records what the lines say from top to bottom, and
patches. Errors are collected: if any line is refused, all refused lines are reported, and otherwise
the failures of recording come before those of patching. A label that is refused does not keep the
statement behind it from being recorded, so that later addresses do not move.
-/

namespace Backpatch

namespace Assembly

/-- Notes the failure of a recording step, if it failed. -/
def noting (diagnostics : Array PatchError) :
    Except PatchError α × Assembly → Array PatchError × Assembly
  | (.ok _, assembly) => (diagnostics, assembly)
  | (.error error, assembly) => (diagnostics.push error, assembly)

/-- Records a statement. -/
def recordStatement (diagnostics : Array PatchError) (assembly : Assembly) :
    Option Statement → Array PatchError × Assembly
  | none => (diagnostics, assembly)
  | some (.word word) => noting diagnostics (assembly.append word)
  | some (.reference word label) => noting diagnostics (assembly.appendReference word label)

/-- Records the labels of a line at the place reached, then its statement. -/
def recordLine : Array PatchError × Assembly → SourceLine → Array PatchError × Assembly
  | (diagnostics, assembly), line =>
    let (diagnostics, assembly) := line.labels.foldl
      (fun (diagnostics, assembly) label => noting diagnostics (assembly.defineHere label))
      (diagnostics, assembly)
    recordStatement diagnostics assembly line.statement

/-- Records all lines in a fresh run, and returns the failures with it. -/
def record (config : Config) (lines : List SourceLine) : Array PatchError × Assembly :=
  lines.foldl recordLine (#[], start config)

end Assembly

/-- Records lines and patches; any failure of either makes the run fail. -/
def assembleLines (config : Config) (lines : List SourceLine) : Except Diagnostics Assembly :=
  match Assembly.record config lines with
  | (diagnostics, assembly) =>
    match assembly.patch with
    | (.ok _, assembly) =>
      if diagnostics.isEmpty then .ok assembly else .error diagnostics.toList
    | (.error more, _) => .error (diagnostics.toList ++ more)

/-- Assembles a source text. -/
def assemble (config : Config) (source : String) : Except AssemblyError Assembly := do
  let config ← config.checked.mapError .config
  let lines ← (readSource source).mapError .parse
  (assembleLines config lines).mapError .patch

end Backpatch
