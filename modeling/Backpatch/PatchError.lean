import Backpatch.Word
import Backpatch.Text.Numeral

/-!
# Failures of recording and patching

What can go wrong while words, labels and references are recorded and while references are
patched. A failure names its cause; the sentence that reports it is computed from that.
-/

namespace Backpatch

/-- The position of an instruction in an image; it never changes. -/
abbrev Handle := Nat

/-- What a caller wanted to record when recording was over. -/
inductive Recording where
  | instruction
  | label
  | reference
  deriving DecidableEq, Repr

/-- The attempt in words. -/
def Recording.text : Recording → String
  | .instruction => "append an instruction"
  | .label => "define a label"
  | .reference => "reference a label"

/-- A failure while a program is recorded or patched. -/
inductive PatchError where
  /-- The label already has another address. -/
  | duplicateLabel (name : String)
  /-- The address given with the label is not that of a word. -/
  | misalignedAddress (name : String) (address : Address)
  /-- The label is referenced and has no address. -/
  | undefinedLabel (name : String)
  /-- The label is too far from the branch at `site`. -/
  | displacementOverflow (name : String) (site : Address)
  /-- The label lies in another region than the jump at `site`. -/
  | jumpOutOfRegion (name : String) (site : Address)
  /-- The references from the instruction at `site` do not agree. -/
  | conflictingReference (site : Address)
  /-- The image has no such instruction. -/
  | unknownHandle (handle : Handle)
  /-- The word at `site` has no field for a label. -/
  | notJumpOrBranch (site : Address) (word : Word)
  /-- The instruction is not where the reference says. -/
  | addressMismatch (recorded actual : Address)
  /-- An image of `count` words from `base` does not fit into the address space. -/
  | addressOverflow (base : Address) (count : Nat)
  /-- Recording is over. -/
  | phaseViolation (attempt : Recording)
  /-- References are patched once in a run. -/
  | alreadyPatched
  /-- There are no final words before references are patched. -/
  | notPatched
  deriving DecidableEq, Repr

open Text (hexWord)

/-- The sentence that reports a failure. -/
def PatchError.message : PatchError → String
  | .duplicateLabel name => s!"Duplicate label '{name}'"
  | .misalignedAddress name address =>
    s!"Address {hexWord address} for label '{name}' is not word-aligned"
  | .undefinedLabel name => s!"Undefined label '{name}'"
  | .displacementOverflow name site =>
    s!"Branch at {hexWord site} to label '{name}' does not fit in a 16-bit displacement"
  | .jumpOutOfRegion name site =>
    s!"Jump at {hexWord site} cannot reach label '{name}' outside its 256 MiB region"
  | .conflictingReference site =>
    s!"Instruction at {hexWord site} references more than one label"
  | .unknownHandle handle => s!"Instruction handle {handle} does not belong to this stream"
  | .notJumpOrBranch site word =>
    s!"Instruction {hexWord word} at {hexWord site} is neither a jump nor a branch"
  | .addressMismatch recorded actual =>
    s!"Reference recorded at {hexWord recorded} but the instruction is at {hexWord actual}"
  | .addressOverflow base count =>
    s!"{count} instructions from base {hexWord base} run past the end of the 32-bit address space"
  | .phaseViolation attempt => s!"Cannot {attempt.text} after references have been patched"
  | .alreadyPatched => "References have already been patched for this run"
  | .notPatched => "Instruction words requested before references were patched"

/-- Failures in the order in which they were found. -/
abbrev Diagnostics := List PatchError

/-- One line for each message, in order; no line feed follows the last. -/
def reportLines (messages : List String) : String :=
  "\n".intercalate (messages.map ("error: " ++ ·))

/-- The report of failures, one to a line. -/
def Diagnostics.message (diagnostics : Diagnostics) : String :=
  reportLines (diagnostics.map PatchError.message)

end Backpatch
