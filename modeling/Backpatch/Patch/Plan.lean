import Backpatch.Image
import Backpatch.Patch.Field

/-!
# Patch plans

Before any word is changed, every reference of a symbol table is visited, in the order of the
labels and of their references. A reference that is in order becomes the patch of its instruction.
An instruction takes one patch: to ask for the same one again is harmless, to ask for another is a
conflict with the first one accepted. Whatever is wrong is noted and the visit goes on, so a plan
holds every failure of a table.
-/

namespace Backpatch

/-- A demand of the symbol table on the patching. -/
inductive Demand where
  /-- A label is referenced and has no address. -/
  | missing (name : String)
  /-- An instruction refers to a label whose address is `target`. -/
  | fixup (name : String) (target : Address) (fixup : Fixup)
  deriving DecidableEq, Repr

/-- The demands of one label. -/
def Label.demands (label : Label) : List Demand :=
  match label.address with
  | none => if label.fixups.isEmpty then [] else [.missing label.name]
  | some target => label.fixups.toList.map (.fixup label.name target)

/-- The demands of a table, in the order of labels and references. -/
def SymbolTable.demands (table : SymbolTable) : List Demand :=
  table.labels.flatMap Label.demands

/-- The change to one instruction: the label it is made for, and the bits to set. -/
structure Patch where
  name : String
  field : Word
  deriving DecidableEq, Repr

/-- The patch for a reference, unless the reference itself is out of order. -/
def Fixup.patch (checkRanges : Bool) (image : Image) (name : String) (target : Address)
    (fixup : Fixup) : Except PatchError Patch :=
  match image.addressOf fixup.handle with
  | .error error => .error error
  | .ok actual =>
    if actual ≠ fixup.site then .error (.addressMismatch fixup.site actual)
    else if checkRanges && !fixup.kind.reaches target fixup.site then
      .error (fixup.kind.outOfRange name fixup.site)
    else .ok { name, field := fixup.kind.field target fixup.site }

/-- What a visit of the references has found so far. -/
structure Plan where
  /-- For each instruction the patch that was accepted for it. -/
  slots : Array (Option Patch)
  /-- The failures found, oldest first. -/
  diagnostics : Array PatchError := #[]
  /-- The number of patches of jumps. -/
  jumps : Nat := 0
  /-- The number of patches of branches. -/
  branches : Nat := 0
  deriving DecidableEq, Repr

namespace Plan

/-- The plan for an image before any reference is visited. -/
def start (image : Image) : Plan :=
  { slots := Array.replicate image.size none }

/-- Notes a failure. -/
def report (error : PatchError) (plan : Plan) : Plan :=
  { plan with diagnostics := plan.diagnostics.push error }

/-- Accepts the first patch of an instruction. -/
def accept (fixup : Fixup) (patch : Patch) (plan : Plan) : Plan :=
  { plan with
    slots := plan.slots.setIfInBounds fixup.handle (some patch)
    jumps := plan.jumps + if fixup.kind = .jump then 1 else 0
    branches := plan.branches + if fixup.kind = .branch then 1 else 0 }

/-- Brings a patch together with the one that its instruction has already, if any. -/
def settle (fixup : Fixup) (patch : Patch) (plan : Plan) : Plan :=
  match plan.slots[fixup.handle]?.join with
  | none => plan.accept fixup patch
  | some first =>
    if first = patch then plan else plan.report (.conflictingReference fixup.site)

/-- Visits one demand. -/
def visit (checkRanges : Bool) (image : Image) (plan : Plan) : Demand → Plan
  | .missing name => plan.report (.undefinedLabel name)
  | .fixup name target fixup =>
    match fixup.patch checkRanges image name target with
    | .ok patch => plan.settle fixup patch
    | .error error => plan.report error

/-- The plan for all references of a table. -/
def make (checkRanges : Bool) (image : Image) (table : SymbolTable) : Plan :=
  table.demands.foldl (visit checkRanges image) (start image)

/-- The fields to write, by handle. -/
def writes (plan : Plan) : List (Handle × Word) :=
  plan.slots.toList.zipIdx.filterMap fun (slot, handle) =>
    slot.map fun patch => (handle, patch.field)

end Plan

end Backpatch
