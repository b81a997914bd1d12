import Backpatch.Patch.Plan

/-!
# Drafts

A draft is a program under construction: an image and the symbol table that goes with it. Here are
the operations that concern both, and `Draft.patch`, which ends the construction: it resolves all
references into the image, or reports everything that stands in the way and changes nothing.
-/

namespace Backpatch

/-- An image whose jumps and branches still wait for the addresses in a symbol table. -/
structure Draft where
  image : Image := {}
  symbols : SymbolTable := {}
  deriving DecidableEq, Repr

/-- What a successful patching did. -/
structure PatchReport where
  /-- The number of labels in the table. -/
  labels : Nat
  /-- The number of jumps patched. -/
  jumps : Nat
  /-- The number of branches patched. -/
  branches : Nat
  deriving DecidableEq, Repr

/-- The number of instructions patched. -/
def PatchReport.references (report : PatchReport) : Nat :=
  report.jumps + report.branches

namespace Draft

/-- An operation on the image of a draft. -/
def onImage (operation : Image → Except PatchError α × Image) :
    Draft → Except PatchError α × Draft
  | ⟨image, symbols⟩ =>
    let (result, image) := operation image
    (result, ⟨image, symbols⟩)

/-- An operation on the symbol table of a draft. -/
def onSymbols (operation : SymbolTable → Except PatchError α × SymbolTable) :
    Draft → Except PatchError α × Draft
  | ⟨image, symbols⟩ =>
    let (result, symbols) := operation symbols
    (result, ⟨image, symbols⟩)

/-- Appends a word. -/
def append (word : Word) : Draft → Except PatchError Handle × Draft :=
  onImage (Image.append word)

/-- Gives a label its address. -/
def define (name : String) (address : Address) : Draft → Except PatchError Unit × Draft :=
  onSymbols (SymbolTable.define name address)

/-- Gives a label the address of the next word. -/
def defineHere (name : String) (draft : Draft) : Except PatchError Unit × Draft :=
  match draft.image.nextAddress with
  | .ok address => draft.define name address
  | .error error => (.error error, draft)

/-- Records a reference as it is given, without a look at the image. -/
def addReference (fixup : Fixup) (name : String) : Draft → Except PatchError Unit × Draft :=
  onSymbols (SymbolTable.addReference fixup name)

/-- The reference that an instruction of the image makes from the address that it has. -/
def fixupAt (draft : Draft) (handle : Handle) (site : Address) : Except PatchError Fixup := do
  let word ← draft.image.get handle
  let actual ← draft.image.addressOf handle
  if site ≠ actual then throw (.addressMismatch site actual)
  let kind ← FixupKind.classify word site
  return { handle, site, kind }

/-- Records that an instruction of the image uses a label. The instruction has to be a jump or a
branch, and `site` its address. -/
def reference (handle : Handle) (site : Address) (name : String) (draft : Draft) :
    Except PatchError Unit × Draft :=
  match draft.fixupAt handle site with
  | .ok fixup => draft.addReference fixup name
  | .error error => (.error error, draft)

/-- The reference that a word would make if it were appended. -/
def nextFixup (draft : Draft) (word : Word) : Except PatchError Fixup := do
  let site ← draft.image.nextAddress
  let kind ← FixupKind.classify word site
  return { handle := draft.image.size, site, kind }

/-- Appends a jump or a branch and records that it uses a label. The word is appended before the
symbol table sees the reference, and stays when the table refuses it. -/
def appendReference (word : Word) (name : String) (draft : Draft) :
    Except PatchError Handle × Draft :=
  match draft.nextFixup word with
  | .error error => (.error error, draft)
  | .ok fixup =>
    match draft.append word with
    | (.error error, draft) => (.error error, draft)
    | (.ok handle, draft) =>
      match draft.addReference fixup name with
      | (.ok (), draft) => (.ok handle, draft)
      | (.error error, draft) => (.error error, draft)

/-- Resolves every reference. Nothing is written unless the whole plan is without failure. -/
def patch (checkRanges : Bool) (draft : Draft) : Except Diagnostics PatchReport × Draft :=
  let plan := Plan.make checkRanges draft.image draft.symbols
  if plan.diagnostics.isEmpty then
    match draft with
    | ⟨image, symbols⟩ =>
      match image.writeFields plan.writes with
      | (.ok (), image) =>
        (.ok ⟨symbols.size, plan.jumps, plan.branches⟩, ⟨image, symbols.clearFixups⟩)
      | (.error error, image) => (.error [error], ⟨image, symbols⟩)
  else (.error plan.diagnostics.toList, draft)

end Draft

end Backpatch
