import Backpatch.Isa.Encoding
import Backpatch.PatchError

/-!
# Symbol tables

A symbol table collects what is said about labels while a program is recorded: which address each
has, and which instructions refer to it. A label enters the table when it is first mentioned, be it
by its definition or by a reference, and keeps its place from then on. A reference may come before
the definition; nothing is patched here.

`SymbolTable.update` is the one operation that changes the table. The main statements,
`find?_update` and `names_update`, are that it changes the entry of one name only and adds a name
at the end when it is new.
-/

namespace Backpatch

/-- How the address of a label is encoded into the instruction that refers to it. -/
inductive FixupKind where
  /-- As the index of a word within a region, into the 26 low bits. -/
  | jump
  /-- As a signed number of words from the next instruction, into the 16 low bits. -/
  | branch
  deriving DecidableEq, Repr

namespace FixupKind

/-- The kind of reference that an instruction with an opcode makes. -/
def ofOpcode? (opcode : Opcode) : Option FixupKind :=
  match opcode.kind with
  | .jump => some .jump
  | .branch => some .branch
  | .register | .immediate | .memory => none

/-- The kind of reference that a word makes, which has to be a jump or a branch. -/
def classify (word : Word) (site : Address) : Except PatchError FixupKind :=
  match word.opcode?.bind ofOpcode? with
  | some kind => .ok kind
  | none => .error (.notJumpOrBranch site word)

end FixupKind

/-- One use of a label by an instruction, still to be patched. -/
structure Fixup where
  handle : Handle
  /-- The address of the instruction. -/
  site : Address
  kind : FixupKind
  deriving DecidableEq, Repr

/-- What is known of one label. -/
structure Label where
  name : String
  /-- The address, once the label is defined. -/
  address : Option Address := none
  /-- The references that wait to be patched, oldest first. -/
  fixups : Array Fixup := #[]
  deriving DecidableEq, Repr

namespace Label

/-- Whether the label has an address. -/
def isDefined (label : Label) : Bool :=
  label.address.isSome

/-- Whether the label waits for an address that some instruction needs. -/
def isMissing (label : Label) : Bool :=
  !label.isDefined && !label.fixups.isEmpty

/-- The label with one more reference. -/
def addFixup (label : Label) (fixup : Fixup) : Label :=
  { label with fixups := label.fixups.push fixup }

end Label

/-- The labels of a program in the order of their first mention. -/
structure SymbolTable where
  labels : List Label := []
  deriving DecidableEq, Repr

namespace SymbolTable

/-- The entry of a name. -/
def find? (table : SymbolTable) (name : String) : Option Label :=
  table.labels.find? (·.name = name)

/-- The address of a name, if it has one. -/
def addressOf? (table : SymbolTable) (name : String) : Option Address :=
  (table.find? name).bind Label.address

/-- Whether a name has an address. -/
def isDefined (table : SymbolTable) (name : String) : Bool :=
  (table.addressOf? name).isSome

/-- The number of labels. -/
def size (table : SymbolTable) : Nat :=
  table.labels.length

/-- The names in the order of first mention. -/
def names (table : SymbolTable) : List String :=
  table.labels.map Label.name

/-- The number of references that wait to be patched. -/
def fixupCount (table : SymbolTable) : Nat :=
  table.labels.foldl (fun count label => count + label.fixups.size) 0

/-- The names that are referenced and have no address, in the order of first mention. -/
def missing (table : SymbolTable) : List String :=
  (table.labels.filter Label.isMissing).map Label.name

/-- Changes the entry of a name. A new name gets an empty entry at the end first. -/
def updateLabels (name : String) (change : Label → Label) : List Label → List Label
  | [] => [change { name }]
  | label :: rest =>
    if label.name = name then change label :: rest
    else label :: updateLabels name change rest

/-- Changes the entry of a name, or adds one. -/
def update (name : String) (change : Label → Label) (table : SymbolTable) : SymbolTable :=
  { labels := updateLabels name change table.labels }

/-- Gives a label its address. To repeat a definition is no error, to change it is. -/
def define (name : String) (address : Address) (table : SymbolTable) :
    Except PatchError Unit × SymbolTable :=
  if ¬IsAligned address then (.error (.misalignedAddress name address), table)
  else
    match table.addressOf? name with
    | none => (.ok (), table.update name fun label => { label with address := some address })
    | some known =>
      if known = address then (.ok (), table) else (.error (.duplicateLabel name), table)

/-- Records that an instruction uses a label. -/
def addReference (fixup : Fixup) (name : String) (table : SymbolTable) :
    Except PatchError Unit × SymbolTable :=
  if ¬IsAligned fixup.site then (.error (.misalignedAddress name fixup.site), table)
  else (.ok (), table.update name (·.addFixup fixup))

/-- The table when no reference waits any more. -/
def clearFixups (table : SymbolTable) : SymbolTable :=
  { labels := table.labels.map fun label => { label with fixups := #[] } }

/-! ## What an update does -/

/-- An update changes the entry of its name and no other, provided it keeps the name. -/
theorem find?_update (table : SymbolTable) {name : String} {change : Label → Label}
    (hname : ∀ label, (change label).name = label.name) (other : String) :
    (table.update name change).find? other =
      if other = name then some (change ((table.find? name).getD { name }))
      else table.find? other := by
  obtain ⟨labels⟩ := table
  unfold update find?
  induction labels with
  | nil =>
    by_cases h : other = name
    · simp [updateLabels, hname, h]
    · simp [updateLabels, hname, h, Ne.symm h]
  | cons label rest ih =>
    by_cases hl : label.name = name
    · by_cases h : other = name
      · simp [updateLabels, hname, hl, h]
      · simp [updateLabels, hname, hl, h, Ne.symm h]
    · by_cases ho : label.name = other
      · have h : ¬other = name := fun h => hl (ho.trans h)
        simp [updateLabels, ho, h]
      · simpa [updateLabels, hl, ho] using ih

/-- An update keeps the names and their order; a new name comes last. -/
theorem names_update (table : SymbolTable) {name : String} {change : Label → Label}
    (hname : ∀ label, (change label).name = label.name) :
    (table.update name change).names =
      if name ∈ table.names then table.names else table.names ++ [name] := by
  obtain ⟨labels⟩ := table
  unfold update names
  induction labels with
  | nil => simp [updateLabels, hname]
  | cons label rest ih =>
    by_cases hl : label.name = name
    · simp [updateLabels, hname, hl]
    · simp only [updateLabels, hl, if_false, List.map_cons, ih, List.mem_cons, Ne.symm hl, false_or]
      split <;> simp

end SymbolTable

end Backpatch
