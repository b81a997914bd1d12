import Backpatch.Config
import Backpatch.Draft
import Backpatch.Isa.Disassembly

/-!
# Assembly runs

A run has two phases. While it collects, words are appended, labels defined and references
recorded, in any order. `Assembly.patch` ends that phase for good, whether it succeeds or not, and
can only be called once; after a success the final words can be read.
-/

namespace Backpatch

/-- How far a run has come. -/
inductive Phase where
  /-- Words, labels and references are recorded. -/
  | collecting
  /-- Every reference is resolved. -/
  | patched
  /-- The references could not be resolved. -/
  | failed
  deriving DecidableEq, Repr

/-- An assembly run: its settings, the program under construction, and its phase. -/
structure Assembly where
  config : Config
  draft : Draft
  phase : Phase
  deriving DecidableEq, Repr

namespace Assembly

/-- A run that has recorded nothing. -/
def start (config : Config) : Assembly where
  config
  draft := { image := { base := config.baseAddress } }
  phase := .collecting

/-- The words of the program, patched or not. -/
def image (assembly : Assembly) : Image :=
  assembly.draft.image

/-- The labels of the program. -/
def symbols (assembly : Assembly) : SymbolTable :=
  assembly.draft.symbols

/-! ## Recording -/

/-- An operation on the draft that is refused when recording is over. -/
def recording (attempt : Recording) (operation : Draft → Except PatchError α × Draft) :
    Assembly → Except PatchError α × Assembly
  | ⟨config, draft, .collecting⟩ =>
    let (result, draft) := operation draft
    (result, ⟨config, draft, .collecting⟩)
  | ⟨config, draft, phase⟩ => (.error (.phaseViolation attempt), ⟨config, draft, phase⟩)

/-- Appends a word and returns its handle. -/
def append (word : Word) : Assembly → Except PatchError Handle × Assembly :=
  recording .instruction (Draft.append word)

/-- Gives a label its address. -/
def define (name : String) (address : Address) : Assembly → Except PatchError Unit × Assembly :=
  recording .label (Draft.define name address)

/-- Gives a label the address of the next word. -/
def defineHere (name : String) : Assembly → Except PatchError Unit × Assembly :=
  recording .label (Draft.defineHere name)

/-- Records that an instruction uses a label. -/
def reference (handle : Handle) (site : Address) (name : String) :
    Assembly → Except PatchError Unit × Assembly :=
  recording .reference (Draft.reference handle site name)

/-- Appends a jump or a branch and records that it uses a label. -/
def appendReference (word : Word) (name : String) : Assembly → Except PatchError Handle × Assembly :=
  recording .instruction (Draft.appendReference word name)

/-- The address of the next word. -/
def currentAddress (assembly : Assembly) : Except PatchError Address :=
  assembly.image.nextAddress

/-! ## Patching and reading -/

/-- Resolves every reference and ends the recording. -/
def patch : Assembly → Except Diagnostics PatchReport × Assembly
  | ⟨config, draft, .collecting⟩ =>
    match draft.patch config.checkRanges with
    | (.ok report, draft) => (.ok report, ⟨config, draft, .patched⟩)
    | (.error diagnostics, draft) => (.error diagnostics, ⟨config, draft, .failed⟩)
  | assembly => (.error [.alreadyPatched], assembly)

/-- The final words. -/
def finalWords (assembly : Assembly) : Except PatchError (List Word) :=
  match assembly.phase with
  | .patched => .ok assembly.image.words.toList
  | .collecting | .failed => .error .notPatched

/-- The final words as bytes. -/
def finalBytes (assembly : Assembly) : Except PatchError (List UInt8) := do
  let _ ← assembly.finalWords
  return assembly.image.bytes assembly.config.byteOrder

/-! ## Listing -/

/-- The labels that stand at an address, each with its colon. -/
def labelColumn (symbols : SymbolTable) (address : Address) : String :=
  let names := (symbols.labels.filter (·.address = some address)).map Label.name
  " ".intercalate (names.map (· ++ ":"))

/-- Text that fills at least `width` characters. -/
def padded (width : Nat) (text : String) : String :=
  text ++ String.ofList (List.replicate (width - text.length) ' ')

/-- The line of the listing for one word: address, word, labels and disassembly. -/
def listingLine (symbols : SymbolTable) (address : Address) (word : Word) : String :=
  Text.hexWord address ++ "  " ++ Text.hex 8 word.toNat ++ "  " ++
    padded 12 (labelColumn symbols address) ++ " " ++ word.disassembly

/-- One line for each word, in order. -/
def listing (assembly : Assembly) : List String :=
  assembly.image.entries.map fun (address, word) => listingLine assembly.symbols address word

end Assembly

end Backpatch
