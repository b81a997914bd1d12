import Backpatch.Proofs.Isa.Encoding
import Backpatch.Proofs.Source.Recording
import Backpatch.Proofs.Source.Statement

/-!
# Jumps and branches in the text

Which lines of a text ask for a jump or a branch, and what is written on them. `SourceLine.written`
is the mnemonic of a line with its operands; `SourceLine.IsJump` and `SourceLine.IsBranch` read the
opcode, the registers and the label from there. The reader of lines makes a reference of these lines
only (`SourceLine.reference_of_parse`), and its word has the opcode and the registers of the line
and an empty target field. So no line that can be read is refused for its word when it is recorded
(`SourceLine.hasField_of_parse`).
-/

namespace Backpatch

theorem eq_ok_of_toOption {result : Except ε α} {value : α} (h : result.toOption = some value) :
    result = .ok value := by
  cases result with
  | error error => cases h
  | ok other => rw [Option.some.inj h]

/-! ## What is written on a line -/

namespace SourceLine

/-- The mnemonic of a line, in lower case, and its operands. -/
def written (line : List Char) : String × List (List Char) :=
  let (mnemonic, operands) := (splitLabels (code line)).2.span fun c => !Text.isBlank c
  (String.ofList (mnemonic.map Char.toLower), splitOperands (Text.trim operands))

/-- The line is a jump to a label. -/
def IsJump (line : List Char) (opcode : Opcode) (name : String) : Prop :=
  opcode.isJump = true ∧ written line = (opcode.mnemonic, [name.toList])

/-- The line is a branch to a label, on a comparison of two registers. -/
inductive IsBranch (line : List Char) : Opcode → Register → Register → String → Prop
  | compare {opcode : Opcode} {first second : List Char} {rs rt : Register} {name : String}
      (hopcode : opcode = .beq ∨ opcode = .bne)
      (hwritten : written line = (opcode.mnemonic, [first, second, name.toList]))
      (hrs : Register.parse? first = some rs) (hrt : Register.parse? second = some rt) :
      IsBranch line opcode rs rt name
  | compareZero {opcode : Opcode} {first : List Char} {rs : Register} {name : String}
      (hopcode : opcode = .blez ∨ opcode = .bgtz)
      (hwritten : written line = (opcode.mnemonic, [first, name.toList]))
      (hrs : Register.parse? first = some rs) :
      IsBranch line opcode rs .zero name

theorem IsBranch.isBranch {line : List Char} {opcode : Opcode} {rs rt : Register} {name : String}
    (h : IsBranch line opcode rs rt name) : opcode.isBranch = true := by
  cases h with
  | compare hopcode => rcases hopcode with rfl | rfl <;> rfl
  | compareZero hopcode => rcases hopcode with rfl | rfl <;> rfl

end SourceLine

/-! ## Lines -/

namespace SourceLine

variable {line : List Char} {labels : List String}

/-- A line with a statement has been read from its mnemonic and its operands. -/
theorem read_of_parse {statement : Statement} (h : parse line = .ok ⟨labels, some statement⟩) :
    ∃ operation, Operation.Named (written line).1 operation ∧
      operation.Takes (written line).2 statement := by
  have hread : readStatement (splitLabels (code line)).2 = .ok statement := by
    unfold parse at h
    simp only at h
    split at h
    · cases h
    · obtain ⟨read, hread, h⟩ := bind_eq_ok_iff.mp h
      cases h
      exact hread
  unfold readStatement at hread
  unfold written
  simp only at hread ⊢
  split at hread
  · next operation hoperation =>
    exact ⟨operation, Operation.ofMnemonic?_eq_some_iff.mp hoperation,
      Operation.read_eq_ok_iff.mp hread⟩
  · cases hread

/-- A reference is read from a jump or a branch only. Its word is that of the opcode and the
registers of the line, with an empty target field. -/
theorem reference_of_parse {word : Word} {name : String}
    (h : parse line = .ok ⟨labels, some (.reference word name)⟩) :
    (∃ opcode, IsJump line opcode name ∧ word = encodeJump opcode) ∨
      ∃ opcode rs rt, IsBranch line opcode rs rt name ∧ word = encodeImmediate opcode rs rt 0 := by
  obtain ⟨operation, hnamed, htakes⟩ := read_of_parse h
  have hwritten : written line = ((written line).1, (written line).2) := (Prod.eta _).symm
  generalize (written line).1 = mnemonic at hnamed hwritten
  generalize (written line).2 = operands at htakes hwritten
  -- Only these three operations make a reference.
  cases htakes with
  | @jump opcode text hname =>
      cases hnamed with
      | jump hopcode =>
          have hjump : ∀ opcode ∈ [Opcode.j, .jal], opcode.isJump = true := by decide
          refine Or.inl ⟨opcode, ⟨hjump _ hopcode, ?_⟩, rfl⟩
          rw [hwritten, String.toList_ofList]
  | @compare opcode first second text rs rt hrs hrt hname =>
      cases hnamed with
      | compare hopcode =>
          rw [← String.toList_ofList (l := text)] at hwritten
          exact Or.inr ⟨opcode, rs, rt, .compare (by simpa using hopcode) hwritten
            (Register.parse?_eq_some_iff.mpr hrs) (Register.parse?_eq_some_iff.mpr hrt), rfl⟩
  | @compareZero opcode first text rs hrs hname =>
      cases hnamed with
      | compareZero hopcode =>
          rw [← String.toList_ofList (l := text)] at hwritten
          exact Or.inr ⟨opcode, rs, .zero, .compareZero (by simpa using hopcode) hwritten
            (Register.parse?_eq_some_iff.mpr hrs), rfl⟩

/-- The word of a line that is a jump or a branch has a target field. -/
theorem fixupKind?_of_parse {word : Word} {name : String}
    (h : parse line = .ok ⟨labels, some (.reference word name)⟩) :
    ∃ kind, word.fixupKind? = some kind := by
  rcases reference_of_parse h with ⟨opcode, ⟨hjump, -⟩, rfl⟩ | ⟨opcode, rs, rt, hbranch, rfl⟩
  · exact ⟨_, fixupKind?_of_isJump (opcode?_encodeJump opcode) hjump⟩
  · exact ⟨_, fixupKind?_of_isBranch (opcode?_encodeImmediate opcode rs rt 0) hbranch.isBranch⟩

theorem hasField_of_parse {parsed : SourceLine} (h : parse line = .ok parsed) {item : Item}
    (hmem : item ∈ parsed.items) : item.HasField := by
  obtain ⟨labels, statement⟩ := parsed
  cases item with
  | label name => trivial
  | statement emitted =>
      cases emitted with
      | word word => trivial
      | reference word name =>
          have hstatement : statement = some (.reference word name) := by
            simpa [items] using hmem
          rw [hstatement] at h
          exact Option.isSome_iff_exists.mpr (fixupKind?_of_parse h)

end SourceLine

end Backpatch
