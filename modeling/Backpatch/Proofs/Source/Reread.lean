import Backpatch.Proofs.Isa.Fields
import Backpatch.Proofs.Source.Disassembly
import Backpatch.Proofs.Text.Numeral

/-!
# What the text of a word is read as

The disassembly of any word, handed to the reader of source lines. Three things of a word do not
survive that way, and `SourceLine.disassembly_reread` says which and for which words:

* a target: the text of a jump or a branch shows a number where the reader takes a label, and no
  number is one (`Operand.label_of_literal`);
* the five bits between `rd` and the function code, which the text of a register operation does not
  show (`Word.encodeRegister_fields`);
* an immediate that is extended with zeros and has its high bit set, which the text shows as a
  negative number.

The text of every other word is read as the word.
-/

namespace Backpatch

open Operand Text

/-! ## Numbers in the place of labels -/

namespace Operand

theorem not_isLabelStart_of_isDigit {c : Char} {value : Nat} (h : IsDigit 10 c value) :
    isLabelStart c = false := by
  have key : ∀ value : Fin 10, isLabelStart (hexDigit value) = false ∧
      isLabelStart (hexDigit value).toUpper = false := by decide
  obtain ⟨hvalue, hc⟩ := h
  rcases hc with rfl | rfl
  · exact (key ⟨value, hvalue⟩).1
  · exact (key ⟨value, hvalue⟩).2

/-- An integer literal starts with a decimal digit or a sign, in whatever base it is written. -/
theorem not_isLabelStart_of_literal {first : Char} {rest : List Char} {value : Int}
    (h : Literal (first :: rest) value) : isLabelStart first = false := by
  cases h with
  | negated => rfl
  | plain h =>
      cases h with
      | decimal h =>
          obtain ⟨_, hdigit⟩ := h.isDigit first List.mem_cons_self
          exact not_isLabelStart_of_isDigit hdigit
      | hexadecimal => rfl
      | binary => rfl

/-- An integer literal is no label name, and refused where a label has to stand. -/
theorem label_of_literal {text : List Char} {value : Int} (h : Literal text value) :
    label text = .error (.invalidLabel (String.ofList text)) := by
  have hname : isLabelName text = false := by
    cases text with
    | nil => rfl
    | cons first rest => rw [isLabelName, not_isLabelStart_of_literal h, Bool.false_and]
  rw [label, hname]
  rfl

end Operand

/-! ## Numbers in hexadecimal digits -/

theorem toList_hexText (width value : Nat) :
    ("0x" ++ hex width value).toList = '0' :: 'x' :: hexDigits width value := by
  simp [hex]

/-- A number is a literal of itself when it is printed in hexadecimal digits that hold it. -/
theorem literal_hexText {width value : Nat} (hwidth : 0 < width) (hvalue : value < 16 ^ width)
    (hlimit : value < 2 ^ 63) : Literal ("0x" ++ hex width value).toList value := by
  rw [toList_hexText]
  have hdigits := digitsValue?_hexDigits hwidth hvalue
  have hnumeral := (digitsValue?_eq_some_iff (by decide)).mp hdigits
  exact .plain (.hexadecimal (Or.inl rfl) hnumeral) hlimit

namespace SourceLine

theorem toList_printed₁ (name first : String) :
    (name ++ " " ++ first).toList = name.toList ++ ' ' :: listed [first.toList] := by
  simp [listed]

end SourceLine

namespace Word

open Operation SourceLine

variable (word : Word)

/-! ## Jumps and branches -/

/-- The target of a jump, as it is printed. -/
def targetText : String :=
  "0x" ++ hex 7 word.target.toNat

theorem literal_targetText : Literal word.targetText.toList word.target.toNat := by
  have htarget : word.target.toNat < 16 ^ 7 := by
    have hindex := (word.extractLsb' 0 26).isLt
    have hshift : word.target.toNat = (word.extractLsb' 0 26).toNat <<< 2 := by
      simp only [target, BitVec.toNat_append, BitVec.toNat_ofNat, Nat.zero_mod,
        Nat.zero_shiftLeft, Nat.zero_or, Nat.or_zero]
    rw [hshift, Nat.shiftLeft_eq]
    omega
  exact literal_hexText (by decide) htarget (by omega)

variable {opcode : Opcode}

/-- The text of a jump is refused for its target. -/
theorem parse_jumpText (hopcode : ofOpcode? opcode = some (.jump opcode)) :
    parse (word.operationText opcode).toList = .error (.invalidLabel word.targetText) := by
  have hliteral := word.literal_targetText
  have htext : word.operationText opcode = opcode.mnemonic ++ " " ++ word.targetText := by
    rw [← String.toList_inj]
    cases opcode <;> cases hopcode <;> simp [operationText, targetText, toString]
  rw [htext, toList_printed₁, parse_printed (named_ofOpcode? hopcode) (by simp)
    (by simp [solid_of_literal hliteral]), Operation.read, label_of_literal hliteral,
    String.ofList_toList]
  rfl

/-- The text of a branch on two registers is refused for its displacement. -/
theorem parse_compareText (hopcode : ofOpcode? opcode = some (.compare opcode)) :
    parse (word.operationText opcode).toList =
      .error (.invalidLabel word.immediate.toInt.repr) := by
  have htext : word.operationText opcode =
      s!"{opcode.mnemonic} {word.rs.text}, {word.rt.text}, {word.immediate.toInt.repr}" := by
    cases opcode <;> cases hopcode <;> rfl
  rw [htext, toList_printed₃, parse_printed (named_ofOpcode? hopcode) (by simp)
    (by simp [solid_text, solid_immediate]), Operation.read,
    register_eq_ok_iff.mpr word.rs.spelled_text, register_eq_ok_iff.mpr word.rt.spelled_text,
    label_of_literal word.literal_immediate, String.ofList_toList]
  rfl

/-- The text of a branch on one register is refused for its displacement. -/
theorem parse_compareZeroText (hopcode : ofOpcode? opcode = some (.compareZero opcode)) :
    parse (word.operationText opcode).toList =
      .error (.invalidLabel word.immediate.toInt.repr) := by
  have htext : word.operationText opcode =
      s!"{opcode.mnemonic} {word.rs.text}, {word.immediate.toInt.repr}" := by
    cases opcode <;> cases hopcode <;> rfl
  rw [htext, toList_printed₂, parse_printed (named_ofOpcode? hopcode) (by simp)
    (by simp [solid_text, solid_immediate]), Operation.read,
    register_eq_ok_iff.mpr word.rs.spelled_text, label_of_literal word.literal_immediate,
    String.ofList_toList]
  rfl

/-! ## Data -/

/-- A word in hexadecimal digits is a datum. -/
theorem datum_hexWord : Datum (hexWord word).toList word := by
  have hword := word.isLt
  have hliteral : Literal (hexWord word).toList word.toNat :=
    literal_hexText (by decide) (by omega) (by omega)
  have hvalue : word = BitVec.ofInt 32 word.toNat := by
    rw [BitVec.ofInt_natCast, BitVec.ofNat_toNat, BitVec.setWidth_eq]
  exact ⟨word.toNat, hliteral, by omega, by omega, hvalue⟩

/-- The text of a word as a datum is read as the word. -/
theorem parse_dataText : parse word.dataText.toList = .ok ⟨[], some (.word word)⟩ := by
  have htext : word.dataText = ".word" ++ " " ++ hexWord word := rfl
  rw [htext, toList_printed₁]
  exact parse_printed_of_takes .datum (by simp) (by simp [word.datum_hexWord.solid])
    (.datum word.datum_hexWord)

/-! ## All words -/

/-- The operations that have a target, which they take as a label. -/
def targeted : List Opcode :=
  [.j, .jal, .beq, .bne, .blez, .bgtz]

/-- The number that the text of a word with a target shows for it. -/
def shownTarget (opcode : Opcode) : String :=
  if opcode.isJump then word.targetText else word.immediate.toInt.repr

/-- The word is of one of the register operations. -/
def IsRegisterOperation : Prop :=
  word.opcode? = some .special ∧ word.funct? ≠ none

/-- What the text of a word is read as, told from the word. -/
structure Reread (outcome : Except LineError SourceLine) : Prop where
  /-- The number shown for a target is refused where a label has to stand. -/
  target : ∀ opcode ∈ targeted, word.opcode? = some opcode →
    outcome = .error (.invalidLabel (word.shownTarget opcode))
  /-- The bits of a register operation that the text does not show are read as zero. -/
  register : word.IsRegisterOperation → outcome = .ok ⟨[], some (.word (word &&& 0xFFFFF83F))⟩
  /-- So a register operation is read as the same word if these bits are zero, and only then. -/
  register_iff : word.IsRegisterOperation →
    (outcome = .ok ⟨[], some (.word word)⟩ ↔ word.extractLsb' 6 5 = 0)
  /-- Where the immediate is extended with zeros, the same word is read if the high bit of the
  immediate is zero, and only then. -/
  unsigned_iff : ∀ opcode ∈ zeroExtended, word.opcode? = some opcode →
    (outcome = .ok ⟨[], some (.word word)⟩ ↔ word.immediate.toNat < 0x8000)
  /-- Where that bit is set, the immediate is shown as a negative number, and refused. -/
  unsigned_refused : ∀ opcode ∈ zeroExtended, word.opcode? = some opcode →
    0x8000 ≤ word.immediate.toNat → outcome = .error (.unsignedRange word.immediate.toInt)
  /-- Everything else is read as the same word: loads, stores, `addiu`, `nop` and data. -/
  same : (∀ opcode ∈ targeted ++ zeroExtended, word.opcode? ≠ some opcode) →
    ¬word.IsRegisterOperation → outcome = .ok ⟨[], some (.word word)⟩

variable {word}

theorem parse_disassembly_targeted (h : word.opcode? = some opcode) (hmem : opcode ∈ targeted) :
    parse word.disassembly.toList = .error (.invalidLabel (word.shownTarget opcode)) := by
  have hspecial : opcode ≠ .special := by
    rintro rfl
    exact absurd hmem (by decide)
  rw [disassembly_of_ne_special h hspecial]
  simp only [targeted, List.mem_cons, List.not_mem_nil, or_false] at hmem
  rcases hmem with rfl | rfl | rfl | rfl | rfl | rfl
  · exact word.parse_jumpText rfl
  · exact word.parse_jumpText rfl
  · exact word.parse_compareText rfl
  · exact word.parse_compareText rfl
  · exact word.parse_compareZeroText rfl
  · exact word.parse_compareZeroText rfl

theorem parse_disassembly_registerOperation (h : word.IsRegisterOperation) :
    parse word.disassembly.toList = .ok ⟨[], some (.word (word &&& 0xFFFFF83F))⟩ := by
  obtain ⟨hopcode, hsome⟩ := h
  obtain ⟨funct, hfunct⟩ := Option.ne_none_iff_exists'.mp hsome
  rw [parse_disassembly_register hopcode hfunct, encodeRegister_fields hopcode hfunct]

/-- A word is misprinted exactly if the high bit of its immediate is set, when it is of an operation
that extends the immediate with zeros. -/
theorem misprinted_iff (h : word.opcode? = some opcode) (hmem : opcode ∈ zeroExtended) :
    word.Misprinted ↔ 0x8000 ≤ word.immediate.toNat := by
  have hneg : word.immediate.toInt < 0 ↔ 0x8000 ≤ word.immediate.toNat := by
    rw [BitVec.toInt_neg_iff]
    omega
  rw [← hneg]
  exact ⟨fun hmis => hmis.2, fun hneg => ⟨⟨opcode, hmem, h⟩, hneg⟩⟩

/-- A word that shows no target, no register operation and no immediate extended with zeros is
read as the same word. -/
theorem parse_disassembly_same
    (hopcode : ∀ opcode ∈ targeted ++ zeroExtended, word.opcode? ≠ some opcode)
    (hregister : ¬word.IsRegisterOperation) :
    parse word.disassembly.toList = .ok ⟨[], some (.word word)⟩ := by
  by_cases hzero : word = 0
  · rw [hzero, parse_disassembly_zero]
  cases h : word.opcode? with
  | none =>
      rw [disassembly, if_neg hzero, h]
      exact word.parse_dataText
  | some opcode =>
      have hnot : opcode ∉ targeted ++ zeroExtended := fun hmem => hopcode opcode hmem h
      have hleft : ∀ opcode, opcode ∉ targeted ++ zeroExtended →
          opcode = .special ∨ ofOpcode? opcode = some (.signedImmediate opcode) ∨
            ofOpcode? opcode = some (.memory opcode) := by
        intro opcode
        cases opcode <;> decide
      rcases hleft opcode hnot with rfl | hsigned | hmemory
      · have hnone : word.funct? = none := by
          by_contra hsome
          exact hregister ⟨h, hsome⟩
        have htext : word.operationText .special = word.dataText := by
          rw [operationText, hnone]
          rfl
        rw [disassembly_of_opcode? hzero h, htext, parse_dataText]
      · exact parse_disassembly_signed h hsigned
      · exact parse_disassembly_memory h hmemory

end Word

/-- The text of every word, read as a line, gives back the word or loses what `Word.Reread` says. -/
theorem SourceLine.disassembly_reread (word : Word) :
    word.Reread (SourceLine.parse word.disassembly.toList) := by
  refine ⟨?target, ?register, ?register_iff, ?unsigned_iff, ?unsigned_refused, ?same⟩
  case target =>
    intro opcode hmem h
    exact Word.parse_disassembly_targeted h hmem
  case register => exact Word.parse_disassembly_registerOperation
  case register_iff =>
    intro h
    rw [Word.parse_disassembly_registerOperation h, ← word.and_unused_eq_iff]
    simp
  case unsigned_iff =>
    intro opcode hmem h
    rw [Word.parse_disassembly_unsigned h hmem, ← Nat.not_le, ← Word.misprinted_iff h hmem]
    split
    · next hmis => simp [hmis]
    · next hmis => simp [hmis]
  case unsigned_refused =>
    intro opcode hmem h hhigh
    rw [Word.parse_disassembly_unsigned h hmem, if_pos ((Word.misprinted_iff h hmem).mpr hhigh)]
  case same => exact Word.parse_disassembly_same

/-- A register operation whose unused bits are set is read without them. -/
example : SourceLine.parse (Word.disassembly 0x012A4FE1).toList =
    .ok ⟨[], some (.word 0x012A4821)⟩ := by decide +kernel

end Backpatch
