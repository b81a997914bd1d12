import Backpatch.Isa.Disassembly
import Backpatch.Proofs.Isa.Encoding
import Backpatch.Proofs.Source.Grammar
import Backpatch.Proofs.Source.Transfer

/-!
# Disassembly read back

The text of a word is a statement as it is printed: the mnemonic, a space, and the operands with a
comma and a space between them (`listed`). Such a text is read as its operation reads the operands
(`SourceLine.parse_printed`), and the operands are registers by their names and integers in decimal
digits, so that a text is read as the word with the fields that it shows.

So what a line asks for is read back from its disassembly, with one exception
(`SourceLine.disassembly_readBack`). The disassembly shows every immediate with its sign, also
where the reader takes it without one: an immediate of `andi`, `ori` or `xori` with its high bit
set is shown as a negative number, and refused.
-/

namespace Backpatch

open Operand Text

/-! ## Printed statements -/

namespace SourceLine

/-- Operands as they are printed: with a comma and a space between two of them. -/
def listed (operands : List (List Char)) : List Char :=
  [',', ' '].intercalate operands

theorem listed_cons_cons (first second : List Char) (rest : List (List Char)) :
    listed (first :: second :: rest) = first ++ ',' :: ' ' :: listed (second :: rest) := by
  rw [listed, List.intercalate_cons_cons, ← listed]
  simp

theorem toList_printed₂ (name first second : String) :
    s!"{name} {first}, {second}".toList =
      name.toList ++ ' ' :: listed [first.toList, second.toList] := by
  simp [listed, List.intercalate_cons_cons, toString]

theorem toList_printed₃ (name first second third : String) :
    s!"{name} {first}, {second}, {third}".toList =
      name.toList ++ ' ' :: listed [first.toList, second.toList, third.toList] := by
  simp [listed, List.intercalate_cons_cons, toString]

section Listed

variable {operands : List (List Char)}

theorem mem_listed {c : Char} (h : c ∈ listed operands) :
    c = ',' ∨ c = ' ' ∨ ∃ operand ∈ operands, c ∈ operand := by
  induction operands with
  | nil => cases h
  | cons first rest ih =>
      cases rest with
      | nil => exact Or.inr (Or.inr ⟨first, List.mem_cons_self, by simpa [listed] using h⟩)
      | cons second rest =>
          rw [listed_cons_cons, List.mem_append, List.mem_cons, List.mem_cons] at h
          rcases h with h | h | h | h
          · exact Or.inr (Or.inr ⟨first, List.mem_cons_self, h⟩)
          · exact Or.inl h
          · exact Or.inr (Or.inl h)
          · refine (ih h).imp_right (Or.imp_right ?_)
            rintro ⟨operand, hoperand, hc⟩
            exact ⟨operand, List.mem_cons_of_mem _ hoperand, hc⟩

theorem listed_ne_nil (hne : operands ≠ []) (h : ∀ operand ∈ operands, Solid operand) :
    listed operands ≠ [] := by
  cases operands with
  | nil => exact absurd rfl hne
  | cons first rest =>
      have hfirst := (h first List.mem_cons_self).ne_nil
      cases rest with
      | nil => simpa [listed] using hfirst
      | cons second rest => simp [listed_cons_cons]

theorem head?_listed (h : ∀ operand ∈ operands, Solid operand) :
    ∀ c ∈ (listed operands).head?, isBlank c = false := by
  cases operands with
  | nil => simp [listed]
  | cons first rest =>
      have hfirst := h first List.mem_cons_self
      cases rest with
      | nil => simpa [listed] using hfirst.tight.head
      | cons second rest =>
          rw [listed_cons_cons, List.head?_append_of_ne_nil _ hfirst.ne_nil]
          exact hfirst.tight.head

theorem getLast?_listed (h : ∀ operand ∈ operands, Solid operand) :
    ∀ c ∈ (listed operands).getLast?, isBlank c = false := by
  induction operands with
  | nil => simp [listed]
  | cons first rest ih =>
      cases rest with
      | nil => simpa [listed] using (h first List.mem_cons_self).tight.last
      | cons second rest =>
          have hrest : ∀ operand ∈ second :: rest, Solid operand :=
            fun operand hoperand => h operand (List.mem_cons_of_mem _ hoperand)
          have hne := listed_ne_nil (List.cons_ne_nil _ _) hrest
          rw [listed, List.intercalate_cons_cons, ← listed, List.getLast?_append_of_ne_nil _ hne]
          exact ih hrest

theorem allBlank_space : AllBlank [' '] :=
  allBlank_singleton (by decide)

/-- A space behind the comma is trimmed off. -/
theorem map_trim_splitOn_space (text : List Char) :
    (splitOn ',' (' ' :: text)).map trim = (splitOn ',' text).map trim := by
  obtain ⟨piece, pieces, hpieces⟩ := List.exists_cons_of_ne_nil (splitOn_ne_nil ',' text)
  rw [splitOn_cons, if_neg (by decide), hpieces, List.modifyHead_cons, List.map_cons,
    List.map_cons]
  exact congrArg (· :: pieces.map trim) (trim_append allBlank_space piece)

theorem map_trim_splitOn_listed (hne : operands ≠ [])
    (h : ∀ operand ∈ operands, Solid operand) :
    (splitOn ',' (listed operands)).map trim = operands := by
  induction operands with
  | nil => exact absurd rfl hne
  | cons first rest ih =>
      have hfirst := h first List.mem_cons_self
      have hcomma : ',' ∉ first := fun hmem => hfirst.not_mem _ hmem (by decide)
      cases rest with
      | nil => simp [listed, splitOn_of_not_mem hcomma, hfirst.tight.trim_eq]
      | cons second rest =>
          have hrest : ∀ operand ∈ second :: rest, Solid operand :=
            fun operand hoperand => h operand (List.mem_cons_of_mem _ hoperand)
          rw [listed_cons_cons, splitOn_append_cons hcomma, List.map_cons,
            map_trim_splitOn_space, ih (List.cons_ne_nil _ _) hrest, hfirst.tight.trim_eq]

/-- Printed operands are found again. -/
theorem splitOperands_listed (hne : operands ≠ []) (h : ∀ operand ∈ operands, Solid operand) :
    splitOperands (listed operands) = operands := by
  rw [splitOperands, if_neg, map_trim_splitOn_listed hne h]
  simpa using listed_ne_nil hne h

end Listed

/-- A text that holds nothing but a statement is read as that statement. -/
theorem parse_eq_readStatement {text : List Char} (hne : text ≠ []) (htight : Tight text)
    (hchars : ∀ c ∈ text, c ∉ ['#', ';', ':']) :
    parse text = (readStatement text).map fun statement => ⟨[], some statement⟩ := by
  have hcode : code text = text := by
    refine code_eq_iff.mpr ⟨text, [], by simp, ?_, by simp, trim_eq_iff.mp htight.trim_eq⟩
    intro c hc
    have hnot := hchars c hc
    simp only [List.mem_cons, not_or] at hnot
    exact ⟨hnot.1, hnot.2.1⟩
  have hcolon : ':' ∉ text := fun hmem => hchars _ hmem (by decide)
  have hempty : text.isEmpty = false := by simpa using hne
  unfold parse
  rw [hcode, splitLabels_of_not (not_startsWithLabel hcolon), trimStart_eq_self htight.head]
  simp only [hempty]
  cases readStatement text <;> rfl

/-- A printed statement is read as its operation reads the operands. -/
theorem readStatement_printed {name : String} {operation : Operation}
    (hnamed : operation.Named name) {operands : List (List Char)} (hne : operands ≠ [])
    (h : ∀ operand ∈ operands, Solid operand) :
    readStatement (name.toList ++ ' ' :: listed operands) = operation.read name operands := by
  obtain ⟨hsolid, hlower⟩ := hnamed.solid
  have hspan : (name.toList ++ ' ' :: listed operands).span (fun c => !isBlank c) =
      (name.toList, ' ' :: listed operands) :=
    span_eq_iff.mpr ⟨rfl, fun c hc => by simp [hsolid.not_blank c hc], by simp; decide⟩
  have htrim : trim (' ' :: listed operands) = listed operands := by
    have htight : Tight (listed operands) := ⟨head?_listed h, getLast?_listed h⟩
    rw [← List.singleton_append, trim_append allBlank_space, htight.trim_eq]
  unfold readStatement
  rw [hspan]
  simp only
  rw [hlower, String.ofList_toList, Operation.ofMnemonic?_eq_some_iff.mpr hnamed, htrim,
    splitOperands_listed hne h]

/-- A printed statement is read, alone on its line, as its operation reads the operands. -/
theorem parse_printed {name : String} {operation : Operation} (hnamed : operation.Named name)
    {operands : List (List Char)} (hne : operands ≠ [])
    (h : ∀ operand ∈ operands, Solid operand) :
    parse (name.toList ++ ' ' :: listed operands) =
      (operation.read name operands).map fun statement => ⟨[], some statement⟩ := by
  obtain ⟨hsolid, -⟩ := hnamed.solid
  have htight : Tight (name.toList ++ ' ' :: listed operands) := by
    constructor
    · rw [List.head?_append_of_ne_nil _ hsolid.ne_nil]
      exact hsolid.tight.head
    · rw [← List.singleton_append, ← List.append_assoc,
        List.getLast?_append_of_ne_nil _ (listed_ne_nil hne h)]
      exact getLast?_listed h
  have hparts : ∀ c ∈ name.toList ++ ' ' :: listed operands, c ∉ ['#', ';', ':'] := by
    have hsub : ['#', ';', ':'] ⊆ separators := by simp [separators]
    intro c hc hmem
    rw [List.mem_append, List.mem_cons] at hc
    rcases hc with hc | rfl | hc
    · exact hsolid.not_mem c hc (hsub hmem)
    · exact absurd hmem (by decide)
    · rcases mem_listed hc with rfl | rfl | ⟨operand, hoperand, hc⟩
      · exact absurd hmem (by decide)
      · exact absurd hmem (by decide)
      · exact (h operand hoperand).not_mem c hc (hsub hmem)
  rw [parse_eq_readStatement (by simp) htight hparts, readStatement_printed hnamed hne h]

/-- What an operation takes is read when it is printed. -/
theorem parse_printed_of_takes {name : String} {operation : Operation}
    (hnamed : operation.Named name) {operands : List (List Char)} (hne : operands ≠ [])
    (h : ∀ operand ∈ operands, Solid operand) {statement : Statement}
    (htakes : operation.Takes operands statement) :
    parse (name.toList ++ ' ' :: listed operands) = .ok ⟨[], some statement⟩ := by
  rw [parse_printed hnamed hne h, Operation.read_eq_ok_iff.mpr htakes]
  rfl

end SourceLine

/-! ## The texts of words -/

namespace Word

open Operation SourceLine

variable (word : Word)

theorem solid_text (register : Register) : Solid register.text.toList :=
  solid_of_spelled register.spelled_text

/-- The text of a register operation is read as the word with its fields. -/
theorem parse_registerText (funct : Funct) :
    parse (word.registerText funct).toList =
      .ok ⟨[], some (.word (encodeRegister funct word.rd word.rs word.rt))⟩ := by
  have hnamed := named_ofFunct funct
  by_cases hshift : funct.isShift = true
  · have htakes : (ofFunct funct).Takes
        [word.rd.text.toList, word.rt.text.toList, word.rs.text.toList]
        (.word (encodeRegister funct word.rd word.rs word.rt)) := by
      rw [ofFunct, if_pos hshift]
      exact .shift word.rd.spelled_text word.rt.spelled_text word.rs.spelled_text
    unfold registerText
    rw [if_pos hshift, toList_printed₃]
    exact parse_printed_of_takes hnamed (by simp) (by simp [solid_text]) htakes
  · have htakes : (ofFunct funct).Takes
        [word.rd.text.toList, word.rs.text.toList, word.rt.text.toList]
        (.word (encodeRegister funct word.rd word.rs word.rt)) := by
      rw [ofFunct, if_neg hshift]
      exact .arithmetic word.rd.spelled_text word.rs.spelled_text word.rt.spelled_text
    unfold registerText
    rw [if_neg hshift, toList_printed₃]
    exact parse_printed_of_takes hnamed (by simp) (by simp [solid_text]) htakes

/-- An immediate is printed with its sign. -/
theorem literal_immediate : Literal word.immediate.toInt.repr.toList word.immediate.toInt := by
  have hlow := BitVec.le_toInt word.immediate
  have hhigh := BitVec.toInt_lt (x := word.immediate)
  exact literal_repr (by omega)

/-- A printed immediate is in the range of those that are extended with their sign. -/
theorem signed_immediate : Signed word.immediate.toInt.repr.toList word.immediate := by
  have hlow := BitVec.le_toInt word.immediate
  have hhigh := BitVec.toInt_lt (x := word.immediate)
  exact ⟨_, word.literal_immediate, by omega, by omega, BitVec.ofInt_toInt.symm⟩

/-- A printed immediate is in the range of those that are extended with zeros when its high bit is
zero. -/
theorem unsigned_immediate (h : 0 ≤ word.immediate.toInt) :
    Unsigned word.immediate.toInt.repr.toList word.immediate := by
  have hhigh := BitVec.toInt_lt (x := word.immediate)
  exact ⟨_, word.literal_immediate, h, by omega, BitVec.ofInt_toInt.symm⟩

theorem solid_immediate : Solid word.immediate.toInt.repr.toList :=
  solid_of_literal word.literal_immediate

variable {opcode : Opcode}

/-- The text of an operation with an immediate that is extended with its sign is read as the word
with its fields. -/
theorem parse_signedText (hopcode : ofOpcode? opcode = some (.signedImmediate opcode)) :
    parse (word.operationText opcode).toList =
      .ok ⟨[], some (.word (encodeImmediate opcode word.rs word.rt word.immediate))⟩ := by
  have htext : word.operationText opcode =
      s!"{opcode.mnemonic} {word.rt.text}, {word.rs.text}, {word.immediate.toInt.repr}" := by
    cases opcode <;> cases hopcode
    rfl
  rw [htext, toList_printed₃]
  exact parse_printed_of_takes (named_ofOpcode? hopcode) (by simp)
    (by simp [solid_text, solid_immediate])
    (.signedImmediate word.rt.spelled_text word.rs.spelled_text word.signed_immediate)

/-- The text of an operation with an immediate that is extended with zeros is read as the word with
its fields, unless the immediate is shown as a negative number: then it is refused. -/
theorem parse_unsignedText (hopcode : ofOpcode? opcode = some (.unsignedImmediate opcode)) :
    parse (word.operationText opcode).toList =
      if 0 ≤ word.immediate.toInt then
        .ok ⟨[], some (.word (encodeImmediate opcode word.rs word.rt word.immediate))⟩
      else .error (.unsignedRange word.immediate.toInt) := by
  have hnamed := named_ofOpcode? hopcode
  have htext : word.operationText opcode =
      s!"{opcode.mnemonic} {word.rt.text}, {word.rs.text}, {word.immediate.toInt.repr}" := by
    cases opcode <;> cases hopcode <;> rfl
  rw [htext, toList_printed₃]
  split
  · next hpos =>
    exact parse_printed_of_takes hnamed (by simp) (by simp [solid_text, solid_immediate])
      (.unsignedImmediate word.rt.spelled_text word.rs.spelled_text (word.unsigned_immediate hpos))
  · next hneg =>
    have hrefused : unsigned word.immediate.toInt.repr.toList =
        .error (.unsignedRange word.immediate.toInt) := by
      unfold unsigned
      rw [integer?_eq_some_iff.mpr word.literal_immediate]
      exact if_neg fun h => hneg h.1
    rw [parse_printed hnamed (by simp) (by simp [solid_text, solid_immediate]), Operation.read,
      register_eq_ok_iff.mpr word.rt.spelled_text, register_eq_ok_iff.mpr word.rs.spelled_text,
      hrefused]
    rfl

/-- An offset and its base register, as they are printed. -/
def placeText : String :=
  s!"{word.immediate.toInt.repr}({word.rs.text})"

theorem toList_placeText : word.placeText.toList =
    word.immediate.toInt.repr.toList ++ '(' :: (word.rs.text.toList ++ [')']) := by
  simp [placeText, toString]

theorem indexed_placeText : Indexed word.placeText.toList word.immediate word.rs := by
  have hoffset := trim_eq_iff.mp word.solid_immediate.tight.trim_eq
  have hbase := trim_eq_iff.mp (solid_text word.rs).tight.trim_eq
  rw [toList_placeText]
  exact .intro hoffset (.written word.signed_immediate) hbase word.rs.spelled_text

theorem solid_placeText : Solid word.placeText.toList := by
  have hopen : Solid ['('] := by decide
  have hclose : Solid [')'] := by decide
  rw [toList_placeText]
  exact word.solid_immediate.append (hopen.append ((solid_text word.rs).append hclose))

/-- The text of a load or a store is read as the word with its fields. -/
theorem parse_memoryText (hopcode : ofOpcode? opcode = some (.memory opcode)) :
    parse (word.operationText opcode).toList =
      .ok ⟨[], some (.word (encodeImmediate opcode word.rs word.rt word.immediate))⟩ := by
  have htext : word.operationText opcode =
      s!"{opcode.mnemonic} {word.rt.text}, {word.placeText}" := by
    cases opcode <;> cases hopcode <;>
      simp [operationText, placeText, toString, String.append_assoc]
  rw [htext, toList_printed₂]
  exact parse_printed_of_takes (named_ofOpcode? hopcode) (by simp)
    (by simp [solid_text, solid_placeText])
    (.memory word.rt.spelled_text word.indexed_placeText)

/-! ## Disassembly -/

theorem disassembly_of_opcode? {word : Word} (hne : word ≠ 0) (h : word.opcode? = some opcode) :
    word.disassembly = word.operationText opcode := by
  rw [disassembly, if_neg hne, h]

/-- The zero word is a register operation by its opcode. -/
theorem disassembly_of_ne_special {word : Word} (h : word.opcode? = some opcode)
    (hspecial : opcode ≠ .special) : word.disassembly = word.operationText opcode := by
  refine disassembly_of_opcode? ?_ h
  rintro rfl
  exact hspecial (Option.some.inj h).symm

/-- The disassembly of a register operation is read as the word with its fields. -/
theorem parse_disassembly_register {word : Word} {funct : Funct}
    (hopcode : word.opcode? = some .special) (hfunct : word.funct? = some funct) :
    parse word.disassembly.toList =
      .ok ⟨[], some (.word (encodeRegister funct word.rd word.rs word.rt))⟩ := by
  have hne : word ≠ 0 := by
    rintro rfl
    cases hfunct
  have htext : word.operationText .special = word.registerText funct := by
    rw [operationText, hfunct]
    rfl
  rw [disassembly_of_opcode? hne hopcode, htext]
  exact word.parse_registerText funct

/-- The disassembly of an operation with an immediate that is extended with its sign is read as the
same word. -/
theorem parse_disassembly_signed {word : Word} (h : word.opcode? = some opcode)
    (hopcode : ofOpcode? opcode = some (.signedImmediate opcode)) :
    parse word.disassembly.toList = .ok ⟨[], some (.word word)⟩ := by
  have hspecial : opcode ≠ .special := by rintro rfl; cases hopcode
  rw [disassembly_of_ne_special h hspecial, word.parse_signedText hopcode,
    encodeImmediate_fields opcode h]

/-- The disassembly of a load or a store is read as the same word. -/
theorem parse_disassembly_memory {word : Word} (h : word.opcode? = some opcode)
    (hopcode : ofOpcode? opcode = some (.memory opcode)) :
    parse word.disassembly.toList = .ok ⟨[], some (.word word)⟩ := by
  have hspecial : opcode ≠ .special := by rintro rfl; cases hopcode
  rw [disassembly_of_ne_special h hspecial, word.parse_memoryText hopcode,
    encodeImmediate_fields opcode h]

/-- The text of a register operation as it is encoded is read as the same word. -/
theorem parse_disassembly_encodeRegister (funct : Funct) (rd rs rt : Register) :
    parse (encodeRegister funct rd rs rt).disassembly.toList =
      .ok ⟨[], some (.word (encodeRegister funct rd rs rt))⟩ := by
  have h := parse_disassembly_register (opcode?_encodeRegister funct rd rs rt)
    (funct?_encodeRegister funct rd rs rt)
  rwa [rd_encodeRegister, rs_encodeRegister, rt_encodeRegister] at h

/-- The operations that extend their immediate with zeros. -/
def zeroExtended : List Opcode :=
  [.andi, .ori, .xori]

/-- The word is of an operation that extends its immediate with zeros, and its immediate is shown
as a negative number. -/
def Misprinted : Prop :=
  (∃ opcode ∈ zeroExtended, word.opcode? = some opcode) ∧ word.immediate.toInt < 0

instance : Decidable word.Misprinted :=
  inferInstanceAs (Decidable (_ ∧ _))

theorem not_misprinted {word : Word} (h : word.opcode? = some opcode)
    (hopcode : opcode ∉ zeroExtended) : ¬word.Misprinted := by
  rintro ⟨⟨other, hmem, hother⟩, -⟩
  rw [h, Option.some.injEq] at hother
  exact hopcode (hother ▸ hmem)

/-- The disassembly of an operation with an immediate that is extended with zeros is read as the
same word, unless the immediate is shown as a negative number. -/
theorem parse_disassembly_unsigned {word : Word} (h : word.opcode? = some opcode)
    (hmem : opcode ∈ zeroExtended) :
    parse word.disassembly.toList =
      if word.Misprinted then .error (.unsignedRange word.immediate.toInt)
      else .ok ⟨[], some (.word word)⟩ := by
  have hopcode : ∀ opcode ∈ zeroExtended, opcode ≠ .special ∧
      ofOpcode? opcode = some (.unsignedImmediate opcode) := by decide
  obtain ⟨hspecial, hunsigned⟩ := hopcode opcode hmem
  rw [disassembly_of_ne_special h hspecial, word.parse_unsignedText hunsigned,
    encodeImmediate_fields opcode h]
  by_cases hneg : word.immediate.toInt < 0
  · rw [if_neg (by omega), if_pos ⟨⟨opcode, hmem, h⟩, hneg⟩]
  · rw [if_pos (by omega), if_neg fun hmis => hneg hmis.2]

end Word

namespace SourceLine

theorem parse_disassembly_zero :
    parse (Word.disassembly 0).toList = .ok ⟨[], some (.word 0)⟩ := by
  decide +kernel

/-- The disassembly of what a line asks for is read as the same word, without a label, unless it is
misprinted: then it is refused for the number that it shows. -/
theorem disassembly_readBack {line : List Char} {labels : List String} {word : Word}
    (hparse : parse line = .ok ⟨labels, some (.word word)⟩) (hdatum : (written line).1 ≠ ".word") :
    parse word.disassembly.toList =
      if word.Misprinted then .error (.unsignedRange word.immediate.toInt)
      else .ok ⟨[], some (.word word)⟩ := by
  obtain ⟨operation, hnamed, htakes⟩ := read_of_parse hparse
  generalize (written line).1 = mnemonic at hnamed hdatum
  generalize (written line).2 = operands at htakes
  cases htakes with
  | nop =>
      have hopcode : (0 : Word).opcode? = some .special := by decide
      rw [if_neg (Word.not_misprinted hopcode (by decide)), parse_disassembly_zero]
  | datum =>
      cases hnamed
      exact absurd rfl hdatum
  | @arithmetic funct _ _ _ rd rs rt =>
      have hopcode := opcode?_encodeRegister funct rd rs rt
      rw [if_neg (Word.not_misprinted hopcode (by decide)), Word.parse_disassembly_encodeRegister]
  | @shift funct _ _ _ rd rs rt =>
      have hopcode := opcode?_encodeRegister funct rd rs rt
      rw [if_neg (Word.not_misprinted hopcode (by decide)), Word.parse_disassembly_encodeRegister]
  | @signedImmediate opcode _ _ _ rs rt field =>
      cases hnamed
      have hopcode := opcode?_encodeImmediate .addiu rs rt field
      rw [if_neg (Word.not_misprinted hopcode (by decide)),
        Word.parse_disassembly_signed hopcode rfl]
  | @unsignedImmediate opcode _ _ _ rs rt field =>
      cases hnamed with
      | unsignedImmediate hmem =>
          exact Word.parse_disassembly_unsigned (opcode?_encodeImmediate opcode rs rt field) hmem
  | @memory opcode _ _ rs rt field =>
      cases hnamed with
      | memory hmem =>
          have hopcode := opcode?_encodeImmediate opcode rs rt field
          have hread : ∀ opcode ∈ [Opcode.lw, .sw], opcode ∉ Word.zeroExtended ∧
              Operation.ofOpcode? opcode = some (.memory opcode) := by decide
          obtain ⟨hnot, hmemory⟩ := hread opcode hmem
          rw [if_neg (Word.not_misprinted hopcode hnot),
            Word.parse_disassembly_memory hopcode hmemory]

/-- A load is read back. -/
theorem disassembly_readBack_load :
    let line := "lw $t0, 8($sp)".toList
    let word : Word := 0x8FA80008
    parse line = .ok ⟨[], some (.word word)⟩ ∧ (written line).1 ≠ ".word" ∧
      parse word.disassembly.toList =
        if word.Misprinted then .error (.unsignedRange word.immediate.toInt)
        else .ok ⟨[], some (.word word)⟩ := by
  intro line word
  have hparse : parse line = .ok ⟨[], some (.word word)⟩ := by decide +kernel
  have hdatum : (written line).1 ≠ ".word" := by decide +kernel
  exact ⟨hparse, hdatum, disassembly_readBack hparse hdatum⟩

/-- A mask of all ones is accepted, shown as `-1`, and not read back. -/
theorem disassembly_refused_mask :
    let line := "ori $t0, $zero, 0xffff".toList
    let word : Word := 0x3408FFFF
    parse line = .ok ⟨[], some (.word word)⟩ ∧ (written line).1 ≠ ".word" ∧
      word.disassembly = "ori $t0, $zero, -1" ∧
      parse word.disassembly.toList = .error (.unsignedRange (-1)) := by
  decide +kernel

end SourceLine

end Backpatch
