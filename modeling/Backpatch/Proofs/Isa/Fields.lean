import Backpatch.Proofs.Isa.Encoding

/-!
# Words and their fields

Encoding and reading fields undo each other. An encoder sets each field at its own bits
(`encodeImmediate_eq_or`, `encodeRegister_eq_or`, `encodeJump_eq`), and a word is what is encoded
from the fields that are read from it, as far as they reach.

* `Word.encodeImmediate_eq_iff`: an opcode, two registers and an immediate are the fields of one
  word, whatever the opcode is.
* `Word.encodeRegister_eq_iff`: a register operation and three registers are the fields of 32 words,
  which differ in the five bits between `rd` and the function code. The encoder leaves them zero.
* `Word.encodeJump_or_target`: an opcode and a target are the fields of one word.
-/

namespace Backpatch

/-! ## Fields as shifted bits -/

/-- Bits in front of others are shifted past them. -/
theorem setWidth_append_eq_or {m n : Nat} (high : BitVec m) (low : BitVec n) (width : Nat) :
    (high ++ low).setWidth width = high.setWidth width <<< n ||| low.setWidth width := by
  apply BitVec.eq_of_getLsbD_eq
  intro i hi
  simp only [BitVec.getLsbD_setWidth, BitVec.getLsbD_append, BitVec.getLsbD_or,
    BitVec.getLsbD_shiftLeft]
  by_cases hlow : i < n
  · simp [hlow, hi]
  · have hhigh : i - n < width := by omega
    have hnone : low.getLsbD i = false := BitVec.getLsbD_of_ge low i (by omega)
    simp [hlow, hi, hhigh, hnone]

theorem encodeImmediate_eq_or (opcode : Opcode) (rs rt : Register) (immediate : BitVec 16) :
    encodeImmediate opcode rs rt immediate =
      opcode.code.setWidth 32 <<< 26 ||| rs.number.setWidth 32 <<< 21 |||
        rt.number.setWidth 32 <<< 16 ||| immediate.setWidth 32 := by
  rw [← BitVec.setWidth_eq (encodeImmediate opcode rs rt immediate)]
  unfold encodeImmediate
  simp only [setWidth_append_eq_or, BitVec.shiftLeft_or_distrib, ← BitVec.shiftLeft_add]

/-- The opcode of the register operations is zero, and sets no bit. -/
theorem encodeRegister_eq_or (funct : Funct) (rd rs rt : Register) :
    encodeRegister funct rd rs rt =
      rs.number.setWidth 32 <<< 21 ||| rt.number.setWidth 32 <<< 16 |||
        rd.number.setWidth 32 <<< 11 ||| funct.code.setWidth 32 := by
  have hspecial : Opcode.special.code = 0#6 := rfl
  rw [← BitVec.setWidth_eq (encodeRegister funct rd rs rt)]
  unfold encodeRegister
  simp only [hspecial, setWidth_append_eq_or, BitVec.shiftLeft_or_distrib, ← BitVec.shiftLeft_add,
    BitVec.setWidth_zero, BitVec.zero_shiftLeft, BitVec.zero_or, BitVec.or_zero]

theorem encodeJump_eq (opcode : Opcode) : encodeJump opcode = opcode.code.setWidth 32 <<< 26 := by
  rw [← BitVec.setWidth_eq (encodeJump opcode)]
  unfold encodeJump
  rw [setWidth_append_eq_or, BitVec.setWidth_zero, BitVec.or_zero]

namespace Word

/-! ## Instructions with an immediate -/

/-- What is read from a word as an instruction with an immediate, which is a number with a sign. -/
structure HasImmediate (word : Word) (opcode : Opcode) (rs rt : Register) (value : Int) :
    Prop where
  opcode : word.opcode? = some opcode
  rs : word.rs = rs
  rt : word.rt = rt
  immediate : word.immediate.toInt = value

section Immediate

variable {word : Word} {opcode : Opcode} {rs rt : Register}

theorem hasImmediate_encodeImmediate (opcode : Opcode) (rs rt : Register)
    (immediate : BitVec 16) :
    (encodeImmediate opcode rs rt immediate).HasImmediate opcode rs rt immediate.toInt where
  opcode := opcode?_encodeImmediate opcode rs rt immediate
  rs := rs_encodeImmediate opcode rs rt immediate
  rt := rt_encodeImmediate opcode rs rt immediate
  immediate := by rw [immediate_encodeImmediate]

/-- The fields that are read from a word are its only ones. -/
theorem HasImmediate.unique {opcode' : Opcode} {rs' rt' : Register} {value value' : Int}
    (h : word.HasImmediate opcode rs rt value) (h' : word.HasImmediate opcode' rs' rt' value') :
    opcode = opcode' ∧ rs = rs' ∧ rt = rt' ∧ value = value' := by
  have hopcode : some opcode = some opcode' := h.opcode.symm.trans h'.opcode
  exact ⟨Option.some.inj hopcode, h.rs.symm.trans h'.rs, h.rt.symm.trans h'.rt,
    h.immediate.symm.trans h'.immediate⟩

/-- Only one word has given fields, and that is the encoded one. -/
theorem encodeImmediate_eq_iff {immediate : BitVec 16} :
    encodeImmediate opcode rs rt immediate = word ↔
      word.HasImmediate opcode rs rt immediate.toInt := by
  constructor
  · rintro rfl
    exact hasImmediate_encodeImmediate opcode rs rt immediate
  · rintro ⟨hopcode, rfl, rfl, hvalue⟩
    rw [← BitVec.eq_of_toInt_eq hvalue]
    exact encodeImmediate_fields opcode hopcode

end Immediate

/-! ## Register operations -/

section Unused

variable (word : Word)

/-- A word, cut around the five bits above the function code. -/
theorem append_unused : word.extractLsb' 11 21 ++ word.extractLsb' 6 5 ++ word.extractLsb' 0 6 =
    word := by
  rw [BitVec.extractLsb'_append_extractLsb'_eq_extractLsb' (by decide),
    BitVec.extractLsb'_append_extractLsb'_eq_extractLsb' (by decide)]
  exact BitVec.extractLsb'_eq_self

theorem and_unused : word &&& 0xFFFFF83F =
    word.extractLsb' 11 21 ++ 0#5 ++ word.extractLsb' 0 6 := by
  have hmask : (0xFFFFF83F : Word) = BitVec.allOnes 21 ++ 0#5 ++ BitVec.allOnes 6 := by decide
  conv => lhs; rw [← word.append_unused, hmask]
  rw [BitVec.and_append, BitVec.and_append, BitVec.and_allOnes, BitVec.and_allOnes,
    BitVec.and_zero]

/-- Clearing the five bits changes a word unless they are zero. -/
theorem and_unused_eq_iff : word &&& 0xFFFFF83F = word ↔ word.extractLsb' 6 5 = 0 := by
  rw [and_unused]
  constructor
  · intro h
    have hbits := congrArg (BitVec.extractLsb' 6 5) h
    rw [BitVec.extractLsb'_append_eq_of_le (by decide)] at hbits
    rw [← hbits]
    exact BitVec.extractLsb'_append_eq_right
  · intro h
    conv => rhs; rw [← word.append_unused, h]
    rfl

/-- A register operation put together again from its fields has the bits between them cleared. -/
theorem encodeRegister_fields {word : Word} {funct : Funct} (hopcode : word.opcode? = some .special)
    (hfunct : word.funct? = some funct) :
    encodeRegister funct word.rd word.rs word.rt = word &&& 0xFFFFF83F := by
  have hhigh : Opcode.special.code = word.extractLsb' 26 6 := Opcode.ofCode?_eq_some_iff.mp hopcode
  have hlow : funct.code = word.extractLsb' 0 6 := Funct.ofCode?_eq_some_iff.mp hfunct
  unfold encodeRegister
  rw [hhigh, hlow, Word.rs, Word.rt, Word.rd, and_unused,
    BitVec.extractLsb'_append_extractLsb'_eq_extractLsb' (by decide),
    BitVec.extractLsb'_append_extractLsb'_eq_extractLsb' (by decide),
    BitVec.extractLsb'_append_extractLsb'_eq_extractLsb' (by decide)]

end Unused

/-- What is read from a word as a register operation. -/
structure HasRegisters (word : Word) (funct : Funct) (rd rs rt : Register) : Prop where
  opcode : word.opcode? = some .special
  funct : word.funct? = some funct
  rd : word.rd = rd
  rs : word.rs = rs
  rt : word.rt = rt

section Register

variable {word : Word} {funct : Funct} {rd rs rt : Register}

theorem hasRegisters_encodeRegister (funct : Funct) (rd rs rt : Register) :
    (encodeRegister funct rd rs rt).HasRegisters funct rd rs rt where
  opcode := opcode?_encodeRegister funct rd rs rt
  funct := funct?_encodeRegister funct rd rs rt
  rd := rd_encodeRegister funct rd rs rt
  rs := rs_encodeRegister funct rd rs rt
  rt := rt_encodeRegister funct rd rs rt

theorem HasRegisters.unique {funct' : Funct} {rd' rs' rt' : Register}
    (h : word.HasRegisters funct rd rs rt) (h' : word.HasRegisters funct' rd' rs' rt') :
    funct = funct' ∧ rd = rd' ∧ rs = rs' ∧ rt = rt' := by
  have hfunct : some funct = some funct' := h.funct.symm.trans h'.funct
  exact ⟨Option.some.inj hfunct, h.rd.symm.trans h'.rd, h.rs.symm.trans h'.rs,
    h.rt.symm.trans h'.rt⟩

/-- Of the words with given fields, the encoded one has no bit set between them. -/
theorem encodeRegister_eq_iff :
    encodeRegister funct rd rs rt = word ↔
      word.HasRegisters funct rd rs rt ∧ word.extractLsb' 6 5 = 0 := by
  constructor
  · rintro rfl
    refine ⟨hasRegisters_encodeRegister funct rd rs rt, ?_⟩
    unfold encodeRegister
    rw [BitVec.extractLsb'_append_eq_of_le (by decide)]
    exact BitVec.extractLsb'_append_eq_right
  · rintro ⟨⟨hopcode, hfunct, rfl, rfl, rfl⟩, hunused⟩
    rw [encodeRegister_fields hopcode hfunct, and_unused_eq_iff, hunused]

end Register

/-! ## Jumps -/

/-- The target is the index of a word, and without its two low bits it is that index again. -/
theorem target_ushiftRight (word : Word) :
    word.target >>> 2 = (word.extractLsb' 0 26).setWidth 32 := by
  have hindex := (word.extractLsb' 0 26).isLt
  apply BitVec.eq_of_toNat_eq
  rw [BitVec.toNat_setWidth, Nat.mod_eq_of_lt (by omega), target, BitVec.toNat_ushiftRight,
    BitVec.toNat_append, BitVec.toNat_append]
  simp

/-- A word is put together from its opcode and its target. -/
theorem encodeJump_or_target {word : Word} {opcode : Opcode} (h : word.opcode? = some opcode) :
    encodeJump opcode ||| word.target >>> 2 = word := by
  have hcode : opcode.code = word.extractLsb' 26 6 := Opcode.ofCode?_eq_some_iff.mp h
  rw [target_ushiftRight, encodeJump_or, hcode,
    BitVec.extractLsb'_append_extractLsb'_eq_extractLsb' (by decide)]
  exact BitVec.extractLsb'_eq_self

/-! ## Encoders and readers -/

/-- Encoding and reading undo each other. The fields of an encoded word are those that were encoded,
so that no two rows of fields have the same word. Conversely a word with a known opcode is encoded
from its fields, and a jump from its opcode and its target; a register operation is encoded from its
fields exactly if the five bits between them are zero. Each field is set at its own bits. -/
theorem encoders_invert_readers :
    (∀ opcode rs rt immediate,
      (encodeImmediate opcode rs rt immediate).HasImmediate opcode rs rt immediate.toInt) ∧
    (∀ funct rd rs rt, (encodeRegister funct rd rs rt).HasRegisters funct rd rs rt) ∧
    (∀ opcode rs rt immediate opcode' rs' rt' immediate',
      encodeImmediate opcode rs rt immediate = encodeImmediate opcode' rs' rt' immediate' →
        opcode = opcode' ∧ rs = rs' ∧ rt = rt' ∧ immediate = immediate') ∧
    (∀ funct rd rs rt funct' rd' rs' rt',
      encodeRegister funct rd rs rt = encodeRegister funct' rd' rs' rt' →
        funct = funct' ∧ rd = rd' ∧ rs = rs' ∧ rt = rt') ∧
    (∀ (word : Word) opcode, word.opcode? = some opcode →
      encodeImmediate opcode word.rs word.rt word.immediate = word) ∧
    (∀ (word : Word) (opcode : Opcode), opcode.isJump = true → word.opcode? = some opcode →
      encodeJump opcode ||| word.target >>> 2 = word) ∧
    (∀ (word : Word) funct, word.opcode? = some .special → word.funct? = some funct →
      (encodeRegister funct word.rd word.rs word.rt = word ↔ word.extractLsb' 6 5 = 0)) ∧
    (∀ opcode rs rt immediate, encodeImmediate opcode rs rt immediate =
      opcode.code.setWidth 32 <<< 26 ||| rs.number.setWidth 32 <<< 21 |||
        rt.number.setWidth 32 <<< 16 ||| immediate.setWidth 32) ∧
    (∀ funct rd rs rt, encodeRegister funct rd rs rt =
      rs.number.setWidth 32 <<< 21 ||| rt.number.setWidth 32 <<< 16 |||
        rd.number.setWidth 32 <<< 11 ||| funct.code.setWidth 32) ∧
    ∀ opcode, encodeJump opcode = opcode.code.setWidth 32 <<< 26 := by
  refine ⟨hasImmediate_encodeImmediate, hasRegisters_encodeRegister, ?immediateInjective,
    ?registerInjective, ?immediate, ?jump, ?register, encodeImmediate_eq_or, encodeRegister_eq_or,
    encodeJump_eq⟩
  case immediateInjective =>
    intro opcode rs rt immediate opcode' rs' rt' immediate' h
    obtain ⟨hopcode, hrs, hrt, hvalue⟩ :=
      (encodeImmediate_eq_iff.mp h).unique (hasImmediate_encodeImmediate ..)
    exact ⟨hopcode, hrs, hrt, BitVec.eq_of_toInt_eq hvalue⟩
  case registerInjective =>
    intro funct rd rs rt funct' rd' rs' rt' h
    exact (encodeRegister_eq_iff.mp h).1.unique (hasRegisters_encodeRegister ..)
  case immediate =>
    intro word opcode hopcode
    exact encodeImmediate_eq_iff.mpr ⟨hopcode, rfl, rfl, rfl⟩
  case jump =>
    intro word opcode _ hopcode
    exact encodeJump_or_target hopcode
  case register =>
    intro word funct hopcode hfunct
    have hfields : word.HasRegisters funct word.rd word.rs word.rt :=
      ⟨hopcode, hfunct, rfl, rfl, rfl⟩
    rw [encodeRegister_eq_iff]
    exact and_iff_right hfields

/-- A register operation with bits set between its fields, which is not encoded from them, a load
with a negative offset and a jump. -/
theorem encoders_invert_readers_unused :
    let addition : Word := 0x012A4FE1
    let load : Word := 0x8FA8FFFC
    let jump : Word := 0x0C100007
    addition.opcode? = some .special ∧ addition.funct? = some .addu ∧
      encodeRegister .addu addition.rd addition.rs addition.rt ≠ addition ∧
      load.opcode? = some .lw ∧ encodeImmediate .lw load.rs load.rt load.immediate = load ∧
      jump.opcode? = some .jal ∧ encodeJump .jal ||| jump.target >>> 2 = jump := by
  intro addition load jump
  obtain ⟨-, -, -, -, himmediate, hjump, hregister, -⟩ := encoders_invert_readers
  have hspecial : addition.opcode? = some .special := by decide
  have hfunct : addition.funct? = some .addu := by decide
  have hload : load.opcode? = some .lw := by decide
  have hjal : jump.opcode? = some .jal := by decide
  have hunused : addition.extractLsb' 6 5 ≠ 0 := by decide
  exact ⟨hspecial, hfunct, mt (hregister addition .addu hspecial hfunct).mp hunused, hload,
    himmediate load .lw hload, hjal, hjump jump .jal rfl hjal⟩

end Word

end Backpatch
