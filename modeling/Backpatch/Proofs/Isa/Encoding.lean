import Backpatch.Isa.Encoding

/-!
# Encoded words read back

The fields of an encoded word are what was encoded, and a word with a known opcode is what is
encoded from its fields (`encodeImmediate_fields`). Setting the bits of a target field that is still
empty fills it in: `encodeImmediate_or` and `encodeJump_or`.
-/

namespace Backpatch

/-- Bits of the lower part that are still empty are filled in by setting them. -/
theorem append_zero_or {m n : Nat} (high : BitVec m) (low : BitVec n) :
    (high ++ 0#n) ||| low.setWidth (m + n) = high ++ low := by
  have hlow : low.setWidth (m + n) = 0#m ++ low := by
    rw [BitVec.setWidth_eq_append (Nat.le_add_left n m)]
    apply BitVec.eq_of_toNat_eq
    simp
  rw [hlow, BitVec.or_append, BitVec.or_zero, BitVec.zero_or]

/-! ## Instructions with an immediate -/

section Immediate

variable (opcode : Opcode) (rs rt : Register) (immediate : BitVec 16)

theorem opcode?_encodeImmediate :
    (encodeImmediate opcode rs rt immediate).opcode? = some opcode := by
  have hcode : (encodeImmediate opcode rs rt immediate).extractLsb' 26 6 = opcode.code := by
    unfold encodeImmediate
    rw [BitVec.extractLsb'_append_eq_of_le (by decide),
      BitVec.extractLsb'_append_eq_of_le (by decide)]
    exact BitVec.extractLsb'_append_eq_left
  rw [Word.opcode?, hcode, Opcode.ofCode?_code]

theorem rs_encodeImmediate : (encodeImmediate opcode rs rt immediate).rs = rs := by
  have hnumber : (encodeImmediate opcode rs rt immediate).extractLsb' 21 5 = rs.number := by
    unfold encodeImmediate
    rw [BitVec.extractLsb'_append_eq_of_le (by decide),
      BitVec.extractLsb'_append_eq_of_le (by decide)]
    exact BitVec.extractLsb'_append_eq_right
  rw [Word.rs, hnumber]

theorem rt_encodeImmediate : (encodeImmediate opcode rs rt immediate).rt = rt := by
  have hnumber : (encodeImmediate opcode rs rt immediate).extractLsb' 16 5 = rt.number := by
    unfold encodeImmediate
    rw [BitVec.extractLsb'_append_eq_of_le (by decide)]
    exact BitVec.extractLsb'_append_eq_right
  rw [Word.rt, hnumber]

theorem immediate_encodeImmediate :
    (encodeImmediate opcode rs rt immediate).immediate = immediate :=
  BitVec.extractLsb'_append_eq_right

/-- Every word with a known opcode is put together from its opcode and the fields behind it. -/
theorem encodeImmediate_fields {word : Word} (h : word.opcode? = some opcode) :
    encodeImmediate opcode word.rs word.rt word.immediate = word := by
  have hcode : opcode.code = word.extractLsb' 26 6 := Opcode.ofCode?_eq_some_iff.mp h
  unfold encodeImmediate
  rw [hcode, Word.rs, Word.rt, Word.immediate,
    BitVec.extractLsb'_append_extractLsb'_eq_extractLsb' (by decide),
    BitVec.extractLsb'_append_extractLsb'_eq_extractLsb' (by decide),
    BitVec.extractLsb'_append_extractLsb'_eq_extractLsb' (by decide)]
  exact BitVec.extractLsb'_eq_self

/-- An empty immediate is filled in by setting its bits. -/
theorem encodeImmediate_or :
    encodeImmediate opcode rs rt 0 ||| immediate.setWidth 32 =
      encodeImmediate opcode rs rt immediate :=
  append_zero_or _ _

end Immediate

/-! ## Register operations -/

section Register

variable (funct : Funct) (rd rs rt : Register)

theorem opcode?_encodeRegister :
    (encodeRegister funct rd rs rt).opcode? = some .special := by
  have hcode : (encodeRegister funct rd rs rt).extractLsb' 26 6 = Opcode.special.code := by
    unfold encodeRegister
    rw [BitVec.extractLsb'_append_eq_of_le (by decide),
      BitVec.extractLsb'_append_eq_of_le (by decide),
      BitVec.extractLsb'_append_eq_of_le (by decide),
      BitVec.extractLsb'_append_eq_of_le (by decide)]
    exact BitVec.extractLsb'_append_eq_left
  rw [Word.opcode?, hcode, Opcode.ofCode?_code]

theorem funct?_encodeRegister : (encodeRegister funct rd rs rt).funct? = some funct := by
  have hcode : (encodeRegister funct rd rs rt).extractLsb' 0 6 = funct.code :=
    BitVec.extractLsb'_append_eq_right
  rw [Word.funct?, hcode, Funct.ofCode?_code]

theorem rs_encodeRegister : (encodeRegister funct rd rs rt).rs = rs := by
  have hnumber : (encodeRegister funct rd rs rt).extractLsb' 21 5 = rs.number := by
    unfold encodeRegister
    rw [BitVec.extractLsb'_append_eq_of_le (by decide),
      BitVec.extractLsb'_append_eq_of_le (by decide),
      BitVec.extractLsb'_append_eq_of_le (by decide),
      BitVec.extractLsb'_append_eq_of_le (by decide)]
    exact BitVec.extractLsb'_append_eq_right
  rw [Word.rs, hnumber]

theorem rt_encodeRegister : (encodeRegister funct rd rs rt).rt = rt := by
  have hnumber : (encodeRegister funct rd rs rt).extractLsb' 16 5 = rt.number := by
    unfold encodeRegister
    rw [BitVec.extractLsb'_append_eq_of_le (by decide),
      BitVec.extractLsb'_append_eq_of_le (by decide),
      BitVec.extractLsb'_append_eq_of_le (by decide)]
    exact BitVec.extractLsb'_append_eq_right
  rw [Word.rt, hnumber]

theorem rd_encodeRegister : (encodeRegister funct rd rs rt).rd = rd := by
  have hnumber : (encodeRegister funct rd rs rt).extractLsb' 11 5 = rd.number := by
    unfold encodeRegister
    rw [BitVec.extractLsb'_append_eq_of_le (by decide),
      BitVec.extractLsb'_append_eq_of_le (by decide)]
    exact BitVec.extractLsb'_append_eq_right
  rw [Word.rd, hnumber]

end Register

/-! ## Jumps -/

section Jump

variable (opcode : Opcode) (index : BitVec 26)

/-- An empty target field is filled in by setting its bits. -/
theorem encodeJump_or : encodeJump opcode ||| index.setWidth 32 = opcode.code ++ index :=
  append_zero_or _ _

theorem opcode?_encodeJump_or :
    (encodeJump opcode ||| index.setWidth 32).opcode? = some opcode := by
  have hcode : (encodeJump opcode ||| index.setWidth 32).extractLsb' 26 6 = opcode.code := by
    rw [encodeJump_or]
    exact BitVec.extractLsb'_append_eq_left
  rw [Word.opcode?, hcode, Opcode.ofCode?_code]

theorem opcode?_encodeJump : (encodeJump opcode).opcode? = some opcode := by
  have hcode : (encodeJump opcode).extractLsb' 26 6 = opcode.code :=
    BitVec.extractLsb'_append_eq_left
  rw [Word.opcode?, hcode, Opcode.ofCode?_code]

theorem target_encodeJump_or :
    (encodeJump opcode ||| index.setWidth 32).target = 0#4 ++ index ++ 0#2 := by
  have hindex : (encodeJump opcode ||| index.setWidth 32).extractLsb' 0 26 = index := by
    rw [encodeJump_or]
    exact BitVec.extractLsb'_append_eq_right
  rw [Word.target, hindex]

end Jump

end Backpatch
