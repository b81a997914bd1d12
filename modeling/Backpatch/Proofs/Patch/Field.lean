import Backpatch.Patch.Field
import Backpatch.Proofs.Isa.Encoding
import Mathlib.Algebra.Order.Ring.Int

/-!
# Where a target field leads

The fields of jumps and branches, first as masks and shifts, then as seen by a reader of the
finished word.

* `jumpField_eq`, `branchField_eq`: a field is the shifted address or distance under a mask.
* `FixupKind.opcode_or_field`, `registers_or_branchField`: what stays when a field is set.
* `Word.branchTarget`, `Word.jumpTarget`: the place where a finished word goes.
* `branchTarget_eq`, `jumpTarget_eq_target`: within reach, that place is the target.
* `branchTarget_emod`, `jumpTarget_mod`: out of reach, they agree in the bits that the field has.
-/

namespace Backpatch

/-- The place where a word goes, read as a branch at `site`. -/
def Word.branchTarget (word : Word) (site : Address) : Int :=
  site.toNat + wordSize + wordSize * word.immediate.toInt

/-- The place where a word goes, read as a jump at `site`. -/
def Word.jumpTarget (word : Word) (site : Address) : Address :=
  ((site + BitVec.ofNat 32 wordSize) &&& 0xF0000000) ||| word.target

/-! ## Fields as masks -/

/-- A number under a mask of ones is its remainder. -/
theorem and_mask_eq_setWidth {n : Nat} (word : Word) (mask : Word)
    (hmask : mask.toNat = 2 ^ n - 1) : word &&& mask = (word.setWidth n).setWidth 32 := by
  apply BitVec.eq_of_toNat_eq
  have hle : word.toNat % 2 ^ n ≤ word.toNat := Nat.mod_le _ _
  rw [BitVec.toNat_and, hmask, Nat.and_two_pow_sub_one_eq_mod, BitVec.toNat_setWidth,
    BitVec.toNat_setWidth, Nat.mod_eq_of_lt (Nat.lt_of_le_of_lt hle word.isLt)]

theorem jumpField_eq (target : Address) : jumpField target = (target >>> 2) &&& 0x3FFFFFF := by
  rw [and_mask_eq_setWidth (n := 26) _ _ rfl]
  rfl

/-- The low bits of a number in two's complement do not depend on the width. -/
theorem setWidth_ofInt (value : Int) :
    (BitVec.ofInt 32 value).setWidth 16 = BitVec.ofInt 16 value := by
  apply BitVec.eq_of_toNat_eq
  rw [BitVec.toNat_setWidth, BitVec.toNat_ofInt, BitVec.toNat_ofInt]
  omega

theorem branchField_eq (target site : Address) :
    branchField target site =
      BitVec.ofInt 32 (((target.toNat : Int) - site.toNat - wordSize) >>> (2 : Nat)) &&&
        0xFFFF := by
  rw [and_mask_eq_setWidth (n := 16) _ _ rfl, setWidth_ofInt, Int.shiftRight_eq_div_pow]
  rfl

/-! ## What a field leaves as it is -/

/-- The bits above a field stay. -/
theorem extractLsb'_or_setWidth {n first : Nat} (word : Word) (field : BitVec n) (h : n ≤ first)
    (count : Nat) :
    (word ||| field.setWidth 32).extractLsb' first count = word.extractLsb' first count := by
  apply BitVec.eq_of_getLsbD_eq
  intro i hi
  have hfield : field.getLsbD (first + i) = false :=
    BitVec.getLsbD_of_ge _ _ (Nat.le_trans h (Nat.le_add_right _ _))
  simp [BitVec.getLsbD_extractLsb', BitVec.getLsbD_or, BitVec.getLsbD_setWidth, hfield]

/-- No field changes the opcode. -/
theorem FixupKind.opcode_or_field (kind : FixupKind) (word : Word) (target site : Address) :
    (word ||| kind.field target site).extractLsb' 26 6 = word.extractLsb' 26 6 := by
  rcases kind with _ | _
  · exact extractLsb'_or_setWidth word _ (by decide) 6
  · exact extractLsb'_or_setWidth word _ (by decide) 6

/-- The field of a branch leaves the registers as they are. -/
theorem registers_or_branchField (word : Word) (target site : Address) :
    (word ||| branchField target site).extractLsb' 16 10 = word.extractLsb' 16 10 :=
  extractLsb'_or_setWidth word _ (by decide) 10

/-! ## Branches -/

section Branch

variable {target site : Address} (opcode : Opcode) (rs rt : Register)

/-- Between aligned addresses the displacement is exact. -/
theorem wordSize_mul_displacement (htarget : IsAligned target) (hsite : IsAligned site) :
    wordSize * displacement target site = (target.toNat : Int) - site.toNat - wordSize := by
  unfold IsAligned at htarget hsite
  unfold displacement
  simp only [wordSize] at htarget hsite ⊢
  omega

theorem encodeImmediate_or_branchField :
    encodeImmediate opcode rs rt 0 ||| branchField target site =
      encodeImmediate opcode rs rt (BitVec.ofInt 16 (displacement target site)) :=
  encodeImmediate_or _ _ _ _

/-- A branch whose displacement fits goes to its target. -/
theorem branchTarget_eq (htarget : IsAligned target) (hsite : IsAligned site)
    (hfits : DisplacementFits (displacement target site)) :
    (encodeImmediate opcode rs rt 0 ||| branchField target site).branchTarget site =
      target.toNat := by
  have hexact := wordSize_mul_displacement htarget hsite
  have hvalue : (BitVec.ofInt 16 (displacement target site)).toInt = displacement target site := by
    obtain ⟨hlow, hhigh⟩ := hfits
    rw [BitVec.toInt_ofInt]
    exact Int.bmod_eq_of_le (by omega) (by omega)
  rw [encodeImmediate_or_branchField, Word.branchTarget, immediate_encodeImmediate, hvalue]
  omega

/-- Any branch goes to its target modulo the span of the field. -/
theorem branchTarget_emod (htarget : IsAligned target) (hsite : IsAligned site) :
    (encodeImmediate opcode rs rt 0 ||| branchField target site).branchTarget site % 2 ^ 18 =
      target.toNat % 2 ^ 18 := by
  have hexact := wordSize_mul_displacement htarget hsite
  have hvalue := Int.bmod_add_bdiv (displacement target site) (2 ^ 16)
  rw [encodeImmediate_or_branchField, Word.branchTarget, immediate_encodeImmediate,
    BitVec.toInt_ofInt]
  simp only [wordSize] at hexact ⊢
  omega

end Branch

/-! ## Jumps -/

section Jump

variable {target site : Address} (opcode : Opcode)

/-- The high four bits of an address under the mask of regions. -/
theorem and_regionMask (address : Address) :
    address &&& 0xF0000000 = address.extractLsb' 28 4 ++ 0#28 := by
  have hmask : (0xF0000000 : Address) = BitVec.allOnes 4 ++ 0#28 := by decide
  have haddress : address.extractLsb' 28 4 ++ address.extractLsb' 0 28 = address :=
    BitVec.extractLsb'_append_extractLsb'
  rw [← haddress, hmask, BitVec.and_append, BitVec.and_allOnes, BitVec.and_zero, haddress]

/-- A jump keeps the region of the next instruction, and takes the rest from its field. -/
theorem jumpTarget_eq :
    (encodeJump opcode ||| jumpField target).jumpTarget site =
      (site + BitVec.ofNat 32 wordSize).extractLsb' 28 4 ++ (target.extractLsb' 2 26 ++ 0#2) := by
  have hrest : (encodeJump opcode ||| jumpField target).target =
      0#4 ++ (target.extractLsb' 2 26 ++ 0#2) := by
    unfold jumpField
    rw [target_encodeJump_or]
    exact BitVec.append_assoc
  rw [Word.jumpTarget, and_regionMask, hrest]
  refine BitVec.or_append.trans ?_
  rw [BitVec.or_zero, BitVec.zero_or]

theorem extractLsb'_of_isAligned (htarget : IsAligned target) : target.extractLsb' 0 2 = 0#2 := by
  apply BitVec.eq_of_toNat_eq
  unfold IsAligned at htarget
  simpa [BitVec.extractLsb'_toNat] using htarget

/-- An aligned address is its region, its word within the region, and two empty bits. -/
theorem append_of_isAligned (htarget : IsAligned target) :
    target.extractLsb' 28 4 ++ (target.extractLsb' 2 26 ++ 0#2) = target := by
  rw [← extractLsb'_of_isAligned htarget]
  have hlow : target.extractLsb' 2 26 ++ target.extractLsb' 0 2 = target.extractLsb' 0 28 :=
    BitVec.extractLsb'_append_extractLsb'_eq_extractLsb' rfl
  rw [hlow]
  exact BitVec.extractLsb'_append_extractLsb'

/-- A jump within its region goes to its target. -/
theorem jumpTarget_eq_target (htarget : IsAligned target) (hreach : JumpReaches target site) :
    (encodeJump opcode ||| jumpField target).jumpTarget site = target := by
  unfold JumpReaches at hreach
  rw [jumpTarget_eq, hreach, append_of_isAligned htarget]

/-- Any jump goes to its target modulo the size of a region. -/
theorem jumpTarget_mod (htarget : IsAligned target) :
    ((encodeJump opcode ||| jumpField target).jumpTarget site).toNat % 2 ^ 28 =
      target.toNat % 2 ^ 28 := by
  have hlow : ∀ region : BitVec 4,
      (region ++ (target.extractLsb' 2 26 ++ 0#2)).toNat % 2 ^ 28 =
        (target.extractLsb' 2 26 ++ 0#2).toNat := by
    intro region
    rw [← BitVec.toNat_setWidth, BitVec.setWidth_append_eq_right]
  rw [jumpTarget_eq, hlow, ← hlow (target.extractLsb' 28 4), append_of_isAligned htarget]

end Jump

end Backpatch
