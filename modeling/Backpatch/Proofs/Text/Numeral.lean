import Backpatch.Text.Numeral
import Mathlib.Algebra.Order.Ring.Int

/-!
# Fixed-width digits read back

The digits that `hexDigits` writes are read as the number that they show, up to the width
(`extendBy?_hexDigits`), and as that number itself when it fits (`digitsValue?_hexDigits`). They are
lower-case digits, as many as the width says (`showsHex_hexDigits`).
-/

namespace Backpatch.Text

theorem extendBy?_hexDigits (width start value : Nat) :
    extendBy? 16 start (hexDigits width value) =
      some (16 ^ width * start + value % 16 ^ width) := by
  induction width generalizing value with
  | zero => simp [hexDigits, extendBy?, Nat.mod_one]
  | succ width ih =>
    rw [hexDigits, extendBy?_append, ih, Option.bind_some]
    have hd : value % 16 < 16 := Nat.mod_lt _ (by decide)
    have hm : value % 16 ^ (width + 1) = value % 16 + 16 * (value / 16 % 16 ^ width) := by
      rw [Nat.pow_succ, Nat.mul_comm, Nat.mod_mul]
    have hp : 16 ^ (width + 1) * start = 16 * (16 ^ width * start) := by
      rw [Nat.pow_succ, Nat.mul_comm (16 ^ width), Nat.mul_assoc]
    simp [extendBy?, digitOf?_hexDigit hd, hm, hp]
    omega

/-- Fixed-width digits are read back as the number they show. -/
theorem digitsValue?_hexDigits {width value : Nat} (hw : 0 < width) (hv : value < 16 ^ width) :
    digitsValue? 16 (hexDigits width value) = some value := by
  have hne : (hexDigits width value).isEmpty = false := by
    rw [← Bool.not_eq_true, List.isEmpty_iff_length_eq_zero, length_hexDigits]
    omega
  simp [digitsValue?, hne, extendBy?_hexDigits, Nat.mod_eq_of_lt hv]

/-! ## Columns of digits -/

/-- Lower-case hexadecimal digits of a width that show a number. -/
structure ShowsHex (width value : Nat) (digits : List Char) : Prop where
  length_eq : digits.length = width
  lower : ∀ c ∈ digits, c ∈ "0123456789abcdef".toList
  value_eq : digitsValue? 16 digits = some value

theorem mem_hexDigits {width value : Nat} {c : Char} (h : c ∈ hexDigits width value) :
    c ∈ "0123456789abcdef".toList := by
  have hdigit : ∀ value : Fin 16, hexDigit value ∈ "0123456789abcdef".toList := by decide
  induction width generalizing value with
  | zero => cases h
  | succ width ih =>
      rcases List.mem_append.mp h with hfront | hlast
      · exact ih hfront
      · rw [List.mem_singleton.mp hlast]
        exact hdigit ⟨value % 16, Nat.mod_lt _ (by decide)⟩

theorem showsHex_hexDigits {width value : Nat} (hwidth : 0 < width) (hvalue : value < 16 ^ width) :
    ShowsHex width value (hexDigits width value) :=
  ⟨length_hexDigits width value, fun _ => mem_hexDigits, digitsValue?_hexDigits hwidth hvalue⟩

/-- An address or a word fills eight digits. -/
theorem showsHex_word (word : BitVec 32) : ShowsHex 8 word.toNat (hexDigits 8 word.toNat) :=
  showsHex_hexDigits (by decide) word.isLt

end Backpatch.Text
