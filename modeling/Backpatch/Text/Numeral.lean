/-!
# Integer literals and fixed-width numbers

An integer literal is an optional `-`, an optional mark of its base (`0x`, `0b`, in either case)
and at least one digit of that base. Its magnitude has to stay below `2 ^ 63`; that is the only
limit on its length, so leading zeros are harmless. A `+` is no part of a literal.

In the other direction `hexDigits` writes a number with a fixed count of hexadecimal digits, each
of which is read back as its value (`digitOf?_hexDigit`).
-/

namespace Backpatch.Text

/-- The value of a character as a digit, up to `f`, in either case. -/
def digitValue? (c : Char) : Option Nat :=
  if '0' ≤ c ∧ c ≤ '9' then some (c.toNat - '0'.toNat)
  else if 'a' ≤ c ∧ c ≤ 'f' then some (c.toNat - 'a'.toNat + 10)
  else if 'A' ≤ c ∧ c ≤ 'F' then some (c.toNat - 'A'.toNat + 10)
  else none

/-- The value of a character as a digit of a base. -/
def digitOf? (base : Nat) (c : Char) : Option Nat :=
  (digitValue? c).filter (· < base)

/-- The number reached when further digits are written behind `value`. -/
def extendBy? (base value : Nat) (digits : List Char) : Option Nat :=
  digits.foldlM (fun value c => (digitOf? base c).map (base * value + ·)) value

/-- The value of a row of at least one digit of a base. -/
def digitsValue? (base : Nat) (digits : List Char) : Option Nat :=
  if digits.isEmpty then none else extendBy? base 0 digits

/-- The magnitude of an integer literal: the digits behind the sign, with the mark of their base. -/
def magnitude? : List Char → Option Nat
  | '0' :: 'x' :: digits => digitsValue? 16 digits
  | '0' :: 'X' :: digits => digitsValue? 16 digits
  | '0' :: 'b' :: digits => digitsValue? 2 digits
  | '0' :: 'B' :: digits => digitsValue? 2 digits
  | digits => digitsValue? 10 digits

/-- Magnitudes from `2 ^ 63` on are refused. -/
abbrev magnitudeLimit : Nat := 0x8000_0000_0000_0000

/-- The value of an integer literal. -/
def integer? : List Char → Option Int
  | '-' :: body => ((magnitude? body).filter (· < magnitudeLimit)).map fun (m : Nat) => -(m : Int)
  | body => ((magnitude? body).filter (· < magnitudeLimit)).map fun (m : Nat) => (m : Int)

/-! ## Fixed-width hexadecimal -/

/-- The lower-case hexadecimal digit of a value below 16. -/
def hexDigit (value : Nat) : Char :=
  if value < 10 then Char.ofNat ('0'.toNat + value) else Char.ofNat ('a'.toNat + value - 10)

/-- The last `width` hexadecimal digits of a number, with leading zeros. -/
def hexDigits : (width value : Nat) → List Char
  | 0, _ => []
  | width + 1, value => hexDigits width (value / 16) ++ [hexDigit (value % 16)]

/-- The text of a number in `width` hexadecimal digits, without a mark of the base. -/
def hex (width value : Nat) : String :=
  String.ofList (hexDigits width value)

/-- The text of an address or a word: `0x` and eight digits. -/
def hexWord (word : BitVec 32) : String :=
  "0x" ++ hex 8 word.toNat

theorem length_hexDigits (width value : Nat) : (hexDigits width value).length = width := by
  induction width generalizing value with
  | zero => rfl
  | succ width ih => simp [hexDigits, ih]

theorem digitOf?_hexDigit {value : Nat} (h : value < 16) :
    digitOf? 16 (hexDigit value) = some value := by
  have : ∀ v : Fin 16, digitOf? 16 (hexDigit v) = some v.val := by decide
  exact this ⟨value, h⟩

theorem extendBy?_append (base value : Nat) (front back : List Char) :
    extendBy? base value (front ++ back) =
      (extendBy? base value front).bind (extendBy? base · back) := by
  simp only [extendBy?, List.foldlM_append]
  rfl

end Backpatch.Text
