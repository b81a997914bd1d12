import Backpatch.Text.Numeral

/-!
# Registers

The machine has 32 general registers. In a source text a register is written `$` and its number or
its name, so `$8` and `$t0` are the same; `$fp` is a second name of `$s8`. A number may carry a `+`
and leading zeros. The main statement, `Register.parse?_text`, is that the printed form of a
register is read back as that register.
-/

namespace Backpatch

/-- A general register, by its five-bit number. -/
structure Register where
  number : BitVec 5
  deriving DecidableEq, Repr

namespace Register

/-- The register that always holds zero. -/
def zero : Register := ⟨0⟩

/-- The names of the registers, in the order of their numbers. -/
def names : Vector String 32 := #v[
  "zero", "at", "v0", "v1", "a0", "a1", "a2", "a3", "t0", "t1", "t2", "t3", "t4", "t5", "t6", "t7",
  "s0", "s1", "s2", "s3", "s4", "s5", "s6", "s7", "t8", "t9", "k0", "k1", "gp", "sp", "s8", "ra"]

/-- Second names of registers. -/
def aliases : List (String × Nat) :=
  [("fp", 30)]

/-- The register with a number, which has to be below 32. -/
def ofNat? (number : Nat) : Option Register :=
  if number < 32 then some ⟨BitVec.ofNat 5 number⟩ else none

/-- The name of a register, without the `$`. -/
def name (register : Register) : String :=
  names[register.number.toFin]

/-- The printed form of a register. -/
def text (register : Register) : String :=
  "$" ++ register.name

/-- The register with a name. -/
def ofName? (name : String) : Option Register :=
  ((names.toList.zipIdx ++ aliases).lookup name).bind ofNat?

/-- The value of a register number: decimal digits behind an optional `+`. -/
def number? : List Char → Option Nat
  | '+' :: digits => Text.digitsValue? 10 digits
  | digits => Text.digitsValue? 10 digits

/-- The register that a text denotes. No register name is a number, so a text that is one is never
looked up among the names. -/
def parse? : List Char → Option Register
  | '$' :: body =>
    match number? body with
    | some number => ofNat? number
    | none => ofName? (String.ofList body)
  | _ => none

theorem toNat_lt (register : Register) : register.number.toNat < 32 :=
  register.number.isLt

@[simp] theorem ofNat?_toNat (register : Register) :
    ofNat? register.number.toNat = some register := by
  simp [ofNat?, register.toNat_lt]

/-- The printed form of a register is read back as that register. -/
theorem parse?_text (register : Register) : parse? register.text.toList = some register := by
  have key : ∀ number : BitVec 5, parse? (text ⟨number⟩).toList = some ⟨number⟩ := by decide
  exact key register.number

end Register

end Backpatch
