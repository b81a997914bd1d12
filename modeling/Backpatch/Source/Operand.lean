import Backpatch.Isa.Register
import Backpatch.Source.LineError
import Backpatch.Text.Blank

/-!
# Operands

One reader for each kind of operand: a register, a 16-bit number with or without a sign, a label,
a 32-bit datum, and an offset with its base register. A reader gets the text of one operand with
the blanks at both ends removed, and refuses it with the reason.
-/

namespace Backpatch.Operand

open Text

/-- A character with which a label name may start. -/
def isLabelStart (c : Char) : Bool :=
  c.isAlpha || c == '_' || c == '.'

/-- A character that may stand inside a label name. -/
def isLabelChar (c : Char) : Bool :=
  c.isAlphanum || c == '_' || c == '.'

/-- Label names are written in ASCII letters, digits, `_` and `.`, and start with no digit. -/
def isLabelName : List Char → Bool
  | [] => false
  | c :: rest => isLabelStart c && rest.all isLabelChar

/-- A register. -/
def register (text : List Char) : Except LineError Register :=
  match Register.parse? text with
  | some register => .ok register
  | none => .error (.invalidRegister (String.ofList text))

/-- A label name. -/
def label (text : List Char) : Except LineError String :=
  if isLabelName text then .ok (String.ofList text)
  else .error (.invalidLabel (String.ofList text))

/-- An integer for a field that is extended with its sign. -/
def signed (text : List Char) : Except LineError (BitVec 16) :=
  match integer? text with
  | some value =>
    if -0x8000 ≤ value ∧ value < 0x8000 then .ok (BitVec.ofInt 16 value)
    else .error (.signedRange value)
  | none => .error (.invalidImmediate (String.ofList text))

/-- An integer for a field that is extended with zeros. -/
def unsigned (text : List Char) : Except LineError (BitVec 16) :=
  match integer? text with
  | some value =>
    if 0 ≤ value ∧ value < 0x1_0000 then .ok (BitVec.ofInt 16 value)
    else .error (.unsignedRange value)
  | none => .error (.invalidImmediate (String.ofList text))

/-- A datum of 32 bits, written with or without a sign. -/
def datum (text : List Char) : Except LineError (BitVec 32) :=
  match integer? text with
  | some value =>
    if -0x8000_0000 ≤ value ∧ value < 0x1_0000_0000 then .ok (BitVec.ofInt 32 value)
    else .error (.invalidWord (String.ofList text))
  | none => .error (.invalidWord (String.ofList text))

/-- An offset, which may be left out when it is zero. -/
def offset (text : List Char) : Except LineError (BitVec 16) :=
  if text.isEmpty then .ok 0 else signed text

/-- An offset and, in parentheses, a base register. The first opening parenthesis counts. -/
def memory (text : List Char) : Except LineError (BitVec 16 × Register) :=
  match text.span (· ≠ '(') with
  | (_, []) => .error (.noBaseRegister (String.ofList text))
  | (front, _ :: inner) =>
    if inner.getLast? = some ')' then do
      let offset ← offset (trim front)
      let base ← register (trim inner.dropLast)
      return (offset, base)
    else .error (.unclosedBaseRegister (String.ofList text))

end Backpatch.Operand
