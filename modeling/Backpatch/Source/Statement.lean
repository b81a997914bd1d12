import Backpatch.Isa.Encoding
import Backpatch.Source.Operand

/-!
# Statements

A statement is what a source line asks to be emitted: a finished word, or a jump or branch whose
target is a label and has to wait. `Operation` sorts the mnemonics by the operands they take, and
`Operation.read` turns a list of operands into a statement. Operands are read from left to right,
after their number has been checked, and the first one that is refused decides the error.
-/

namespace Backpatch

/-- What one source line asks to be emitted. -/
inductive Statement where
  /-- A finished word. -/
  | word (word : Word)
  /-- A jump or branch whose target field is zero until the label's address is known. -/
  | reference (word : Word) (label : String)
  deriving DecidableEq, Repr

/-- A named operation, by the operands that it takes. -/
inductive Operation where
  /-- The zero word; no operand. -/
  | nop
  /-- A datum. -/
  | datum
  /-- `rd, rs, rt`. -/
  | arithmetic (funct : Funct)
  /-- `rd, rt, rs`: the shifted register, then the amount. -/
  | shift (funct : Funct)
  /-- `rt, rs, immediate`, extended with its sign. -/
  | signedImmediate (opcode : Opcode)
  /-- `rt, rs, immediate`, extended with zeros. -/
  | unsignedImmediate (opcode : Opcode)
  /-- `rt, offset(rs)`. -/
  | memory (opcode : Opcode)
  /-- `rs, rt, label`. -/
  | compare (opcode : Opcode)
  /-- `rs, label`. -/
  | compareZero (opcode : Opcode)
  /-- `label`. -/
  | jump (opcode : Opcode)
  deriving DecidableEq, Repr

namespace Operation

/-- The operation of a register operation code. -/
def ofFunct (funct : Funct) : Operation :=
  if funct.isShift then .shift funct else .arithmetic funct

/-- The operation of an opcode; `special` alone is none. -/
def ofOpcode? : Opcode → Option Operation
  | .special => none
  | .j => some (.jump .j)
  | .jal => some (.jump .jal)
  | .beq => some (.compare .beq)
  | .bne => some (.compare .bne)
  | .blez => some (.compareZero .blez)
  | .bgtz => some (.compareZero .bgtz)
  | .addiu => some (.signedImmediate .addiu)
  | .andi => some (.unsignedImmediate .andi)
  | .ori => some (.unsignedImmediate .ori)
  | .xori => some (.unsignedImmediate .xori)
  | .lw => some (.memory .lw)
  | .sw => some (.memory .sw)

/-- The operation with a name, which has to be in lower case. -/
def ofMnemonic? (name : String) : Option Operation :=
  if name = "nop" then some .nop
  else if name = ".word" then some .datum
  else
    match Funct.ofMnemonic? name with
    | some funct => some (ofFunct funct)
    | none => (Opcode.ofMnemonic? name).bind ofOpcode?

/-- The number of operands that an operation takes. -/
def arity : Operation → Nat
  | .nop => 0
  | .datum | .jump _ => 1
  | .memory _ | .compareZero _ => 2
  | .arithmetic _ | .shift _ | .signedImmediate _ | .unsignedImmediate _ | .compare _ => 3

/-- Reads the operands of an operation; the name is only for the report of their number. -/
def read (name : String) : Operation → List (List Char) → Except LineError Statement
  | .nop, [] => .ok (.word 0)
  | .datum, [literal] => do
    return .word (← Operand.datum literal)
  | .arithmetic funct, [first, second, third] => do
    let rd ← Operand.register first
    let rs ← Operand.register second
    let rt ← Operand.register third
    return .word (encodeRegister funct rd rs rt)
  | .shift funct, [first, second, third] => do
    let rd ← Operand.register first
    let rt ← Operand.register second
    let rs ← Operand.register third
    return .word (encodeRegister funct rd rs rt)
  | .signedImmediate opcode, [first, second, third] => do
    let rt ← Operand.register first
    let rs ← Operand.register second
    let immediate ← Operand.signed third
    return .word (encodeImmediate opcode rs rt immediate)
  | .unsignedImmediate opcode, [first, second, third] => do
    let rt ← Operand.register first
    let rs ← Operand.register second
    let immediate ← Operand.unsigned third
    return .word (encodeImmediate opcode rs rt immediate)
  | .memory opcode, [first, second] => do
    let rt ← Operand.register first
    let (offset, rs) ← Operand.memory second
    return .word (encodeImmediate opcode rs rt offset)
  | .compare opcode, [first, second, third] => do
    let rs ← Operand.register first
    let rt ← Operand.register second
    let label ← Operand.label third
    return .reference (encodeImmediate opcode rs rt 0) label
  | .compareZero opcode, [first, second] => do
    let rs ← Operand.register first
    let label ← Operand.label second
    return .reference (encodeImmediate opcode rs .zero 0) label
  | .jump opcode, [first] => do
    let label ← Operand.label first
    return .reference (encodeJump opcode) label
  | operation, operands => .error (.operandCount name operation.arity operands.length)

end Operation

end Backpatch
