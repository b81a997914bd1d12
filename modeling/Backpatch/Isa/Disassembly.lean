import Backpatch.Isa.Encoding

/-!
# Disassembly

Every word has a text. A word that is no known instruction is shown as the datum it is, and the
zero word as `nop`. Branches are shown with their displacement and jumps with the byte address in
their target field, both as numbers.
-/

namespace Backpatch.Word

/-- The text of a word as a datum. -/
def dataText (word : Word) : String :=
  ".word " ++ Text.hexWord word

/-- The text of a register operation. A shift has its amount last. -/
def registerText (funct : Funct) (word : Word) : String :=
  let (first, second) := if funct.isShift then (word.rt, word.rs) else (word.rs, word.rt)
  s!"{funct.mnemonic} {word.rd.text}, {first.text}, {second.text}"

/-- The text of a word with a known opcode. -/
def operationText (opcode : Opcode) (word : Word) : String :=
  let name := opcode.mnemonic
  let value := word.immediate.toInt
  match opcode with
  | .special => (word.funct?.map (word.registerText ·)).getD word.dataText
  | .j | .jal => s!"{name} 0x{Text.hex 7 word.target.toNat}"
  | .beq | .bne => s!"{name} {word.rs.text}, {word.rt.text}, {value}"
  | .blez | .bgtz => s!"{name} {word.rs.text}, {value}"
  | .lw | .sw => s!"{name} {word.rt.text}, {value}({word.rs.text})"
  | .addiu | .andi | .ori | .xori => s!"{name} {word.rt.text}, {word.rs.text}, {value}"

/-- The text of a word. -/
def disassembly (word : Word) : String :=
  if word = 0 then "nop"
  else
    match word.opcode? with
    | some opcode => word.operationText opcode
    | none => word.dataText

end Backpatch.Word
