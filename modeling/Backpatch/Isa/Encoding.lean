import Backpatch.Word
import Backpatch.Isa.Opcode
import Backpatch.Isa.Register

/-!
# The fields of an instruction word

From the most significant bit down, a word is read in one of three layouts:

* register: opcode 6, `rs` 5, `rt` 5, `rd` 5, unused 5, function code 6;
* immediate: opcode 6, `rs` 5, `rt` 5, immediate 16;
* jump: opcode 6, target 26.

An encoder puts the fields side by side and a reader cuts one out. A reader looks at its bits
whatever the opcode says, so every word has a value for every field.
-/

namespace Backpatch

/-! ## Encoding -/

/-- The word of a register operation; the unused bits are zero. -/
def encodeRegister (funct : Funct) (rd rs rt : Register) : Word :=
  Opcode.special.code ++ rs.number ++ rt.number ++ rd.number ++ 0#5 ++ funct.code

/-- The word of an instruction with an immediate, an offset or a displacement. -/
def encodeImmediate (opcode : Opcode) (rs rt : Register) (immediate : BitVec 16) : Word :=
  opcode.code ++ rs.number ++ rt.number ++ immediate

/-- The word of a jump whose target is still to be filled in. -/
def encodeJump (opcode : Opcode) : Word :=
  opcode.code ++ 0#26

/-! ## Reading fields -/

namespace Word

/-- The opcode of a word, if its six high bits are one. -/
def opcode? (word : Word) : Option Opcode :=
  Opcode.ofCode? (word.extractLsb' 26 6)

/-- The register operation in the six low bits, if they are one. -/
def funct? (word : Word) : Option Funct :=
  Funct.ofCode? (word.extractLsb' 0 6)

/-- The first source register. -/
def rs (word : Word) : Register :=
  ⟨word.extractLsb' 21 5⟩

/-- The second source register, the destination of an instruction with an immediate. -/
def rt (word : Word) : Register :=
  ⟨word.extractLsb' 16 5⟩

/-- The destination of a register operation. -/
def rd (word : Word) : Register :=
  ⟨word.extractLsb' 11 5⟩

/-- The 16 low bits. -/
def immediate (word : Word) : BitVec 16 :=
  word.extractLsb' 0 16

/-- The byte address in the target field of a jump, within a region of 256 MiB. -/
def target (word : Word) : Address :=
  0#4 ++ word.extractLsb' 0 26 ++ 0#2

/-- The class of a word, if its opcode is known. -/
def kind? (word : Word) : Option InstructionKind :=
  word.opcode?.map Opcode.kind

end Word

end Backpatch
