/-!
# Operations and their codes

The six high bits of an instruction word are its opcode. The opcode `special` stands for all
register operations; which one is told by the six low bits, the function code. Both code tables and
both name tables are single functions here, and the look-ups in the other direction search the list
of all cases, so that no table is written twice.

The main statements are `Opcode.ofCode?_eq_some_iff` and `Funct.ofCode?_eq_some_iff`: looking a
code up inverts writing it.
-/

namespace Backpatch

/-- The classes of instructions, by the layout and the meaning of their fields. -/
inductive InstructionKind where
  | register
  | immediate
  | memory
  | jump
  | branch
  deriving DecidableEq, Repr

/-! ## Opcodes -/

/-- The operation named by the six high bits of a word. -/
inductive Opcode where
  /-- A register operation; the function code tells which. -/
  | special
  | j
  | jal
  | beq
  | bne
  | blez
  | bgtz
  | addiu
  | andi
  | ori
  | xori
  | lw
  | sw
  deriving DecidableEq, Repr

namespace Opcode

/-- Every opcode, in the order of the codes. -/
def all : List Opcode :=
  [.special, .j, .jal, .beq, .bne, .blez, .bgtz, .addiu, .andi, .ori, .xori, .lw, .sw]

/-- The six bits that stand for an opcode. -/
def code : Opcode → BitVec 6
  | .special => 0x00
  | .j => 0x02
  | .jal => 0x03
  | .beq => 0x04
  | .bne => 0x05
  | .blez => 0x06
  | .bgtz => 0x07
  | .addiu => 0x09
  | .andi => 0x0C
  | .ori => 0x0D
  | .xori => 0x0E
  | .lw => 0x23
  | .sw => 0x2B

/-- The name of an opcode. -/
def mnemonic : Opcode → String
  | .special => "special"
  | .j => "j"
  | .jal => "jal"
  | .beq => "beq"
  | .bne => "bne"
  | .blez => "blez"
  | .bgtz => "bgtz"
  | .addiu => "addiu"
  | .andi => "andi"
  | .ori => "ori"
  | .xori => "xori"
  | .lw => "lw"
  | .sw => "sw"

/-- The class of the instructions with an opcode. -/
def kind : Opcode → InstructionKind
  | .special => .register
  | .j | .jal => .jump
  | .beq | .bne | .blez | .bgtz => .branch
  | .lw | .sw => .memory
  | .addiu | .andi | .ori | .xori => .immediate

/-- Whether the low 26 bits are the target of a jump. -/
def isJump (opcode : Opcode) : Bool :=
  opcode.kind == .jump

/-- Whether the low 16 bits are the displacement of a branch. -/
def isBranch (opcode : Opcode) : Bool :=
  opcode.kind == .branch

/-- The opcode that a code stands for. -/
def ofCode? (code : BitVec 6) : Option Opcode :=
  all.find? (·.code == code)

/-- The opcode with a name. `special` names no instruction and is not found. -/
def ofMnemonic? (name : String) : Option Opcode :=
  (all.erase .special).find? (·.mnemonic == name)

/-- The list of all opcodes is complete. -/
theorem mem_all (opcode : Opcode) : opcode ∈ all := by
  cases opcode <;> decide

@[simp] theorem ofCode?_code (opcode : Opcode) : ofCode? opcode.code = some opcode := by
  cases opcode <;> rfl

/-- Looking a code up inverts writing it. -/
theorem ofCode?_eq_some_iff {code : BitVec 6} {opcode : Opcode} :
    ofCode? code = some opcode ↔ opcode.code = code := by
  refine ⟨fun h => ?_, fun h => h ▸ ofCode?_code opcode⟩
  simpa using List.find?_some h

/-- Looking a name up inverts writing it, except for `special`. -/
theorem ofMnemonic?_eq_some_iff {name : String} {opcode : Opcode} :
    ofMnemonic? name = some opcode ↔ opcode.mnemonic = name ∧ opcode ≠ .special := by
  constructor
  · intro h
    refine ⟨by simpa using List.find?_some h, ?_⟩
    rintro rfl
    exact absurd (List.mem_of_find?_eq_some h) (by decide)
  · rintro ⟨rfl, h⟩
    cases opcode <;> first | exact absurd rfl h | decide

end Opcode

/-! ## Function codes -/

/-- A register operation, named by the six low bits of a word whose opcode is `special`. -/
inductive Funct where
  | sllv
  | srlv
  | srav
  | addu
  | subu
  | and
  | or
  | xor
  | nor
  deriving DecidableEq, Repr

namespace Funct

/-- Every register operation, in the order of the codes. -/
def all : List Funct :=
  [.sllv, .srlv, .srav, .addu, .subu, .and, .or, .xor, .nor]

/-- The six bits that stand for a register operation. -/
def code : Funct → BitVec 6
  | .sllv => 0x04
  | .srlv => 0x06
  | .srav => 0x07
  | .addu => 0x21
  | .subu => 0x23
  | .and => 0x24
  | .or => 0x25
  | .xor => 0x26
  | .nor => 0x27

/-- The name of a register operation. -/
def mnemonic : Funct → String
  | .sllv => "sllv"
  | .srlv => "srlv"
  | .srav => "srav"
  | .addu => "addu"
  | .subu => "subu"
  | .and => "and"
  | .or => "or"
  | .xor => "xor"
  | .nor => "nor"

/-- Whether the operation shifts by the amount in a register. These are written with the shifted
register before the amount. -/
def isShift : Funct → Bool
  | .sllv | .srlv | .srav => true
  | .addu | .subu | .and | .or | .xor | .nor => false

/-- The register operation that a code stands for. -/
def ofCode? (code : BitVec 6) : Option Funct :=
  all.find? (·.code == code)

/-- The register operation with a name. -/
def ofMnemonic? (name : String) : Option Funct :=
  all.find? (·.mnemonic == name)

/-- The list of all register operations is complete. -/
theorem mem_all (funct : Funct) : funct ∈ all := by
  cases funct <;> decide

@[simp] theorem ofCode?_code (funct : Funct) : ofCode? funct.code = some funct := by
  cases funct <;> rfl

/-- Looking a code up inverts writing it. -/
theorem ofCode?_eq_some_iff {code : BitVec 6} {funct : Funct} :
    ofCode? code = some funct ↔ funct.code = code := by
  refine ⟨fun h => ?_, fun h => h ▸ ofCode?_code funct⟩
  simpa using List.find?_some h

/-- Looking a name up inverts writing it. -/
theorem ofMnemonic?_eq_some_iff {name : String} {funct : Funct} :
    ofMnemonic? name = some funct ↔ funct.mnemonic = name := by
  refine ⟨fun h => by simpa using List.find?_some h, ?_⟩
  rintro rfl
  cases funct <;> decide

end Funct

end Backpatch
