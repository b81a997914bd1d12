import Backpatch.Proofs.Source.Operand
import Backpatch.Source.Statement

/-!
# What the operations take

`Operation.Named` is the table of mnemonics, and `Operation.Takes` says for each operation which
operands it takes and which statement they make. The two readers agree with them:
`Operation.ofMnemonic?_eq_some_iff` and `Operation.read_eq_ok_iff`.
-/

namespace Backpatch.Operation

open Operand

/-! ## Mnemonics -/

/-- The mnemonics, in lower case, and the operations that they name. -/
inductive Named : String → Operation → Prop
  | nop : Named "nop" .nop
  | datum : Named ".word" .datum
  | arithmetic {funct : Funct} (h : funct ∈ [.addu, .subu, .and, .or, .xor, .nor]) :
      Named funct.mnemonic (.arithmetic funct)
  | shift {funct : Funct} (h : funct ∈ [.sllv, .srlv, .srav]) :
      Named funct.mnemonic (.shift funct)
  | signedImmediate : Named "addiu" (.signedImmediate .addiu)
  | unsignedImmediate {opcode : Opcode} (h : opcode ∈ [.andi, .ori, .xori]) :
      Named opcode.mnemonic (.unsignedImmediate opcode)
  | memory {opcode : Opcode} (h : opcode ∈ [.lw, .sw]) : Named opcode.mnemonic (.memory opcode)
  | compare {opcode : Opcode} (h : opcode ∈ [.beq, .bne]) :
      Named opcode.mnemonic (.compare opcode)
  | compareZero {opcode : Opcode} (h : opcode ∈ [.blez, .bgtz]) :
      Named opcode.mnemonic (.compareZero opcode)
  | jump {opcode : Opcode} (h : opcode ∈ [.j, .jal]) : Named opcode.mnemonic (.jump opcode)

theorem named_ofFunct (funct : Funct) : Named funct.mnemonic (ofFunct funct) := by
  cases funct
  case sllv | srlv | srav => exact .shift (by decide)
  all_goals exact .arithmetic (by decide)

theorem named_ofOpcode? {opcode : Opcode} {operation : Operation}
    (h : ofOpcode? opcode = some operation) : Named opcode.mnemonic operation := by
  cases opcode <;> cases h
  case addiu => exact .signedImmediate
  case andi | ori | xori => exact .unsignedImmediate (by decide)
  case lw | sw => exact .memory (by decide)
  case beq | bne => exact .compare (by decide)
  case blez | bgtz => exact .compareZero (by decide)
  case j | jal => exact .jump (by decide)

/-- Every register operation is found under its mnemonic. -/
theorem ofMnemonic?_funct (funct : Funct) :
    ofMnemonic? funct.mnemonic = some (ofFunct funct) := by
  cases funct <;> decide

/-- Every opcode that is an operation is found under its mnemonic. -/
theorem ofMnemonic?_opcode {opcode : Opcode} {operation : Operation}
    (h : ofOpcode? opcode = some operation) :
    ofMnemonic? opcode.mnemonic = some operation := by
  rw [← h]
  cases opcode <;> cases h <;> decide

/-- The operation of a mnemonic is the one in the table. -/
theorem ofMnemonic?_eq_some_iff {name : String} {operation : Operation} :
    ofMnemonic? name = some operation ↔ Named name operation := by
  constructor
  · intro h
    unfold ofMnemonic? at h
    split at h
    · next hname =>
      cases h
      rw [hname]
      exact .nop
    · split at h
      · next hname =>
        cases h
        rw [hname]
        exact .datum
      · split at h
        · next funct hfunct =>
          cases h
          rw [← Funct.ofMnemonic?_eq_some_iff.mp hfunct]
          exact named_ofFunct funct
        · obtain ⟨opcode, hopcode, hoperation⟩ := Option.bind_eq_some_iff.mp h
          rw [← (Opcode.ofMnemonic?_eq_some_iff.mp hopcode).1]
          exact named_ofOpcode? hoperation
  · intro h
    cases h with
    | nop => rfl
    | datum => rfl
    | arithmetic h =>
        have key : ∀ funct ∈ [Funct.addu, .subu, .and, .or, .xor, .nor],
            ofFunct funct = .arithmetic funct := by decide
        rw [ofMnemonic?_funct, key _ h]
    | shift h =>
        have key : ∀ funct ∈ [Funct.sllv, .srlv, .srav], ofFunct funct = .shift funct := by decide
        rw [ofMnemonic?_funct, key _ h]
    | signedImmediate =>
        have hopcode : ofOpcode? .addiu = some (.signedImmediate .addiu) := rfl
        exact ofMnemonic?_opcode hopcode
    | unsignedImmediate h =>
        have key : ∀ opcode ∈ [Opcode.andi, .ori, .xori],
            ofOpcode? opcode = some (.unsignedImmediate opcode) := by decide
        exact ofMnemonic?_opcode (key _ h)
    | memory h =>
        have key : ∀ opcode ∈ [Opcode.lw, .sw], ofOpcode? opcode = some (.memory opcode) := by
          decide
        exact ofMnemonic?_opcode (key _ h)
    | compare h =>
        have key : ∀ opcode ∈ [Opcode.beq, .bne], ofOpcode? opcode = some (.compare opcode) := by
          decide
        exact ofMnemonic?_opcode (key _ h)
    | compareZero h =>
        have key : ∀ opcode ∈ [Opcode.blez, .bgtz],
            ofOpcode? opcode = some (.compareZero opcode) := by decide
        exact ofMnemonic?_opcode (key _ h)
    | jump h =>
        have key : ∀ opcode ∈ [Opcode.j, .jal], ofOpcode? opcode = some (.jump opcode) := by decide
        exact ofMnemonic?_opcode (key _ h)

/-- A mnemonic is in lower case, and it has no blank and no character that parts a line. -/
theorem Named.solid {name : String} {operation : Operation} (h : Named name operation) :
    Solid name.toList ∧ name.toList.map Char.toLower = name.toList := by
  have hfunct : ∀ funct : Funct, Solid funct.mnemonic.toList ∧
      funct.mnemonic.toList.map Char.toLower = funct.mnemonic.toList := by
    intro funct
    cases funct <;> decide
  have hopcode : ∀ opcode : Opcode, Solid opcode.mnemonic.toList ∧
      opcode.mnemonic.toList.map Char.toLower = opcode.mnemonic.toList := by
    intro opcode
    cases opcode <;> decide
  cases h with
  | nop => decide
  | datum => decide
  | arithmetic => exact hfunct _
  | shift => exact hfunct _
  | signedImmediate => exact hopcode .addiu
  | unsignedImmediate => exact hopcode _
  | memory => exact hopcode _
  | compare => exact hopcode _
  | compareZero => exact hopcode _
  | jump => exact hopcode _

/-! ## Operands -/

/-- The operands of an operation, and the statement that they make. -/
inductive Takes : Operation → List (List Char) → Statement → Prop
  | nop : Takes .nop [] (.word 0)
  | datum {text : List Char} {value : Word} (h : Datum text value) :
      Takes .datum [text] (.word value)
  | arithmetic {funct : Funct} {first second third : List Char} {rd rs rt : Register}
      (hrd : Register.Spelled first rd) (hrs : Register.Spelled second rs)
      (hrt : Register.Spelled third rt) :
      Takes (.arithmetic funct) [first, second, third] (.word (encodeRegister funct rd rs rt))
  | shift {funct : Funct} {first second third : List Char} {rd rs rt : Register}
      (hrd : Register.Spelled first rd) (hrt : Register.Spelled second rt)
      (hrs : Register.Spelled third rs) :
      Takes (.shift funct) [first, second, third] (.word (encodeRegister funct rd rs rt))
  | signedImmediate {opcode : Opcode} {first second third : List Char} {rs rt : Register}
      {field : BitVec 16} (hrt : Register.Spelled first rt) (hrs : Register.Spelled second rs)
      (hfield : Signed third field) :
      Takes (.signedImmediate opcode) [first, second, third]
        (.word (encodeImmediate opcode rs rt field))
  | unsignedImmediate {opcode : Opcode} {first second third : List Char} {rs rt : Register}
      {field : BitVec 16} (hrt : Register.Spelled first rt) (hrs : Register.Spelled second rs)
      (hfield : Unsigned third field) :
      Takes (.unsignedImmediate opcode) [first, second, third]
        (.word (encodeImmediate opcode rs rt field))
  | memory {opcode : Opcode} {first second : List Char} {rs rt : Register} {field : BitVec 16}
      (hrt : Register.Spelled first rt) (hindexed : Indexed second field rs) :
      Takes (.memory opcode) [first, second] (.word (encodeImmediate opcode rs rt field))
  | compare {opcode : Opcode} {first second name : List Char} {rs rt : Register}
      (hrs : Register.Spelled first rs) (hrt : Register.Spelled second rt) (hname : IsName name) :
      Takes (.compare opcode) [first, second, name]
        (.reference (encodeImmediate opcode rs rt 0) (String.ofList name))
  | compareZero {opcode : Opcode} {first name : List Char} {rs : Register}
      (hrs : Register.Spelled first rs) (hname : IsName name) :
      Takes (.compareZero opcode) [first, name]
        (.reference (encodeImmediate opcode rs .zero 0) (String.ofList name))
  | jump {opcode : Opcode} {name : List Char} (hname : IsName name) :
      Takes (.jump opcode) [name] (.reference (encodeJump opcode) (String.ofList name))

/-- A statement is made of the operands that the operation takes, and of no others. -/
theorem read_eq_ok_iff {name : String} {operation : Operation} {operands : List (List Char)}
    {statement : Statement} :
    operation.read name operands = .ok statement ↔ operation.Takes operands statement := by
  constructor
  · intro h
    unfold read at h
    split at h
    all_goals
      simp only [bind_eq_ok_iff, pure, Except.pure, Except.ok.injEq, reduceCtorEq, Prod.exists,
        datum_eq_ok_iff, register_eq_ok_iff, signed_eq_ok_iff, unsigned_eq_ok_iff,
        memory_eq_ok_iff, label_eq_ok_iff] at h
    case h_1 =>
      rw [← h]
      exact .nop
    case h_2 =>
      obtain ⟨value, hvalue, rfl⟩ := h
      exact .datum hvalue
    case h_3 =>
      obtain ⟨rd, hrd, rs, hrs, rt, hrt, rfl⟩ := h
      exact .arithmetic hrd hrs hrt
    case h_4 =>
      obtain ⟨rd, hrd, rt, hrt, rs, hrs, rfl⟩ := h
      exact .shift hrd hrt hrs
    case h_5 =>
      obtain ⟨rt, hrt, rs, hrs, field, hfield, rfl⟩ := h
      exact .signedImmediate hrt hrs hfield
    case h_6 =>
      obtain ⟨rt, hrt, rs, hrs, field, hfield, rfl⟩ := h
      exact .unsignedImmediate hrt hrs hfield
    case h_7 =>
      obtain ⟨rt, hrt, field, rs, hindexed, rfl⟩ := h
      exact .memory hrt hindexed
    case h_8 =>
      obtain ⟨rs, hrs, rt, hrt, label, ⟨hname, rfl⟩, rfl⟩ := h
      exact .compare hrs hrt hname
    case h_9 =>
      obtain ⟨rs, hrs, label, ⟨hname, rfl⟩, rfl⟩ := h
      exact .compareZero hrs hname
    case h_10 =>
      obtain ⟨label, ⟨hname, rfl⟩, rfl⟩ := h
      exact .jump hname
  · intro h
    cases h with
    | nop => rfl
    | datum h =>
        rw [read, datum_eq_ok_iff.mpr h]
        rfl
    | arithmetic hrd hrs hrt =>
        rw [read, register_eq_ok_iff.mpr hrd, register_eq_ok_iff.mpr hrs,
          register_eq_ok_iff.mpr hrt]
        rfl
    | shift hrd hrt hrs =>
        rw [read, register_eq_ok_iff.mpr hrd, register_eq_ok_iff.mpr hrt,
          register_eq_ok_iff.mpr hrs]
        rfl
    | signedImmediate hrt hrs hfield =>
        rw [read, register_eq_ok_iff.mpr hrt, register_eq_ok_iff.mpr hrs,
          signed_eq_ok_iff.mpr hfield]
        rfl
    | unsignedImmediate hrt hrs hfield =>
        rw [read, register_eq_ok_iff.mpr hrt, register_eq_ok_iff.mpr hrs,
          unsigned_eq_ok_iff.mpr hfield]
        rfl
    | memory hrt hindexed =>
        rw [read, register_eq_ok_iff.mpr hrt, memory_eq_ok_iff.mpr hindexed]
        rfl
    | compare hrs hrt hname =>
        rw [read, register_eq_ok_iff.mpr hrs, register_eq_ok_iff.mpr hrt,
          label_eq_ok_iff.mpr ⟨hname, rfl⟩]
        rfl
    | compareZero hrs hname =>
        rw [read, register_eq_ok_iff.mpr hrs, label_eq_ok_iff.mpr ⟨hname, rfl⟩]
        rfl
    | jump hname =>
        rw [read, label_eq_ok_iff.mpr ⟨hname, rfl⟩]
        rfl

/-- No operand holds a character that parts a line. -/
theorem Takes.not_mem_separators {operation : Operation} {operands : List (List Char)}
    {statement : Statement} (h : operation.Takes operands statement) :
    ∀ text ∈ operands, ∀ c ∈ text, c ∉ separators := by
  have hregister : ∀ {text register}, Register.Spelled text register → ∀ c ∈ text, c ∉ separators :=
    fun h => (solid_of_spelled h).not_mem
  cases h with
  | nop => simp
  | datum h => simpa using h.solid.not_mem
  | arithmetic hrd hrs hrt => simpa using ⟨hregister hrd, hregister hrs, hregister hrt⟩
  | shift hrd hrt hrs => simpa using ⟨hregister hrd, hregister hrt, hregister hrs⟩
  | signedImmediate hrt hrs hfield =>
      simpa using ⟨hregister hrt, hregister hrs, hfield.solid.not_mem⟩
  | unsignedImmediate hrt hrs hfield =>
      simpa using ⟨hregister hrt, hregister hrs, hfield.solid.not_mem⟩
  | memory hrt hindexed => simpa using ⟨hregister hrt, hindexed.not_mem_separators⟩
  | compare hrs hrt hname => simpa using ⟨hregister hrs, hregister hrt, hname.solid.not_mem⟩
  | compareZero hrs hname => simpa using ⟨hregister hrs, hname.solid.not_mem⟩
  | jump hname => simpa using hname.solid.not_mem

end Backpatch.Operation
