import Backpatch.Isa.Register
import Backpatch.Proofs.Text.Literal

/-!
# How a register is written

`Register.Spelled` lists the ways to write a register: by its number below 32 in decimal digits,
with or without a `+`, by its name, and by the second name that one register has. The reader of
registers accepts exactly these (`Register.parse?_eq_some_iff`).
-/

namespace Backpatch.Register

open Text

/-- The texts that denote a register. -/
inductive Spelled : List Char → Register → Prop
  | number {digits : List Char} {value : Nat} (h : Numeral 10 digits value) (hlt : value < 32) :
      Spelled ('$' :: digits) ⟨BitVec.ofNat 5 value⟩
  | signed {digits : List Char} {value : Nat} (h : Numeral 10 digits value) (hlt : value < 32) :
      Spelled ('$' :: '+' :: digits) ⟨BitVec.ofNat 5 value⟩
  | name (register : Register) : Spelled ('$' :: register.name.toList) register
  | framePointer : Spelled ['$', 'f', 'p'] ⟨30⟩

/-- The printed form is a way to write a register. -/
theorem spelled_text (register : Register) : Spelled register.text.toList register := by
  rw [text, String.toList_append]
  exact .name register

/-- The characters behind the `$` are letters and digits, but for a `+`. -/
theorem Spelled.mem_cases {text : List Char} {register : Register} (h : Spelled text register) :
    ∀ c ∈ text, c.isAlphanum = true ∨ c = '$' ∨ c = '+' := by
  have hname : ∀ number : BitVec 5,
      (Register.name ⟨number⟩).toList.all Char.isAlphanum = true := by
    decide
  cases h with
  | number h => simpa using fun c hc => Or.inl (h.isAlphanum (by decide) c hc)
  | signed h => simpa using fun c hc => Or.inl (h.isAlphanum (by decide) c hc)
  | name register =>
      have hall := List.all_eq_true.mp (hname register.number)
      simpa using fun c hc => Or.inl (hall c hc)
  | framePointer =>
      intro c hc
      simp only [List.mem_cons, List.not_mem_nil, or_false] at hc
      rcases hc with rfl | rfl | rfl <;> decide

/-! ## Numbers and names -/

theorem ofNat?_eq_some_iff {number : Nat} {register : Register} :
    ofNat? number = some register ↔ number < 32 ∧ register = ⟨BitVec.ofNat 5 number⟩ := by
  unfold ofNat?
  split
  · next h => simp [h, eq_comm]
  · next h => simp [h]

/-- Every entry of the table of names is the name of its register or the second name of one. -/
theorem of_ofName? {name : String} {register : Register} (h : ofName? name = some register) :
    name = register.name ∨ name = "fp" ∧ register = ⟨30⟩ := by
  have key : ∀ entry ∈ names.toList.zipIdx ++ aliases, ∀ register ∈ ofNat? entry.2,
      entry.1 = register.name ∨ entry.1 = "fp" ∧ register = ⟨30⟩ := by
    decide
  obtain ⟨number, hlookup, hnumber⟩ := Option.bind_eq_some_iff.mp h
  obtain ⟨front, back, htable, -⟩ := List.lookup_eq_some_iff.mp hlookup
  have hmem : (name, number) ∈ names.toList.zipIdx ++ aliases := by simp [htable]
  exact key (name, number) hmem register hnumber

theorem number?_eq_some_iff {body : List Char} {value : Nat} :
    number? body = some value ↔
      Numeral 10 body value ∨ ∃ digits, body = '+' :: digits ∧ Numeral 10 digits value := by
  have hplus : ∀ digits, ¬Numeral 10 ('+' :: digits) value := by
    intro digits h
    exact absurd (h.isAlphanum (by decide) '+' List.mem_cons_self) (by decide)
  unfold number?
  split
  · next digits => simp [digitsValue?_eq_some_iff, hplus]
  · next hne =>
    rw [digitsValue?_eq_some_iff (by decide)]
    refine ⟨Or.inl, fun h => h.elim id ?_⟩
    rintro ⟨digits, rfl, -⟩
    exact absurd rfl (hne digits)

/-! ## The reader -/

/-- The ways to write a register are the texts that are read as one. -/
theorem parse?_eq_some_iff {text : List Char} {register : Register} :
    parse? text = some register ↔ Spelled text register := by
  constructor
  · intro h
    unfold parse? at h
    split at h
    · next body =>
      split at h
      · next value hvalue =>
        obtain ⟨hlt, rfl⟩ := ofNat?_eq_some_iff.mp h
        rcases number?_eq_some_iff.mp hvalue with hdigits | ⟨digits, rfl, hdigits⟩
        · exact .number hdigits hlt
        · exact .signed hdigits hlt
      · rcases of_ofName? h with hname | ⟨hname, rfl⟩
        · rw [← String.toList_ofList (l := body), hname]
          exact .name register
        · rw [← String.toList_ofList (l := body), hname]
          exact .framePointer
    · cases h
  · intro h
    cases h with
    | number h hlt =>
        have hvalue := number?_eq_some_iff.mpr (Or.inl h)
        simpa only [parse?, hvalue] using ofNat?_eq_some_iff.mpr ⟨hlt, rfl⟩
    | signed h hlt =>
        have hvalue := number?_eq_some_iff.mpr (Or.inr ⟨_, rfl, h⟩)
        simpa only [parse?, hvalue] using ofNat?_eq_some_iff.mpr ⟨hlt, rfl⟩
    | name => simpa [text] using parse?_text register
    | framePointer => decide

end Backpatch.Register
