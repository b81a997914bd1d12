import Backpatch.Proofs.Draft
import Backpatch.Proofs.Isa.Register
import Backpatch.Proofs.Text.Blank
import Backpatch.Source.Operand
import Mathlib.Data.List.Basic

/-!
# How operands are written

The texts that each kind of operand has, and what they denote: a name (`IsName`), an integer in a
range (`Immediate`) and an offset with a base register (`Indexed`). Each reader of operands accepts
exactly these. None of them holds a character that parts a line (`separators`).
-/

namespace Backpatch

open Text

namespace Operand

/-! ## The grammar -/

/-- A label name: a letter, `_` or `.`, and further ones of these and digits. -/
inductive IsName : List Char → Prop
  | intro {first : Char} {rest : List Char}
      (hfirst : first.isAlpha = true ∨ first = '_' ∨ first = '.')
      (hrest : ∀ c ∈ rest, c.isAlphanum = true ∨ c = '_' ∨ c = '.') : IsName (first :: rest)

/-- An integer literal in a range, and the field of a width that it fills. -/
def Immediate (low high : Int) (width : Nat) (text : List Char) (field : BitVec width) : Prop :=
  ∃ value, Literal text value ∧ low ≤ value ∧ value ≤ high ∧ field = BitVec.ofInt width value

/-- An integer for a field that is extended with its sign. -/
abbrev Signed : List Char → BitVec 16 → Prop :=
  Immediate (-32768) 32767 16

/-- An integer for a field that is extended with zeros. -/
abbrev Unsigned : List Char → BitVec 16 → Prop :=
  Immediate 0 65535 16

/-- An integer of 32 bits, with or without a sign. -/
abbrev Datum : List Char → BitVec 32 → Prop :=
  Immediate (-2147483648) 4294967295 32

/-- An offset, which is zero when it is left out. -/
inductive Offset : List Char → BitVec 16 → Prop
  | omitted : Offset [] 0
  | written {text : List Char} {field : BitVec 16} (h : Signed text field) : Offset text field

/-- An offset and a base register in parentheses, with blanks around either. -/
inductive Indexed : List Char → BitVec 16 → Register → Prop
  | intro {front inner offsetText baseText : List Char} {offset : BitVec 16} {base : Register}
      (hfront : Trims front offsetText) (hoffset : Offset offsetText offset)
      (hinner : Trims inner baseText) (hbase : Register.Spelled baseText base) :
      Indexed (front ++ '(' :: (inner ++ [')'])) offset base

/-! ## Characters -/

/-- The characters that part a line: comment, label and operand end at one. -/
def separators : List Char :=
  ['#', ';', ':', ',']

/-- A character that is no blank and does not part a line. -/
def isSolid (c : Char) : Bool :=
  !isBlank c && !separators.contains c

/-- A text without blanks and without a character that parts a line. -/
structure Solid (text : List Char) : Prop where
  ne_nil : text ≠ []
  all_isSolid : text.all isSolid = true

instance (text : List Char) : Decidable (Solid text) :=
  decidable_of_iff (text ≠ [] ∧ text.all isSolid = true)
    ⟨fun h => ⟨h.1, h.2⟩, fun h => ⟨h.ne_nil, h.all_isSolid⟩⟩

section Solid

variable {text : List Char}

theorem Solid.isSolid (h : Solid text) {c : Char} (hc : c ∈ text) :
    isBlank c = false ∧ c ∉ separators := by
  simpa [Operand.isSolid] using List.all_eq_true.mp h.all_isSolid c hc

theorem Solid.not_blank (h : Solid text) : ∀ c ∈ text, isBlank c = false :=
  fun _ hc => (h.isSolid hc).1

theorem Solid.not_mem (h : Solid text) : ∀ c ∈ text, c ∉ separators :=
  fun _ hc => (h.isSolid hc).2

theorem Solid.tight (h : Solid text) : Tight text :=
  .of_forall h.not_blank

theorem Solid.append {back : List Char} (h : Solid text) (hback : Solid back) :
    Solid (text ++ back) :=
  ⟨by simp [h.ne_nil], by rw [List.all_append, h.all_isSolid, hback.all_isSolid]; rfl⟩

/-- No blank and no letter or digit parts a line. -/
theorem not_mem_separators {c : Char} (h : isBlank c = true ∨ c.isAlphanum = true) :
    c ∉ separators := by
  have key : (separators.all fun c => !isBlank c && !c.isAlphanum) = true := by decide
  intro hmem
  have hc := List.all_eq_true.mp key c hmem
  rw [Bool.and_eq_true, Bool.not_eq_true', Bool.not_eq_true'] at hc
  rcases h with h | h
  · rw [hc.1] at h
    cases h
  · rw [hc.2] at h
    cases h

/-- Texts of letters, digits and the marks that operands have are solid. -/
theorem Solid.of_forall (hne : text ≠ [])
    (h : ∀ c ∈ text, c.isAlphanum = true ∨ c ∈ ['$', '+', '-', '_', '.', '(', ')']) :
    Solid text := by
  have hmark : ['$', '+', '-', '_', '.', '(', ')'].all Operand.isSolid = true := by decide
  refine ⟨hne, List.all_eq_true.mpr fun c hc => ?_⟩
  rcases h c hc with h | h
  · simp [Operand.isSolid, not_isBlank_of_isAlphanum h, not_mem_separators (Or.inr h)]
  · exact List.all_eq_true.mp hmark c h

end Solid

theorem IsName.solid {text : List Char} (h : IsName text) : Solid text := by
  obtain ⟨hfirst, hrest⟩ := h
  refine .of_forall (List.cons_ne_nil _ _) fun c hc => ?_
  rcases List.mem_cons.mp hc with rfl | hc
  · rcases hfirst with h | rfl | rfl
    · exact Or.inl (by rw [Char.isAlphanum, h, Bool.true_or])
    · decide
    · decide
  · rcases hrest c hc with h | rfl | rfl
    · exact Or.inl h
    · decide
    · decide

theorem solid_of_spelled {text : List Char} {value : Register}
    (h : Register.Spelled text value) : Solid text := by
  have hne : text ≠ [] := by cases h <;> exact List.cons_ne_nil _ _
  refine .of_forall hne fun c hc => ?_
  rcases h.mem_cases c hc with h | rfl | rfl
  · exact Or.inl h
  · decide
  · decide

theorem solid_of_literal {text : List Char} {value : Int} (h : Literal text value) :
    Solid text := by
  refine .of_forall h.ne_nil fun c hc => ?_
  rcases h.mem_cases c hc with h | rfl
  · exact Or.inl h
  · decide

theorem Immediate.solid {low high : Int} {width : Nat} {text : List Char}
    {field : BitVec width} (h : Immediate low high width text field) : Solid text := by
  obtain ⟨value, hliteral, -⟩ := h
  exact solid_of_literal hliteral

theorem Offset.not_mem_separators {text : List Char} {field : BitVec 16} (h : Offset text field) :
    ∀ c ∈ text, c ∉ separators := by
  cases h with
  | omitted => simp
  | written h => exact h.solid.not_mem

theorem not_mem_separators_of_trims {text core : List Char} (h : Trims text core)
    (hcore : ∀ c ∈ core, c ∉ separators) : ∀ c ∈ text, c ∉ separators := by
  intro c hc
  rcases h.mem_cases c hc with hc | hc
  · exact hcore c hc
  · exact not_mem_separators (Or.inl hc)

theorem Indexed.not_mem_separators {text : List Char} {offset : BitVec 16} {base : Register}
    (h : Indexed text offset base) : ∀ c ∈ text, c ∉ separators := by
  obtain ⟨hfront, hoffset, hinner, hbase⟩ := h
  have hoffset := not_mem_separators_of_trims hfront hoffset.not_mem_separators
  have hbase := not_mem_separators_of_trims hinner (solid_of_spelled hbase).not_mem
  intro c hc
  simp only [List.mem_append, List.mem_cons, List.not_mem_nil, or_false] at hc
  rcases hc with hc | rfl | hc | rfl
  · exact hoffset c hc
  · decide
  · exact hbase c hc
  · decide

/-! ## The readers -/

theorem isLabelName_iff {text : List Char} : isLabelName text = true ↔ IsName text := by
  cases text with
  | nil => exact ⟨fun h => (nomatch h), fun h => nomatch h⟩
  | cons first rest =>
      simp only [isLabelName, isLabelStart, isLabelChar, Bool.and_eq_true, Bool.or_eq_true,
        beq_iff_eq, List.all_eq_true, or_assoc]
      constructor
      · rintro ⟨hfirst, hrest⟩
        exact .intro hfirst hrest
      · rintro ⟨hfirst, hrest⟩
        exact ⟨hfirst, hrest⟩

theorem label_eq_ok_iff {text : List Char} {name : String} :
    label text = .ok name ↔ IsName text ∧ name = String.ofList text := by
  unfold label
  split
  · next h => simp [← isLabelName_iff, h, eq_comm]
  · next h => simp [← isLabelName_iff, h]

theorem register_eq_ok_iff {text : List Char} {value : Register} :
    register text = .ok value ↔ Register.Spelled text value := by
  rw [← Register.parse?_eq_some_iff]
  unfold register
  split
  · next h => simp [h]
  · next h => simp [h]

section Immediate

variable {low high : Int} {width : Nat} {text : List Char}

theorem immediate_iff_of_integer? {value : Int} (h : integer? text = some value)
    {field : BitVec width} :
    Immediate low high width text field ↔
      (low ≤ value ∧ value < high + 1) ∧ BitVec.ofInt width value = field := by
  unfold Immediate
  constructor
  · rintro ⟨other, hother, hlow, hhigh, rfl⟩
    have heq : value = other := Option.some.inj (h ▸ integer?_eq_some_iff.mpr hother)
    rw [heq]
    exact ⟨⟨hlow, Int.lt_add_one_of_le hhigh⟩, rfl⟩
  · rintro ⟨⟨hlow, hhigh⟩, rfl⟩
    exact ⟨value, integer?_eq_some_iff.mp h, hlow, Int.le_of_lt_add_one hhigh, rfl⟩

theorem not_immediate_of_integer? (h : integer? text = none) (field : BitVec width) :
    ¬Immediate low high width text field := by
  rintro ⟨value, hvalue, -⟩
  rw [integer?_eq_some_iff.mpr hvalue] at h
  cases h

end Immediate

theorem signed_eq_ok_iff {text : List Char} {field : BitVec 16} :
    signed text = .ok field ↔ Signed text field := by
  unfold signed
  split
  · next value hvalue =>
    rw [Signed, immediate_iff_of_integer? hvalue]
    split
    · next h => simp [h]
    · next h => simp [h]
  · next hnone => simp [not_immediate_of_integer? hnone]

theorem unsigned_eq_ok_iff {text : List Char} {field : BitVec 16} :
    unsigned text = .ok field ↔ Unsigned text field := by
  unfold unsigned
  split
  · next value hvalue =>
    rw [Unsigned, immediate_iff_of_integer? hvalue]
    split
    · next h => simp [h]
    · next h => simp [h]
  · next hnone => simp [not_immediate_of_integer? hnone]

theorem datum_eq_ok_iff {text : List Char} {field : BitVec 32} :
    datum text = .ok field ↔ Datum text field := by
  unfold datum
  split
  · next value hvalue =>
    rw [Datum, immediate_iff_of_integer? hvalue]
    split
    · next h => simp [h]
    · next h => simp [h]
  · next hnone => simp [not_immediate_of_integer? hnone]

theorem offset_eq_ok_iff {text : List Char} {field : BitVec 16} :
    offset text = .ok field ↔ Offset text field := by
  unfold offset
  split
  · next hempty =>
    rw [List.isEmpty_iff.mp hempty]
    constructor
    · intro h
      cases h
      exact .omitted
    · intro h
      cases h with
      | omitted => rfl
      | written h => exact absurd rfl h.solid.ne_nil
  · next hempty =>
    rw [signed_eq_ok_iff]
    refine ⟨.written, fun h => ?_⟩
    cases h with
    | omitted => exact absurd rfl hempty
    | written h => exact h

/-- The parenthesis that opens the base register is the first one. -/
theorem Offset.open_not_mem {text : List Char} {field : BitVec 16} (h : Offset text field) :
    '(' ∉ text := by
  cases h with
  | omitted => simp
  | written h =>
      obtain ⟨value, hliteral, -⟩ := h
      intro hmem
      exact absurd (hliteral.mem_cases _ hmem) (by decide)

theorem memory_eq_ok_iff {text : List Char} {value : BitVec 16} {base : Register} :
    memory text = .ok (value, base) ↔ Indexed text value base := by
  constructor
  · intro h
    unfold memory at h
    generalize hspan : text.span (fun c => decide (c ≠ '(')) = parts at h
    obtain ⟨front, back⟩ := parts
    obtain ⟨rfl, -, hback⟩ := span_eq_iff.mp hspan
    cases back with
    | nil => cases h
    | cons c inner =>
        have hopen : c = '(' := by simpa using hback
        simp only at h
        split at h
        · next hlast =>
          obtain ⟨offset, hoffset, h⟩ := bind_eq_ok_iff.mp h
          obtain ⟨register, hregister, h⟩ := bind_eq_ok_iff.mp h
          cases h
          rw [hopen, ← List.dropLast_append_getLast? _ hlast]
          exact .intro (trim_eq_iff.mp rfl) (offset_eq_ok_iff.mp hoffset) (trim_eq_iff.mp rfl)
            (register_eq_ok_iff.mp hregister)
        · cases h
  · rintro ⟨hfront, hoffset, hinner, hbase⟩
    rename_i front inner offsetText baseText
    have hopen : '(' ∉ front := by
      intro hmem
      rcases hfront.mem_cases _ hmem with hmem | hblank
      · exact hoffset.open_not_mem hmem
      · exact absurd hblank (by decide)
    have hspan : (front ++ '(' :: (inner ++ [')'])).span (fun c => decide (c ≠ '(')) =
        (front, '(' :: (inner ++ [')'])) :=
      span_eq_iff.mpr ⟨rfl, fun c hc => decide_eq_true fun h => hopen (h ▸ hc), by simp⟩
    unfold memory
    rw [hspan]
    simp only [List.getLast?_concat, if_true, List.dropLast_concat]
    rw [trim_eq_iff.mpr hfront, trim_eq_iff.mpr hinner, offset_eq_ok_iff.mpr hoffset,
      register_eq_ok_iff.mpr hbase]
    rfl

end Operand

end Backpatch
