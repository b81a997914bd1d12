import Backpatch.Text.Numeral
import Mathlib.Algebra.Order.Ring.Int
import Mathlib.Data.List.Induction

/-!
# What an integer literal is

The grammar of integer literals, with the value that each writes, apart from any reader:

* `Numeral base` is a row of at least one digit, the value of which grows to the right;
* `Magnitude` is a numeral with the mark of its base, or a decimal one without a mark;
* `Literal` is a magnitude below `2 ^ 63` behind an optional `-`.

The readers accept exactly these and return their values: `digitsValue?_eq_some_iff`,
`magnitude?_eq_some_iff` and `integer?_eq_some_iff`.
-/

namespace Backpatch.Text

/-! ## The grammar -/

/-- A character that writes a digit, in either case of letters. -/
def IsDigit (base : Nat) (c : Char) (value : Nat) : Prop :=
  value < base ∧ (c = hexDigit value ∨ c = (hexDigit value).toUpper)

/-- A row of at least one digit of a base, and the number that it writes. -/
inductive Numeral (base : Nat) : List Char → Nat → Prop
  | digit {c : Char} {value : Nat} (h : IsDigit base c value) : Numeral base [c] value
  | concat {digits : List Char} {value : Nat} {c : Char} {last : Nat}
      (hdigits : Numeral base digits value) (h : IsDigit base c last) :
      Numeral base (digits ++ [c]) (base * value + last)

/-- The digits of an integer literal with the mark of their base, and the number they write. -/
inductive Magnitude : List Char → Nat → Prop
  | decimal {digits : List Char} {value : Nat} (h : Numeral 10 digits value) :
      Magnitude digits value
  | hexadecimal {mark : Char} {digits : List Char} {value : Nat} (hmark : mark = 'x' ∨ mark = 'X')
      (h : Numeral 16 digits value) : Magnitude ('0' :: mark :: digits) value
  | binary {mark : Char} {digits : List Char} {value : Nat} (hmark : mark = 'b' ∨ mark = 'B')
      (h : Numeral 2 digits value) : Magnitude ('0' :: mark :: digits) value

/-- An integer literal, and the integer that it writes. -/
inductive Literal : List Char → Int → Prop
  | plain {text : List Char} {value : Nat} (h : Magnitude text value) (hlimit : value < 2 ^ 63) :
      Literal text value
  | negated {text : List Char} {value : Nat} (h : Magnitude text value) (hlimit : value < 2 ^ 63) :
      Literal ('-' :: text) (-value)

/-! ## Digits -/

/-- Every digit lies in front of `g`. -/
theorem toNat_lt_of_digitValue? {c : Char} {value : Nat} (h : digitValue? c = some value) :
    c.toNat < 103 := by
  unfold digitValue? at h
  split at h
  · next hc => exact Nat.lt_of_le_of_lt hc.2 (by decide)
  · split at h
    · next hc => exact Nat.lt_of_le_of_lt hc.2 (by decide)
    · split at h
      · next hc => exact Nat.lt_of_le_of_lt hc.2 (by decide)
      · cases h

theorem isDigit_of_digitValue? {c : Char} {value : Nat} (h : digitValue? c = some value) :
    c = hexDigit value ∨ c = (hexDigit value).toUpper := by
  have key : ∀ code : Fin 103, ∀ value ∈ digitValue? (Char.ofNat code),
      Char.ofNat code = hexDigit value ∨ Char.ofNat code = (hexDigit value).toUpper := by
    decide +kernel
  have hcode := key ⟨c.toNat, toNat_lt_of_digitValue? h⟩ value
  rw [Char.ofNat_toNat] at hcode
  exact hcode h

theorem digitValue?_hexDigit {value : Nat} (h : value < 16) :
    digitValue? (hexDigit value) = some value ∧
      digitValue? (hexDigit value).toUpper = some value := by
  have key : ∀ value : Fin 16, digitValue? (hexDigit value) = some value.val ∧
      digitValue? (hexDigit value).toUpper = some value.val := by
    decide
  exact key ⟨value, h⟩

section Base

variable {base : Nat}

theorem digitOf?_eq_some_iff (hbase : base ≤ 16) {c : Char} {value : Nat} :
    digitOf? base c = some value ↔ IsDigit base c value := by
  rw [digitOf?, Option.filter_eq_some_iff, IsDigit, decide_eq_true_eq]
  constructor
  · rintro ⟨h, hlt⟩
    exact ⟨hlt, isDigit_of_digitValue? h⟩
  · rintro ⟨hlt, h⟩
    have hdigit := digitValue?_hexDigit (Nat.lt_of_lt_of_le hlt hbase)
    rcases h with rfl | rfl
    · exact ⟨hdigit.1, hlt⟩
    · exact ⟨hdigit.2, hlt⟩

/-- Digits are ASCII letters or ASCII digits. -/
theorem IsDigit.isAlphanum (hbase : base ≤ 16) {c : Char} {value : Nat}
    (h : IsDigit base c value) : c.isAlphanum = true := by
  have key : ∀ value : Fin 16, (hexDigit value).isAlphanum = true ∧
      (hexDigit value).toUpper.isAlphanum = true := by
    decide
  obtain ⟨hlt, h⟩ := h
  have hvalue := key ⟨value, Nat.lt_of_lt_of_le hlt hbase⟩
  rcases h with rfl | rfl
  · exact hvalue.1
  · exact hvalue.2

/-! ## Numerals -/

theorem Numeral.ne_nil {digits : List Char} {value : Nat} (h : Numeral base digits value) :
    digits ≠ [] := by
  cases h <;> simp

theorem Numeral.isDigit {digits : List Char} {value : Nat} (h : Numeral base digits value) :
    ∀ c ∈ digits, ∃ value, IsDigit base c value := by
  induction h with
  | digit h => simpa using ⟨_, h⟩
  | concat hdigits h ih =>
      intro c hc
      rcases List.mem_append.mp hc with hc | hc
      · exact ih c hc
      · rw [List.mem_singleton.mp hc]
        exact ⟨_, h⟩

/-- Numerals are written in letters and digits. -/
theorem Numeral.isAlphanum (hbase : base ≤ 16) {digits : List Char} {value : Nat}
    (h : Numeral base digits value) : ∀ c ∈ digits, c.isAlphanum = true := by
  intro c hc
  obtain ⟨_, hdigit⟩ := h.isDigit c hc
  exact hdigit.isAlphanum hbase

/-- One more digit on the right. -/
theorem extendBy?_concat (value : Nat) (digits : List Char) (c : Char) :
    extendBy? base value (digits ++ [c]) =
      (extendBy? base value digits).bind fun value => (digitOf? base c).map (base * value + ·) := by
  rw [extendBy?_append]
  simp [extendBy?]

/-- The value of a row of digits, the last one taken apart. -/
theorem extendBy?_concat_eq_some_iff (hbase : base ≤ 16) {digits : List Char} {c : Char}
    {value : Nat} :
    extendBy? base 0 (digits ++ [c]) = some value ↔
      ∃ front last, extendBy? base 0 digits = some front ∧ IsDigit base c last ∧
        base * front + last = value := by
  simp only [extendBy?_concat, Option.bind_eq_some_iff, Option.map_eq_some_iff,
    digitOf?_eq_some_iff hbase]
  constructor
  · rintro ⟨front, hfront, last, hlast, hvalue⟩
    exact ⟨front, last, hfront, hlast, hvalue⟩
  · rintro ⟨front, last, hfront, hlast, hvalue⟩
    exact ⟨front, hfront, last, hlast, hvalue⟩

theorem Numeral.extendBy?_eq (hbase : base ≤ 16) {digits : List Char} {value : Nat}
    (h : Numeral base digits value) : extendBy? base 0 digits = some value := by
  induction h with
  | @digit c value h =>
      rw [← List.nil_append [c]]
      exact (extendBy?_concat_eq_some_iff hbase).mpr ⟨0, value, rfl, h, by simp⟩
  | concat hdigits h ih => exact (extendBy?_concat_eq_some_iff hbase).mpr ⟨_, _, ih, h, rfl⟩

theorem numeral_of_extendBy? (hbase : base ≤ 16) {digits : List Char} (hne : digits ≠ [])
    {value : Nat} (h : extendBy? base 0 digits = some value) : Numeral base digits value := by
  induction digits using List.reverseRecOn generalizing value with
  | nil => exact absurd rfl hne
  | append_singleton digits c ih =>
      obtain ⟨front, last, hfront, hlast, rfl⟩ := (extendBy?_concat_eq_some_iff hbase).mp h
      cases digits with
      | nil =>
          have hzero : 0 = front := Option.some.inj hfront
          rw [← hzero, Nat.mul_zero, Nat.zero_add]
          exact .digit hlast
      | cons first rest => exact .concat (ih (List.cons_ne_nil _ _) hfront) hlast

/-- Exactly the numerals have a value, and it is the number that they write. -/
theorem digitsValue?_eq_some_iff (hbase : base ≤ 16) {digits : List Char} {value : Nat} :
    digitsValue? base digits = some value ↔ Numeral base digits value := by
  unfold digitsValue?
  split
  · next hempty =>
    refine ⟨fun h => (nomatch h), fun h => ?_⟩
    exact absurd (List.isEmpty_iff.mp hempty) h.ne_nil
  · next hempty =>
    have hne : digits ≠ [] := fun h => hempty (List.isEmpty_iff.mpr h)
    exact ⟨numeral_of_extendBy? hbase hne, Numeral.extendBy?_eq hbase⟩

end Base

/-! ## Literals -/

theorem Magnitude.isAlphanum {text : List Char} {value : Nat} (h : Magnitude text value) :
    ∀ c ∈ text, c.isAlphanum = true := by
  cases h with
  | decimal h => exact h.isAlphanum (by decide)
  | hexadecimal hmark h =>
      have hrest := h.isAlphanum (by decide)
      rcases hmark with rfl | rfl <;> simpa using hrest
  | binary hmark h =>
      have hrest := h.isAlphanum (by decide)
      rcases hmark with rfl | rfl <;> simpa using hrest

theorem Magnitude.ne_nil {text : List Char} {value : Nat} (h : Magnitude text value) :
    text ≠ [] := by
  cases h with
  | decimal h => exact h.ne_nil
  | hexadecimal => exact List.cons_ne_nil _ _
  | binary => exact List.cons_ne_nil _ _

/-- No decimal numeral has the mark of a base. -/
theorem Numeral.not_mark {mark : Char} {digits : List Char} {value : Nat}
    (h : Numeral 10 ('0' :: mark :: digits) value) : mark ∉ ['x', 'X', 'b', 'B'] := by
  intro hmem
  obtain ⟨_, hdigit⟩ := h.isDigit mark (by simp)
  have hsome := (digitOf?_eq_some_iff (by decide)).mpr hdigit
  have key : (['x', 'X', 'b', 'B'].all fun mark => (digitOf? 10 mark).isNone) = true := by decide
  have hnone := List.all_eq_true.mp key mark hmem
  rw [hsome] at hnone
  cases hnone

/-- Exactly the magnitudes have a value, and it is the number that they write. -/
theorem magnitude?_eq_some_iff {text : List Char} {value : Nat} :
    magnitude? text = some value ↔ Magnitude text value := by
  constructor
  · intro h
    unfold magnitude? at h
    split at h
    · exact .hexadecimal (Or.inl rfl) ((digitsValue?_eq_some_iff (by decide)).mp h)
    · exact .hexadecimal (Or.inr rfl) ((digitsValue?_eq_some_iff (by decide)).mp h)
    · exact .binary (Or.inl rfl) ((digitsValue?_eq_some_iff (by decide)).mp h)
    · exact .binary (Or.inr rfl) ((digitsValue?_eq_some_iff (by decide)).mp h)
    · exact .decimal ((digitsValue?_eq_some_iff (by decide)).mp h)
  · intro h
    cases h with
    | decimal h =>
        unfold magnitude?
        split
        · exact absurd (by simp) h.not_mark
        · exact absurd (by simp) h.not_mark
        · exact absurd (by simp) h.not_mark
        · exact absurd (by simp) h.not_mark
        · exact (digitsValue?_eq_some_iff (by decide)).mpr h
    | hexadecimal hmark h =>
        have hvalue := (digitsValue?_eq_some_iff (by decide)).mpr h
        rcases hmark with rfl | rfl <;> exact hvalue
    | binary hmark h =>
        have hvalue := (digitsValue?_eq_some_iff (by decide)).mpr h
        rcases hmark with rfl | rfl <;> exact hvalue

/-- A literal is written in letters and digits, but for the sign. -/
theorem Literal.mem_cases {text : List Char} {value : Int} (h : Literal text value) :
    ∀ c ∈ text, c.isAlphanum = true ∨ c = '-' := by
  cases h with
  | plain h => exact fun c hc => Or.inl (h.isAlphanum c hc)
  | negated h => simpa using fun c hc => Or.inl (h.isAlphanum c hc)

theorem Literal.ne_nil {text : List Char} {value : Int} (h : Literal text value) : text ≠ [] := by
  cases h with
  | plain h => exact h.ne_nil
  | negated => exact List.cons_ne_nil _ _

/-- Exactly the integer literals are read, and each as the integer that it writes. -/
theorem integer?_eq_some_iff {text : List Char} {value : Int} :
    integer? text = some value ↔ Literal text value := by
  have hlimit : ∀ {body : List Char} {m : Nat},
      (magnitude? body).filter (· < magnitudeLimit) = some m ↔ Magnitude body m ∧ m < 2 ^ 63 := by
    intro body m
    have hlimit : magnitudeLimit = 2 ^ 63 := by decide +kernel
    rw [Option.filter_eq_some_iff, magnitude?_eq_some_iff, decide_eq_true_eq, hlimit]
  constructor
  · intro h
    unfold integer? at h
    split at h
    · obtain ⟨m, hm, rfl⟩ := Option.map_eq_some_iff.mp h
      exact .negated (hlimit.mp hm).1 (hlimit.mp hm).2
    · obtain ⟨m, hm, rfl⟩ := Option.map_eq_some_iff.mp h
      exact .plain (hlimit.mp hm).1 (hlimit.mp hm).2
  · intro h
    cases h with
    | plain h hlt =>
        unfold integer?
        split
        · exact absurd (h.isAlphanum '-' List.mem_cons_self) (by decide)
        · exact Option.map_eq_some_iff.mpr ⟨_, hlimit.mpr ⟨h, hlt⟩, rfl⟩
    | negated h hlt => exact Option.map_eq_some_iff.mpr ⟨_, hlimit.mpr ⟨h, hlt⟩, rfl⟩

/-! ## Decimal text -/

theorem isDigit_digitChar {value : Nat} (h : value < 10) : IsDigit 10 value.digitChar value := by
  have key : ∀ value : Fin 10, Nat.digitChar value = hexDigit value := by decide
  exact ⟨h, Or.inl (key ⟨value, h⟩)⟩

/-- A number is a numeral when it is printed in decimal digits. -/
theorem numeral_toDigits (value : Nat) : Numeral 10 (Nat.toDigits 10 value) value := by
  induction value using Nat.strongRecOn with
  | ind value ih =>
      rw [Nat.toDigits_eq_if (by decide)]
      split
      · next hlt => exact .digit (isDigit_digitChar hlt)
      · next hle =>
        have hfront := ih (value / 10) (by omega)
        have hlast := isDigit_digitChar (Nat.mod_lt value (by decide))
        have hvalue := Numeral.concat hfront hlast
        rwa [Nat.div_add_mod] at hvalue

/-- An integer is a literal of itself when it is printed in decimal digits. -/
theorem literal_repr {value : Int} (hlimit : value.natAbs < 2 ^ 63) :
    Literal value.repr.toList value := by
  rw [Int.repr_eq_if]
  split
  · next hpos =>
    have h := Literal.plain (.decimal (numeral_toDigits value.toNat)) (by omega)
    rwa [Int.toNat_of_nonneg hpos, ← Nat.toList_repr] at h
  · next hneg =>
    have h := Literal.negated (.decimal (numeral_toDigits (-value).toNat)) (by omega)
    rw [Int.toNat_of_nonneg (by omega), Int.neg_neg, ← Nat.toList_repr] at h
    rwa [String.toList_append]

end Backpatch.Text
