import Backpatch.Proofs.Text.Blank
import Backpatch.Proofs.Text.Literal
import Mathlib.Data.Nat.Digits.Defs

/-!
# Integer literals in positional notation

An integer literal written out: a sign or none, a mark of the base or none, and at least one digit.
`Writing` holds these parts, with `Nat.ofDigits` as the number that the digits mean by their places.

* `numeral_iff`, `magnitude_iff`: the numerals and magnitudes of the grammar mean the same number by
  the places of their digits.
* `integer?_text`: a text put together from its parts is read as its value, unless the magnitude is
  too large.
* `ReadsExactly`: what this means for every text, those that are refused among them.
-/

namespace Backpatch.Text

/-! ## The parts of a literal -/

/-- The marks that may stand in front of digits, the empty one first, each with its base. -/
def baseMarks : List (List Char × Nat) :=
  [([], 10), (['0', 'x'], 16), (['0', 'X'], 16), (['0', 'b'], 2), (['0', 'B'], 2)]

/-- An integer as it is written: a sign, the mark of a base, and digits of that base with their
values. -/
structure Writing where
  /-- Whether a `-` stands in front. -/
  negative : Bool
  mark : List Char
  base : Nat
  /-- The digits, the most significant one first. -/
  digits : List (Char × Nat)
  marked : (mark, base) ∈ baseMarks
  ne_nil : digits ≠ []
  spelled : ∀ digit ∈ digits, IsDigit base digit.1 digit.2

namespace Writing

/-- The text behind the sign. -/
def body (writing : Writing) : List Char :=
  writing.mark ++ writing.digits.map Prod.fst

/-- The whole text. -/
def text (writing : Writing) : List Char :=
  if writing.negative then '-' :: writing.body else writing.body

/-- The number that the digits mean by their places. -/
def magnitude (writing : Writing) : Nat :=
  Nat.ofDigits writing.base (writing.digits.map Prod.snd).reverse

/-- The integer that is written. -/
def value (writing : Writing) : Int :=
  if writing.negative then -(writing.magnitude : Int) else writing.magnitude

end Writing

/-! ## Places -/

/-- A numeral is a row of digits, and its value is the number that they mean by their places. -/
theorem numeral_iff {base : Nat} {text : List Char} {value : Nat} :
    Numeral base text value ↔
      ∃ digits : List (Char × Nat), digits ≠ [] ∧ (∀ digit ∈ digits, IsDigit base digit.1 digit.2) ∧
        digits.map Prod.fst = text ∧ Nat.ofDigits base (digits.map Prod.snd).reverse = value := by
  constructor
  · intro h
    induction h with
    | @digit c value h => exact ⟨[(c, value)], by simp, by simpa using h, rfl, by simp⟩
    | @concat front value c last hfront h ih =>
        obtain ⟨digits, -, hdigits, rfl, rfl⟩ := ih
        refine ⟨digits ++ [(c, last)], by simp, ?_, by simp, ?_⟩
        · intro digit hmem
          rcases List.mem_append.mp hmem with hmem | hmem
          · exact hdigits digit hmem
          · rw [List.mem_singleton.mp hmem]
            exact h
        · rw [List.map_append, List.map_singleton, List.reverse_append, List.reverse_singleton,
            List.singleton_append, Nat.ofDigits_cons]
          exact Nat.add_comm _ _
  · rintro ⟨digits, hne, hdigits, rfl, rfl⟩
    induction digits using List.reverseRecOn with
    | nil => exact absurd rfl hne
    | append_singleton front last ih =>
        have hlast := hdigits last (by simp)
        rw [List.map_append, List.map_append, List.map_singleton, List.map_singleton,
          List.reverse_append, List.reverse_singleton, List.singleton_append, Nat.ofDigits_cons]
        cases front with
        | nil => simpa using Numeral.digit hlast
        | cons first rest =>
            have hfront := ih (List.cons_ne_nil _ _) fun digit hmem =>
              hdigits digit (List.mem_append_left _ hmem)
            rw [Nat.add_comm]
            exact .concat hfront hlast

/-- A magnitude is a mark and digits of its base. -/
theorem magnitude_iff {text : List Char} {value : Nat} :
    Magnitude text value ↔
      ∃ mark base digits, (mark, base) ∈ baseMarks ∧ Numeral base digits value ∧
        text = mark ++ digits := by
  constructor
  · intro h
    cases h with
    | decimal h => exact ⟨[], 10, text, by simp [baseMarks], h, rfl⟩
    | @hexadecimal mark digits _ hmark h =>
        refine ⟨['0', mark], 16, digits, ?_, h, rfl⟩
        rcases hmark with rfl | rfl <;> simp [baseMarks]
    | @binary mark digits _ hmark h =>
        refine ⟨['0', mark], 2, digits, ?_, h, rfl⟩
        rcases hmark with rfl | rfl <;> simp [baseMarks]
  · rintro ⟨mark, base, digits, hmark, h, rfl⟩
    simp only [baseMarks, List.mem_cons, Prod.mk.injEq, List.not_mem_nil, or_false] at hmark
    rcases hmark with ⟨rfl, rfl⟩ | ⟨rfl, rfl⟩ | ⟨rfl, rfl⟩ | ⟨rfl, rfl⟩ | ⟨rfl, rfl⟩
    · exact .decimal h
    · exact .hexadecimal (Or.inl rfl) h
    · exact .hexadecimal (Or.inr rfl) h
    · exact .binary (Or.inl rfl) h
    · exact .binary (Or.inr rfl) h

namespace Writing

/-- What stands behind the sign is a magnitude, with the number that its digits mean. -/
theorem magnitude_body (writing : Writing) : Magnitude writing.body writing.magnitude :=
  magnitude_iff.mpr ⟨writing.mark, writing.base, _, writing.marked,
    numeral_iff.mpr ⟨writing.digits, writing.ne_nil, writing.spelled, rfl, rfl⟩, rfl⟩

/-- Every magnitude can be written with a sign and without one. -/
theorem exists_of_magnitude {body : List Char} {value : Nat} (h : Magnitude body value)
    (negative : Bool) :
    ∃ writing : Writing, writing.negative = negative ∧ writing.body = body ∧
      writing.magnitude = value := by
  obtain ⟨mark, base, _, hmark, hnumeral, rfl⟩ := magnitude_iff.mp h
  obtain ⟨digits, hne, hdigits, rfl, rfl⟩ := numeral_iff.mp hnumeral
  exact ⟨⟨negative, mark, base, digits, hmark, hne, hdigits⟩, rfl, rfl, rfl⟩

/-- The literals are the texts of those writings whose magnitude is not too large. -/
theorem literal_iff {text : List Char} {value : Int} :
    Literal text value ↔
      ∃ writing : Writing, writing.text = text ∧ writing.magnitude ≤ 2 ^ 63 - 1 ∧
        writing.value = value := by
  constructor
  · intro h
    cases h with
    | plain h hlimit =>
        obtain ⟨writing, hsign, rfl, rfl⟩ := exists_of_magnitude h false
        exact ⟨writing, by simp [Writing.text, hsign], by omega, by simp [Writing.value, hsign]⟩
    | negated h hlimit =>
        obtain ⟨writing, hsign, rfl, rfl⟩ := exists_of_magnitude h true
        exact ⟨writing, by simp [Writing.text, hsign], by omega, by simp [Writing.value, hsign]⟩
  · rintro ⟨writing, rfl, hlimit, rfl⟩
    unfold Writing.text Writing.value
    cases writing.negative with
    | false => exact .plain writing.magnitude_body (by omega)
    | true => exact .negated writing.magnitude_body (by omega)

end Writing

/-! ## Reading -/

/-- No magnitude holds a sign. -/
theorem Magnitude.not_minus {text : List Char} {value : Nat} (h : Magnitude text value) :
    '-' ∉ text :=
  fun hmem => absurd (h.isAlphanum '-' hmem) (by decide)

/-- A text put together from its parts is read as its value, unless the magnitude is too large. -/
theorem integer?_text (writing : Writing) :
    integer? writing.text =
      if writing.magnitude ≤ 2 ^ 63 - 1 then some writing.value else none := by
  have hbody : (magnitude? writing.body).filter (· < magnitudeLimit) =
      if writing.magnitude ≤ 2 ^ 63 - 1 then some writing.magnitude else none := by
    rw [magnitude?_eq_some_iff.mpr writing.magnitude_body, Option.filter_some]
    refine if_congr ?_ rfl rfl
    rw [decide_eq_true_eq, magnitudeLimit]
    omega
  have hminus := writing.magnitude_body.not_minus
  unfold Writing.text Writing.value
  cases writing.negative with
  | true =>
      simp only [if_true, integer?, hbody]
      split
      · rfl
      · rfl
  | false =>
      simp only [Bool.false_eq_true, if_false]
      unfold integer?
      split
      · next heq => exact absurd (heq ▸ List.mem_cons_self) hminus
      · rw [hbody]
        split
        · rfl
        · rfl

namespace Literal

variable {text : List Char} {value : Int}

/-- A literal holds neither `+` nor a blank. -/
theorem not_foreign (h : Literal text value) {c : Char} (hc : c ∈ text) :
    ¬(c = '+' ∨ isBlank c = true) := by
  rcases h.mem_cases c hc with halphanum | rfl
  · rintro (rfl | hblank)
    · exact absurd halphanum (by decide)
    · rw [not_isBlank_of_isAlphanum halphanum] at hblank
      cases hblank
  · decide

/-- The sign of a literal is its first character. -/
theorem minus_not_mem_tail (h : Literal text value) : '-' ∉ text.tail := by
  cases h with
  | plain h => exact fun hmem => h.not_minus (List.mem_of_mem_tail hmem)
  | negated h => exact h.not_minus

/-- The value of a literal and its negation have 64 bits. -/
theorem range (h : Literal text value) : -(2 ^ 63) < value ∧ value < 2 ^ 63 := by
  cases h with
  | plain h hlimit => omega
  | negated h hlimit => omega

end Literal

/-- A sign and a mark are no integer without digits. -/
theorem integer?_bare {mark : List Char} {base : Nat} (h : (mark, base) ∈ baseMarks) :
    integer? mark = none ∧ integer? ('-' :: mark) = none := by
  simp only [baseMarks, List.mem_cons, Prod.mk.injEq, List.not_mem_nil, or_false] at h
  rcases h with ⟨rfl, -⟩ | ⟨rfl, -⟩ | ⟨rfl, -⟩ | ⟨rfl, -⟩ | ⟨rfl, -⟩ <;> decide

/-- What a reader of integers makes of a text. -/
structure ReadsExactly (text : List Char) (outcome : Option Int) : Prop where
  /-- It returns an integer exactly when the text is written with a magnitude below `2 ^ 63`, and
  the integer is the value of the writing. -/
  some_iff : ∀ value, outcome = some value ↔
    ∃ writing : Writing, writing.text = text ∧ writing.magnitude ≤ 2 ^ 63 - 1 ∧
      writing.value = value
  /-- Any other text is refused. -/
  none_iff : outcome = none ↔
    ∀ writing : Writing, writing.text = text → 2 ^ 63 ≤ writing.magnitude
  /-- A magnitude from `2 ^ 63` on is refused, also behind a sign. -/
  limit : ∀ writing : Writing, writing.text = text → 2 ^ 63 ≤ writing.magnitude → outcome = none
  /-- A sign or a mark without digits is refused, and so is the empty text. -/
  bare : ∀ mark base, (mark, base) ∈ baseMarks → text = mark ∨ text = '-' :: mark → outcome = none
  /-- A `+` or a blank anywhere is refused. -/
  foreign : ∀ c ∈ text, c = '+' ∨ isBlank c = true → outcome = none
  /-- A sign behind the first character is refused. -/
  sign : '-' ∈ text.tail → outcome = none
  /-- An integer that is returned and its negation both have 64 bits. -/
  range : ∀ value, outcome = some value → -(2 ^ 63) < value ∧ value < 2 ^ 63

/-- Integers are read exactly: which texts are, as which integers, and which texts are refused. And
every integer from `-(2 ^ 63 - 1)` to `2 ^ 63 - 1` is read back from its decimal text. -/
theorem integer?_readsExactly :
    (∀ text, ReadsExactly text (integer? text)) ∧
      ∀ value : Int, -(2 ^ 63 - 1) ≤ value → value ≤ 2 ^ 63 - 1 →
        integer? (toString value).toList = some value := by
  refine ⟨fun text => ?_, fun value hlow hhigh => ?_⟩
  · have hsome : ∀ value, integer? text = some value ↔
        ∃ writing : Writing, writing.text = text ∧ writing.magnitude ≤ 2 ^ 63 - 1 ∧
          writing.value = value :=
      fun value => integer?_eq_some_iff.trans Writing.literal_iff
    have hlimit : ∀ writing : Writing, writing.text = text → 2 ^ 63 ≤ writing.magnitude →
        integer? text = none := by
      rintro writing rfl hlarge
      rw [integer?_text, if_neg (by omega)]
    have hrefused : (∀ value, ¬Literal text value) → integer? text = none := fun h =>
      Option.eq_none_iff_forall_ne_some.mpr fun value hvalue =>
        h value (integer?_eq_some_iff.mp hvalue)
    refine ⟨hsome, ⟨?_, ?_⟩, hlimit, ?_, ?_, ?_, ?_⟩
    · rintro hnone writing rfl
      rw [integer?_text] at hnone
      split at hnone
      · cases hnone
      · omega
    · intro h
      rw [Option.eq_none_iff_forall_ne_some]
      intro value hvalue
      obtain ⟨writing, htext, hsmall, -⟩ := (hsome value).mp hvalue
      have hlarge := h writing htext
      omega
    · rintro mark base hmark (rfl | rfl)
      · exact (integer?_bare hmark).1
      · exact (integer?_bare hmark).2
    · exact fun c hc hforeign => hrefused fun value h => h.not_foreign hc hforeign
    · exact fun hminus => hrefused fun value h => h.minus_not_mem_tail hminus
    · exact fun value hvalue => (integer?_eq_some_iff.mp hvalue).range
  · exact integer?_eq_some_iff.mpr (literal_repr (by omega))

/-- The least integer that is read, in decimal digits, and the one below it, which is refused, in
hexadecimal digits. -/
theorem integer?_readsExactly_least :
    integer? "-9223372036854775807".toList = some (-9223372036854775807) ∧
      ∃ writing : Writing, writing.text = "-0x8000000000000000".toList ∧
        2 ^ 63 ≤ writing.magnitude ∧ integer? "-0x8000000000000000".toList = none := by
  obtain ⟨hexact, hprinted⟩ := integer?_readsExactly
  have htext : toString (-9223372036854775807 : Int) = "-9223372036854775807" := by decide +kernel
  have hleast := hprinted (-9223372036854775807) (by decide) (by decide)
  rw [htext] at hleast
  refine ⟨hleast, ?_⟩
  let writing : Writing := {
    negative := true
    mark := ['0', 'x']
    base := 16
    digits := ('8', 8) :: List.replicate 15 ('0', 0)
    marked := by decide
    ne_nil := List.cons_ne_nil _ _
    spelled := by unfold IsDigit; decide }
  have hspelled : writing.text = "-0x8000000000000000".toList := by decide
  have hlarge : 2 ^ 63 ≤ writing.magnitude := by decide
  exact ⟨writing, hspelled, hlarge, (hexact _).limit writing hspelled hlarge⟩

end Backpatch.Text
