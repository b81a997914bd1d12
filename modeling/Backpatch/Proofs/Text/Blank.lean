import Backpatch.Proofs.Text.Split
import Backpatch.Text.Blank

/-!
# What trimming does

A text is blanks, then what trimming leaves, then blanks; and what trimming leaves is tight, that
is, it has no blank at either end. This determines it: `trim_eq_iff`.
-/

namespace Backpatch.Text

/-- A text of blanks. -/
def AllBlank (text : List Char) : Prop :=
  ∀ c ∈ text, isBlank c = true

theorem allBlank_nil : AllBlank [] :=
  fun _ hc => absurd hc List.not_mem_nil

theorem allBlank_singleton {c : Char} (h : isBlank c = true) : AllBlank [c] := by
  intro d hd
  rwa [List.mem_singleton.mp hd]

/-- A text with a blank at neither end. -/
structure Tight (text : List Char) : Prop where
  head : ∀ c ∈ text.head?, isBlank c = false
  last : ∀ c ∈ text.getLast?, isBlank c = false

/-- A text with blanks at both ends, and what it is without them. -/
inductive Trims : List Char → List Char → Prop
  | intro {before core after : List Char} (hbefore : AllBlank before) (hcore : Tight core)
      (hafter : AllBlank after) : Trims (before ++ core ++ after) core

/-- A text without blanks has none at its ends. -/
theorem Tight.of_forall {text : List Char} (h : ∀ c ∈ text, isBlank c = false) : Tight text :=
  ⟨fun c hc => h c (List.mem_of_mem_head? hc), fun c hc => h c (List.mem_of_mem_getLast? hc)⟩

/-- Letters and digits are no blanks. -/
theorem not_isBlank_of_isAlphanum {c : Char} (h : c.isAlphanum = true) : isBlank c = false := by
  have hcode : 48 ≤ c.toNat ∧ c.toNat < 123 := by
    rcases Bool.or_eq_true_iff.mp h with h | h
    · rcases Bool.or_eq_true_iff.mp h with h | h
      · have hrange : 65 ≤ c.toNat ∧ c.toNat ≤ 90 := of_decide_eq_true h
        omega
      · obtain ⟨hlow, hhigh⟩ := Bool.and_eq_true_iff.mp h
        have hlow : 97 ≤ c.toNat := of_decide_eq_true hlow
        have hhigh : c.toNat ≤ 122 := of_decide_eq_true hhigh
        omega
    · have hrange : 48 ≤ c.toNat ∧ c.toNat ≤ 57 := Char.isDigit_iff_toNat.mp h
      omega
  simp only [isBlank, blankRanges, List.any_cons, List.any_nil, Bool.or_false,
    Bool.or_eq_false_iff, Bool.and_eq_false_iff, decide_eq_false_iff_not]
  omega

/-- Trimming takes off nothing but blanks. -/
theorem Trims.mem_cases {text core : List Char} (h : Trims text core) :
    ∀ c ∈ text, c ∈ core ∨ isBlank c = true := by
  obtain ⟨hbefore, -, hafter⟩ := h
  intro c hc
  simp only [List.mem_append] at hc
  rcases hc with (hc | hc) | hc
  · exact Or.inr (hbefore c hc)
  · exact Or.inl hc
  · exact Or.inr (hafter c hc)

/-! ## One end -/

theorem trimStart_eq_iff {text rest : List Char} :
    trimStart text = rest ↔
      ∃ gap, AllBlank gap ∧ text = gap ++ rest ∧ ∀ c ∈ rest.head?, isBlank c = false := by
  have hspan : ∀ gap, text.span isBlank = (gap, rest) ↔
      text.takeWhile isBlank = gap ∧ trimStart text = rest := by
    intro gap
    rw [List.span_eq_takeWhile_dropWhile, Prod.mk.injEq, trimStart]
  constructor
  · intro h
    obtain ⟨htext, hgap, hrest⟩ := span_eq_iff.mp ((hspan _).mpr ⟨rfl, h⟩)
    exact ⟨_, hgap, htext, hrest⟩
  · rintro ⟨gap, hgap, htext, hrest⟩
    exact ((hspan gap).mp (span_eq_iff.mpr ⟨htext, hgap, hrest⟩)).2

/-- A text that does not start with a blank has none to lose in front. -/
theorem trimStart_eq_self {text : List Char} (h : ∀ c ∈ text.head?, isBlank c = false) :
    trimStart text = text :=
  trimStart_eq_iff.mpr ⟨[], allBlank_nil, rfl, h⟩

theorem trimEnd_eq_iff {text rest : List Char} :
    trimEnd text = rest ↔
      ∃ gap, AllBlank gap ∧ text = rest ++ gap ∧ ∀ c ∈ rest.getLast?, isBlank c = false := by
  rw [trimEnd, List.reverse_eq_iff, trimStart_eq_iff]
  simp only [List.head?_reverse]
  constructor
  · rintro ⟨gap, hgap, htext, hrest⟩
    refine ⟨gap.reverse, fun c hc => hgap c (List.mem_reverse.mp hc), ?_, hrest⟩
    rw [← List.reverse_reverse text, htext, List.reverse_append, List.reverse_reverse]
  · rintro ⟨gap, hgap, rfl, hrest⟩
    exact ⟨gap.reverse, fun c hc => hgap c (List.mem_reverse.mp hc), List.reverse_append, hrest⟩

theorem trimStart_append {gap : List Char} (h : AllBlank gap) (rest : List Char) :
    trimStart (gap ++ rest) = trimStart rest :=
  List.dropWhile_append_of_pos h

/-- Blanks are trimmed off in front up to a character that is none. -/
theorem trimStart_append_cons {c : Char} (h : isBlank c = false) (front back : List Char) :
    trimStart (front ++ c :: back) = trimStart front ++ c :: back := by
  induction front with
  | nil => simp [trimStart, h]
  | cons d front ih =>
      unfold trimStart at ih ⊢
      by_cases hd : isBlank d = true
      · simpa [List.dropWhile_cons_of_pos hd] using ih
      · simp [List.dropWhile_cons_of_neg hd]

/-- Blanks are trimmed off behind up to a character that is none. -/
theorem trimEnd_append_cons {c : Char} (h : isBlank c = false) (front back : List Char) :
    trimEnd (front ++ c :: back) = front ++ c :: trimEnd back := by
  unfold trimEnd
  rw [List.reverse_append, List.reverse_cons, List.append_assoc, List.singleton_append,
    trimStart_append_cons h]
  simp

/-- Blanks in front do not matter to trimming. -/
theorem trim_append {gap : List Char} (h : AllBlank gap) (rest : List Char) :
    trim (gap ++ rest) = trim rest := by
  rw [trim, trimStart_append h, trim]

/-! ## Both ends -/

/-- Trimming takes the blanks off both ends, and nothing else. -/
theorem trim_eq_iff {text core : List Char} : trim text = core ↔ Trims text core := by
  constructor
  · intro h
    obtain ⟨after, hafter, hstart, hlast⟩ := trimEnd_eq_iff.mp h
    obtain ⟨before, hbefore, htext, hhead⟩ := trimStart_eq_iff.mp hstart
    rw [htext, ← List.append_assoc]
    refine .intro hbefore ⟨fun c hc => hhead c ?_, hlast⟩ hafter
    rw [List.head?_append, Option.mem_def.mp hc]
    rfl
  · rintro ⟨hbefore, hcore, hafter⟩
    rename_i before after
    rw [List.append_assoc, trim_append hbefore, trim]
    cases core with
    | nil =>
        have hall := trimStart_append hafter []
        rw [List.append_nil] at hall
        rw [List.nil_append, hall]
        rfl
    | cons c rest =>
        have hstart : trimStart (c :: rest ++ after) = c :: rest ++ after :=
          trimStart_eq_self hcore.head
        rw [hstart]
        exact trimEnd_eq_iff.mpr ⟨after, hafter, rfl, hcore.last⟩

/-- Further blanks behind a text are trimmed off with those that it has. -/
theorem Trims.append_right {text core gap : List Char} (h : Trims text core)
    (hgap : AllBlank gap) : Trims (text ++ gap) core := by
  obtain ⟨hbefore, hcore, hafter⟩ := h
  rw [List.append_assoc]
  exact .intro hbefore hcore fun c hc => (List.mem_append.mp hc).elim (hafter c) (hgap c)

/-- Blanks behind do not matter to trimming. -/
theorem trim_append_right {gap : List Char} (h : AllBlank gap) (text : List Char) :
    trim (text ++ gap) = trim text :=
  trim_eq_iff.mpr ((trim_eq_iff.mp rfl).append_right h)

/-- The two ends can be trimmed in either order. -/
theorem trimStart_trimEnd (text : List Char) : trimStart (trimEnd text) = trim text := by
  obtain ⟨after, hafter, htext, hlast⟩ := trimEnd_eq_iff.mp (Eq.refl (trimEnd text))
  obtain ⟨before, hbefore, hend, hhead⟩ := trimStart_eq_iff.mp (Eq.refl (trimStart (trimEnd text)))
  have hcore : Tight (trimStart (trimEnd text)) := by
    refine ⟨hhead, fun c hc => hlast c ?_⟩
    rw [hend, List.getLast?_append, Option.mem_def.mp hc]
    rfl
  have htrims := Trims.intro hbefore hcore hafter
  rw [← hend, ← htext] at htrims
  exact (trim_eq_iff.mpr htrims).symm

/-- A text that does not start with a blank has blanks to lose behind only. -/
theorem exists_trailing {text : List Char} (h : ∀ c ∈ text.head?, isBlank c = false) :
    ∃ gap, AllBlank gap ∧ text = trim text ++ gap := by
  have htrim : trimEnd text = trim text := by rw [trim, trimStart_eq_self h]
  obtain ⟨gap, hgap, htext, -⟩ := trimEnd_eq_iff.mp htrim
  exact ⟨gap, hgap, htext⟩

/-- What trimming leaves is not trimmed further. -/
theorem Tight.trim_eq {text : List Char} (h : Tight text) : trim text = text := by
  simpa using trim_eq_iff.mpr (.intro allBlank_nil h allBlank_nil)

/-! ## What is left as a part of the text -/

theorem suffix_trimStart (text : List Char) : trimStart text <:+ text :=
  List.dropWhile_suffix isBlank

theorem prefix_trimEnd (text : List Char) : trimEnd text <+: text := by
  have hsuffix := suffix_trimStart text.reverse
  rwa [← List.reverse_prefix, List.reverse_reverse] at hsuffix

theorem infix_trim (text : List Char) : trim text <:+: text :=
  (prefix_trimEnd _).isInfix.trans (suffix_trimStart text).isInfix

end Backpatch.Text
