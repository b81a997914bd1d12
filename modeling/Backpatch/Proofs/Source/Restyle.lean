import Backpatch.Proofs.Source.Grammar
import Mathlib

/-!
# Lines laid out in another way

What a line says, or what it is refused for, does not depend on how the line is laid out. It stays
the same when a comment is put behind the line, when blanks are put at either end, and when letters
of the mnemonic are written in the other case (`Restyled.parse_eq`). And a row of labels can be cut
off in front: the line says these labels, and then what the rest of it says
(`LabelRow.parse_append`).

The mnemonic is told by where it stands (`CutAtMnemonic`), also in lines that are refused. Every line
that says more than labels has one: `exists_cutAtMnemonic`.
-/

namespace Backpatch

open Text

/-! ## The case of letters -/

namespace Text

section Case

variable {c mark : Char}

/-- Lowering changes upper-case letters only, and makes letters of them. -/
theorem toLower_cases (c : Char) :
    c.toLower = c ∨ c.isAlpha = true ∧ c.toLower.isAlpha = true := by
  by_cases hupper : c.isUpper = true
  · have halpha : c.isAlpha = true := by rw [Char.isAlpha, hupper, Bool.true_or]
    exact Or.inr ⟨halpha, by rw [Char.isAlpha_toLower_eq_isAlpha, halpha]⟩
  · exact Or.inl (Char.toLower_eq_of_not_isUpper hupper)

/-- What is said of letters alike is not changed by lowering. -/
theorem apply_toLower {α : Type} {f : Char → α} {value : α}
    (h : ∀ c : Char, c.isAlpha = true → f c = value) (c : Char) : f c.toLower = f c := by
  rcases toLower_cases c with hc | ⟨hc, hlower⟩
  · rw [hc]
  · rw [h c hc, h c.toLower hlower]

theorem isAlphanum_of_isAlpha (h : c.isAlpha = true) : c.isAlphanum = true := by
  rw [Char.isAlphanum, h, Bool.true_or]

theorem isBlank_toLower (c : Char) : isBlank c.toLower = isBlank c :=
  apply_toLower (fun _ hc => not_isBlank_of_isAlphanum (isAlphanum_of_isAlpha hc)) c

theorem isLabelStart_toLower (c : Char) :
    Operand.isLabelStart c.toLower = Operand.isLabelStart c :=
  apply_toLower (fun c hc => by rw [Operand.isLabelStart, hc, Bool.true_or, Bool.true_or]) c

theorem isLabelChar_toLower (c : Char) : Operand.isLabelChar c.toLower = Operand.isLabelChar c :=
  apply_toLower (fun c hc => by
    rw [Operand.isLabelChar, isAlphanum_of_isAlpha hc, Bool.true_or, Bool.true_or]) c

/-- A character that is no letter is never the lower case of another one. -/
theorem toLower_eq_iff (h : mark.isAlpha = false) : c.toLower = mark ↔ c = mark := by
  have hmark : ∀ c : Char, c.isAlpha = true → decide (c = mark) = false := by
    intro c hc
    refine decide_eq_false ?_
    rintro rfl
    rw [h] at hc
    cases hc
  have heq := apply_toLower (f := fun c => decide (c = mark)) hmark c
  rwa [decide_eq_decide] at heq

end Case

/-- What holds of the characters of a text, whatever their case, holds in any other case. -/
theorem forall_of_map_toLower {kind : Char → Prop} (hkind : ∀ c, kind c.toLower ↔ kind c)
    {text other : List Char} (hcase : other.map Char.toLower = text.map Char.toLower)
    (h : ∀ c ∈ text, kind c) : ∀ c ∈ other, kind c := by
  intro c hc
  have hlower := List.mem_map_of_mem (f := Char.toLower) hc
  rw [hcase] at hlower
  obtain ⟨d, hd, heq⟩ := List.mem_map.mp hlower
  rw [← hkind, ← heq, hkind]
  exact h d hd

theorem trim_map_toLower (text : List Char) :
    trim (text.map Char.toLower) = (trim text).map Char.toLower := by
  have hblank : isBlank ∘ Char.toLower = isBlank := funext isBlank_toLower
  have hstart : ∀ text : List Char,
      trimStart (text.map Char.toLower) = (trimStart text).map Char.toLower := by
    intro text
    unfold trimStart
    rw [List.dropWhile_map, hblank]
  unfold trim trimEnd
  rw [hstart, ← List.map_reverse, hstart, List.map_reverse]

theorem isLabelName_map_toLower (text : List Char) :
    Operand.isLabelName (text.map Char.toLower) = Operand.isLabelName text := by
  cases text with
  | nil => rfl
  | cons first rest =>
      rw [List.map_cons, Operand.isLabelName, Operand.isLabelName, isLabelStart_toLower,
        List.all_map]
      exact congrArg (fun kind => _ && rest.all kind) (funext isLabelChar_toLower)

end Text

namespace SourceLine

/-- Whether a text starts with a label does not depend on the case of its letters. -/
theorem StartsWithLabel.of_map_toLower {text other : List Char} (h : StartsWithLabel text)
    (hcase : other.map Char.toLower = text.map Char.toLower) : StartsWithLabel other := by
  obtain ⟨piece, rest, rfl, hcolon, hname⟩ := h
  rw [List.map_append, List.map_cons, List.map_eq_append_iff] at hcase
  obtain ⟨piece', back, rfl, hpiece, hback⟩ := hcase
  obtain ⟨c, rest', rfl, hc, -⟩ := List.map_eq_cons_iff.mp hback
  obtain rfl : c = ':' := (toLower_eq_iff (by decide)).mp hc
  refine ⟨piece', rest', rfl, ?_, ?_⟩
  · have hnot : ∀ c ∈ piece, c ≠ ':' := fun c hc heq => hcolon (heq ▸ hc)
    have hkind : ∀ c : Char, c.toLower ≠ ':' ↔ c ≠ ':' := fun c =>
      not_congr (toLower_eq_iff (by decide))
    exact fun hmem => forall_of_map_toLower hkind hpiece hnot ':' hmem rfl
  · rw [← Operand.isLabelName_iff, ← isLabelName_map_toLower, ← trim_map_toLower, hpiece,
      trim_map_toLower, isLabelName_map_toLower, Operand.isLabelName_iff]
    exact hname

/-! ## In front of the comment -/

/-- A character that starts a comment. -/
def IsMark (c : Char) : Prop :=
  c = '#' ∨ c = ';'

/-- The part of a line in front of its comment. -/
def uncommented (line : List Char) : List Char :=
  line.takeWhile fun c => c ≠ '#' ∧ c ≠ ';'

theorem code_eq_trim (line : List Char) : code line = trim (uncommented line) :=
  rfl

theorem uncommented_append {front : List Char} (h : ∀ c ∈ front, ¬IsMark c) (rest : List Char) :
    uncommented (front ++ rest) = front ++ uncommented rest :=
  List.takeWhile_append_of_pos fun c hc => decide_eq_true (not_or.mp (h c hc))

theorem uncommented_cons {c : Char} (h : ¬IsMark c) (rest : List Char) :
    uncommented (c :: rest) = c :: uncommented rest :=
  List.takeWhile_cons_of_pos (decide_eq_true (not_or.mp h))

theorem uncommented_cons_mark {mark : Char} (h : IsMark mark) (text : List Char) :
    uncommented (mark :: text) = [] :=
  List.takeWhile_cons_of_neg (by simpa [IsMark, or_iff_not_imp_left] using h)

/-- Only a line that has no comment yet gets longer in front of it. -/
theorem uncommented_append_cases (line rest : List Char) :
    uncommented (line ++ rest) = uncommented line ∨
      uncommented (line ++ rest) = uncommented line ++ uncommented rest := by
  induction line with
  | nil => exact Or.inr rfl
  | cons c line ih =>
      by_cases hc : IsMark c
      · left
        rw [List.cons_append, uncommented_cons_mark hc, uncommented_cons_mark hc]
      · rw [List.cons_append, uncommented_cons hc, uncommented_cons hc]
        exact ih.imp (congrArg _) (congrArg _)

theorem not_isMark_of_isBlank {c : Char} (h : isBlank c = true) : ¬IsMark c := by
  rintro (rfl | rfl)
  · exact absurd h (by decide)
  · exact absurd h (by decide)

theorem not_isMark_of_not_mem {c : Char} (h : c ∉ Operand.separators) : ¬IsMark c := by
  rintro (rfl | rfl)
  · exact h (by decide)
  · exact h (by decide)

theorem code_append_comment {mark : Char} (h : IsMark mark) (line text : List Char) :
    code (line ++ mark :: text) = code line := by
  rw [code_eq_trim, code_eq_trim]
  rcases uncommented_append_cases line (mark :: text) with heq | heq
  · rw [heq]
  · rw [heq, uncommented_cons_mark h, List.append_nil]

theorem code_append_left {gap : List Char} (h : AllBlank gap) (line : List Char) :
    code (gap ++ line) = code line := by
  rw [code_eq_trim, uncommented_append (fun c hc => not_isMark_of_isBlank (h c hc)),
    trim_append h, code_eq_trim]

theorem code_append_right {gap : List Char} (h : AllBlank gap) (line : List Char) :
    code (line ++ gap) = code line := by
  have hgap : uncommented gap = gap := by
    have happend := uncommented_append (fun c hc => not_isMark_of_isBlank (h c hc)) []
    have hnil : uncommented [] = [] := rfl
    rwa [hnil, List.append_nil] at happend
  rw [code_eq_trim, code_eq_trim]
  rcases uncommented_append_cases line gap with heq | heq
  · rw [heq]
  · rw [heq, hgap, trim_append_right h]

theorem parse_eq_of_code {line other : List Char} (h : code other = code line) :
    parse other = parse line := by
  unfold parse
  rw [h]

/-! ## Labels in front -/

/-- Labels, each with its colon, and blanks around them. -/
inductive LabelRow : List Char → Prop
  | blank {gap : List Char} (hgap : AllBlank gap) : LabelRow gap
  | label {piece rest : List Char} (hname : Operand.IsName (trim piece))
      (hrest : LabelRow rest) : LabelRow (piece ++ ':' :: rest)

/-- A label with blanks around it holds neither a colon nor a mark. -/
theorem not_mem_separators_of_name {piece : List Char} (hname : Operand.IsName (trim piece)) :
    ∀ c ∈ piece, c ∉ Operand.separators :=
  Operand.not_mem_separators_of_trims (trim_eq_iff.mp rfl) hname.solid.not_mem

/-- A label in front of a line is taken off, and the rest is read as a line. -/
theorem splitLabels_code_label {piece : List Char} (hname : Operand.IsName (trim piece))
    (rest : List Char) :
    splitLabels (code (piece ++ ':' :: rest)) =
      (String.ofList (trim piece) :: (splitLabels (code rest)).1, (splitLabels (code rest)).2) := by
  have hpiece := not_mem_separators_of_name hname
  have hmark : ∀ c ∈ piece ++ [':'], ¬IsMark c := by
    intro c hc
    rcases List.mem_append.mp hc with hc | hc
    · exact not_isMark_of_not_mem (hpiece c hc)
    · rw [List.mem_singleton.mp hc]
      rintro (h | h)
      · cases h
      · cases h
  have hcolon : ':' ∉ trimStart piece := fun hmem =>
    hpiece _ ((List.dropWhile_sublist _).subset hmem) (by decide)
  have htrim : trim (trimStart piece) = trim piece := by
    rw [trim, trimStart_trimStart, trim]
  have hcode : code (piece ++ ':' :: rest) =
      trimStart piece ++ ':' :: trimEnd (uncommented rest) := by
    rw [code_eq_trim, ← List.singleton_append, ← List.append_assoc, uncommented_append hmark,
      List.append_assoc, List.singleton_append, trim, trimStart_append_cons (by decide),
      trimEnd_append_cons (by decide)]
  have hrest : splitLabels (trimEnd (uncommented rest)) = splitLabels (code rest) := by
    obtain ⟨gap, hgap, htext, -⟩ :=
      trimStart_eq_iff.mp (trimStart_trimEnd (uncommented rest))
    rw [htext, splitLabels_append hgap, code_eq_trim]
  rw [hcode, splitLabels_label hcolon (by rwa [htrim]), htrim, hrest]

/-- A line with a label in front says the label, and then what the rest of it says. -/
theorem parse_label {piece : List Char} (hname : Operand.IsName (trim piece)) (rest : List Char) :
    parse (piece ++ ':' :: rest) = (parse rest).map fun parsed =>
      { parsed with labels := String.ofList (trim piece) :: parsed.labels } := by
  unfold parse
  rw [splitLabels_code_label hname]
  generalize splitLabels (code rest) = parts
  obtain ⟨labels, text⟩ := parts
  simp only
  split
  · rfl
  · cases readStatement text <;> rfl

theorem parse_of_allBlank {gap : List Char} (h : AllBlank gap) : parse gap = .ok {} := by
  have hcode := code_append_left h []
  rw [List.append_nil] at hcode
  rw [parse_eq_of_code hcode]
  rfl

/-- A row of labels says these labels, and the same in front of any line. -/
theorem LabelRow.parse_append {front : List Char} (h : LabelRow front) :
    ∃ labels, parse front = .ok { labels } ∧ ∀ rest, parse (front ++ rest) =
      (parse rest).map fun parsed => { parsed with labels := labels ++ parsed.labels } := by
  induction h with
  | blank hgap =>
      refine ⟨[], parse_of_allBlank hgap, fun rest => ?_⟩
      rw [parse_eq_of_code (code_append_left hgap rest)]
      cases parse rest <;> rfl
  | @label piece row hname hrow ih =>
      obtain ⟨labels, hparse, happend⟩ := ih
      refine ⟨String.ofList (trim piece) :: labels, ?_, fun rest => ?_⟩
      · rw [parse_label hname, hparse]
        rfl
      · rw [List.append_assoc, List.cons_append, parse_label hname, happend]
        cases parse rest <;> rfl

/-! ## The mnemonic -/

/-- A text that can be a mnemonic: it has no blank and starts no comment. -/
structure Wordlike (text : List Char) : Prop where
  ne_nil : text ≠ []
  not_blank : ∀ c ∈ text, isBlank c = false
  not_mark : ∀ c ∈ text, ¬IsMark c

theorem Wordlike.of_solid {text : List Char} (h : Operand.Solid text) : Wordlike text :=
  ⟨h.ne_nil, h.not_blank, fun c hc => not_isMark_of_not_mem (h.not_mem c hc)⟩

/-- A line cut around its mnemonic: labels stand in front of it and none where it starts, and behind
it stands a blank, a comment or nothing. -/
structure CutAtMnemonic (front mnemonic tail : List Char) : Prop where
  labels : LabelRow front
  wordlike : Wordlike mnemonic
  behind : ∀ c ∈ tail.head?, isBlank c = true ∨ IsMark c
  not_label : ¬StartsWithLabel (code (mnemonic ++ tail))

/-- Letters of a text in the other case leave it wordlike. -/
theorem Wordlike.of_map_toLower {text other : List Char} (h : Wordlike text)
    (hcase : other.map Char.toLower = text.map Char.toLower) : Wordlike other := by
  have hblank : ∀ c : Char, isBlank c.toLower = false ↔ isBlank c = false := fun c => by
    rw [isBlank_toLower]
  have hmark : ∀ c : Char, ¬IsMark c.toLower ↔ ¬IsMark c := fun c =>
    not_congr (or_congr (toLower_eq_iff (by decide)) (toLower_eq_iff (by decide)))
  refine ⟨?_, forall_of_map_toLower hblank hcase h.not_blank,
    forall_of_map_toLower hmark hcase h.not_mark⟩
  rintro rfl
  exact h.ne_nil (List.map_eq_nil_iff.mp hcase.symm)

theorem Wordlike.head {mnemonic : List Char} (h : Wordlike mnemonic) (tail : List Char) :
    ∀ c ∈ (mnemonic ++ tail).head?, isBlank c = false := by
  rw [List.head?_append_of_ne_nil _ h.ne_nil]
  exact fun c hc => h.not_blank c (List.mem_of_mem_head? hc)

/-- The code of a line that starts with its mnemonic. -/
theorem Wordlike.code_append {mnemonic : List Char} (h : Wordlike mnemonic) (tail : List Char) :
    code (mnemonic ++ tail) = mnemonic ++ trimEnd (uncommented tail) := by
  obtain ⟨front, last, hmnemonic⟩ := List.eq_nil_or_concat' mnemonic |>.resolve_left h.ne_nil
  have hlast : isBlank last = false := h.not_blank last (by simp [hmnemonic])
  rw [code_eq_trim, uncommented_append h.not_mark, trim, trimStart_eq_self (h.head _), hmnemonic,
    List.append_assoc, List.singleton_append, trimEnd_append_cons hlast, List.append_assoc,
    List.singleton_append]

/-- The text behind a mnemonic starts with a blank if there is any. -/
theorem head?_trimEnd_uncommented {tail : List Char}
    (h : ∀ c ∈ tail.head?, isBlank c = true ∨ IsMark c) :
    ∀ c ∈ (trimEnd (uncommented tail)).head?, isBlank c = true := by
  intro c hc
  obtain ⟨gap, -, htext, -⟩ := trimEnd_eq_iff.mp (Eq.refl (trimEnd (uncommented tail)))
  have huncommented : c ∈ (uncommented tail).head? := by
    rw [htext, List.head?_append, Option.mem_def.mp hc]
    rfl
  cases tail with
  | nil => cases huncommented
  | cons d tail =>
      rcases h d rfl with hblank | hmark
      · rw [uncommented_cons (not_isMark_of_isBlank hblank)] at huncommented
        obtain rfl : d = c := Option.some.inj huncommented
        exact hblank
      · rw [uncommented_cons_mark hmark] at huncommented
        cases huncommented

/-- What a statement asks for depends on its mnemonic only up to the case of letters. -/
theorem readStatement_congr {mnemonic other tail : List Char}
    (hmnemonic : ∀ c ∈ mnemonic, isBlank c = false) (hother : ∀ c ∈ other, isBlank c = false)
    (htail : ∀ c ∈ tail.head?, isBlank c = true)
    (hcase : other.map Char.toLower = mnemonic.map Char.toLower) :
    readStatement (other ++ tail) = readStatement (mnemonic ++ tail) := by
  have hspan : ∀ text : List Char, (∀ c ∈ text, isBlank c = false) →
      (text ++ tail).span (fun c => !isBlank c) = (text, tail) := fun text htext =>
    span_eq_iff.mpr ⟨rfl, by simpa using htext, by simpa using htail⟩
  unfold readStatement
  rw [hspan other hother, hspan mnemonic hmnemonic]
  simp only
  rw [hcase]

/-- A line that starts with a mnemonic says a statement, or is refused for it. -/
theorem parse_mnemonic {mnemonic tail : List Char} (hmnemonic : Wordlike mnemonic)
    (hlabel : ¬StartsWithLabel (code (mnemonic ++ tail))) :
    parse (mnemonic ++ tail) = (readStatement (mnemonic ++ trimEnd (uncommented tail))).map
      fun statement => ⟨[], some statement⟩ := by
  rw [hmnemonic.code_append] at hlabel
  have hempty : (mnemonic ++ trimEnd (uncommented tail)).isEmpty = false := by
    simp [hmnemonic.ne_nil]
  unfold parse
  rw [hmnemonic.code_append, splitLabels_of_not hlabel, trimStart_eq_self (hmnemonic.head _)]
  simp only [hempty]
  cases readStatement (mnemonic ++ trimEnd (uncommented tail)) <;> rfl

/-- Letters of the mnemonic in the other case make no difference to a line. -/
theorem CutAtMnemonic.parse_eq {front mnemonic tail other : List Char}
    (h : CutAtMnemonic front mnemonic tail)
    (hcase : other.map Char.toLower = mnemonic.map Char.toLower) :
    parse (front ++ (other ++ tail)) = parse (front ++ (mnemonic ++ tail)) := by
  have hother := h.wordlike.of_map_toLower hcase
  have hlabel : ¬StartsWithLabel (code (other ++ tail)) := by
    intro hstarts
    apply h.not_label
    rw [hother.code_append] at hstarts
    rw [h.wordlike.code_append]
    apply hstarts.of_map_toLower
    rw [List.map_append, List.map_append, hcase]
  have hread := readStatement_congr h.wordlike.not_blank hother.not_blank
    (head?_trimEnd_uncommented h.behind) hcase
  obtain ⟨labels, -, happend⟩ := h.labels.parse_append
  rw [happend, happend, parse_mnemonic hother hlabel, parse_mnemonic h.wordlike h.not_label, hread]

/-- In front of the code of a line stand blanks, and behind it blanks and a comment. -/
theorem exists_around_code (line : List Char) :
    ∃ before behind, line = before ++ (code line ++ behind) ∧ AllBlank before ∧
      Tight (code line) ∧ (∀ c ∈ code line, ¬IsMark c) ∧
      ∀ c ∈ behind.head?, isBlank c = true ∨ IsMark c := by
  obtain ⟨body, comment, hline, hbody, hcomment, htrims⟩ := code_eq_iff.mp (Eq.refl (code line))
  generalize code line = text at htrims
  obtain ⟨hbefore, htight, hafter⟩ := htrims
  rename_i before after
  refine ⟨before, after ++ comment, by simp [hline], hbefore, htight, fun c hc => ?_, ?_⟩
  · exact not_or.mpr (hbody c (by simp [hc]))
  · intro c hc
    cases after with
    | nil => exact Or.inr (hcomment c hc)
    | cons d after =>
        obtain rfl : d = c := Option.some.inj hc
        exact Or.inl (hafter d List.mem_cons_self)

/-- A line without labels that says a statement can be cut around its mnemonic. -/
theorem exists_cutAtMnemonic_of_not {line : List Char} (h : code line ≠ [])
    (hlabel : ¬StartsWithLabel (code line)) :
    ∃ front mnemonic tail, line = front ++ (mnemonic ++ tail) ∧
      CutAtMnemonic front mnemonic tail := by
  obtain ⟨before, behind, hline, hbefore, htight, hmark, hbehind⟩ := exists_around_code line
  generalize hspan : (code line).span (fun c => !isBlank c) = parts
  obtain ⟨mnemonic, tail⟩ := parts
  obtain ⟨hcode, hmnemonic, htail⟩ := span_eq_iff.mp hspan
  have hcut : line = before ++ (mnemonic ++ (tail ++ behind)) := by
    rw [← List.append_assoc mnemonic, ← hcode, ← hline]
  have hsame : code (mnemonic ++ (tail ++ behind)) = code line := by
    conv_rhs => rw [hcut, code_append_left hbefore]
  refine ⟨before, mnemonic, tail ++ behind, hcut, .blank hbefore, ⟨?_, ?_, ?_⟩, ?_, ?_⟩
  · -- Code does not start with a blank, so that a mnemonic of no characters would leave no code.
    rintro rfl
    rw [hcode, List.nil_append] at h htight
    obtain ⟨c, rest, rfl⟩ := List.exists_cons_of_ne_nil h
    have hblank := htight.head c rfl
    have hnot := htail c rfl
    rw [hblank] at hnot
    cases hnot
  · simpa using hmnemonic
  · exact fun c hc => hmark c (hcode ▸ List.mem_append_left tail hc)
  · intro c hc
    cases tail with
    | nil => exact hbehind c hc
    | cons d tail =>
        obtain rfl : d = c := Option.some.inj hc
        exact Or.inl (by simpa using htail d rfl)
  · rwa [hsame]

/-- Every line that says more than labels can be cut around its mnemonic. -/
theorem exists_cutAtMnemonic {line : List Char} (h : (splitLabels (code line)).2 ≠ []) :
    ∃ front mnemonic tail, line = front ++ (mnemonic ++ tail) ∧
      CutAtMnemonic front mnemonic tail := by
  induction hlength : line.length using Nat.strongRecOn generalizing line with
  | ind length ih =>
      by_cases hlabel : StartsWithLabel (code line)
      · obtain ⟨before, behind, hline, hbefore, -, -, -⟩ := exists_around_code line
        obtain ⟨piece, rest, hcode, -, hname⟩ := hlabel
        have hcut : line = before ++ piece ++ ':' :: (rest ++ behind) := by
          rw [hline, hcode]
          simp only [List.append_assoc, List.cons_append]
        have hfirst : Operand.IsName (trim (before ++ piece)) := by rwa [trim_append hbefore]
        have hshorter : (rest ++ behind).length < length := by
          rw [← hlength, hcut]
          simp only [List.length_append, List.length_cons]
          omega
        rw [hcut, splitLabels_code_label hfirst] at h
        obtain ⟨front, mnemonic, tail, hrest, hmnemonic⟩ := ih _ hshorter h rfl
        refine ⟨before ++ piece ++ ':' :: front, mnemonic, tail, ?_, ?_⟩
        · rw [hcut, hrest]
          simp only [List.append_assoc, List.cons_append]
        · exact { hmnemonic with labels := .label hfirst hmnemonic.labels }
      · rw [splitLabels_of_not hlabel] at h
        refine exists_cutAtMnemonic_of_not (fun hnil => h ?_) hlabel
        rw [hnil]
        rfl

/-! ## The edits to one line -/

/-- A line and the same line laid out in another way. -/
inductive Restyled : List Char → List Char → Prop
  /-- A comment is put behind the line. -/
  | comment {line text : List Char} {mark : Char} (hmark : IsMark mark) :
      Restyled line (line ++ mark :: text)
  /-- Blanks are put in front of the line. -/
  | left {line gap : List Char} (hgap : AllBlank gap) : Restyled line (gap ++ line)
  /-- Blanks are put behind the line; a carriage return is one. -/
  | right {line gap : List Char} (hgap : AllBlank gap) : Restyled line (line ++ gap)
  /-- Letters of the mnemonic are written in the other case. -/
  | mnemonic {front mnemonic other tail : List Char} (hcut : CutAtMnemonic front mnemonic tail)
      (hcase : other.map Char.toLower = mnemonic.map Char.toLower) :
      Restyled (front ++ (mnemonic ++ tail)) (front ++ (other ++ tail))

/-- A line that is laid out in another way says the same, or is refused for the same reason. -/
theorem Restyled.parse_eq {line other : List Char} (h : Restyled line other) :
    parse other = parse line := by
  cases h with
  | comment hmark => exact parse_eq_of_code (code_append_comment hmark _ _)
  | left hgap => exact parse_eq_of_code (code_append_left hgap _)
  | right hgap => exact parse_eq_of_code (code_append_right hgap _)
  | mnemonic hcut hcase => exact hcut.parse_eq hcase

end SourceLine

end Backpatch
