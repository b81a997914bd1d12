import Backpatch.Proofs.Source.Operand
import Backpatch.Source.Line

/-!
# Labels in front of a statement

`SourceLine.splitLabels` takes the labels off a text at once, from the pieces between its colons.
Here it is shown to take them off one by one: a first piece that names a label is taken off and the
rest is treated in the same way (`splitLabels_label`), and without such a piece there is no label
(`splitLabels_of_not`). Blanks in front make no difference (`splitLabels_append`).
-/

namespace Backpatch.SourceLine

open Text

/-- A text that starts with a label and its colon. -/
def StartsWithLabel (text : List Char) : Prop :=
  ∃ piece rest, text = piece ++ ':' :: rest ∧ ':' ∉ piece ∧ Operand.IsName (trim piece)

/-! ## The leading pieces -/

theorem leadingLabels_singleton (piece : List Char) : leadingLabels [piece] = [] :=
  rfl

theorem leadingLabels_cons {piece : List Char} {pieces : List (List Char)} (hne : pieces ≠ []) :
    leadingLabels (piece :: pieces) =
      if Operand.isLabelName (trim piece) then trim piece :: leadingLabels pieces else [] := by
  rw [leadingLabels, List.dropLast_cons_of_ne_nil hne, List.map_cons, List.takeWhile_cons]
  rfl

/-! ## Taking one label off -/

/-- A label in front is taken off with its colon. -/
theorem splitLabels_label {piece : List Char} (hcolon : ':' ∉ piece)
    (hname : Operand.IsName (trim piece)) (rest : List Char) :
    splitLabels (piece ++ ':' :: rest) =
      (String.ofList (trim piece) :: (splitLabels rest).1, (splitLabels rest).2) := by
  unfold splitLabels
  simp only
  rw [splitOn_append_cons hcolon, leadingLabels_cons (splitOn_ne_nil ':' rest),
    if_pos (Operand.isLabelName_iff.mpr hname)]
  rfl

/-- Without a label in front there is none, and the text is that of a statement. -/
theorem splitLabels_of_not {text : List Char} (h : ¬StartsWithLabel text) :
    splitLabels text = ([], trimStart text) := by
  have hlabels : leadingLabels (splitOn ':' text) = [] := by
    by_cases hmem : ':' ∈ text
    · obtain ⟨piece, rest, rfl, hcolon⟩ := List.eq_append_cons_of_mem hmem
      rw [splitOn_append_cons hcolon, leadingLabels_cons (splitOn_ne_nil ':' rest)]
      exact if_neg fun hname => h ⟨piece, rest, rfl, hcolon, Operand.isLabelName_iff.mp hname⟩
    · rw [splitOn_of_not_mem hmem, leadingLabels_singleton]
  unfold splitLabels
  simp only
  rw [hlabels, List.length_nil, List.drop_zero, intercalate_splitOn]
  rfl

/-- A text without a colon has no label. -/
theorem not_startsWithLabel {text : List Char} (h : ':' ∉ text) : ¬StartsWithLabel text := by
  rintro ⟨piece, rest, rfl, -, -⟩
  exact h (by simp)

/-! ## Blanks in front -/

theorem colon_not_mem_of_allBlank {gap : List Char} (h : AllBlank gap) : ':' ∉ gap :=
  fun hmem => absurd (h ':' hmem) (by decide)

/-- Blanks in front are no part of the first label. -/
theorem StartsWithLabel.of_append {gap text : List Char} (hgap : AllBlank gap)
    (h : StartsWithLabel (gap ++ text)) : StartsWithLabel text := by
  obtain ⟨piece, rest, htext, hcolon, hname⟩ := h
  rcases List.append_eq_append_iff.mp htext with ⟨front, rfl, rfl⟩ | ⟨back, rfl, hback⟩
  · rw [trim_append hgap] at hname
    exact ⟨front, rest, rfl, fun h => hcolon (List.mem_append_right _ h), hname⟩
  · -- The colon would be one of the blanks unless it stands right behind them.
    cases back with
    | nil =>
        rw [List.append_nil] at hgap
        rw [← List.append_nil piece, trim_append hgap] at hname
        exact ⟨[], rest, hback.symm, List.not_mem_nil, hname⟩
    | cons c back =>
        obtain ⟨rfl, -⟩ := List.cons.inj hback
        exact absurd (by simp) (colon_not_mem_of_allBlank hgap)

/-- Blanks in front make no difference. -/
theorem splitLabels_append {gap : List Char} (hgap : AllBlank gap) (text : List Char) :
    splitLabels (gap ++ text) = splitLabels text := by
  by_cases h : StartsWithLabel text
  · obtain ⟨piece, rest, rfl, hcolon, hname⟩ := h
    have hcolon' : ':' ∉ gap ++ piece := by
      simp [colon_not_mem_of_allBlank hgap, hcolon]
    have hname' : Operand.IsName (trim (gap ++ piece)) := by rwa [trim_append hgap]
    rw [← List.append_assoc, splitLabels_label hcolon' hname', splitLabels_label hcolon hname,
      trim_append hgap]
  · rw [splitLabels_of_not h, splitLabels_of_not (mt (StartsWithLabel.of_append hgap) h),
      trimStart_append hgap]

end Backpatch.SourceLine
