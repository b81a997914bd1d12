import Backpatch.Text.Split
import Mathlib.Data.List.TakeDrop
import Mathlib.Data.List.TakeWhile

/-!
# Where a text is cut

The two ways in which a text is taken apart, each told by what it puts back together. A text is cut
once in front of the first character of a kind (`span_eq_iff`), and a text is cut at every
separator into the pieces that, with the separator between them, make it up (`splitOn_eq_iff`).
-/

namespace Backpatch.Text

/-! ## The first character of a kind -/

/-- A text is cut in front of the first character that is not of a kind. -/
theorem span_eq_iff {kind : Char → Bool} {text front back : List Char} :
    text.span kind = (front, back) ↔
      text = front ++ back ∧ (∀ c ∈ front, kind c = true) ∧
        ∀ c ∈ back.head?, kind c = false := by
  rw [List.span_eq_takeWhile_dropWhile, Prod.mk.injEq]
  constructor
  · rintro ⟨rfl, rfl⟩
    refine ⟨List.takeWhile_append_dropWhile.symm, fun c hc => List.mem_takeWhile_imp hc, ?_⟩
    intro c hc
    have hhead := List.head?_dropWhile_not kind text
    rw [Option.mem_def.mp hc] at hhead
    simpa using hhead
  · rintro ⟨rfl, hfront, hback⟩
    rw [List.takeWhile_append_of_pos hfront, List.dropWhile_append_of_pos hfront]
    cases back with
    | nil => simp
    | cons c rest =>
        have hc := hback c rfl
        simp [hc]

/-! ## All separators -/

/-- Pieces that make up a text, with a separator between them. -/
structure Pieces (separator : Char) (text : List Char) (pieces : List (List Char)) : Prop where
  /-- Even the empty text has one piece. -/
  ne_nil : pieces ≠ []
  /-- Every separator is one between two pieces. -/
  not_mem : ∀ piece ∈ pieces, separator ∉ piece
  /-- The pieces are joined by the separator. -/
  joined : [separator].intercalate pieces = text

variable {separator : Char}

/-- The first piece ends at the first separator. -/
theorem splitOn_append_cons {piece : List Char} (h : separator ∉ piece) (rest : List Char) :
    splitOn separator (piece ++ separator :: rest) = piece :: splitOn separator rest := by
  induction piece with
  | nil => simp [splitOn_cons]
  | cons c piece ih =>
      obtain ⟨hc, hpiece⟩ := not_or.mp (mt List.mem_cons.mpr h)
      rw [List.cons_append, splitOn_cons, if_neg (Ne.symm hc), ih hpiece, List.modifyHead_cons]

/-- Pieces without a separator are found again in the text that they make up. -/
theorem splitOn_intercalate {pieces : List (List Char)} (hne : pieces ≠ [])
    (h : ∀ piece ∈ pieces, separator ∉ piece) :
    splitOn separator ([separator].intercalate pieces) = pieces := by
  induction pieces with
  | nil => exact absurd rfl hne
  | cons piece rest ih =>
      have hpiece := h piece List.mem_cons_self
      cases rest with
      | nil => simpa using splitOn_of_not_mem hpiece
      | cons next rest =>
          have hrest := ih (List.cons_ne_nil _ _) fun other hother =>
            h other (List.mem_cons_of_mem _ hother)
          rw [List.intercalate_cons_cons, List.append_assoc, List.singleton_append,
            splitOn_append_cons hpiece, hrest]

/-- A joined text holds the separator and what the pieces hold. -/
theorem mem_intercalate {c : Char} {pieces : List (List Char)}
    (h : c ∈ [separator].intercalate pieces) : c = separator ∨ ∃ piece ∈ pieces, c ∈ piece := by
  induction pieces with
  | nil => cases h
  | cons piece rest ih =>
      cases rest with
      | nil => exact Or.inr ⟨piece, List.mem_cons_self, by simpa using h⟩
      | cons next rest =>
          rw [List.intercalate_cons_cons, List.mem_append, List.mem_append,
            List.mem_singleton] at h
          rcases h with (h | h) | h
          · exact Or.inr ⟨piece, List.mem_cons_self, h⟩
          · exact Or.inl h
          · refine (ih h).imp_right ?_
            rintro ⟨other, hother, hc⟩
            exact ⟨other, List.mem_cons_of_mem _ hother, hc⟩

/-- A text is cut into the pieces that make it up. -/
theorem splitOn_eq_iff {text : List Char} {pieces : List (List Char)} :
    splitOn separator text = pieces ↔ Pieces separator text pieces := by
  constructor
  · rintro rfl
    exact ⟨splitOn_ne_nil separator text, fun piece => not_mem_of_mem_splitOn,
      intercalate_splitOn separator text⟩
  · rintro ⟨hne, hnot, rfl⟩
    exact splitOn_intercalate hne hnot

/-! ## Pieces as parts of a text -/

/-- What is joined behind a first piece is the end of the joined text. -/
theorem intercalate_suffix_cons (piece : List Char) (rest : List (List Char)) :
    [separator].intercalate rest <:+ [separator].intercalate (piece :: rest) := by
  cases rest with
  | nil => exact List.nil_suffix
  | cons next rest =>
      rw [List.intercalate_cons_cons]
      exact List.suffix_append _ _

theorem intercalate_drop_suffix (count : Nat) (pieces : List (List Char)) :
    [separator].intercalate (pieces.drop count) <:+ [separator].intercalate pieces := by
  induction count generalizing pieces with
  | zero => exact List.suffix_refl _
  | succ count ih =>
      cases pieces with
      | nil => exact List.suffix_refl _
      | cons piece rest => exact (ih rest).trans (intercalate_suffix_cons piece rest)

/-- The last pieces of a text, joined again, are the end of the text. -/
theorem suffix_of_drop_splitOn (count : Nat) (text : List Char) :
    [separator].intercalate ((splitOn separator text).drop count) <:+ text := by
  conv_rhs => rw [← intercalate_splitOn separator text]
  exact intercalate_drop_suffix count _

theorem infix_intercalate {piece : List Char} {pieces : List (List Char)} (h : piece ∈ pieces) :
    piece <:+: [separator].intercalate pieces := by
  induction pieces with
  | nil => cases h
  | cons first rest ih =>
      rcases List.mem_cons.mp h with rfl | hmem
      · cases rest with
        | nil => simp
        | cons next rest =>
            rw [List.intercalate_cons_cons, List.append_assoc]
            exact (List.prefix_append _ _).isInfix
      · exact (ih hmem).trans (intercalate_suffix_cons first rest).isInfix

/-- A piece stands in the text as it is. -/
theorem infix_of_mem_splitOn {text piece : List Char} (h : piece ∈ splitOn separator text) :
    piece <:+: text := by
  rw [← intercalate_splitOn separator text]
  exact infix_intercalate h

end Backpatch.Text
