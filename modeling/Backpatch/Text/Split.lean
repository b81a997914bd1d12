/-!
# Splitting text at a separator

`splitOn` cuts a text at every occurrence of one character: lines at the line feed, labels at the
colon, operands at the comma. There is always one piece more than there are separators. The main
statements are `intercalate_splitOn`, that joining the pieces gives the text back, and
`not_mem_of_mem_splitOn`, that no piece holds a separator.
-/

namespace Backpatch.Text

/-- The pieces of a text between the occurrences of a separator. -/
def splitOn (separator : Char) (text : List Char) : List (List Char) :=
  text.foldr (fun c pieces =>
    if c = separator then [] :: pieces else pieces.modifyHead (c :: ·)) [[]]

@[simp] theorem splitOn_nil (separator : Char) : splitOn separator [] = [[]] := rfl

theorem splitOn_cons (separator c : Char) (text : List Char) :
    splitOn separator (c :: text) =
      if c = separator then [] :: splitOn separator text
      else (splitOn separator text).modifyHead (c :: ·) := rfl

/-- Even the empty text has one piece. -/
theorem splitOn_ne_nil (separator : Char) (text : List Char) : splitOn separator text ≠ [] := by
  induction text with
  | nil => simp
  | cons c text ih =>
    rw [splitOn_cons]
    split
    · simp
    · simpa using ih

/-- A text without the separator is its only piece. -/
theorem splitOn_of_not_mem {separator : Char} {text : List Char} (h : separator ∉ text) :
    splitOn separator text = [text] := by
  induction text with
  | nil => rfl
  | cons c text ih =>
    obtain ⟨hc, ht⟩ := not_or.mp (mt List.mem_cons.mpr h)
    rw [splitOn_cons, if_neg (Ne.symm hc), ih ht]
    rfl

/-- The pieces, joined by the separator, are the text. -/
theorem intercalate_splitOn (separator : Char) (text : List Char) :
    [separator].intercalate (splitOn separator text) = text := by
  induction text with
  | nil => rfl
  | cons c text ih =>
    rw [splitOn_cons]
    obtain ⟨piece, pieces, h⟩ := List.exists_cons_of_ne_nil (splitOn_ne_nil separator text)
    rw [h] at ih ⊢
    split
    · next hc => rw [List.intercalate_cons_cons, ih, hc]; rfl
    · cases pieces with
      | nil => simpa using ih
      | cons next rest =>
        rw [List.intercalate_cons_cons] at ih
        simp [List.intercalate_cons_cons, ← ih]

/-- A piece does not hold the separator. -/
theorem not_mem_of_mem_splitOn {separator : Char} {text piece : List Char}
    (h : piece ∈ splitOn separator text) : separator ∉ piece := by
  induction text generalizing piece with
  | nil => simp_all
  | cons c text ih =>
    rw [splitOn_cons] at h
    split at h
    · rcases List.mem_cons.1 h with rfl | h
      · simp
      · exact ih h
    · next hc =>
      obtain ⟨first, rest, hs⟩ := List.exists_cons_of_ne_nil (splitOn_ne_nil separator text)
      rw [hs] at h ih
      rcases List.mem_cons.1 h with rfl | h
      · simpa [Ne.symm hc] using ih (List.mem_cons_self ..)
      · exact ih (List.mem_cons_of_mem _ h)

end Backpatch.Text
