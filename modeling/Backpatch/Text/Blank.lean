/-!
# White space

A character is blank when the Unicode standard gives it the property `White_Space`. Lines, labels
and operands are trimmed of blanks at either end before they are read. The main statement,
`not_isBlank_head_trimStart`, is that no blank is left in front.
-/

namespace Backpatch.Text

/-- The code points with the property `White_Space`, as inclusive ranges in ascending order. -/
def blankRanges : List (Nat × Nat) :=
  [(0x09, 0x0D), (0x20, 0x20), (0x85, 0x85), (0xA0, 0xA0), (0x1680, 0x1680), (0x2000, 0x200A),
    (0x2028, 0x2029), (0x202F, 0x202F), (0x205F, 0x205F), (0x3000, 0x3000)]

/-- Whether a character is white space. -/
def isBlank (c : Char) : Bool :=
  blankRanges.any fun (first, last) => first ≤ c.toNat && c.toNat ≤ last

/-- Text without its leading blanks. -/
def trimStart (text : List Char) : List Char :=
  text.dropWhile isBlank

/-- Text without its trailing blanks. -/
def trimEnd (text : List Char) : List Char :=
  (trimStart text.reverse).reverse

/-- Text without the blanks at either end. -/
def trim (text : List Char) : List Char :=
  trimEnd (trimStart text)

/-! ## What trimming leaves -/

/-- There are 25 blank characters. -/
example : (blankRanges.map fun (first, last) => last + 1 - first).sum = 25 := by decide

/-- Every blank that the core library knows is one here. -/
theorem isBlank_of_isWhitespace {c : Char} (h : c.isWhitespace = true) : isBlank c = true := by
  simp only [Char.isWhitespace, Bool.or_eq_true, decide_eq_true_eq] at h
  rcases h with ((rfl | rfl) | rfl) | rfl <;> decide

/-- What has been trimmed in front does not start with a blank. -/
theorem not_isBlank_head_trimStart {text rest : List Char} {c : Char}
    (h : trimStart text = c :: rest) : isBlank c = false := by
  have hhead := List.head?_dropWhile_not isBlank text
  rw [← trimStart, h] at hhead
  simpa using hhead

/-- Trimming in front a second time changes nothing. -/
theorem trimStart_trimStart (text : List Char) : trimStart (trimStart text) = trimStart text := by
  cases h : trimStart text with
  | nil => rfl
  | cons c rest => simp [trimStart, not_isBlank_head_trimStart h]

end Backpatch.Text
