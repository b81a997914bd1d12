import Backpatch.Proofs.Text.Blank
import Backpatch.Source.Line

/-!
# What the sentence about a refused line quotes

A refused line is reported with the piece of it that was to blame. Whatever is quoted stands in the
line, as one stretch of it: as it is written, or, for a mnemonic, with its letters lowered.
`Cites` says this of the outcome of a reader. It holds of each reader of operands about the
operand, goes from a part of a line to the line (`Cites.mono`) and from one step of a reader to the
next (`Cites.bind`), and so holds of the reader of lines: `SourceLine.cites_parse`.
-/

namespace Backpatch

open Text

/-- The text that the sentence about a refused line quotes. A number that is out of range is not
quoted, but printed. -/
def LineError.quoted? : LineError → Option String
  | .unknownOperation text | .operandCount text _ _ | .invalidRegister text
  | .invalidImmediate text | .invalidLabel text | .invalidWord text | .noBaseRegister text
  | .unclosedBaseRegister text => some text
  | .signedRange _ | .unsignedRange _ => none

/-- A stretch of a line, as it is written or with its letters lowered. -/
inductive Excerpt (line : List Char) : String → Prop
  | written {piece : List Char} (h : piece <:+: line) : Excerpt line (String.ofList piece)
  | lowered {piece : List Char} (h : piece <:+: line) :
      Excerpt line (String.ofList (piece.map Char.toLower))

/-- The outcome of reading a line, or a part of it: what is quoted when it is refused stands
there. -/
def Cites {α : Type} (line : List Char) (outcome : Except LineError α) : Prop :=
  ∀ error, outcome = .error error → ∀ text ∈ error.quoted?, Excerpt line text

section Cites

variable {α β : Type} {line part : List Char}

theorem Excerpt.mono {text : String} (h : Excerpt part text) (hpart : part <:+: line) :
    Excerpt line text := by
  cases h with
  | written hpiece => exact .written (hpiece.trans hpart)
  | lowered hpiece => exact .lowered (hpiece.trans hpart)

theorem cites_ok (value : α) : Cites line (.ok value : Except LineError α) := by
  rintro error ⟨⟩

theorem cites_error {error : LineError} (h : ∀ text ∈ error.quoted?, Excerpt line text) :
    Cites line (.error error : Except LineError α) := by
  rintro other ⟨⟩
  exact h

/-- A refusal that quotes one text. -/
theorem cites_error_of_excerpt {error : LineError} {text : String}
    (hquoted : error.quoted? = some text) (h : Excerpt line text) :
    Cites line (.error error : Except LineError α) := by
  apply cites_error
  rw [hquoted]
  rintro other ⟨⟩
  exact h

/-- What stands in a part of a line stands in the line. -/
theorem Cites.mono {outcome : Except LineError α} (h : Cites part outcome)
    (hpart : part <:+: line) : Cites line outcome :=
  fun error herror text htext => (h error herror text htext).mono hpart

/-- A reader that goes on after a first step quotes what either step quotes. -/
theorem Cites.bind {outcome : Except LineError α} {next : α → Except LineError β}
    (h : Cites line outcome) (hnext : ∀ value, Cites line (next value)) :
    Cites line (outcome >>= next) := by
  cases outcome with
  | error error => exact cites_error (h error rfl)
  | ok value => exact hnext value

end Cites

/-! ## Operands -/

namespace Operand

variable (text : List Char)

/-- A reader that refuses a text quotes the whole of it. -/
theorem excerpt_self : Excerpt text (String.ofList text) :=
  .written (List.infix_refl text)

theorem cites_register : Cites text (register text) := by
  unfold register
  split
  · exact cites_ok _
  · exact cites_error_of_excerpt rfl (excerpt_self text)

theorem cites_label : Cites text (label text) := by
  unfold label
  split
  · exact cites_ok _
  · exact cites_error_of_excerpt rfl (excerpt_self text)

theorem cites_signed : Cites text (signed text) := by
  unfold signed
  split
  · split
    · exact cites_ok _
    · exact cites_error (by rintro other ⟨⟩)
  · exact cites_error_of_excerpt rfl (excerpt_self text)

theorem cites_unsigned : Cites text (unsigned text) := by
  unfold unsigned
  split
  · split
    · exact cites_ok _
    · exact cites_error (by rintro other ⟨⟩)
  · exact cites_error_of_excerpt rfl (excerpt_self text)

theorem cites_datum : Cites text (datum text) := by
  unfold datum
  split
  · split
    · exact cites_ok _
    · exact cites_error_of_excerpt rfl (excerpt_self text)
  · exact cites_error_of_excerpt rfl (excerpt_self text)

theorem cites_offset : Cites text (offset text) := by
  unfold offset
  split
  · exact cites_ok _
  · exact cites_signed text

/-- An offset and its base register are quoted alone; a text without the parentheses is quoted as a
whole. -/
theorem cites_memory : Cites text (memory text) := by
  unfold memory
  generalize hspan : text.span (fun c => decide (c ≠ '(')) = parts
  obtain ⟨front, back⟩ := parts
  obtain ⟨htext, -, -⟩ := span_eq_iff.mp hspan
  cases back with
  | nil => exact cites_error_of_excerpt rfl (excerpt_self text)
  | cons c inner =>
      have hfront : trim front <:+: text := by
        rw [htext]
        exact (infix_trim front).trans (List.prefix_append _ _).isInfix
      have hinner : trim inner.dropLast <:+: text := by
        have hlast := List.dropLast_prefix inner
        have hback : inner <:+ text := by
          rw [htext]
          exact (List.suffix_cons c inner).trans (List.suffix_append _ _)
        exact (infix_trim _).trans (hlast.isInfix.trans hback.isInfix)
      simp only
      split
      · refine ((cites_offset _).mono hfront).bind fun offset => ?_
        exact ((cites_register _).mono hinner).bind fun base => cites_ok _
      · exact cites_error_of_excerpt rfl (excerpt_self text)

end Operand

/-! ## Statements -/

namespace Operation

variable {β : Type} {line first second : List Char}

theorem cites_register_bind (h : first <:+: line) {next : Register → Except LineError β}
    (hnext : ∀ value, Cites line (next value)) : Cites line (Operand.register first >>= next) :=
  ((Operand.cites_register first).mono h).bind hnext

/-- Two registers in front of what else an operation takes. -/
theorem cites_registers_bind (hfirst : first <:+: line) (hsecond : second <:+: line)
    {next : Register → Register → Except LineError β}
    (hnext : ∀ value other, Cites line (next value other)) :
    Cites line (do
      let value ← Operand.register first
      let other ← Operand.register second
      next value other) :=
  cites_register_bind hfirst fun value => cites_register_bind hsecond (hnext value)

/-- An operation quotes one of its operands, or its own name when their number is wrong. -/
theorem cites_read {name : String} (hname : Excerpt line name) (operation : Operation)
    {operands : List (List Char)} (h : ∀ operand ∈ operands, operand <:+: line) :
    Cites line (operation.read name operands) := by
  unfold read
  split
  case h_1 => exact cites_ok _
  case h_11 => exact cites_error_of_excerpt rfl hname
  all_goals simp only [List.forall_mem_cons] at h
  · obtain ⟨hliteral, -⟩ := h
    exact ((Operand.cites_datum _).mono hliteral).bind fun value => cites_ok _
  · obtain ⟨hrd, hrs, hrt, -⟩ := h
    refine cites_registers_bind hrd hrs fun rd rs => ?_
    exact cites_register_bind hrt fun rt => cites_ok _
  · obtain ⟨hrd, hrt, hrs, -⟩ := h
    refine cites_registers_bind hrd hrt fun rd rt => ?_
    exact cites_register_bind hrs fun rs => cites_ok _
  · obtain ⟨hrt, hrs, himmediate, -⟩ := h
    refine cites_registers_bind hrt hrs fun rt rs => ?_
    exact ((Operand.cites_signed _).mono himmediate).bind fun immediate => cites_ok _
  · obtain ⟨hrt, hrs, himmediate, -⟩ := h
    refine cites_registers_bind hrt hrs fun rt rs => ?_
    exact ((Operand.cites_unsigned _).mono himmediate).bind fun immediate => cites_ok _
  · obtain ⟨hrt, hmemory, -⟩ := h
    refine cites_register_bind hrt fun rt => ?_
    refine ((Operand.cites_memory _).mono hmemory).bind ?_
    rintro ⟨offset, rs⟩
    exact cites_ok _
  · obtain ⟨hrs, hrt, hlabel, -⟩ := h
    refine cites_registers_bind hrs hrt fun rs rt => ?_
    exact ((Operand.cites_label _).mono hlabel).bind fun label => cites_ok _
  · obtain ⟨hrs, hlabel, -⟩ := h
    refine cites_register_bind hrs fun rs => ?_
    exact ((Operand.cites_label _).mono hlabel).bind fun label => cites_ok _
  · obtain ⟨hlabel, -⟩ := h
    exact ((Operand.cites_label _).mono hlabel).bind fun label => cites_ok _

end Operation

/-! ## Lines -/

namespace SourceLine

/-- The operands of a statement stand in it. -/
theorem infix_of_mem_splitOperands {text operand : List Char} (h : operand ∈ splitOperands text) :
    operand <:+: text := by
  unfold splitOperands at h
  split at h
  · cases h
  · obtain ⟨piece, hpiece, rfl⟩ := List.mem_map.mp h
    exact (infix_trim piece).trans (infix_of_mem_splitOn hpiece)

/-- A statement is refused for its mnemonic or for one of its operands. -/
theorem cites_readStatement (text : List Char) : Cites text (readStatement text) := by
  unfold readStatement
  generalize hspan : text.span (fun c => !isBlank c) = parts
  obtain ⟨mnemonic, tail⟩ := parts
  obtain ⟨rfl, -, -⟩ := span_eq_iff.mp hspan
  have hname : Excerpt (mnemonic ++ tail) (String.ofList (mnemonic.map Char.toLower)) :=
    .lowered (List.prefix_append _ _).isInfix
  simp only
  split
  · refine Operation.cites_read hname _ fun operand hmem => ?_
    have htail : tail <:+: mnemonic ++ tail := (List.suffix_append _ _).isInfix
    exact (infix_of_mem_splitOperands hmem).trans ((infix_trim tail).trans htail)
  · exact cites_error_of_excerpt rfl hname

/-- What is left behind the labels is the end of the text. -/
theorem suffix_splitLabels (text : List Char) : (splitLabels text).2 <:+ text :=
  (suffix_trimStart _).trans (suffix_of_drop_splitOn _ text)

theorem infix_code (line : List Char) : code line <:+: line := by
  have hfront : (line.takeWhile fun c => c ≠ '#' ∧ c ≠ ';') <+: line := List.takeWhile_prefix _
  exact (infix_trim _).trans hfront.isInfix

/-- What is quoted from a refused line stands in it. -/
theorem cites_parse (line : List Char) : Cites line (parse line) := by
  have htext : (splitLabels (code line)).2 <:+: line :=
    (suffix_splitLabels _).isInfix.trans (infix_code line)
  unfold parse
  split
  next labels text hsplit =>
    rw [hsplit] at htext
    split
    · exact cites_ok _
    · exact ((cites_readStatement text).mono htext).bind fun statement => cites_ok _

end SourceLine

end Backpatch
