import Backpatch.Proofs.Source.Labels
import Backpatch.Proofs.Source.Statement
import Mathlib.Data.List.Forall2

/-!
# The grammar of source lines

`SourceLine.Spells` says without any reader which texts are source lines and what they say. A line
is code and perhaps a comment; code is labels, each with a colon, and then nothing or a statement;
and a statement is a mnemonic and its operands, with commas between them.

The reader of lines is sound, `spells_of_parse`, and complete, `Spells.parse_eq`. Together:
it accepts exactly the lines of the grammar and returns what they say (`parse_eq_ok_iff`).
-/

namespace Backpatch.SourceLine

open Text

/-! ## The grammar -/

/-- The text behind a mnemonic, without the blanks around it, and the operands in it. -/
inductive Lists : List Char → List (List Char) → Prop
  | none : Lists [] []
  | separated {text : List Char} {pieces operands : List (List Char)} (hne : text ≠ [])
      (hpieces : Pieces ',' text pieces) (htrims : List.Forall₂ Trims pieces operands) :
      Lists text operands

/-- The text of a statement: a mnemonic in any case of letters, and the operands behind a blank. -/
inductive Asks : List Char → Statement → Prop
  | intro {mnemonic tail list : List Char} {operands : List (List Char)} {operation : Operation}
      {statement : Statement} (hmnemonic : ∀ c ∈ mnemonic, isBlank c = false)
      (htail : ∀ c ∈ tail.head?, isBlank c = true)
      (hnamed : operation.Named (String.ofList (mnemonic.map Char.toLower)))
      (htrims : Trims tail list) (hlists : Lists list operands)
      (htakes : operation.Takes operands statement) : Asks (mnemonic ++ tail) statement

/-- What may stand behind the labels. -/
inductive Rest : List Char → Option Statement → Prop
  | nothing : Rest [] none
  | statement {text : List Char} {statement : Statement} (h : Asks text statement) :
      Rest text (some statement)

/-- A line without its comment and without the blanks around it. -/
inductive Code : List Char → SourceLine → Prop
  | rest {text : List Char} {statement : Option Statement} (h : Rest text statement) :
      Code text ⟨[], statement⟩
  | label {name gap space text : List Char} {labels : List String} {statement : Option Statement}
      (hname : Operand.IsName name) (hgap : AllBlank gap) (hspace : AllBlank space)
      (hcode : Code text ⟨labels, statement⟩) :
      Code (name ++ gap ++ ':' :: (space ++ text)) ⟨String.ofList name :: labels, statement⟩

/-- A line with its comment, if it has one. -/
inductive Spells : List Char → SourceLine → Prop
  | intro {body comment text : List Char} {parsed : SourceLine}
      (hbody : ∀ c ∈ body, c ≠ '#' ∧ c ≠ ';') (hcomment : ∀ c ∈ comment.head?, c = '#' ∨ c = ';')
      (htrims : Trims body text) (hcode : Code text parsed) : Spells (body ++ comment) parsed

/-! ## Operands -/

theorem forall₂_trims_iff {pieces operands : List (List Char)} :
    List.Forall₂ Trims pieces operands ↔ pieces.map trim = operands := by
  induction pieces generalizing operands with
  | nil => rw [List.forall₂_nil_left_iff, List.map_nil, eq_comm]
  | cons piece pieces ih =>
      rw [List.map_cons, List.forall₂_cons_left_iff]
      constructor
      · rintro ⟨operand, rest, hpiece, hrest, rfl⟩
        rw [trim_eq_iff.mpr hpiece, ih.mp hrest]
      · rintro rfl
        exact ⟨_, _, trim_eq_iff.mp rfl, ih.mpr rfl, rfl⟩

theorem splitOperands_eq_iff {text : List Char} {operands : List (List Char)} :
    splitOperands text = operands ↔ Lists text operands := by
  unfold splitOperands
  split
  · next hempty =>
    rw [List.isEmpty_iff.mp hempty]
    constructor
    · rintro rfl
      exact .none
    · intro h
      cases h with
      | none => rfl
      | separated hne => exact absurd rfl hne
  · next hempty =>
    constructor
    · intro h
      exact .separated (fun h => hempty (List.isEmpty_iff.mpr h)) (splitOn_eq_iff.mp rfl)
        (forall₂_trims_iff.mpr h)
    · intro h
      cases h with
      | none => exact absurd rfl hempty
      | separated hne hpieces htrims =>
          rw [splitOn_eq_iff.mpr hpieces, forall₂_trims_iff.mp htrims]

/-- Only commas and blanks come in addition to the characters of the operands. -/
theorem Lists.colon_not_mem {text : List Char} {operands : List (List Char)}
    (h : Lists text operands) (hoperands : ∀ operand ∈ operands, ':' ∉ operand) : ':' ∉ text := by
  cases h with
  | none => simp
  | separated hne hpieces htrims =>
      intro hmem
      rw [← hpieces.joined] at hmem
      rcases mem_intercalate hmem with h | ⟨piece, hpiece, hc⟩
      · cases h
      · have hoperand : trim piece ∈ operands := by
          rw [← forall₂_trims_iff.mp htrims]
          exact List.mem_map_of_mem hpiece
        rcases (trim_eq_iff.mp rfl : Trims piece (trim piece)).mem_cases _ hc with hc | hblank
        · exact hoperands _ hoperand hc
        · exact absurd hblank (by decide)

/-! ## Statements -/

theorem readStatement_eq_ok_iff {text : List Char} {statement : Statement} :
    readStatement text = .ok statement ↔ Asks text statement := by
  constructor
  · intro h
    unfold readStatement at h
    generalize hspan : text.span (fun c => !isBlank c) = parts at h
    obtain ⟨mnemonic, tail⟩ := parts
    obtain ⟨rfl, hmnemonic, htail⟩ := span_eq_iff.mp hspan
    simp only at h
    split at h
    · next operation hoperation =>
      exact .intro (by simpa using hmnemonic) (by simpa using htail)
        (Operation.ofMnemonic?_eq_some_iff.mp hoperation) (trim_eq_iff.mp rfl)
        (splitOperands_eq_iff.mp rfl) (Operation.read_eq_ok_iff.mp h)
    · cases h
  · rintro ⟨hmnemonic, htail, hnamed, htrims, hlists, htakes⟩
    rename_i mnemonic tail list operands operation
    have hspan : (mnemonic ++ tail).span (fun c => !isBlank c) = (mnemonic, tail) :=
      span_eq_iff.mpr ⟨rfl, by simpa using hmnemonic, by simpa using htail⟩
    unfold readStatement
    rw [hspan]
    simp only
    rw [Operation.ofMnemonic?_eq_some_iff.mpr hnamed, trim_eq_iff.mpr htrims,
      splitOperands_eq_iff.mpr hlists]
    exact Operation.read_eq_ok_iff.mpr htakes

/-- A statement has no colon, so that no part of it is taken for a label. -/
theorem Asks.colon_not_mem {text : List Char} {statement : Statement} (h : Asks text statement) :
    ':' ∉ text := by
  obtain ⟨-, -, hnamed, htrims, hlists, htakes⟩ := h
  rename_i mnemonic tail list operands operation
  intro hmem
  rcases List.mem_append.mp hmem with hmem | hmem
  · have hlower := List.mem_map_of_mem (f := Char.toLower) hmem
    rw [← String.toList_ofList (l := mnemonic.map Char.toLower)] at hlower
    exact hnamed.solid.1.not_mem _ hlower (by decide)
  · rcases htrims.mem_cases _ hmem with hmem | hblank
    · refine hlists.colon_not_mem (fun operand hoperand hc => ?_) hmem
      exact htakes.not_mem_separators operand hoperand ':' hc (by decide)
    · exact absurd hblank (by decide)

/-- A statement starts with its mnemonic. -/
theorem Asks.head {text : List Char} {statement : Statement} (h : Asks text statement) :
    ∃ c rest, text = c :: rest ∧ isBlank c = false := by
  obtain ⟨hmnemonic, -, hnamed, -, -, -⟩ := h
  rename_i mnemonic tail list operands operation
  cases mnemonic with
  | nil => exact absurd (by simp) hnamed.solid.1.ne_nil
  | cons c mnemonic => exact ⟨c, mnemonic ++ tail, rfl, hmnemonic c List.mem_cons_self⟩

/-! ## Code -/

/-- The reader of lines in terms of the labels and of what is behind them. -/
theorem parse_eq_ok_iff_rest {line : List Char} {parsed : SourceLine} :
    parse line = .ok parsed ↔
      (splitLabels (code line)).1 = parsed.labels ∧
        Rest (splitLabels (code line)).2 parsed.statement := by
  obtain ⟨labels, statement⟩ := parsed
  unfold parse
  generalize splitLabels (code line) = parts
  obtain ⟨found, text⟩ := parts
  simp only
  split
  · next hempty =>
    rw [List.isEmpty_iff.mp hempty, Except.ok.injEq, mk.injEq]
    refine and_congr_right fun _ => ⟨?_, fun h => ?_⟩
    · rintro rfl
      exact .nothing
    · cases h with
      | nothing => rfl
      | statement h =>
          obtain ⟨c, rest, hcons, -⟩ := h.head
          cases hcons
  · next hempty =>
    simp only [bind_eq_ok_iff, readStatement_eq_ok_iff, pure, Except.pure, Except.ok.injEq,
      mk.injEq]
    constructor
    · rintro ⟨asked, hasks, rfl, rfl⟩
      exact ⟨rfl, .statement hasks⟩
    · rintro ⟨rfl, h⟩
      cases h with
      | nothing => exact absurd rfl hempty
      | statement h => exact ⟨_, h, rfl, rfl⟩

/-- What is left when all labels have been taken off a text is code behind these labels. -/
theorem code_of_rest {text : List Char} (hhead : ∀ c ∈ text.head?, isBlank c = false)
    {statement : Option Statement} (h : Rest (splitLabels text).2 statement) :
    Code text ⟨(splitLabels text).1, statement⟩ := by
  by_cases hlabel : StartsWithLabel text
  · obtain ⟨piece, rest, htext, hcolon, hname⟩ := hlabel
    obtain ⟨space, hspace, hrest, hstart⟩ := trimStart_eq_iff.mp (Eq.refl (trimStart rest))
    have hhead' : ∀ c ∈ piece.head?, isBlank c = false := by
      intro c hc
      refine hhead c ?_
      rw [htext, List.head?_append, Option.mem_def.mp hc]
      rfl
    obtain ⟨gap, hgap, hpiece⟩ := exists_trailing hhead'
    have hshorter : (trimStart rest).length < text.length := by
      have hlength := congrArg List.length hrest
      rw [htext]
      simp only [List.length_append, List.length_cons] at hlength ⊢
      omega
    have hsplit : splitLabels text = (String.ofList (trim piece) ::
        (splitLabels (trimStart rest)).1, (splitLabels (trimStart rest)).2) := by
      rw [htext, splitLabels_label hcolon hname]
      conv_lhs => rw [hrest]
      rw [splitLabels_append hspace]
    have hparts : text = trim piece ++ gap ++ ':' :: (space ++ trimStart rest) := by
      rw [← hpiece, ← hrest, htext]
    rw [hsplit] at h ⊢
    rw [hparts]
    exact .label hname hgap hspace (code_of_rest hstart h)
  · rw [splitLabels_of_not hlabel, trimStart_eq_self hhead] at h ⊢
    exact .rest h
termination_by text.length

/-- Taking the labels off code gives its labels, and leaves what is behind them. -/
theorem Code.splitLabels_eq {text : List Char} {parsed : SourceLine} (h : Code text parsed) :
    (splitLabels text).1 = parsed.labels ∧ Rest (splitLabels text).2 parsed.statement := by
  induction h with
  | @rest text statement h =>
      have hcolon : ':' ∉ text := by
        cases h with
        | nothing => simp
        | statement h => exact h.colon_not_mem
      have htext : trimStart text = text := by
        cases h with
        | nothing => rfl
        | statement h =>
            obtain ⟨c, rest, rfl, hc⟩ := h.head
            exact trimStart_eq_self (by simpa using hc)
      rw [splitLabels_of_not (not_startsWithLabel hcolon), htext]
      exact ⟨rfl, h⟩
  | @label name gap space text labels statement hname hgap hspace hcode ih =>
      have hcolon : ':' ∉ name ++ gap := by
        have hnot : ':' ∉ name := fun h => hname.solid.not_mem _ h (by decide)
        simp [hnot, colon_not_mem_of_allBlank hgap]
      have htrims : Trims ([] ++ name ++ gap) name := .intro allBlank_nil hname.solid.tight hgap
      have htrim : trim (name ++ gap) = name := trim_eq_iff.mpr htrims
      have hlabel : Operand.IsName (trim (name ++ gap)) := by rwa [htrim]
      rw [splitLabels_label hcolon hlabel, splitLabels_append hspace, htrim]
      exact ⟨congrArg _ ih.1, ih.2⟩

/-! ## Lines -/

/-- The code of a line is what stands in front of the comment, trimmed. -/
theorem code_eq_iff {line text : List Char} :
    code line = text ↔
      ∃ body comment, line = body ++ comment ∧ (∀ c ∈ body, c ≠ '#' ∧ c ≠ ';') ∧
        (∀ c ∈ comment.head?, c = '#' ∨ c = ';') ∧ Trims body text := by
  have hspan : ∀ body comment, line.span (fun c => decide (c ≠ '#' ∧ c ≠ ';')) = (body, comment) ↔
      line = body ++ comment ∧ (∀ c ∈ body, c ≠ '#' ∧ c ≠ ';') ∧
        ∀ c ∈ comment.head?, c = '#' ∨ c = ';' := by
    intro body comment
    simp only [span_eq_iff, decide_eq_true_eq, decide_eq_false_iff_not, not_and_or, not_not]
  have hcode : ∀ body comment, line.span (fun c => decide (c ≠ '#' ∧ c ≠ ';')) = (body, comment) →
      code line = trim body := by
    intro body comment h
    rw [List.span_eq_takeWhile_dropWhile, Prod.mk.injEq] at h
    rw [code, h.1]
  constructor
  · intro h
    obtain ⟨hline, hbody, hcomment⟩ := (hspan _ _).mp (Prod.eta _).symm
    refine ⟨_, _, hline, hbody, hcomment, trim_eq_iff.mp ?_⟩
    rw [← hcode _ _ (Prod.eta _).symm, h]
  · rintro ⟨body, comment, hline, hbody, hcomment, htrims⟩
    rw [hcode _ _ ((hspan _ _).mpr ⟨hline, hbody, hcomment⟩), trim_eq_iff.mpr htrims]

/-- Every line that is read is one of the grammar, and says what is returned. -/
theorem spells_of_parse {line : List Char} {parsed : SourceLine} (h : parse line = .ok parsed) :
    Spells line parsed := by
  obtain ⟨hlabels, hrest⟩ := parse_eq_ok_iff_rest.mp h
  obtain ⟨body, comment, hline, hbody, hcomment, htrims⟩ := code_eq_iff.mp (Eq.refl (code line))
  have htight : Tight (code line) := by
    obtain ⟨-, hcore, -⟩ := htrims
    exact hcore
  have hcode := code_of_rest htight.head hrest
  rw [hlabels] at hcode
  rw [hline]
  exact .intro hbody hcomment htrims hcode

/-- Every line of the grammar is read, and what it says is returned. -/
theorem Spells.parse_eq {line : List Char} {parsed : SourceLine} (h : Spells line parsed) :
    parse line = .ok parsed := by
  obtain ⟨hbody, hcomment, htrims, hcode⟩ := h
  rw [parse_eq_ok_iff_rest, code_eq_iff.mpr ⟨_, _, rfl, hbody, hcomment, htrims⟩]
  exact hcode.splitLabels_eq

/-- The lines that are read are exactly those of the grammar, and the reader returns what they
say. -/
theorem parse_eq_ok_iff (line : List Char) (parsed : SourceLine) :
    parse line = .ok parsed ↔ Spells line parsed :=
  ⟨spells_of_parse, Spells.parse_eq⟩

end Backpatch.SourceLine
