import Backpatch.Proofs.Source.Errors
import Backpatch.Proofs.Source.Restyle

/-!
# Texts laid out in another way

The layout of a source text does not matter. An edit to its layout (`Edit`) puts in a line that says
nothing, lays a line out in another way, or puts labels in front of a line on a line of their own;
and a text is laid out in another way when such edits lead to it, one after the other (`Relaid`).

The outcome of assembling depends on a text only through the refused lines and, when there are none,
through the items of its lines in a row (`assemble_congr`). An edit keeps both, except that a refused
line may get another number, which is followed through all edits. So the outcome is the same
(`assemble_relaid`).
-/

namespace Backpatch

open Text SourceLine

/-! ## Edits -/

/-- A line that says nothing: blanks, and perhaps a comment. -/
inductive Codeless : List Char → Prop
  | blank {gap : List Char} (hgap : AllBlank gap) : Codeless gap
  | comment {gap text : List Char} {mark : Char} (hgap : AllBlank gap) (hmark : IsMark mark) :
      Codeless (gap ++ mark :: text)

/-- The number of a line once another line has been put in behind the first `count` lines. -/
def shifted (count number : Nat) : Nat :=
  if number ≤ count then number else number + 1

/-- An edit to the layout of lines, with the number that each line has afterwards. -/
inductive Edit : (Nat → Nat) → List (List Char) → List (List Char) → Prop
  /-- A blank line or a comment is put in. -/
  | insert {before after : List (List Char)} {line : List Char} (hline : Codeless line) :
      Edit (shifted before.length) (before ++ after) (before ++ line :: after)
  /-- A line is laid out in another way. -/
  | restyle {before after : List (List Char)} {line other : List Char}
      (hline : Restyled line other) : Edit id (before ++ line :: after) (before ++ other :: after)
  /-- Labels in front of a line get a line of their own just before it. -/
  | cut {before after : List (List Char)} {front rest : List Char} (hfront : LabelRow front) :
      Edit (shifted before.length) (before ++ (front ++ rest) :: after)
        (before ++ front :: rest :: after)

/-- A text to which edits of the layout lead, with the number that each line has there. -/
inductive Relaid (source : String) : (Nat → Nat) → String → Prop
  | refl : Relaid source id source
  | edit {number moved : Nat → Nat} {text other : String} (h : Relaid source number text)
      (hedit : Edit moved (textLines text) (textLines other)) :
      Relaid source (moved ∘ number) other

/-! ## Lines one by one -/

/-- What a line is refused for. -/
def SourceLine.refusal? (line : List Char) : Option LineError :=
  match parse line with
  | .error error => some error
  | .ok _ => none

/-- The items of a line, if it can be read. -/
def SourceLine.lineItems (line : List Char) : List Item :=
  match parse line with
  | .error _ => []
  | .ok parsed => parsed.items

/-- The refused ones among lines, the first of which has a given number. -/
def refusedFrom : Nat → List (List Char) → List (Nat × LineError)
  | _, [] => []
  | number, line :: rest =>
    ((refusal? line).map (number, ·)).toList ++ refusedFrom (number + 1) rest

theorem refusedLines_eq (source : String) :
    refusedLines source = refusedFrom 1 (textLines source) := by
  have hfrom : ∀ lines index, ((lines : List (List Char)).zipIdx index).filterMap (fun entry =>
      (refusal? entry.1).map (entry.2 + 1, ·)) = refusedFrom (index + 1) lines := by
    intro lines
    induction lines with
    | nil => exact fun _ => rfl
    | cons line rest ih =>
        intro index
        rw [List.zipIdx_cons, List.filterMap_cons, refusedFrom, ih]
        cases refusal? line <;> rfl
  rw [← hfrom, refusedLines]
  apply List.filterMap_congr
  rintro ⟨line, index⟩ -
  simp only [refusal?]
  cases parse line <;> rfl

theorem flatMap_items_sourceLines (source : String) :
    (sourceLines source).flatMap items = (textLines source).flatMap lineItems := by
  unfold sourceLines
  induction textLines source with
  | nil => rfl
  | cons line rest ih =>
      rw [List.filterMap_cons, List.flatMap_cons, ← ih, lineItems]
      cases parse line <;> rfl

theorem refusedFrom_append (number : Nat) (front back : List (List Char)) :
    refusedFrom number (front ++ back) =
      refusedFrom number front ++ refusedFrom (number + front.length) back := by
  induction front generalizing number with
  | nil => rfl
  | cons line rest ih =>
      rw [List.cons_append, refusedFrom, refusedFrom, ih, List.append_assoc, List.length_cons,
        Nat.add_right_comm, Nat.add_assoc number]

/-- Lines in front of the place where a line is put in keep their numbers. -/
theorem map_shifted_front {number count : Nat} {lines : List (List Char)}
    (h : number + lines.length ≤ count + 1) :
    (refusedFrom number lines).map (Prod.map (shifted count) id) = refusedFrom number lines := by
  induction lines generalizing number with
  | nil => rfl
  | cons line rest ih =>
      rw [List.length_cons] at h
      have hnumber : shifted count number = number := if_pos (by omega)
      rw [refusedFrom, List.map_append, ih (by omega)]
      cases refusal? line with
      | none => rfl
      | some error => simp [hnumber]

/-- Lines behind the place where a line is put in have the next number. -/
theorem map_shifted_back {number count : Nat} {lines : List (List Char)} (h : count < number) :
    (refusedFrom number lines).map (Prod.map (shifted count) id) =
      refusedFrom (number + 1) lines := by
  induction lines generalizing number with
  | nil => rfl
  | cons line rest ih =>
      have hnumber : shifted count number = number + 1 := if_neg (by omega)
      rw [refusedFrom, refusedFrom, List.map_append, ih (by omega)]
      cases refusal? line with
      | none => rfl
      | some error => simp [hnumber]

/-! ## What an edit keeps -/

theorem Codeless.parse_eq {line : List Char} (h : Codeless line) : parse line = .ok {} := by
  cases h with
  | blank hgap => exact parse_of_allBlank hgap
  | comment hgap hmark =>
      rw [parse_eq_of_code (code_append_comment hmark _ _), parse_of_allBlank hgap]

/-- A line with labels in front is refused for what the rest of it is refused for. -/
theorem SourceLine.LabelRow.refusal?_append {front : List Char} (h : LabelRow front)
    (rest : List Char) : refusal? front = none ∧ refusal? (front ++ rest) = refusal? rest := by
  obtain ⟨labels, hfront, happend⟩ := h.parse_append
  unfold refusal?
  rw [hfront, happend]
  cases parse rest with
  | error error => exact ⟨rfl, rfl⟩
  | ok parsed => exact ⟨rfl, rfl⟩

/-- A line with labels in front says the items of these labels and then those of the rest. -/
theorem SourceLine.LabelRow.lineItems_append {front rest : List Char} (h : LabelRow front)
    (hread : refusal? rest = none) :
    lineItems (front ++ rest) = lineItems front ++ lineItems rest := by
  obtain ⟨labels, hfront, happend⟩ := h.parse_append
  unfold lineItems
  rw [hfront, happend]
  unfold refusal? at hread
  cases hrest : parse rest with
  | error error =>
      rw [hrest] at hread
      cases hread
  | ok parsed => simp [Except.map, items]

variable {number moved : Nat → Nat} {lines others : List (List Char)}

/-- An edit keeps the refused lines, with their new numbers. -/
theorem Edit.refusedFrom_eq (h : Edit moved lines others) :
    refusedFrom 1 others = (refusedFrom 1 lines).map (Prod.map moved id) := by
  cases h with
  | @insert before after line hline =>
      have hnone : refusal? line = none := by rw [refusal?, hline.parse_eq]
      rw [refusedFrom_append, refusedFrom_append, List.map_append,
        map_shifted_front (by omega), map_shifted_back (by omega), refusedFrom, hnone]
      rfl
  | @restyle before after line other hline =>
      have hsame : refusal? other = refusal? line := by rw [refusal?, refusal?, hline.parse_eq]
      rw [refusedFrom_append, refusedFrom_append, refusedFrom, refusedFrom, hsame, Prod.map_id,
        List.map_id]
  | @cut before after front rest hfront =>
      obtain ⟨hnone, hrest⟩ := hfront.refusal?_append rest
      rw [refusedFrom_append, refusedFrom_append, List.map_append, map_shifted_front (by omega),
        map_shifted_back (by omega), refusedFrom, refusedFrom, refusedFrom, hnone, hrest]
      rfl

/-- An edit keeps the items that the lines say, if all lines can be read. -/
theorem Edit.flatMap_lineItems_eq (h : Edit moved lines others) (hread : refusedFrom 1 lines = []) :
    others.flatMap lineItems = lines.flatMap lineItems := by
  cases h with
  | @insert before after line hline =>
      have hnone : lineItems line = [] := by
        rw [lineItems, hline.parse_eq]
        rfl
      rw [List.flatMap_append, List.flatMap_append, List.flatMap_cons, hnone, List.nil_append]
  | @restyle before after line other hline =>
      have hsame : lineItems other = lineItems line := by
        rw [lineItems, lineItems, hline.parse_eq]
      rw [List.flatMap_append, List.flatMap_append, List.flatMap_cons, List.flatMap_cons, hsame]
  | @cut before after front rest hfront =>
      have hnone : refusal? rest = none := by
        rw [refusedFrom_append, refusedFrom, (hfront.refusal?_append rest).2] at hread
        have hcons := (List.append_eq_nil_iff.mp hread).2
        simpa using (List.append_eq_nil_iff.mp hcons).1
      rw [List.flatMap_append, List.flatMap_append, List.flatMap_cons, List.flatMap_cons,
        List.flatMap_cons, hfront.lineItems_append hnone, List.append_assoc]

/-! ## The outcome -/

/-- An error with the refused lines renumbered. -/
def AssemblyError.renumber (number : Nat → Nat) : AssemblyError → AssemblyError
  | .parse refused => .parse (refused.map (Prod.map number id))
  | error => error

theorem AssemblyError.renumber_id (error : AssemblyError) : error.renumber id = error := by
  cases error <;> simp [renumber]

theorem AssemblyError.renumber_renumber (error : AssemblyError) :
    (error.renumber number).renumber moved = error.renumber (moved ∘ number) := by
  cases error <;> simp [renumber, Prod.map_comp_map]

section Congr

variable {program other : List SourceLine}

/-- Lines that say the same items in a row have the same layout, wherever one line ends and the next
begins. -/
theorem Layout.ofLines_congr (h : other.flatMap items = program.flatMap items) :
    Layout.ofLines other = Layout.ofLines program :=
  congrArg (Layout.ofItems 0) h

theorem programErrors_congr (h : other.flatMap items = program.flatMap items) (config : Config) :
    programErrors config other = programErrors config program := by
  unfold programErrors
  rw [Layout.ofLines_congr h]

theorem Assembly.resolved_congr (h : other.flatMap items = program.flatMap items)
    (config : Config) : Assembly.resolved config other = Assembly.resolved config program := by
  unfold Assembly.resolved
  rw [Layout.ofLines_congr h]

end Congr

/-- The outcome depends on a text only through the refused lines and the items of the others. -/
theorem assemble_congr {source other : String}
    (hrefused : refusedLines other = (refusedLines source).map (Prod.map number id))
    (hitems : refusedLines source = [] →
      (sourceLines other).flatMap items = (sourceLines source).flatMap items) (config : Config) :
    assemble config other = (assemble config source).mapError (AssemblyError.renumber number) := by
  rw [assemble_eq, assemble_eq]
  by_cases haligned : IsAligned config.baseAddress
  · by_cases hnil : refusedLines source = []
    · rw [hrefused, hnil, programErrors_congr (hitems hnil), Assembly.resolved_congr (hitems hnil)]
      by_cases hsound : programErrors config (sourceLines source) = []
      · simp [haligned, hsound, Except.mapError]
      · simp [haligned, hsound, Except.mapError, AssemblyError.renumber]
    · simp [haligned, hrefused, hnil, Except.mapError, AssemblyError.renumber]
  · simp [haligned, Except.mapError, AssemblyError.renumber]

/-- A text that is laid out in another way is assembled in the same way: the assembly or the
failures are the same, and refused lines are refused for the same reasons under their new numbers. -/
theorem assemble_relaid {source other : String} (h : Relaid source number other)
    (config : Config) :
    assemble config other = (assemble config source).mapError (AssemblyError.renumber number) := by
  induction h with
  | refl => cases assemble config source <;> simp [Except.mapError, AssemblyError.renumber_id]
  | @edit number moved text other _ hedit ih =>
      have hrefused : refusedLines other = (refusedLines text).map (Prod.map moved id) := by
        rw [refusedLines_eq, refusedLines_eq, hedit.refusedFrom_eq]
      have hitems : refusedLines text = [] →
          (sourceLines other).flatMap items = (sourceLines text).flatMap items := by
        rw [refusedLines_eq, flatMap_items_sourceLines, flatMap_items_sourceLines]
        exact hedit.flatMap_lineItems_eq
      rw [assemble_congr hrefused hitems, ih]
      cases assemble config source <;>
        simp [Except.mapError, AssemblyError.renumber_renumber]

/-- A label gets a line of its own, which ends with a carriage return, and the unknown operation
behind it is written in capitals: it is refused in its new line for the same reason. -/
theorem assemble_relaid_unknown :
    let source := "a: b: addq $t0\nj b"
    let other := "a: \r\nb: ADDQ $t0\nj b"
    Relaid source (shifted 0) other ∧
      assemble {} other = (assemble {} source).mapError (AssemblyError.renumber (shifted 0)) ∧
      assemble {} source = .error (.parse [(1, .unknownOperation "addq")]) ∧
      assemble {} other = .error (.parse [(2, .unknownOperation "addq")]) := by
  intro source other
  have hrow : ∀ name ∈ [['a'], ['b']], LabelRow (name ++ ':' :: [' ']) := by
    intro name hmem
    have hname : ∀ name ∈ [['a'], ['b']], Operand.isLabelName (trim name) = true := by decide
    exact .label (Operand.isLabelName_iff.mp (hname name hmem))
      (.blank (allBlank_singleton (by decide)))
  have hsource : textLines source =
      [['a', ':', ' '] ++ ("b: ".toList ++ ("addq".toList ++ " $t0".toList)), "j b".toList] := by
    decide +kernel
  have hlines : textLines "a: \nb: addq $t0\nj b" =
      [['a', ':', ' '], "b: ".toList ++ ("addq".toList ++ " $t0".toList), "j b".toList] := by
    decide +kernel
  have hended : textLines "a: \r\nb: addq $t0\nj b" =
      [['a', ':', ' '] ++ ['\r'], "b: ".toList ++ ("addq".toList ++ " $t0".toList),
        "j b".toList] := by
    decide +kernel
  have hother : textLines other =
      [['a', ':', ' '] ++ ['\r'], "b: ".toList ++ ("ADDQ".toList ++ " $t0".toList),
        "j b".toList] := by
    decide +kernel
  have hcut : Edit (shifted 0) (textLines source) (textLines "a: \nb: addq $t0\nj b") := by
    rw [hsource, hlines]
    exact @Edit.cut [] _ _ _ (hrow ['a'] (by decide))
  have hreturn : Edit id (textLines "a: \nb: addq $t0\nj b")
      (textLines "a: \r\nb: addq $t0\nj b") := by
    rw [hlines, hended]
    exact @Edit.restyle [] _ _ _ (.right (allBlank_singleton (by decide)))
  have hmnemonic : CutAtMnemonic "b: ".toList "addq".toList " $t0".toList := by
    have hsolid : Operand.Solid "addq".toList := by decide
    refine ⟨hrow ['b'] (by decide), .of_solid hsolid, fun c hc => ?_, ?_⟩
    · obtain rfl : ' ' = c := Option.some.inj hc
      exact Or.inl (by decide)
    · exact not_startsWithLabel (by decide +kernel)
  have hcase : Edit id (textLines "a: \r\nb: addq $t0\nj b") (textLines other) := by
    rw [hended, hother]
    exact @Edit.restyle [_] _ _ _ (.mnemonic hmnemonic (by decide))
  have h : Relaid source (shifted 0) other := .edit (.edit (.edit .refl hcut) hreturn) hcase
  exact ⟨h, assemble_relaid h {}, by decide +kernel, by decide +kernel⟩

end Backpatch
