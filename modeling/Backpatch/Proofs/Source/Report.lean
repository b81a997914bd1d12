import Backpatch.Proofs.Source.Listing
import Backpatch.Proofs.Source.Quotation

/-!
# The report of a failed run, line by line

A run that fails for its source is reported in one text with a line for each error. That the lines
of the report are the errors, and no error takes two lines, depends on what the sentences quote:

* from a refused line, an excerpt of that line, which ends where the line does;
* from a program, a name that it mentions, which has no blank in it and so no line feed.

`assemble_reports_each` puts this together for every source text.
-/

namespace Backpatch

open Text

/-- A text without a line feed. -/
def OneLine (text : String) : Prop :=
  '\n' ∉ text.toList

instance (text : String) : Decidable (OneLine text) :=
  inferInstanceAs (Decidable ('\n' ∉ text.toList))

namespace OneLine

variable {text other : String}

theorem append (h : OneLine text) (hother : OneLine other) : OneLine (text ++ other) := by
  unfold OneLine
  rw [String.toList_append, List.mem_append, not_or]
  exact ⟨h, hother⟩

/-- A text with another on either side, such as a piece that a sentence quotes. -/
theorem between {before after : String} (hbefore : OneLine before) (h : OneLine text)
    (hafter : OneLine after) : OneLine (before ++ text ++ after) :=
  (hbefore.append h).append hafter

/-- Two texts between three phrases. -/
theorem between_two {before middle after : String} (hbefore : OneLine before) (h : OneLine text)
    (hmiddle : OneLine middle) (hother : OneLine other) (hafter : OneLine after) :
    OneLine (before ++ text ++ middle ++ other ++ after) :=
  (hbefore.between h hmiddle).between hother hafter

/-- A line feed is blank. -/
theorem of_not_blank (h : ∀ c ∈ text.toList, isBlank c = false) : OneLine text :=
  fun hmem => absurd (h '\n' hmem) (by decide)

theorem of_isAlphanum (h : ∀ c ∈ text.toList, c.isAlphanum = true) : OneLine text :=
  of_not_blank fun c hc => not_isBlank_of_isAlphanum (h c hc)

/-- What a sentence quotes from a line ends where the line does. -/
theorem of_excerpt {line : List Char} (hline : '\n' ∉ line) (h : Excerpt line text) :
    OneLine text := by
  unfold OneLine
  cases h with
  | written hpiece =>
      rw [String.toList_ofList]
      exact fun hmem => hline (hpiece.subset hmem)
  | lowered hpiece =>
      rw [String.toList_ofList]
      intro hmem
      obtain ⟨c, hc, hlower⟩ := List.mem_map.mp hmem
      obtain rfl : c = '\n' := (toLower_eq_iff (by decide)).mp hlower
      exact hline (hpiece.subset hc)

end OneLine

theorem oneLine_repr (value : Nat) : OneLine value.repr := by
  apply OneLine.of_isAlphanum
  rw [Nat.toList_repr]
  exact (numeral_toDigits value).isAlphanum (by decide)

theorem oneLine_repr_int (value : Int) : OneLine value.repr := by
  rw [Int.repr_eq_if]
  split
  · exact oneLine_repr _
  · exact OneLine.append (by decide) (oneLine_repr _)

theorem oneLine_hexWord (word : BitVec 32) : OneLine (hexWord word) := by
  refine OneLine.append (by decide) ?_
  unfold hex OneLine
  rw [String.toList_ofList]
  exact fun hmem => absurd (mem_hexDigits hmem) (by decide)

/-! ## Sentences -/

/-- The sentence about a refused line has a line feed only if what it quotes has one. -/
theorem LineError.oneLine_message {error : LineError}
    (h : ∀ text ∈ error.quoted?, OneLine text) : OneLine error.message := by
  cases error with
  | operandCount mnemonic expected found =>
      have hcount : OneLine ("'" ++ mnemonic ++ "' expects " ++ toString expected ++
          " operands, found ") :=
        .between_two (by decide) (h mnemonic rfl) (by decide) (oneLine_repr expected) (by decide)
      exact hcount.append (oneLine_repr found)
  | signedRange value => exact .between (by decide) (oneLine_repr_int value) (by decide)
  | unsignedRange value => exact .between (by decide) (oneLine_repr_int value) (by decide)
  -- Every other sentence is a quotation between two phrases.
  | _ text => exact .between (by decide) (h text rfl) (by decide)

/-- The name of a label in the sentence about a failure. -/
def PatchError.name? : PatchError → Option String
  | .duplicateLabel name | .misalignedAddress name _ | .undefinedLabel name
  | .displacementOverflow name _ | .jumpOutOfRegion name _ => some name
  | .conflictingReference _ | .unknownHandle _ | .notJumpOrBranch _ _ | .addressMismatch _ _
  | .addressOverflow _ _ | .phaseViolation _ | .alreadyPatched | .notPatched => none

/-- The sentence about a failure has a line feed only if the name of the label has one. -/
theorem PatchError.oneLine_message {error : PatchError}
    (h : ∀ name ∈ error.name?, OneLine name) : OneLine error.message := by
  cases error with
  | duplicateLabel name => exact .between (by decide) (h name rfl) (by decide)
  | misalignedAddress name address =>
      exact .between_two (by decide) (oneLine_hexWord address) (by decide) (h name rfl) (by decide)
  | undefinedLabel name => exact .between (by decide) (h name rfl) (by decide)
  | displacementOverflow name site =>
      exact .between_two (by decide) (oneLine_hexWord site) (by decide) (h name rfl) (by decide)
  | jumpOutOfRegion name site =>
      exact .between_two (by decide) (oneLine_hexWord site) (by decide) (h name rfl) (by decide)
  | conflictingReference site => exact .between (by decide) (oneLine_hexWord site) (by decide)
  | unknownHandle handle => exact .between (by decide) (oneLine_repr handle) (by decide)
  | notJumpOrBranch site word =>
      exact .between_two (by decide) (oneLine_hexWord word) (by decide) (oneLine_hexWord site)
        (by decide)
  | addressMismatch recorded actual =>
      have hrecorded : OneLine ("Reference recorded at " ++ hexWord recorded ++
          " but the instruction is at ") :=
        .between (by decide) (oneLine_hexWord recorded) (by decide)
      exact hrecorded.append (oneLine_hexWord actual)
  | addressOverflow base count =>
      have hcount : OneLine (toString count ++ " instructions from base ") :=
        (oneLine_repr count).append (by decide)
      exact hcount.between (oneLine_hexWord base) (by decide)
  | phaseViolation attempt =>
      have hattempt : OneLine attempt.text := by
        cases attempt <;> decide
      exact .between (by decide) hattempt (by decide)
  | alreadyPatched => decide
  | notPatched => decide

/-! ## The names in a program -/

namespace Layout

variable {checkRanges : Bool} {base : Address} {layout : Layout} {error : PatchError}
  {name : String}

/-- A label that is refused is one of the program. -/
theorem mem_names_of_refused (h : error ∈ layout.refused base) (hname : error.name? = some name) :
    name ∈ layout.names := by
  obtain ⟨⟨place, item⟩, hmem, hrefusal⟩ := List.mem_filterMap.mp h
  rcases Nat.lt_or_ge place (capacity base) with hroom | hfull
  · cases item with
    | label other =>
        rw [refusal?_label hroom] at hrefusal
        split at hrefusal
        · cases hrefusal
        · cases hrefusal
          exact mem_names_iff.mpr ⟨_, hmem, hname⟩
    | statement emitted =>
        rw [refusal?_statement hroom] at hrefusal
        cases hrefusal
  · rw [refusal?_of_full hfull] at hrefusal
    cases hrefusal
    cases hname

/-- What stands in the way of the references to a name is reported with the name. -/
theorem name?_of_mem_unresolvedName (h : error ∈ layout.unresolvedName checkRanges base name) :
    error.name? = some name := by
  unfold unresolvedName at h
  split at h
  · split at h
    · cases h
    · rw [List.mem_singleton.mp h]
      rfl
  · obtain ⟨fixup, -, hrange⟩ := List.mem_filterMap.mp h
    unfold outOfRange? at hrange
    split at hrange
    · cases hrange
      cases fixup.kind <;> rfl
    · cases hrange

theorem mem_names_of_unresolved (h : error ∈ layout.unresolved checkRanges base)
    (hname : error.name? = some name) : name ∈ layout.names := by
  obtain ⟨other, hother, hmem⟩ := List.mem_flatMap.mp h
  rw [name?_of_mem_unresolvedName hmem, Option.some.injEq] at hname
  rwa [← hname]

theorem mem_names_of_recorded (h : name ∈ (layout.recorded base).names) : name ∈ layout.names := by
  obtain ⟨entry, hentry, hname⟩ := mem_names_iff.mp h
  exact mem_names_iff.mpr ⟨entry, (List.mem_filter.mp hentry).1, hname⟩

end Layout

/-- Every name in a failure is one that the lines mention. -/
theorem exists_mentions_of_programErrors {config : Config} {lines : List SourceLine}
    {error : PatchError} (h : error ∈ programErrors config lines) {name : String}
    (hname : error.name? = some name) : ∃ line ∈ lines, name ∈ line.mentions := by
  have hnames : name ∈ (Layout.ofLines lines).names := by
    rcases List.mem_append.mp h with hrefused | hunresolved
    · exact Layout.mem_names_of_refused hrefused hname
    · exact Layout.mem_names_of_recorded (Layout.mem_names_of_unresolved hunresolved hname)
  rwa [Layout.names_ofLines, List.mem_eraseDups, List.mem_flatMap] at hnames

/-- The names that a line mentions are label names. -/
theorem SourceLine.isName_of_mem_mentions {line : List Char} {parsed : SourceLine}
    (h : parse line = .ok parsed) {name : String} (hname : name ∈ parsed.mentions) :
    Operand.IsName name.toList := by
  rcases List.mem_append.mp hname with hlabel | htarget
  · exact isName_of_mem_labels h hlabel
  · obtain ⟨labels, statement⟩ := parsed
    rcases statement with _ | ⟨word⟩ | ⟨word, target⟩
    · cases htarget
    · cases htarget
    · obtain rfl : name = target := List.mem_singleton.mp htarget
      obtain ⟨operation, -, htakes⟩ := read_of_parse h
      generalize (written line).2 = operands at htakes
      cases htakes with
      | compare hrs hrt hname => rwa [String.toList_ofList]
      | compareZero hrs hname => rwa [String.toList_ofList]
      | jump hname => rwa [String.toList_ofList]

/-! ## Reports -/

/-- A report has a line for each entry, if there are any and none of their sentences is longer. -/
theorem textLines_reportLines {α : Type} {entries : List α} {sentence : α → String}
    (hne : entries ≠ []) (h : ∀ entry ∈ entries, OneLine (sentence entry)) :
    textLines (reportLines (entries.map sentence)) =
      entries.map fun entry => ("error: " ++ sentence entry).toList := by
  have hpieces : (reportLines (entries.map sentence)).toList =
      ['\n'].intercalate (entries.map fun entry => ("error: " ++ sentence entry).toList) := by
    unfold reportLines
    rw [String.toList_intercalate, List.map_map, List.map_map]
    rfl
  rw [textLines, hpieces]
  apply splitOn_intercalate
  · simpa using hne
  · intro piece hpiece
    obtain ⟨entry, hmem, rfl⟩ := List.mem_map.mp hpiece
    exact OneLine.append (by decide) (h entry hmem)

/-- A line is refused with its number, and for what it is refused for when it is read alone. -/
theorem exists_line_of_mem_refusedLines {source : String} {entry : Nat × LineError}
    (h : entry ∈ refusedLines source) :
    ∃ index line, (textLines source)[index]? = some line ∧ entry.1 = index + 1 ∧
      SourceLine.parse line = .error entry.2 := by
  obtain ⟨⟨line, index⟩, hline, hentry⟩ := List.mem_filterMap.mp h
  refine ⟨index, line, List.mem_zipIdx_iff_getElem?.mp hline, ?_⟩
  simp only at hentry
  split at hentry
  · next error hparse =>
    cases hentry
    exact ⟨rfl, hparse⟩
  · cases hentry

/-- No sentence about a refused line has a line feed. -/
theorem oneLine_of_mem_refusedLines {source : String} {entry : Nat × LineError}
    (h : entry ∈ refusedLines source) : OneLine entry.2.message := by
  obtain ⟨index, line, hline, -, hparse⟩ := exists_line_of_mem_refusedLines h
  have hfeed : '\n' ∉ line := not_mem_of_mem_splitOn (List.mem_of_getElem? hline)
  exact LineError.oneLine_message fun text htext =>
    .of_excerpt hfeed (SourceLine.cites_parse line _ hparse text htext)

/-- No sentence about a failure has a line feed. -/
theorem oneLine_of_mem_programErrors {config : Config} {source : String} {error : PatchError}
    (h : error ∈ programErrors config (sourceLines source)) : OneLine error.message := by
  refine PatchError.oneLine_message fun name hname => ?_
  obtain ⟨parsed, hparsed, hmention⟩ := exists_mentions_of_programErrors h hname
  obtain ⟨line, hline⟩ := exists_parse_of_mem hparsed
  exact .of_not_blank (SourceLine.isName_of_mem_mentions hline hmention).solid.not_blank

/-- However a source text is refused, the lines of the report are its errors in order, each on a
line of its own. A refused line is reported with its number. -/
theorem assemble_reports_each (config : Config) (source : String) :
    (∀ refused, assemble config source = .error (.parse refused) →
      textLines (AssemblyError.parse refused).message =
          refused.map (fun entry => s!"error: line {entry.1}: {entry.2.message}".toList) ∧
        ∀ entry ∈ refused, OneLine entry.2.message ∧
          ∃ index line, (textLines source)[index]? = some line ∧ entry.1 = index + 1 ∧
            SourceLine.parse line = .error entry.2) ∧
      ∀ diagnostics, assemble config source = .error (.patch diagnostics) →
        textLines (AssemblyError.patch diagnostics).message =
            diagnostics.map (fun error => s!"error: {error.message}".toList) ∧
          ∀ error ∈ diagnostics, OneLine error.message := by
  refine ⟨fun refused h => ?_, fun diagnostics h => ?_⟩
  · obtain ⟨hne, rfl⟩ := of_assemble_eq_parse h
    have hone : ∀ entry ∈ refusedLines source, OneLine entry.2.message :=
      fun entry => oneLine_of_mem_refusedLines
    refine ⟨?_, fun entry hentry => ⟨hone entry hentry, exists_line_of_mem_refusedLines hentry⟩⟩
    have hline : ∀ entry ∈ refusedLines source,
        OneLine s!"line {entry.1}: {entry.2.message}" := fun entry hentry =>
      (OneLine.between (by decide) (oneLine_repr entry.1) (by decide)).append (hone entry hentry)
    refine (textLines_reportLines hne hline).trans (List.map_congr_left fun entry _ => ?_)
    have hhead : "error: " ++ toString "line " = toString "error: line " := by decide
    simp only [← String.append_assoc, hhead]
  · obtain ⟨hne, rfl⟩ := of_assemble_eq_patch h
    have hone : ∀ error ∈ programErrors config (sourceLines source), OneLine error.message :=
      fun error => oneLine_of_mem_programErrors
    exact ⟨textLines_reportLines hne hone, hone⟩

/-- Two refused lines, with a mnemonic that is quoted in lower case, and two failures of a program
whose lines can be read. -/
theorem assemble_reports_each_two_kinds :
    let refused := [(1, LineError.unknownOperation "frob"), (3, .invalidLabel "1x")]
    let diagnostics := [PatchError.duplicateLabel "a", .undefinedLabel "b"]
    assemble {} "FROB\nnop\nj 1x" = .error (.parse refused) ∧
      textLines (AssemblyError.parse refused).message =
        ["error: line 1: Unknown operation 'frob'".toList,
          "error: line 3: Invalid label '1x'".toList] ∧
      assemble {} "a: j b\na: nop" = .error (.patch diagnostics) ∧
      textLines (AssemblyError.patch diagnostics).message =
        ["error: Duplicate label 'a'".toList, "error: Undefined label 'b'".toList] := by
  intro refused diagnostics
  have hrefused : assemble {} "FROB\nnop\nj 1x" = .error (.parse refused) := by decide +kernel
  have hdiagnostics : assemble {} "a: j b\na: nop" = .error (.patch diagnostics) := by
    decide +kernel
  have hparse := ((assemble_reports_each {} _).1 refused hrefused).1
  have hpatch := ((assemble_reports_each {} _).2 diagnostics hdiagnostics).1
  exact ⟨hrefused, hparse.trans (by decide), hdiagnostics, hpatch.trans (by decide)⟩

end Backpatch
