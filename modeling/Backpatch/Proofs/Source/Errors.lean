import Backpatch.Proofs.Source.Resolution
import Backpatch.Proofs.Source.Transfer

/-!
# Everything that is wrong with a source text

`assemble_eq` gives the outcome of assembling in closed form, in the order in which things are
looked at: the base address, then the lines one by one (`refusedLines`), then what they say together
(`programErrors`). Each stage reports all that it finds and hides the later ones, and a text that
passes all of them ends in `Assembly.resolved`. The failures are read off from there.
-/

namespace Backpatch

/-! ## Lines of text -/

/-- The lines of a source text, as they are written. -/
def textLines (source : String) : List (List Char) :=
  Text.splitOn '\n' source.toList

/-- The lines that cannot be read, each with its number and what it is refused for. -/
def refusedLines (source : String) : List (Nat × LineError) :=
  (textLines source).zipIdx.filterMap fun (line, index) =>
    match SourceLine.parse line with
    | .error error => some (index + 1, error)
    | .ok _ => none

/-- What the lines of a source text say, as far as they can be read. -/
def sourceLines (source : String) : List SourceLine :=
  (textLines source).filterMap fun line => (SourceLine.parse line).toOption

theorem readSource_eq (source : String) :
    readSource source =
      if refusedLines source = [] then .ok (sourceLines source)
      else .error (refusedLines source) := by
  have hlines : (readLines source).filterMap (fun entry => entry.2.toOption) =
      sourceLines source := by
    unfold readLines sourceLines
    rw [← List.zipIdx_map_fst 0 (textLines source)]
    rw [List.filterMap_map, List.filterMap_map]
    apply List.filterMap_congr
    rintro ⟨line, index⟩ -
    simp only [Function.comp_apply]
  unfold readSource
  simp only [List.isEmpty_iff]
  refine congrArg₂ (fun refused lines =>
    if refused = [] then Except.ok lines else Except.error refused) ?_ hlines
  unfold readLines refusedLines
  rw [List.filterMap_map]
  apply List.filterMap_congr
  rintro ⟨line, index⟩ -
  cases hline : SourceLine.parse line <;> simp [hline]

/-- When no line is refused, each line of the text can be read. -/
theorem exists_parse_of_refusedLines {source : String} (h : refusedLines source = [])
    {line : List Char} (hmem : line ∈ textLines source) :
    ∃ parsed, SourceLine.parse line = .ok parsed := by
  obtain ⟨index, hindex⟩ := List.mem_iff_getElem?.mp hmem
  have hentry : (line, index) ∈ (textLines source).zipIdx :=
    List.mem_zipIdx_iff_getElem?.mpr hindex
  have hnone := List.filterMap_eq_nil_iff.mp h _ hentry
  cases hline : SourceLine.parse line with
  | error error =>
      simp only [hline] at hnone
      cases hnone
  | ok parsed => exact ⟨parsed, rfl⟩

/-- When no line is refused, what a text says is what its lines say, one by one. -/
theorem map_parse_textLines {source : String} (h : refusedLines source = []) :
    (textLines source).map SourceLine.parse = (sourceLines source).map .ok := by
  have hread : ∀ line ∈ textLines source, ∃ parsed, SourceLine.parse line = .ok parsed :=
    fun line hmem => exists_parse_of_refusedLines h hmem
  unfold sourceLines
  generalize textLines source = lines at hread
  induction lines with
  | nil => rfl
  | cons line rest ih =>
      obtain ⟨parsed, hparsed⟩ := hread line List.mem_cons_self
      have hrest := ih fun other hmem => hread other (List.mem_cons_of_mem _ hmem)
      rw [List.map_cons, hrest, hparsed, List.filterMap_cons, hparsed]
      rfl

/-- Only what can be read is among the lines of a source text. -/
theorem exists_parse_of_mem {source : String} {parsed : SourceLine}
    (h : parsed ∈ sourceLines source) : ∃ line, SourceLine.parse line = .ok parsed := by
  obtain ⟨line, -, hparsed⟩ := List.mem_filterMap.mp h
  exact ⟨line, eq_ok_of_toOption hparsed⟩

/-- No item of a source text is refused for its word. -/
theorem hasField_of_mem_sourceLines {source : String} :
    ∀ line ∈ sourceLines source, ∀ item ∈ line.items, item.HasField := by
  intro parsed hparsed item hitem
  obtain ⟨line, hline⟩ := exists_parse_of_mem hparsed
  exact SourceLine.hasField_of_parse hline hitem

/-! ## The outcome -/

/-- The run that has recorded lines and resolved every reference. -/
def Assembly.resolved (config : Config) (lines : List SourceLine) : Assembly where
  config
  draft := Draft.patched config.checkRanges
    (recorded config (Layout.recorded config.baseAddress (Layout.ofLines lines))).draft
  phase := .patched

/-- Patching a recorded program either reports what stands in the way of its references, or
resolves them. -/
theorem Assembly.patch_recorded (config : Config) (lines : List SourceLine) :
    let layout := (Layout.ofLines lines).recorded config.baseAddress
    let failures := layout.unresolved config.checkRanges config.baseAddress
    let draft := (recorded config layout).draft
    (recorded config layout).patch =
      if failures = [] then
        (.ok (draft.report config.checkRanges),
          ⟨config, draft.patched config.checkRanges, .patched⟩)
      else (.error failures, ⟨config, draft, .failed⟩) := by
  intro layout failures draft
  have hpatch : draft.patch config.checkRanges =
      if failures = [] then
        (.ok (draft.report config.checkRanges), draft.patched config.checkRanges)
      else (.error failures, draft) := by
    have hfailures : draft.failures config.checkRanges = failures :=
      Layout.failures_eq config.checkRanges config.baseAddress (lines.flatMap SourceLine.items)
    rw [Draft.patch_eq, hfailures]
  have hrun : recorded config layout = ⟨config, draft, .collecting⟩ := rfl
  rw [hrun, patch, hpatch]
  by_cases hnil : failures = []
  · rw [if_pos hnil, if_pos hnil]
  · rw [if_neg hnil, if_neg hnil]

/-- Lines are assembled unless something is wrong with the program that they make up. -/
theorem assembleLines_eq {config : Config} (haligned : IsAligned config.baseAddress)
    {lines : List SourceLine} (hfield : ∀ line ∈ lines, ∀ item ∈ line.items, item.HasField) :
    assembleLines config lines =
      if programErrors config lines = [] then .ok (.resolved config lines)
      else .error (programErrors config lines) := by
  have herrors : programErrors config lines =
      (Layout.ofLines lines).refused config.baseAddress ++
        ((Layout.ofLines lines).recorded config.baseAddress).unresolved config.checkRanges
          config.baseAddress := rfl
  have hpatch := Assembly.patch_recorded config lines
  unfold assembleLines
  rw [Assembly.record_eq haligned hfield]
  simp only at hpatch ⊢
  rw [hpatch]
  by_cases hunresolved : ((Layout.ofLines lines).recorded config.baseAddress).unresolved
      config.checkRanges config.baseAddress = []
  · rw [hunresolved, List.append_nil] at herrors
    rw [if_pos hunresolved, herrors]
    by_cases hrefused : (Layout.ofLines lines).refused config.baseAddress = []
    · rw [if_pos hrefused, hrefused]
      rfl
    · rw [if_neg hrefused]
      exact if_neg (by simpa using hrefused)
  · have hsome : programErrors config lines ≠ [] := by
      rw [herrors]
      exact fun h => hunresolved (List.append_eq_nil_iff.mp h).2
    rw [if_neg hunresolved, if_neg hsome, herrors]

/-- The outcome of assembling a source text. -/
theorem assemble_eq (config : Config) (source : String) :
    assemble config source =
      if ¬IsAligned config.baseAddress then
        .error (.config (.misalignedBase config.baseAddress))
      else if refusedLines source ≠ [] then .error (.parse (refusedLines source))
      else if programErrors config (sourceLines source) ≠ [] then
        .error (.patch (programErrors config (sourceLines source)))
      else .ok (.resolved config (sourceLines source)) := by
  unfold assemble Config.checked
  rw [readSource_eq]
  by_cases haligned : IsAligned config.baseAddress
  · rw [if_pos haligned, if_neg (not_not.mpr haligned)]
    by_cases hrefused : refusedLines source = []
    · rw [if_pos hrefused, if_neg (not_not.mpr hrefused)]
      simp only [Except.mapError, bind, Except.bind]
      rw [assembleLines_eq haligned hasField_of_mem_sourceLines]
      by_cases herrors : programErrors config (sourceLines source) = []
      · rw [if_pos herrors, if_neg (not_not.mpr herrors)]
      · rw [if_neg herrors, if_pos herrors]
    · rw [if_neg hrefused, if_pos hrefused]
      rfl
  · rw [if_neg haligned, if_pos haligned]
    rfl

/-- A source text is assembled when none of the stages finds anything. -/
theorem of_assemble_eq_ok {config : Config} {source : String} {assembly : Assembly}
    (h : assemble config source = .ok assembly) :
    IsAligned config.baseAddress ∧ refusedLines source = [] ∧
      programErrors config (sourceLines source) = [] ∧
      assembly = .resolved config (sourceLines source) := by
  rw [assemble_eq] at h
  by_cases haligned : IsAligned config.baseAddress
  · by_cases hrefused : refusedLines source = []
    · by_cases herrors : programErrors config (sourceLines source) = []
      · simp only [haligned, hrefused, herrors, not_true, ne_eq, if_false] at h
        exact ⟨haligned, hrefused, herrors, (Except.ok.inj h).symm⟩
      · simp [haligned, hrefused, herrors] at h
    · simp [haligned, hrefused] at h
  · simp [haligned] at h

/-- A text that is refused for its lines is refused for all that cannot be read, and there are
some. -/
theorem of_assemble_eq_parse {config : Config} {source : String} {refused : List (Nat × LineError)}
    (h : assemble config source = .error (.parse refused)) :
    refused ≠ [] ∧ refused = refusedLines source := by
  rw [assemble_eq] at h
  split at h
  · cases h
  split at h
  · next hrefused =>
    cases h
    exact ⟨hrefused, rfl⟩
  · split at h <;> cases h

/-- A text that is refused for its program is refused for all that is wrong with it, and there is
something. -/
theorem of_assemble_eq_patch {config : Config} {source : String} {diagnostics : Diagnostics}
    (h : assemble config source = .error (.patch diagnostics)) :
    diagnostics ≠ [] ∧ diagnostics = programErrors config (sourceLines source) := by
  rw [assemble_eq] at h
  split at h
  · cases h
  split at h
  · cases h
  split at h
  · next herrors =>
    cases h
    exact ⟨herrors, rfl⟩
  · cases h

/-- At an aligned base address, a text whose lines can be read is refused for its program only. -/
theorem exists_patch_of_assemble_eq_error {config : Config} {source : String}
    {error : AssemblyError} (haligned : IsAligned config.baseAddress)
    (hrefused : refusedLines source = []) (h : assemble config source = .error error) :
    ∃ diagnostics, error = .patch diagnostics := by
  rw [assemble_eq, if_neg (not_not.mpr haligned), if_neg (not_not.mpr hrefused)] at h
  split at h
  · cases h
    exact ⟨_, rfl⟩
  · cases h

/-- Assembling fails for an unaligned base address, else for the lines that cannot be read, else for
everything that is wrong with the program; and it reports exactly that. -/
theorem assemble_error_iff (config : Config) (source : String) (error : AssemblyError) :
    assemble config source = .error error ↔
      (¬IsAligned config.baseAddress ∧
          error = .config (.misalignedBase config.baseAddress)) ∨
        (IsAligned config.baseAddress ∧ refusedLines source ≠ [] ∧
          error = .parse (refusedLines source)) ∨
        (IsAligned config.baseAddress ∧ refusedLines source = [] ∧
          programErrors config (sourceLines source) ≠ [] ∧
          error = .patch (programErrors config (sourceLines source))) := by
  rw [assemble_eq]
  by_cases haligned : IsAligned config.baseAddress
  · by_cases hrefused : refusedLines source = []
    · by_cases herrors : programErrors config (sourceLines source) = []
      · simp [haligned, hrefused, herrors]
      · simp [haligned, hrefused, herrors, eq_comm]
    · simp [haligned, hrefused, eq_comm]
  · simp [haligned, eq_comm]

/-- A label that moves and a label that is missing are both reported. -/
example : assemble {} "a: nop\na: j b" =
    .error (.patch [.duplicateLabel "a", .undefinedLabel "b"]) := by
  decide +kernel

end Backpatch
