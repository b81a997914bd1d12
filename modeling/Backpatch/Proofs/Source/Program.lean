import Backpatch.Proofs.Source.Errors

/-!
# Programs without errors

What is known of a program in which nothing is wrong, and of the run that has resolved it.

* `SourceLine.statements`, `SourceLine.place`, `SourceLine.mentions`: what lines emit, where they
  stand and which names they mention, read off the lines.
* `Sound`: there is room for everything, each name stands where it is defined, each name has a
  definition, and each reference reaches it if that is checked. `sound_of_programErrors` gives it.
* `Sound.word_of_word`, `Sound.word_of_reference`: the final word of a statement.
-/

namespace Backpatch

/-- The label that a statement refers to. -/
def Statement.label? : Statement → Option String
  | .word _ => none
  | .reference _ name => some name

namespace SourceLine

/-- The statements of lines, in textual order. -/
def statements (lines : List SourceLine) : List Statement :=
  lines.filterMap SourceLine.statement

/-- The place of a line: the number of statements on earlier lines. -/
def place (lines : List SourceLine) (index : Nat) : Nat :=
  (statements (lines.take index)).length

/-- The names that a line mentions, in textual order. -/
def mentions (line : SourceLine) : List String :=
  line.labels ++ line.statement.toList.filterMap Statement.label?

end SourceLine

/-! ## Lines and their layout -/

namespace Layout

theorem map_snd_ofItems (place : Nat) (items : List Item) :
    (ofItems place items).map Prod.snd = items := by
  induction items generalizing place with
  | nil => rfl
  | cons item rest ih =>
      rw [ofItems, List.map_cons, ih]

theorem statements_items (lines : List SourceLine) :
    Item.statements (lines.flatMap SourceLine.items) = SourceLine.statements lines := by
  induction lines with
  | nil => rfl
  | cons line rest ih =>
      obtain ⟨labels, statement⟩ := line
      have hlabels : Item.statements (labels.map Item.label) = [] :=
        List.filterMap_eq_nil_iff.mpr (by simp [Item.statement?])
      rw [List.flatMap_cons, Item.statements_append, ih, SourceLine.items,
        Item.statements_append, hlabels]
      cases statement <;> rfl

/-- The words of a program are those of its statements. -/
theorem words_ofLines (lines : List SourceLine) :
    (ofLines lines).words = (SourceLine.statements lines).map Statement.emitted := by
  have hwords : (ofLines lines).words =
      ((ofLines lines).map Prod.snd).filterMap (fun item => item.statement?.map Statement.emitted) :=
    by rw [List.filterMap_map]; rfl
  rw [hwords, ofLines, map_snd_ofItems, ← statements_items, Item.statements, List.map_filterMap]

theorem name?_items (line : SourceLine) : line.items.filterMap Item.name? = line.mentions := by
  obtain ⟨labels, statement⟩ := line
  have hlabels : (labels.map Item.label).filterMap Item.name? = labels := by
    rw [List.filterMap_map]
    exact List.filterMap_some
  rw [SourceLine.items, SourceLine.mentions, List.filterMap_append, hlabels]
  rcases statement with _ | ⟨word⟩ | ⟨word, name⟩ <;> rfl

/-- The names of a program are those that its lines mention. -/
theorem names_ofLines (lines : List SourceLine) :
    (ofLines lines).names = (lines.flatMap SourceLine.mentions).eraseDups := by
  have hnames : (ofLines lines).filterMap (·.2.name?) =
      ((ofLines lines).map Prod.snd).filterMap Item.name? := by
    rw [List.filterMap_map]
    rfl
  rw [names, hnames, ofLines, map_snd_ofItems, List.filterMap_flatMap]
  simp only [name?_items]

/-- The statements of a program stand at their own numbers. -/
theorem mem_ofLines_statement_iff {lines : List SourceLine} {place : Nat} {statement : Statement} :
    (place, .statement statement) ∈ ofLines lines ↔
      (SourceLine.statements lines)[place]? = some statement := by
  rw [ofLines, mem_ofItems_statement_iff, statements_items]
  simp

theorem mem_ofItems_label {labels : List String} {name : String} (h : name ∈ labels)
    (place : Nat) : (place, .label name) ∈ ofItems place (labels.map Item.label) := by
  induction labels with
  | nil => cases h
  | cons first rest ih =>
      rcases List.mem_cons.mp h with rfl | hrest
      · exact List.mem_cons_self
      · exact List.mem_cons_of_mem _ (ih hrest)

/-- A label stands at the place of its line. -/
theorem mem_ofLines_label {lines : List SourceLine} {index : Nat} {line : SourceLine}
    (hline : lines[index]? = some line) {name : String} (hname : name ∈ line.labels) :
    (SourceLine.place lines index, .label name) ∈ ofLines lines := by
  have hsplit : lines = lines.take index ++ line :: lines.drop (index + 1) := by
    obtain ⟨hlt, hget⟩ := List.getElem?_eq_some_iff.mp hline
    rw [← hget, List.getElem_cons_drop, List.take_append_drop]
  have hlayout : ofLines lines = ofItems 0 ((lines.take index).flatMap SourceLine.items ++
      (line.items ++ (lines.drop (index + 1)).flatMap SourceLine.items)) := by
    rw [ofLines]
    nth_rw 1 [hsplit]
    rw [List.flatMap_append, List.flatMap_cons]
  rw [hlayout, ofItems_append, Nat.zero_add, statements_items, ofItems_append, SourceLine.items,
    ofItems_append]
  refine List.mem_append_right _ (List.mem_append_left _ (List.mem_append_left _ ?_))
  exact mem_ofItems_label hname _

/-- A label of a program stands on some line. -/
theorem exists_line_of_mem_ofLines {lines : List SourceLine} {place : Nat} {name : String}
    (h : (place, .label name) ∈ ofLines lines) :
    ∃ (index : Nat) (line : SourceLine), lines[index]? = some line ∧ name ∈ line.labels := by
  have hitem : Item.label name ∈ (ofLines lines).map Prod.snd := List.mem_map_of_mem h
  rw [ofLines, map_snd_ofItems] at hitem
  obtain ⟨line, hline, hname⟩ := List.mem_flatMap.mp hitem
  obtain ⟨index, hindex⟩ := List.mem_iff_getElem?.mp hline
  refine ⟨index, line, hindex, ?_⟩
  simpa [SourceLine.items] using hname

end Layout

/-! ## Programs without errors -/

/-- Nothing is wrong with a program, part by part. -/
structure Sound (config : Config) (lines : List SourceLine) : Prop where
  /-- There is room for every item. -/
  room : ∀ entry ∈ Layout.ofLines lines, entry.1 < capacity config.baseAddress
  /-- A name stands only where it is defined first. -/
  agreed : ∀ place name, (place, .label name) ∈ Layout.ofLines lines →
    (Layout.ofLines lines).definition? name = some place
  /-- A name that is mentioned is defined. -/
  defined : ∀ name ∈ (Layout.ofLines lines).names,
    ∃ place, (Layout.ofLines lines).definition? name = some place
  /-- With checks on, a reference reaches its label. -/
  reached : config.checkRanges = true → ∀ name place fixup,
    (Layout.ofLines lines).definition? name = some place →
      fixup ∈ (Layout.ofLines lines).fixups config.baseAddress name →
        fixup.kind.reaches (placeAddress config.baseAddress place) fixup.site = true

section Sound

variable {config : Config} {lines : List SourceLine}

/-- An item that is not refused has room, and if it is a label it stands where it is defined. -/
theorem Layout.of_refusal?_eq_none {base : Address} {layout : Layout} {place : Nat} {item : Item}
    (h : refusal? base layout (place, item) = none) :
    place < capacity base ∧ ∀ name, item = .label name → layout.definition? name = some place := by
  rcases Nat.lt_or_ge place (capacity base) with hroom | hfull
  · refine ⟨hroom, ?_⟩
    rintro name rfl
    rw [refusal?_label hroom] at h
    by_contra hdefinition
    rw [if_neg hdefinition] at h
    cases h
  · rw [refusal?_of_full hfull] at h
    cases h

/-- A name whose references have nothing in their way is defined if it has any, and then they reach
it. -/
theorem Layout.of_unresolvedName_eq_nil {checkRanges : Bool} {base : Address} {layout : Layout}
    {name : String} (h : layout.unresolvedName checkRanges base name = []) :
    (layout.definition? name = none → layout.fixups base name = []) ∧
      (checkRanges = true → ∀ place fixup, layout.definition? name = some place →
        fixup ∈ layout.fixups base name →
          fixup.kind.reaches (placeAddress base place) fixup.site = true) := by
  unfold unresolvedName at h
  refine ⟨?_, ?_⟩
  · intro hnone
    simp only [hnone] at h
    by_contra hfixups
    rw [if_neg hfixups] at h
    cases h
  · intro hcheck place fixup hplace hmem
    simp only [hplace] at h
    have hfixup := List.filterMap_eq_nil_iff.mp h fixup hmem
    unfold outOfRange? at hfixup
    by_contra hreach
    rw [if_pos (by simpa [hcheck] using hreach)] at hfixup
    cases hfixup

/-- The items of a program are those of its lines. -/
theorem Layout.hasField_of_mem_ofLines
    (hfield : ∀ line ∈ lines, ∀ item ∈ line.items, item.HasField) {entry : Nat × Item}
    (h : entry ∈ ofLines lines) : entry.2.HasField := by
  have hitem : entry.2 ∈ (ofLines lines).map Prod.snd := List.mem_map_of_mem h
  rw [ofLines, map_snd_ofItems] at hitem
  obtain ⟨line, hline, hmem⟩ := List.mem_flatMap.mp hitem
  exact hfield line hline _ hmem

/-- When there is room for every item, all of the program is recorded. -/
theorem Layout.recorded_eq_self {base : Address} {layout : Layout}
    (hroom : ∀ entry ∈ layout, entry.1 < capacity base) : layout.recorded base = layout :=
  List.filter_eq_self.mpr fun entry hmem => by simpa using hroom entry hmem

/-- A program in which nothing is wrong is sound. -/
theorem sound_of_programErrors
    (hfield : ∀ line ∈ lines, ∀ item ∈ line.items, item.HasField)
    (h : programErrors config lines = []) : Sound config lines := by
  obtain ⟨hrefused, hunresolved⟩ := List.append_eq_nil_iff.mp h
  have hitem := fun entry hmem =>
    Layout.of_refusal?_eq_none (List.filterMap_eq_nil_iff.mp hrefused entry hmem)
  have hroom : ∀ entry ∈ Layout.ofLines lines, entry.1 < capacity config.baseAddress :=
    fun entry hmem => (hitem entry hmem).1
  rw [Layout.recorded_eq_self hroom] at hunresolved hitem
  have hname := fun name hmem =>
    Layout.of_unresolvedName_eq_nil (List.flatMap_eq_nil_iff.mp hunresolved name hmem)
  refine ⟨hroom, fun place name hmem => (hitem _ hmem).2 name rfl, ?_, ?_⟩
  · intro name hmention
    obtain ⟨⟨place, item⟩, hmem, hitemName⟩ := Layout.mem_names_iff.mp hmention
    rcases item with other | ⟨word⟩ | ⟨word, other⟩
    · cases hitemName
      exact ⟨place, (hitem _ hmem).2 name rfl⟩
    · cases hitemName
    · cases hitemName
      obtain ⟨kind, hkind⟩ :=
        Option.isSome_iff_exists.mp (Layout.hasField_of_mem_ofLines hfield hmem)
      have hfixup : ⟨place, placeAddress config.baseAddress place, kind⟩ ∈
          (Layout.ofLines lines).fixups config.baseAddress name :=
        Layout.mem_fixups_of_reference hmem hkind
      apply Option.ne_none_iff_exists'.mp
      intro hnone
      rw [(hname name hmention).1 hnone] at hfixup
      cases hfixup
  · intro hcheck name place fixup hplace hmem
    have hmention : name ∈ (Layout.ofLines lines).names :=
      Layout.mem_names_iff.mpr ⟨_, Layout.mem_of_definition? hplace, rfl⟩
    exact (hname name hmention).2 hcheck place fixup hplace hmem

end Sound

/-! ## The resolved program -/

section Resolved

variable {config : Config} {lines : List SourceLine}

theorem Sound.table_eq (h : Sound config lines) :
    (Assembly.resolved config lines).symbols =
      ((Layout.ofLines lines).table config.baseAddress).clearFixups := by
  unfold Assembly.resolved
  rw [Layout.recorded_eq_self h.room]
  rfl

/-- The table of a resolved program has the names that are mentioned. -/
theorem Sound.names_eq (h : Sound config lines) :
    (Assembly.resolved config lines).symbols.names =
      (lines.flatMap SourceLine.mentions).eraseDups := by
  rw [h.table_eq, ← Layout.names_ofLines]
  simp [SymbolTable.names, SymbolTable.clearFixups, Layout.table, Function.comp_def, Layout.label]

/-- Patching keeps the addresses of labels. -/
theorem SymbolTable.addressOf?_clearFixups (table : SymbolTable) (name : String) :
    table.clearFixups.addressOf? name = table.addressOf? name := by
  unfold addressOf? find? clearFixups
  rw [List.find?_map, Option.bind_map]
  rfl

/-- A name of a resolved program has the address of the place where it is defined. -/
theorem Sound.addressOf?_eq (h : Sound config lines) (name : String) :
    (Assembly.resolved config lines).symbols.addressOf? name =
      ((Layout.ofLines lines).definition? name).map (placeAddress config.baseAddress) := by
  rw [h.table_eq, SymbolTable.addressOf?_clearFixups, Layout.addressOf?_table]

/-- The final words of a program in which nothing is wrong come from its layout by resolving every
reference. -/
theorem patchedInto_resolved (hsound : Sound config lines) (h : programErrors config lines = []) :
    ∃ report, PatchedInto ((Layout.ofLines lines).image config.baseAddress)
      ((Layout.ofLines lines).table config.baseAddress) report
      (Assembly.resolved config lines).draft := by
  have hrecorded := Layout.recorded_eq_self hsound.room
  have hfits : ((Layout.ofLines lines).image config.baseAddress).Fits := by
    rw [← hrecorded]
    exact Layout.fits_image_recorded _ _
  have hfailures : Draft.failures config.checkRanges
      ⟨(Layout.ofLines lines).image config.baseAddress,
        (Layout.ofLines lines).table config.baseAddress⟩ = [] := by
    rw [← hrecorded]
    exact (Layout.failures_eq _ _ _).trans (List.append_eq_nil_iff.mp h).2
  have hpatched := ((Draft.failures_eq_nil_iff hfits).mp hfailures).patchedInto hfits
  unfold Assembly.resolved
  rw [hrecorded]
  exact ⟨_, hpatched⟩

variable {after : Draft} {report : PatchReport}
  (hafter : PatchedInto ((Layout.ofLines lines).image config.baseAddress)
    ((Layout.ofLines lines).table config.baseAddress) report after)

include hafter

/-- There is one final word for each statement. -/
theorem PatchedInto.length_words :
    after.image.words.toList.length = (SourceLine.statements lines).length := by
  have hsize := hafter.size
  simpa [Image.size, Layout.image, Layout.words_ofLines] using hsize

/-- A finished word stays as it is. -/
theorem PatchedInto.word_eq {place : Nat} {value : Word}
    (hstatement : (SourceLine.statements lines)[place]? = some (.word value)) :
    after.image.words.toList[place]? = some value := by
  have hnone : ∀ fixup ∈ ((Layout.ofLines lines).table config.baseAddress).references,
      fixup.handle ≠ place := by
    rintro fixup hmem rfl
    obtain ⟨label, hlabel, hfixup⟩ := SymbolTable.mem_references_iff.mp hmem
    obtain ⟨name, -, rfl⟩ := List.mem_map.mp hlabel
    obtain ⟨word, hword, -⟩ := Layout.mem_fixups_iff.mp (by simpa [Layout.label] using hfixup)
    rw [Layout.mem_ofLines_statement_iff.mp hword] at hstatement
    cases hstatement
  rw [Array.getElem?_toList, hafter.kept place hnone]
  simp [Layout.image, Layout.words_ofLines, hstatement, Statement.emitted]

/-- A jump or a branch gets the bits of its target. -/
theorem PatchedInto.reference_eq {place first : Nat} {value : Word} {name : String}
    {kind : FixupKind}
    (hstatement : (SourceLine.statements lines)[place]? = some (.reference value name))
    (hkind : value.fixupKind? = some kind)
    (hfirst : (Layout.ofLines lines).definition? name = some first) :
    after.image.words.toList[place]? =
      some (value ||| kind.field (placeAddress config.baseAddress first)
        (placeAddress config.baseAddress place)) := by
  have hfixup : ⟨place, placeAddress config.baseAddress place, kind⟩ ∈
      (Layout.ofLines lines).fixups config.baseAddress name :=
    Layout.mem_fixups_of_reference (Layout.mem_ofLines_statement_iff.mpr hstatement) hkind
  have hwritten := hafter.written _ _ _
    (Layout.resolves_table_iff.mpr ⟨first, hfirst, rfl, hfixup⟩)
  rw [Array.getElem?_toList, hwritten]
  simp [Layout.image, Layout.words_ofLines, hstatement, Statement.emitted]

end Resolved

end Backpatch
