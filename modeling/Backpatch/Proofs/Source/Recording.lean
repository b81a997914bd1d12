import Backpatch.Assemble
import Backpatch.Proofs.Draft
import Backpatch.Proofs.Image
import Backpatch.Proofs.Source.Layout
import Mathlib.Data.List.Basic

/-!
# Recording follows the layout

Lines are recorded by a fold over a growing draft. Here that draft is identified: after any items,
its image and its symbol table are those of the layout recorded so far, and the failures noted are
those of the layout (`record_eq`).

The induction is on the items recorded, newest last. At each step the next address is that of the
item's place while there is room, and after that no item changes anything any more, since the image
has stopped to grow.
-/

namespace Backpatch

/-! ## Places and addresses -/

section Place

variable {base : Address} {place : Nat}

theorem lt_of_lt_capacity (h : place < capacity base) :
    base.toNat + wordSize * place < 0x1_0000_0000 := by
  unfold capacity at h
  simp only [wordSize] at h ⊢
  omega

theorem toNat_placeAddress (h : place < capacity base) :
    (placeAddress base place).toNat = base.toNat + wordSize * place :=
  Image.toNat_place (lt_of_lt_capacity h)

theorem placeAddress_inj {other : Nat} (h : place < capacity base) (hother : other < capacity base) :
    placeAddress base place = placeAddress base other ↔ place = other := by
  rw [← BitVec.toNat_inj, toNat_placeAddress h, toNat_placeAddress hother]
  simp only [wordSize]
  omega

theorem isAligned_placeAddress (haligned : IsAligned base) (h : place < capacity base) :
    IsAligned (placeAddress base place) :=
  Image.isAligned_place haligned (lt_of_lt_capacity h)

/-- While there is room the next word stands at the next place. -/
theorem Image.nextAddress_of_lt {image : Image} (h : image.size < capacity image.base) :
    image.nextAddress = .ok (placeAddress image.base image.size) :=
  Image.addressAt_of_lt (lt_of_lt_capacity h)

/-- A full image has no next address. -/
theorem Image.nextAddress_of_full {image : Image} (haligned : IsAligned image.base)
    (h : image.size = capacity image.base) :
    image.nextAddress =
      .error (.addressOverflow image.base (capacity image.base + 1)) := by
  have hfull : ¬image.base.toNat + wordSize * image.size < 0x1_0000_0000 := by
    unfold IsAligned at haligned
    unfold capacity at h
    have hlt := image.base.isLt
    simp only [wordSize] at haligned h ⊢
    omega
  rw [← h]
  exact Image.addressAt_of_not_lt hfull

end Place

/-! ## The table of a layout -/

namespace Layout

section Table

variable {base : Address} {layout : Layout} {name : String}

/-- Nothing is known of a name that is not mentioned. -/
theorem label_of_not_mem (h : name ∉ layout.names) : layout.label base name = { name } := by
  have hdefinition : layout.definition? name = none := by
    cases hsome : layout.definition? name with
    | none => rfl
    | some place =>
        exact absurd (mem_names_iff.mpr ⟨_, mem_of_definition? hsome, rfl⟩) h
  have hfixups : layout.fixups base name = [] := by
    apply List.eq_nil_iff_forall_not_mem.mpr
    intro fixup hmem
    obtain ⟨word, hword, -⟩ := mem_fixups_iff.mp hmem
    exact h (mem_names_iff.mpr ⟨_, hword, rfl⟩)
  simp [label, hdefinition, hfixups]

/-- An item changes only what is known of the name that it mentions. -/
theorem label_concat_of_ne {item : Item} (h : item.name? ≠ some name) (place : Nat) :
    label base (layout ++ [(place, item)]) name = layout.label base name := by
  have hitem : item ≠ .label name := by
    rintro rfl
    exact h rfl
  have hfixup : fixup? base name (place, item) = none := by
    by_contra hsome
    obtain ⟨fixup, hfixup⟩ := Option.ne_none_iff_exists'.mp hsome
    obtain ⟨word, hword, -⟩ := fixup?_eq_some_iff.mp hfixup
    cases hword
    exact h rfl
  simp [label, definition?_concat, fixups_concat, hitem, hfixup]

theorem label_concat_of_name_ne {item : Item} (h : item.name? = some name) {other : String}
    (hother : other ≠ name) (place : Nat) :
    label base (layout ++ [(place, item)]) other = layout.label base other := by
  apply label_concat_of_ne
  rw [h]
  intro heq
  exact hother (Option.some.inj heq).symm

/-- An item that mentions no name leaves the table as it is. -/
theorem table_concat_of_none {item : Item} (h : item.name? = none) (place : Nat) :
    table base (layout ++ [(place, item)]) = layout.table base := by
  have hlabel : ∀ name, label base (layout ++ [(place, item)]) name = layout.label base name :=
    fun name => label_concat_of_ne (by simp [h]) place
  simp [table, names_concat, h, hlabel]

/-- An item that mentions a name updates its entry. -/
theorem table_concat_of_some {item : Item} (h : item.name? = some name) {place : Nat}
    {change : Label → Label}
    (hchange : change (layout.label base name) = label base (layout ++ [(place, item)]) name) :
    (layout.table base).update name change = table base (layout ++ [(place, item)]) := by
  unfold table
  rw [SymbolTable.update_map (fun _ => rfl) (names_nodup layout) label_of_not_mem hchange
    fun other hother => label_concat_of_name_ne h hother place, names_concat]
  simp only [h]

/-- An item that says nothing new of a name leaves the table as it is. -/
theorem table_concat_of_mem {item : Item} (h : item.name? = some name)
    (hmem : name ∈ layout.names) {place : Nat}
    (hsame : label base (layout ++ [(place, item)]) name = layout.label base name) :
    table base (layout ++ [(place, item)]) = layout.table base := by
  unfold table
  simp only [names_concat, h, if_pos hmem]
  congr 1
  apply List.map_congr_left
  intro other _
  by_cases hother : other = name
  · rw [hother, hsame]
  · exact label_concat_of_name_ne h hother place

theorem addressOf?_table (name : String) :
    (layout.table base).addressOf? name =
      (layout.definition? name).map (placeAddress base) :=
  SymbolTable.addressOf?_map (fun _ => rfl) label_of_not_mem

/-- To define a name at a place adds the label there, unless the name stands elsewhere. -/
theorem define_table (haligned : IsAligned base) {place : Nat} (hplace : place < capacity base)
    (hlayout : ∀ entry ∈ layout, entry.1 < capacity base) :
    (layout.table base).define name (placeAddress base place) =
      (if (definition? (layout ++ [(place, .label name)]) name) = some place then .ok ()
        else .error (.duplicateLabel name),
      table base (layout ++ [(place, .label name)])) := by
  unfold SymbolTable.define
  rw [if_neg (not_not.mpr (isAligned_placeAddress haligned hplace)), addressOf?_table,
    definition?_concat]
  cases hfirst : layout.definition? name with
  | none =>
      simp only [Option.map_none, Option.none_or, if_true]
      congr 1
      refine table_concat_of_some rfl ?_
      simp [label, definition?_concat, fixups_concat, hfirst, fixup?]
  | some first =>
      have hmem := mem_of_definition? hfirst
      have hsame : table base (layout ++ [(place, .label name)]) = layout.table base := by
        refine table_concat_of_mem rfl (mem_names_iff.mpr ⟨_, hmem, rfl⟩) ?_
        simp [label, definition?_concat, fixups_concat, hfirst, fixup?]
      simp only [Option.map_some, Option.some_or, Option.some.injEq,
        placeAddress_inj (hlayout _ hmem) hplace, hsame]
      split <;> rfl

/-- To refer to a name adds the reference. -/
theorem addReference_table (haligned : IsAligned base) {place : Nat}
    (hplace : place < capacity base) {word : Word} {kind : FixupKind}
    (hkind : word.fixupKind? = some kind) :
    (layout.table base).addReference
        { handle := place, site := placeAddress base place, kind } name =
      (.ok (), table base (layout ++ [(place, .statement (.reference word name))])) := by
  unfold SymbolTable.addReference
  rw [if_neg (not_not.mpr (isAligned_placeAddress haligned hplace))]
  congr 1
  refine table_concat_of_some rfl ?_
  simp [label, definition?_concat, fixups_concat, fixup?, hkind, Label.addFixup]

end Table

/-! ## The words and the failures recorded so far -/

section Recorded

variable {base : Address}

theorem image_concat_label (layout : Layout) (place : Nat) (name : String) :
    image base (layout ++ [(place, .label name)]) = layout.image base := by
  simp [image, words_concat, Item.statement?]

theorem image_concat_statement (layout : Layout) (place : Nat) (statement : Statement) :
    image base (layout ++ [(place, .statement statement)]) =
      { base, words := (layout.image base).words.push statement.emitted } := by
  simp [image, words_concat, Item.statement?]

/-- What is recorded has room. -/
theorem lt_capacity_of_mem_recorded {layout : Layout} {entry : Nat × Item}
    (h : entry ∈ layout.recorded base) : entry.1 < capacity base := by
  simpa using (List.mem_filter.mp h).2

/-- Every statement takes a word, until the image is full. -/
theorem length_words_recorded (base : Address) (items : List Item) :
    (words (recorded base (ofItems 0 items))).length =
      min (Item.statements items).length (capacity base) := by
  induction items using List.reverseRec with
  | nil => simp [ofItems, recorded, words]
  | append_singleton items item ih =>
      rw [ofItems_concat, Nat.zero_add, recorded_concat]
      by_cases hroom : (Item.statements items).length < capacity base
      · rw [if_pos hroom, words_concat]
        cases item with
        | label name => simpa [Item.statement?] using ih
        | statement value =>
            simp [ih, Item.statement?]
            omega
      · rw [if_neg hroom, List.append_nil, ih]
        cases item with
        | label name => simp
        | statement value =>
            simp
            omega

/-- A later item does not change what an earlier one is refused for. -/
theorem refusal?_concat {layout : Layout} {entry : Nat × Item} (hmem : entry ∈ layout)
    (place : Nat) (item : Item) :
    refusal? base (recorded base (layout ++ [(place, item)])) entry =
      refusal? base (recorded base layout) entry := by
  obtain ⟨first, said⟩ := entry
  rcases Nat.lt_or_ge first (capacity base) with hroom | hroom
  · cases said with
    | statement statement =>
        rw [refusal?_statement hroom, refusal?_statement hroom]
    | label name =>
        have hrecorded : (first, .label name) ∈ recorded base layout :=
          List.mem_filter.mpr ⟨hmem, by simpa using hroom⟩
        obtain ⟨place', hplace'⟩ := definition?_isSome_of_mem hrecorded
        rw [refusal?_label hroom, refusal?_label hroom, recorded_concat]
        split
        · rw [definition?_concat, hplace', Option.some_or]
        · rw [List.append_nil]
  · rw [refusal?_of_full hroom, refusal?_of_full hroom]

theorem refused_concat (layout : Layout) (place : Nat) (item : Item) :
    refused base (layout ++ [(place, item)]) =
      refused base layout ++
        (refusal? base (recorded base (layout ++ [(place, item)])) (place, item)).toList := by
  have hlayout : layout.filterMap
      (refusal? base (recorded base (layout ++ [(place, item)]))) = refused base layout :=
    List.filterMap_congr fun entry hmem => refusal?_concat hmem place item
  rw [refused, List.filterMap_append, hlayout]
  rfl

end Recorded

end Layout

/-! ## One step of recording -/

namespace Assembly

/-- Records one item. -/
def recordItem : Array PatchError × Assembly → Item → Array PatchError × Assembly
  | (diagnostics, assembly), .label name => noting diagnostics (assembly.defineHere name)
  | (diagnostics, assembly), .statement statement =>
    recordStatement diagnostics assembly (some statement)

/-- A line is recorded item by item. -/
theorem recordLine_eq (state : Array PatchError × Assembly) (line : SourceLine) :
    recordLine state line = line.items.foldl recordItem state := by
  obtain ⟨diagnostics, assembly⟩ := state
  obtain ⟨labels, statement⟩ := line
  simp only [SourceLine.items, List.foldl_append, List.foldl_map]
  cases statement with
  | none => rfl
  | some statement => rfl

/-- The run that has recorded a layout. -/
def recorded (config : Config) (layout : Layout) : Assembly where
  config
  draft := ⟨layout.image config.baseAddress, layout.table config.baseAddress⟩
  phase := .collecting

/-- An operation on the draft, while a layout is recorded. -/
theorem noting_recording {config : Config} {layout : Layout} {attempt : Recording}
    {operation : Draft → Except PatchError α × Draft} {result : Except PatchError α}
    {after : Layout}
    (h : operation (recorded config layout).draft = (result, (recorded config after).draft))
    (diagnostics : Array PatchError) :
    noting diagnostics (recording attempt operation (recorded config layout)) =
      noting diagnostics (result, recorded config after) := by
  have hrecording : recording attempt operation (recorded config layout) =
      ((operation (recorded config layout).draft).1,
        ⟨config, (operation (recorded config layout).draft).2, .collecting⟩) := rfl
  rw [hrecording, h]
  rfl

end Assembly

/-- An item that is no jump or branch without a target field. -/
def Item.HasField : Item → Prop
  | .statement (.reference word _) => word.fixupKind?.isSome
  | _ => True

section Step

variable {config : Config} {layout : Layout} {place : Nat}

/-- A run that has recorded as many words as there is room for refuses every item. -/
theorem Assembly.recordItem_of_full
    (haddress : (layout.image config.baseAddress).nextAddress =
      .error (.addressOverflow config.baseAddress (capacity config.baseAddress + 1)))
    (diagnostics : Array PatchError) (item : Item) :
    recordItem (diagnostics, recorded config layout) item =
      (diagnostics.push (.addressOverflow config.baseAddress (capacity config.baseAddress + 1)),
        recorded config layout) := by
  have hdraft : (recorded config layout).draft.image.nextAddress = _ := haddress
  cases item with
  | label name => exact noting_recording (Draft.defineHere_of_error hdraft name) diagnostics
  | statement statement =>
      cases statement with
      | word word => exact noting_recording (Draft.append_of_error hdraft word) diagnostics
      | reference word name =>
          exact noting_recording (Draft.appendReference_of_error hdraft word name) diagnostics

/-- While there is room, a label is defined at its place, or refused if it stands elsewhere. -/
theorem Assembly.recordItem_label (haligned : IsAligned config.baseAddress)
    (hplace : place < capacity config.baseAddress)
    (hlayout : ∀ entry ∈ layout, entry.1 < capacity config.baseAddress)
    (haddress : (layout.image config.baseAddress).nextAddress =
      .ok (placeAddress config.baseAddress place))
    (diagnostics : Array PatchError) (name : String) :
    recordItem (diagnostics, recorded config layout) (.label name) =
      (if (Layout.definition? (layout ++ [(place, .label name)]) name) = some place then diagnostics
        else diagnostics.push (.duplicateLabel name),
      recorded config (layout ++ [(place, .label name)])) := by
  have hoperation : Draft.defineHere name (recorded config layout).draft =
      (if (Layout.definition? (layout ++ [(place, .label name)]) name) = some place then .ok ()
        else .error (.duplicateLabel name),
      (recorded config (layout ++ [(place, .label name)])).draft) := by
    rw [Draft.defineHere_of_ok haddress]
    unfold recorded
    simp only [Draft.define, Draft.onSymbols, Layout.define_table haligned hplace hlayout,
      Layout.image_concat_label]
  refine (noting_recording hoperation diagnostics).trans ?_
  split <;> rfl

/-- While there is room, a statement is appended, and its reference recorded. -/
theorem Assembly.recordItem_statement (haligned : IsAligned config.baseAddress)
    (hplace : place < capacity config.baseAddress) (hsize : layout.words.length = place)
    (haddress : (layout.image config.baseAddress).nextAddress =
      .ok (placeAddress config.baseAddress place))
    {statement : Statement} (hfield : (Item.statement statement).HasField)
    (diagnostics : Array PatchError) :
    recordItem (diagnostics, recorded config layout) (.statement statement) =
      (diagnostics, recorded config (layout ++ [(place, .statement statement)])) := by
  have hdraft : (recorded config layout).draft.image.size = place := by
    simpa [recorded, Layout.image, Image.size] using hsize
  cases statement with
  | word word =>
      have htable : Layout.table config.baseAddress (layout ++ [(place, .statement (.word word))]) =
          layout.table config.baseAddress := Layout.table_concat_of_none rfl place
      have hoperation : Draft.append word (recorded config layout).draft =
          (.ok place, (recorded config (layout ++ [(place, .statement (.word word))])).draft) := by
        rw [Draft.append_of_ok haddress, hdraft]
        simp only [recorded, Layout.image_concat_statement, htable]
        rfl
      exact noting_recording hoperation diagnostics
  | reference word name =>
      obtain ⟨kind, hkind⟩ := Option.isSome_iff_exists.mp hfield
      have htable : (layout.table config.baseAddress).addReference
          { handle := place, site := placeAddress config.baseAddress place, kind } name = _ :=
        Layout.addReference_table haligned hplace hkind
      have hoperation : Draft.appendReference word name (recorded config layout).draft =
          (.ok place,
            (recorded config (layout ++ [(place, .statement (.reference word name))])).draft) := by
        rw [Draft.appendReference_of_ok haddress hkind (by rw [hdraft]; exact htable), hdraft]
        simp only [recorded, Layout.image_concat_statement]
        rfl
      exact noting_recording hoperation diagnostics

end Step

/-! ## The whole recording -/

section Run

variable {config : Config}

/-- Items are recorded as their layout says. -/
theorem Assembly.record_items (haligned : IsAligned config.baseAddress) {items : List Item}
    (hfield : ∀ item ∈ items, item.HasField) :
    items.foldl recordItem (#[], start config) =
      ((Layout.refused config.baseAddress (Layout.ofItems 0 items)).toArray,
        recorded config (Layout.recorded config.baseAddress (Layout.ofItems 0 items))) := by
  induction items using List.reverseRec with
  | nil => rfl
  | append_singleton items item ih =>
      have hitems := ih fun item hmem => hfield item (List.mem_append_left _ hmem)
      have hitem := hfield item (by simp)
      have hlength := Layout.length_words_recorded config.baseAddress items
      have hsize : (Layout.image config.baseAddress
          (Layout.recorded config.baseAddress (Layout.ofItems 0 items))).size =
            min (Item.statements items).length (capacity config.baseAddress) := by
        simpa [Layout.image, Image.size] using hlength
      rw [List.foldl_append, List.foldl_cons, List.foldl_nil, hitems, Layout.ofItems_concat,
        Nat.zero_add, Layout.refused_concat, Layout.recorded_concat]
      rcases Nat.lt_or_ge (Item.statements items).length (capacity config.baseAddress) with
        hroom | hfull
      · rw [Nat.min_eq_left (Nat.le_of_lt hroom)] at hlength hsize
        have haddress := Image.nextAddress_of_lt (hsize.symm ▸ hroom)
        rw [hsize] at haddress
        rw [if_pos hroom]
        cases item with
        | label name =>
            rw [recordItem_label haligned hroom (fun _ => Layout.lt_capacity_of_mem_recorded)
              haddress, Layout.refusal?_label hroom]
            split <;> simp
        | statement statement =>
            rw [recordItem_statement haligned hroom hlength haddress hitem,
              Layout.refusal?_statement hroom]
            simp
      · rw [Nat.min_eq_right hfull] at hlength hsize
        have haddress := Image.nextAddress_of_full haligned hsize
        rw [if_neg (Nat.not_lt_of_le hfull), List.append_nil, recordItem_of_full haddress,
          Layout.refusal?_of_full hfull]
        simp

/-- Lines are recorded as their layout says. -/
theorem Assembly.record_eq (haligned : IsAligned config.baseAddress) {lines : List SourceLine}
    (hfield : ∀ line ∈ lines, ∀ item ∈ line.items, item.HasField) :
    record config lines =
      ((Layout.refused config.baseAddress (Layout.ofLines lines)).toArray,
        recorded config (Layout.recorded config.baseAddress (Layout.ofLines lines))) := by
  have hfold : ∀ state, lines.foldl recordLine state =
      (lines.flatMap SourceLine.items).foldl recordItem state := by
    intro state
    rw [List.foldl_flatMap]
    congr 1
    funext state line
    exact recordLine_eq state line
  unfold record
  rw [hfold]
  apply record_items haligned
  intro item hmem
  obtain ⟨line, hline, hitem⟩ := List.mem_flatMap.mp hmem
  exact hfield line hline item hitem

end Run

end Backpatch
