import Backpatch.Proofs.Patch.Faults
import Backpatch.Proofs.Source.Recording

/-!
# Resolution follows the layout

The references that a source text makes all stand where they say, and an instruction makes one at
most. So a reference can only fail for being too far from its label (`Demand.fault?_fixup`), and
`Layout.failures_eq` says that what patching a recorded program finds wrong is what its layout says.
-/

namespace Backpatch

/-- A reference that stands where it says can only be too far from its target. -/
theorem Demand.fault?_fixup {checkRanges : Bool} {image : Image} {name : String} {target : Address}
    {fixup : Fixup} (h : image.addressOf fixup.handle = .ok fixup.site) :
    (Demand.fixup name target fixup).fault? checkRanges image =
      Layout.outOfRange? checkRanges name target fixup := by
  simp only [fault?, Fixup.patch, h, Layout.outOfRange?]
  cases checkRanges && !fixup.kind.reaches target fixup.site <;> simp

/-! ## Recorded programs -/

namespace Layout

variable {base : Address} {items : List Item} {name : String}

/-- The recorded part of a layout of items. -/
theorem size_image_recorded (base : Address) (items : List Item) :
    (image base (recorded base (ofItems 0 items))).size =
      min (Item.statements items).length (capacity base) := by
  simpa [image, Image.size] using length_words_recorded base items

/-- The image of what is recorded lies within the address space. -/
theorem fits_image_recorded (base : Address) (items : List Item) :
    (image base (recorded base (ofItems 0 items))).Fits := by
  intro handle hlt
  rw [size_image_recorded] at hlt
  exact lt_of_lt_capacity (Nat.lt_of_lt_of_le hlt (Nat.min_le_right _ _))

/-- A statement that is recorded has its word in the image. -/
theorem lt_size_of_mem_recorded {place : Nat} {statement : Statement}
    (h : (place, .statement statement) ∈ recorded base (ofItems 0 items)) :
    place < (image base (recorded base (ofItems 0 items))).size := by
  obtain ⟨hmem, hroom⟩ := List.mem_filter.mp h
  have hlength := le_length_of_mem hmem
  have hcapacity : place < capacity base := by simpa using hroom
  rw [size_image_recorded]
  simp only [Item.length] at hlength
  omega

/-- A reference that is recorded stands where it says. -/
theorem addressOf_fixup {fixup : Fixup}
    (h : fixup ∈ (recorded base (ofItems 0 items)).fixups base name) :
    (image base (recorded base (ofItems 0 items))).addressOf fixup.handle = .ok fixup.site := by
  obtain ⟨word, hmem, -, hsite⟩ := mem_fixups_iff.mp h
  refine (Image.addressOf_eq_ok_iff (fits_image_recorded base items)).mpr
    ⟨lt_size_of_mem_recorded hmem, ?_⟩
  rw [hsite]
  exact toNat_placeAddress (lt_capacity_of_mem_recorded hmem)

theorem resolves_table_iff {layout : Layout} {target : Address} {fixup : Fixup} :
    (layout.table base).Resolves name target fixup ↔
      ∃ place, layout.definition? name = some place ∧ target = placeAddress base place ∧
        fixup ∈ layout.fixups base name := by
  have hfixups : fixup ∈ (label base layout name).fixups ↔ fixup ∈ layout.fixups base name := by
    simp [label]
  unfold table
  rw [SymbolTable.resolves_map_iff fun _ => rfl, hfixups]
  constructor
  · rintro ⟨-, haddress, hmem⟩
    obtain ⟨place, hplace, rfl⟩ := Option.map_eq_some_iff.mp haddress
    exact ⟨place, hplace, rfl, hmem⟩
  · rintro ⟨place, hplace, rfl, hmem⟩
    refine ⟨mem_names_iff.mpr ⟨_, mem_of_definition? hplace, rfl⟩, ?_, hmem⟩
    simp [label, hplace]

/-- An instruction refers to one label, in one way. -/
theorem fixup_unique {name' : String} {target target' : Address} {fixup fixup' : Fixup}
    (h : ((recorded base (ofItems 0 items)).table base).Resolves name target fixup)
    (h' : ((recorded base (ofItems 0 items)).table base).Resolves name' target' fixup')
    (hhandle : fixup.handle = fixup'.handle) :
    name = name' ∧ target = target' ∧ fixup = fixup' := by
  obtain ⟨place, hplace, rfl, hfixup⟩ := resolves_table_iff.mp h
  obtain ⟨place', hplace', rfl, hfixup'⟩ := resolves_table_iff.mp h'
  obtain ⟨word, hmem, hkind, hsite⟩ := mem_fixups_iff.mp hfixup
  obtain ⟨word', hmem', hkind', hsite'⟩ := mem_fixups_iff.mp hfixup'
  rw [← hhandle] at hmem' hsite'
  have hstatement := statement_unique (List.mem_filter.mp hmem).1 (List.mem_filter.mp hmem').1
  obtain ⟨rfl, rfl⟩ := Statement.reference.inj hstatement
  rw [hkind] at hkind'
  rw [hplace] at hplace'
  refine ⟨rfl, by rw [Option.some.inj hplace'], ?_⟩
  obtain ⟨handle, site, kind⟩ := fixup
  obtain ⟨handle', site', kind'⟩ := fixup'
  simp only at hhandle hsite hsite' hkind'
  rw [hhandle, hsite, hsite', Option.some.inj hkind']

/-- Patching a recorded program finds wrong what its layout says. -/
theorem failures_eq (checkRanges : Bool) (base : Address) (items : List Item) :
    Draft.failures checkRanges
        ⟨image base (recorded base (ofItems 0 items)),
          table base (recorded base (ofItems 0 items))⟩ =
      unresolved checkRanges base (recorded base (ofItems 0 items)) := by
  unfold Draft.failures
  rw [Plan.failures_eq_of_agreed]
  · unfold SymbolTable.demands unresolved table
    rw [List.flatMap_map, List.filterMap_flatMap]
    apply List.flatMap_congr
    intro name _
    unfold Label.demands unresolvedName
    cases hdefinition : (recorded base (ofItems 0 items)).definition? name with
    | none =>
        have haddress : (label base (recorded base (ofItems 0 items)) name).address = none := by
          simp [label, hdefinition]
        rw [haddress]
        by_cases hfixups : (recorded base (ofItems 0 items)).fixups base name = []
        · simp [label, hfixups]
        · simp [label, hfixups, Demand.fault?]
    | some place =>
        have haddress : (label base (recorded base (ofItems 0 items)) name).address =
            some (placeAddress base place) := by
          simp [label, hdefinition]
        rw [haddress, List.filterMap_map]
        apply List.filterMap_congr
        intro fixup hmem
        exact Demand.fault?_fixup (addressOf_fixup (by simpa [label] using hmem))
  · intro name target fixup hmem name' target' fixup' hmem' hhandle
    exact fixup_unique (SymbolTable.mem_demands_fixup_iff.mp hmem)
      (SymbolTable.mem_demands_fixup_iff.mp hmem') hhandle

end Layout

end Backpatch
