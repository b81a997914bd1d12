import Backpatch.Proofs.Reachable

/-!
# Consistent tables

When can every reference of a table be resolved in an image, and what does resolving them do? The
answer speaks of labels and references only, not of the order in which a plan visits them.

* `Consistent`: what is referenced is defined, references stand where they say, targets are within
  reach if that is checked, and references from one instruction agree.
* `Draft.failures_eq_nil_iff`: patching finds nothing wrong exactly with consistent tables.
* `PatchedInto`: each word that is referenced gets the bits of its target once, and nothing else
  changes but that the references are gone. `Consistent.patchedInto` is that patching does this.

At the end both are put together, for every image that calls lead to.
-/

namespace Backpatch

/-- A reference of a table to a label that is defined. -/
def SymbolTable.Resolves (table : SymbolTable) (name : String) (target : Address)
    (fixup : Fixup) : Prop :=
  ∃ label ∈ table.labels,
    label.name = name ∧ label.address = some target ∧ fixup ∈ label.fixups

/-- The references of a table in the order of labels, those of one label oldest first. -/
def SymbolTable.references (table : SymbolTable) : List Fixup :=
  table.labels.flatMap fun label => label.fixups.toList

/-- Every reference of the table can be resolved in the image, and no two get in each other's
way. -/
structure Consistent (checkRanges : Bool) (image : Image) (table : SymbolTable) : Prop where
  /-- A label that is referenced has an address. -/
  defined : ∀ label ∈ table.labels, label.fixups ≠ #[] → label.isDefined
  /-- A reference comes from an instruction of the image and has its address. -/
  placed : ∀ label ∈ table.labels, ∀ fixup ∈ label.fixups,
    fixup.handle < image.size ∧
      fixup.site.toNat = image.base.toNat + wordSize * fixup.handle
  /-- With checks on, a jump goes to its own region. -/
  jump : checkRanges = true → ∀ name target fixup, table.Resolves name target fixup →
    fixup.kind = .jump → JumpReaches target fixup.site
  /-- With checks on, a branch has a distance of 16 bits. -/
  branch : checkRanges = true → ∀ name target fixup, table.Resolves name target fixup →
    fixup.kind = .branch → DisplacementFits (displacement target fixup.site)
  /-- References from one instruction are to one label and ask for the same bits. -/
  agreed : ∀ name target fixup, table.Resolves name target fixup →
    ∀ name' target' fixup', table.Resolves name' target' fixup' →
      fixup.handle = fixup'.handle →
        name = name' ∧
          fixup.kind.field target fixup.site = fixup'.kind.field target' fixup'.site

/-- The number of instructions whose first reference is of a kind. -/
def SymbolTable.instructionCount (table : SymbolTable) (kind : FixupKind) : Nat :=
  ((table.references.map Fixup.handle).toFinset.filter fun handle =>
    (table.references.find? (·.handle = handle)).map Fixup.kind = some kind).card

/-- The image and the table `after` come from those before by resolving every reference. -/
structure PatchedInto (image : Image) (table : SymbolTable) (report : PatchReport)
    (after : Draft) : Prop where
  /-- A word that is referenced gets the bits of the target, however often it is referenced. -/
  written : ∀ name target fixup, table.Resolves name target fixup →
    after.image.words[fixup.handle]? =
      image.words[fixup.handle]?.map (· ||| fixup.kind.field target fixup.site)
  /-- Every other word stays. -/
  kept : ∀ handle, (∀ fixup ∈ table.references, fixup.handle ≠ handle) →
    after.image.words[handle]? = image.words[handle]?
  base : after.image.base = image.base
  size : after.image.size = image.size
  /-- Labels keep their names, addresses and order. -/
  labels : after.symbols.labels.map (fun label => (label.name, label.address)) =
    table.labels.map fun label => (label.name, label.address)
  /-- No reference waits any more. -/
  drained : ∀ label ∈ after.symbols.labels, label.fixups = #[]
  labelCount : report.labels = table.size
  jumpCount : report.jumps = table.instructionCount .jump
  branchCount : report.branches = table.instructionCount .branch
  /-- Each instruction that is referenced counts once. -/
  references : report.references = (table.references.map Fixup.handle).toFinset.card

/-! ## Demands and references -/

namespace SymbolTable

variable {table : SymbolTable}

/-- The references that are resolved in a table that lists what a function says of some names. -/
theorem resolves_map_iff {names : List String} {info : String → Label}
    (hname : ∀ other, (info other).name = other) {name : String} {target : Address}
    {fixup : Fixup} :
    Resolves { labels := names.map info } name target fixup ↔
      name ∈ names ∧ (info name).address = some target ∧ fixup ∈ (info name).fixups := by
  unfold Resolves
  constructor
  · rintro ⟨_, hlabel, rfl, haddress, hfixup⟩
    obtain ⟨other, hmem, rfl⟩ := List.mem_map.mp hlabel
    rw [hname]
    exact ⟨hmem, haddress, hfixup⟩
  · rintro ⟨hmem, haddress, hfixup⟩
    exact ⟨info name, List.mem_map_of_mem hmem, hname name, haddress, hfixup⟩

theorem mem_demands_fixup_iff {name : String} {target : Address} {fixup : Fixup} :
    .fixup name target fixup ∈ table.demands ↔ table.Resolves name target fixup := by
  unfold demands Resolves
  rw [List.mem_flatMap]
  constructor
  · rintro ⟨label, hlabel, hmem⟩
    unfold Label.demands at hmem
    cases haddress : label.address with
    | none =>
        rw [haddress] at hmem
        simp only at hmem
        split at hmem
        · cases hmem
        · simp at hmem
    | some address =>
        rw [haddress] at hmem
        simp only [List.mem_map, Demand.fixup.injEq] at hmem
        obtain ⟨fixup', hfixup, rfl, rfl, rfl⟩ := hmem
        exact ⟨label, hlabel, rfl, haddress, Array.mem_toList_iff.mp hfixup⟩
  · rintro ⟨label, hlabel, rfl, haddress, hfixup⟩
    refine ⟨label, hlabel, ?_⟩
    unfold Label.demands
    rw [haddress]
    exact List.mem_map.mpr ⟨fixup, Array.mem_toList_iff.mpr hfixup, rfl⟩

theorem mem_demands_missing_iff {name : String} :
    .missing name ∈ table.demands ↔
      ∃ label ∈ table.labels, label.name = name ∧ label.fixups ≠ #[] ∧ ¬label.isDefined := by
  unfold demands
  rw [List.mem_flatMap]
  refine exists_congr fun label => and_congr_right fun _ => ?_
  unfold Label.demands Label.isDefined
  cases label.address with
  | none =>
      by_cases hempty : label.fixups = #[]
      · simp [hempty]
      · simpa [hempty] using ⟨Eq.symm, Eq.symm⟩
  | some address => simp

theorem mem_references_iff {fixup : Fixup} :
    fixup ∈ table.references ↔ ∃ label ∈ table.labels, fixup ∈ label.fixups := by
  simp [references, List.mem_flatMap]

end SymbolTable

/-! ## When nothing is refused -/

/-- A reference is in order when it stands where it says and, if that is checked, its target is
within reach. -/
theorem Fixup.patch_eq_ok_iff {checkRanges : Bool} {image : Image} (hfits : image.Fits)
    {name : String} {target : Address} {fixup : Fixup} {patch : Patch} :
    fixup.patch checkRanges image name target = .ok patch ↔
      (fixup.handle < image.size ∧
          fixup.site.toNat = image.base.toNat + wordSize * fixup.handle) ∧
        (checkRanges = true → fixup.kind.reaches target fixup.site = true) ∧
        patch = { name, field := fixup.kind.field target fixup.site } := by
  rw [← Image.addressOf_eq_ok_iff hfits]
  unfold Fixup.patch
  cases hactual : image.addressOf fixup.handle with
  | error error => simp
  | ok actual =>
      by_cases hsite : actual = fixup.site
      · subst hsite
        by_cases hreach : checkRanges = true ∧ fixup.kind.reaches target fixup.site = false
        · simp [hreach.1, hreach.2]
        · have hpass : (checkRanges && !fixup.kind.reaches target fixup.site) = false := by
            simpa using hreach
          have hcheck : checkRanges = true → fixup.kind.reaches target fixup.site = true := by
            simpa using hreach
          constructor
          · intro h
            have heq : { name, field := fixup.kind.field target fixup.site } = patch := by
              simpa [hpass] using h
            exact ⟨rfl, hcheck, heq.symm⟩
          · rintro ⟨-, -, rfl⟩
            simp [hpass]
      · simp [hsite]

namespace Plan

/-- Nothing is refused exactly when no label is missing and each reference is in order and asks for
the patch that its instruction gets. -/
theorem failures_eq_nil_iff {checkRanges : Bool} {image : Image} {demands : List Demand} :
    failures checkRanges image demands = [] ↔
      (∀ name, .missing name ∉ demands) ∧
        ∀ name target fixup, .fixup name target fixup ∈ demands →
          ∃ kind patch, fixup.patch checkRanges image name target = .ok patch ∧
            accepted checkRanges image demands fixup.handle = some (kind, patch) := by
  unfold failures
  rw [List.filterMap_eq_nil_iff]
  constructor
  · intro h
    refine ⟨?_, ?_⟩
    · intro name hmem
      cases h _ hmem
    · intro name target fixup hmem
      have hnone := h _ hmem
      cases hpatch : fixup.patch checkRanges image name target with
      | error error =>
          rw [Demand.failure?_of_error hpatch] at hnone
          cases hnone
      | ok patch =>
          rw [Demand.failure?_of_ok hpatch] at hnone
          split at hnone
          · next hfirst =>
            obtain ⟨⟨kind, patch'⟩, haccepted, rfl⟩ := Option.map_eq_some_iff.mp hfirst
            exact ⟨kind, _, rfl, haccepted⟩
          · cases hnone
  · rintro ⟨hmissing, hfixup⟩ demand hmem
    cases demand with
    | missing name => exact absurd hmem (hmissing name)
    | fixup name target fixup =>
        obtain ⟨kind, patch, hpatch, haccepted⟩ := hfixup name target fixup hmem
        rw [Demand.failure?_of_ok hpatch, haccepted]
        exact if_pos rfl

end Plan

section Consistency

variable {checkRanges : Bool} {image : Image} {table : SymbolTable}

theorem FixupKind.reaches_eq_true_iff {kind : FixupKind} {target site : Address} :
    kind.reaches target site = true ↔
      (kind = .jump → JumpReaches target site) ∧
        (kind = .branch → DisplacementFits (displacement target site)) := by
  cases kind <;> simp [reaches]

/-- In a consistent table each reference to a label that is defined is in order. -/
theorem Consistent.patch_eq_ok (h : Consistent checkRanges image table) (hfits : image.Fits)
    {name : String} {target : Address} {fixup : Fixup} (hfixup : table.Resolves name target fixup) :
    fixup.patch checkRanges image name target =
      .ok { name, field := fixup.kind.field target fixup.site } := by
  obtain ⟨label, hlabel, -, -, hmem⟩ := id hfixup
  refine (Fixup.patch_eq_ok_iff hfits).mpr ⟨h.placed label hlabel fixup hmem, ?_, rfl⟩
  intro hcheck
  exact FixupKind.reaches_eq_true_iff.mpr
    ⟨h.jump hcheck name target fixup hfixup, h.branch hcheck name target fixup hfixup⟩

/-- In a consistent table the patch of an instruction is the one that each of its references asks
for. -/
theorem Consistent.accepted_eq (h : Consistent checkRanges image table) (hfits : image.Fits)
    {name : String} {target : Address} {fixup : Fixup} (hfixup : table.Resolves name target fixup) :
    ∃ kind, Plan.accepted checkRanges image table.demands fixup.handle =
      some (kind, { name, field := fixup.kind.field target fixup.site }) := by
  have hmem := SymbolTable.mem_demands_fixup_iff.mpr hfixup
  obtain ⟨⟨kind, patch⟩, hfirst⟩ := Plan.exists_accepted_of_mem hmem (h.patch_eq_ok hfits hfixup)
  obtain ⟨name', target', fixup', hmem', hhandle, -, hpatch⟩ := Plan.mem_of_accepted hfirst
  have hfixup' := SymbolTable.mem_demands_fixup_iff.mp hmem'
  rw [h.patch_eq_ok hfits hfixup'] at hpatch
  obtain ⟨hname, hfield⟩ := h.agreed _ _ _ hfixup' _ _ _ hfixup hhandle
  cases hpatch
  rw [hname, hfield] at hfirst
  exact ⟨kind, hfirst⟩

/-- A table is consistent when what is referenced is defined and each instruction gets the patch
that each of its references asks for. -/
theorem consistent_of_accepted (hfits : image.Fits)
    (hdefined : ∀ label ∈ table.labels, label.fixups ≠ #[] → label.isDefined)
    (horder : ∀ name target fixup, table.Resolves name target fixup → ∃ kind patch,
      fixup.patch checkRanges image name target = .ok patch ∧
        Plan.accepted checkRanges image table.demands fixup.handle = some (kind, patch)) :
    Consistent checkRanges image table := by
  have hreaches : checkRanges = true → ∀ name target fixup, table.Resolves name target fixup →
      fixup.kind.reaches target fixup.site = true := by
    intro hcheck name target fixup hresolves
    obtain ⟨kind, patch, hpatch, -⟩ := horder name target fixup hresolves
    exact ((Fixup.patch_eq_ok_iff hfits).mp hpatch).2.1 hcheck
  refine ⟨hdefined, ?_, ?_, ?_, ?_⟩
  · intro label hlabel fixup hmem
    have hsome := hdefined label hlabel (Array.ne_empty_of_mem hmem)
    obtain ⟨target, htarget⟩ := Option.isSome_iff_exists.mp hsome
    obtain ⟨kind, patch, hpatch, -⟩ :=
      horder label.name target fixup ⟨label, hlabel, rfl, htarget, hmem⟩
    exact ((Fixup.patch_eq_ok_iff hfits).mp hpatch).1
  · intro hcheck name target fixup hresolves
    exact (FixupKind.reaches_eq_true_iff.mp (hreaches hcheck name target fixup hresolves)).1
  · intro hcheck name target fixup hresolves
    exact (FixupKind.reaches_eq_true_iff.mp (hreaches hcheck name target fixup hresolves)).2
  · intro name target fixup hresolves name' target' fixup' hresolves' hhandle
    obtain ⟨kind, patch, hpatch, haccepted⟩ := horder name target fixup hresolves
    obtain ⟨kind', patch', hpatch', haccepted'⟩ := horder name' target' fixup' hresolves'
    rw [hhandle, haccepted'] at haccepted
    cases haccepted
    have heq := ((Fixup.patch_eq_ok_iff hfits).mp hpatch).2.2
    have heq' := ((Fixup.patch_eq_ok_iff hfits).mp hpatch').2.2
    rw [heq] at heq'
    exact Patch.mk.inj heq'

/-- Patching finds nothing wrong exactly with consistent tables. -/
theorem Draft.failures_eq_nil_iff (hfits : image.Fits) :
    Draft.failures checkRanges ⟨image, table⟩ = [] ↔ Consistent checkRanges image table := by
  unfold Draft.failures
  rw [Plan.failures_eq_nil_iff]
  constructor
  · rintro ⟨hmissing, hfixup⟩
    apply consistent_of_accepted hfits
    · intro label hlabel hfixups
      by_contra hundefined
      exact hmissing label.name
        (SymbolTable.mem_demands_missing_iff.mpr ⟨label, hlabel, rfl, hfixups, hundefined⟩)
    · intro name target fixup hresolves
      exact hfixup name target fixup (SymbolTable.mem_demands_fixup_iff.mpr hresolves)
  · intro h
    refine ⟨?_, ?_⟩
    · intro name hmem
      obtain ⟨label, hlabel, -, hfixups, hundefined⟩ :=
        SymbolTable.mem_demands_missing_iff.mp hmem
      exact hundefined (h.defined label hlabel hfixups)
    · intro name target fixup hmem
      have hresolves := SymbolTable.mem_demands_fixup_iff.mp hmem
      obtain ⟨kind, haccepted⟩ := h.accepted_eq hfits hresolves
      exact ⟨kind, _, h.patch_eq_ok hfits hresolves, haccepted⟩

/-! ## What resolving does -/

/-- The reference that a demand is about. -/
def Demand.fixup? : Demand → Option Fixup
  | .missing _ => none
  | .fixup _ _ reference => some reference

/-- When every label referenced is defined, the demands are about all references in their order. -/
theorem SymbolTable.filterMap_demands
    (hdefined : ∀ label ∈ table.labels, label.fixups ≠ #[] → label.isDefined) :
    table.demands.filterMap Demand.fixup? = table.references := by
  unfold demands references
  rw [List.filterMap_flatMap]
  apply List.flatMap_congr
  intro label hlabel
  unfold Label.demands
  cases haddress : label.address with
  | none =>
      have hempty : label.fixups = #[] := by
        by_contra hfixups
        have hsome := hdefined label hlabel hfixups
        simp [Label.isDefined, haddress] at hsome
      simp [hempty]
  | some target =>
      simp only [List.filterMap_map]
      exact List.filterMap_some

/-- When all references are in order, the first one from an instruction is the one accepted. -/
theorem Plan.accepted_kind {demands : List Demand}
    (horder : ∀ name target fixup, .fixup name target fixup ∈ demands →
      ∃ patch, fixup.patch checkRanges image name target = .ok patch) (handle : Handle) :
    (accepted checkRanges image demands handle).map Prod.fst =
      ((demands.filterMap Demand.fixup?).find? (·.handle = handle)).map Fixup.kind := by
  induction demands with
  | nil => rfl
  | cons demand rest ih =>
      have hrest := ih fun name target fixup hmem =>
        horder name target fixup (List.mem_cons_of_mem _ hmem)
      unfold accepted at hrest ⊢
      rw [List.findSome?_cons]
      cases demand with
      | missing name => exact hrest
      | fixup name target fixup =>
          obtain ⟨patch, hpatch⟩ := horder name target fixup List.mem_cons_self
          by_cases hhandle : fixup.handle = handle
          · simp [Demand.patchAt?, Demand.fixup?, hhandle, hpatch]
          · simpa [Demand.patchAt?, Demand.fixup?, hhandle] using hrest

/-- In a consistent table the patches of a kind are as many as the instructions whose first
reference is of that kind. -/
theorem Consistent.acceptedCount_eq (h : Consistent checkRanges image table)
    (hfits : image.Fits) (kind : FixupKind) :
    Plan.acceptedCount checkRanges image table.demands kind = table.instructionCount kind := by
  have horder : ∀ name target fixup, .fixup name target fixup ∈ table.demands →
      ∃ patch, fixup.patch checkRanges image name target = .ok patch :=
    fun name target fixup hmem =>
      ⟨_, h.patch_eq_ok hfits (SymbolTable.mem_demands_fixup_iff.mp hmem)⟩
  unfold Plan.acceptedCount SymbolTable.instructionCount
  congr 1
  ext handle
  rw [Finset.mem_filter, Finset.mem_filter, Plan.accepted_kind horder,
    SymbolTable.filterMap_demands h.defined]
  refine and_congr_left fun hkind => ?_
  obtain ⟨fixup, hfirst, -⟩ := Option.map_eq_some_iff.mp hkind
  have hmem := List.mem_of_find?_eq_some hfirst
  have hhandle : fixup.handle = handle := by simpa using List.find?_some hfirst
  obtain ⟨label, hlabel, hfixup⟩ := SymbolTable.mem_references_iff.mp hmem
  have hlt := (h.placed label hlabel fixup hfixup).1
  rw [hhandle] at hlt
  have hhandles : handle ∈ (table.references.map Fixup.handle).toFinset :=
    List.mem_toFinset.mpr (List.mem_map.mpr ⟨fixup, hmem, hhandle⟩)
  exact ⟨fun _ => hhandles, fun _ => Finset.mem_range.mpr hlt⟩

/-- Each instruction that is referenced is counted for one kind. -/
theorem SymbolTable.instructionCount_add (table : SymbolTable) :
    table.instructionCount .jump + table.instructionCount .branch =
      (table.references.map Fixup.handle).toFinset.card := by
  rw [← Finset.card_filter_add_card_filter_not (s := (table.references.map Fixup.handle).toFinset)
    fun handle => (table.references.find? (·.handle = handle)).map Fixup.kind = some .jump]
  unfold instructionCount
  congr 2
  apply Finset.filter_congr
  intro handle hmem
  obtain ⟨fixup, hfixup, rfl⟩ := List.mem_map.mp (List.mem_toFinset.mp hmem)
  have hsome : (table.references.find? (·.handle = fixup.handle)).isSome :=
    List.find?_isSome.mpr ⟨fixup, hfixup, by simp⟩
  obtain ⟨first, hfirst⟩ := Option.isSome_iff_exists.mp hsome
  rw [hfirst]
  cases hkind : first.kind <;> simp [hkind]

/-- Patching a consistent table resolves every reference. -/
theorem Consistent.patchedInto (h : Consistent checkRanges image table) (hfits : image.Fits) :
    PatchedInto image table (Draft.report checkRanges ⟨image, table⟩)
      (Draft.patched checkRanges ⟨image, table⟩) where
  written := by
    intro name target fixup hresolves
    obtain ⟨kind, haccepted⟩ := h.accepted_eq hfits hresolves
    simp [Draft.patched, Plan.patched, Plan.fieldAt, haccepted]
  kept := by
    intro handle hnone
    have haccepted : Plan.accepted checkRanges image table.demands handle = none := by
      by_contra hsome
      obtain ⟨⟨kind, patch⟩, hfirst⟩ := Option.ne_none_iff_exists'.mp hsome
      obtain ⟨name, target, fixup, hmem, hhandle, -⟩ := Plan.mem_of_accepted hfirst
      obtain ⟨label, hlabel, -, -, hfixup⟩ := SymbolTable.mem_demands_fixup_iff.mp hmem
      exact hnone fixup (SymbolTable.mem_references_iff.mpr ⟨label, hlabel, hfixup⟩) hhandle
    simp [Draft.patched, Plan.patched, Plan.fieldAt, haccepted]
  base := rfl
  size := by simp [Draft.patched, Plan.patched, Image.size]
  labels := by simp [Draft.patched, SymbolTable.clearFixups]
  drained := by
    intro label hlabel
    obtain ⟨label, -, rfl⟩ := List.mem_map.mp hlabel
    rfl
  labelCount := rfl
  jumpCount := h.acceptedCount_eq hfits .jump
  branchCount := h.acceptedCount_eq hfits .branch
  references := by
    rw [← table.instructionCount_add, ← h.acceptedCount_eq hfits, ← h.acceptedCount_eq hfits]
    rfl

end Consistency

/-- Patching succeeds exactly with consistent tables, and then resolves every reference. The table
may be any, and the image any that calls lead to. -/
theorem patch_succeeds_iff_consistent {image : Image} (hreachable : image.Reachable)
    (table : SymbolTable) (checkRanges : Bool) :
    ((∃ report, (Draft.patch checkRanges ⟨image, table⟩).1 = .ok report) ↔
        Consistent checkRanges image table) ∧
      ∀ report, (Draft.patch checkRanges ⟨image, table⟩).1 = .ok report →
        PatchedInto image table report (Draft.patch checkRanges ⟨image, table⟩).2 := by
  have hfits := hreachable.fits
  rw [Draft.patch_eq, ← Draft.failures_eq_nil_iff hfits]
  by_cases hnil : Draft.failures checkRanges ⟨image, table⟩ = []
  · rw [if_pos hnil]
    refine ⟨⟨fun _ => hnil, fun _ => ⟨_, rfl⟩⟩, ?_⟩
    rintro report ⟨⟩
    exact ((Draft.failures_eq_nil_iff hfits).mp hnil).patchedInto hfits
  · rw [if_neg hnil]
    refine ⟨⟨?_, fun h => absurd h hnil⟩, ?_⟩
    · rintro ⟨report, ⟨⟩⟩
    · rintro report ⟨⟩

/-- A branch to itself and a jump back, the jump recorded twice. -/
theorem patch_succeeds_loop :
    let image : Image := { base := 0x1000, words := #[0x10000000, 0x08000000] }
    let table : SymbolTable := { labels := [{
      name := "loop"
      address := some 0x1000
      fixups := #[⟨0, 0x1000, .branch⟩, ⟨1, 0x1004, .jump⟩, ⟨1, 0x1004, .jump⟩] }] }
    image.Reachable ∧ Consistent true image table ∧
      (Draft.patch true ⟨image, table⟩).1 = .ok ⟨1, 1, 1⟩ ∧
        PatchedInto image table ⟨1, 1, 1⟩ (Draft.patch true ⟨image, table⟩).2 := by
  intro image table
  have hreachable : image.Reachable :=
    ((Image.Reachable.start 0x1000).append 0x10000000).append 0x08000000
  have hok : (Draft.patch true ⟨image, table⟩).1 = .ok ⟨1, 1, 1⟩ := by decide
  obtain ⟨hiff, hinto⟩ := patch_succeeds_iff_consistent hreachable table true
  exact ⟨hreachable, hiff.mp ⟨_, hok⟩, hok, hinto _ hok⟩

end Backpatch
