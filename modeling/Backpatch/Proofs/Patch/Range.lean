import Backpatch.Proofs.Patch.Faults
import Backpatch.Proofs.Patch.Field

/-!
# Range checks are exact

A field is computed by truncation, and a range check tells whether anything was lost. Here the
checks are compared with what a reader of the field finds: `FixupKind.Designates` says that the
field leads back to the target. Between aligned addresses the two agree
(`displacementFits_iff`, `jumpReaches_iff`).

For a whole patching, the checks then make no other difference than to refuse the references whose
field does not designate their label.

* `Draft.patch_unchecked`: what is patched with checks on is patched alike with checks off.
* `Draft.failures_checked`: where nothing is wrong with checks off, checks refuse the references out
  of range, each once. No conflict appears: the references from one instruction agree on its patch
  before the checks, and those that the checks leave agree on it still.
-/

namespace Backpatch

/-! ## Single references -/

/-- The field leads to the target, for a reader of the instruction at `site`: a branch adds the
signed number of words in its field to the address of the next instruction, a jump replaces all of
that address but the region by its field. -/
def FixupKind.Designates (kind : FixupKind) (target site : Address) : Prop :=
  match kind with
  | .jump => ((site + 4#32) &&& (0xF0000000 : Address)) ||| (jumpField target <<< 2) = target
  | .branch =>
    (site.toNat : Int) + 4 + 4 * ((branchField target site).extractLsb' 0 16).toInt = target.toNat

instance (kind : FixupKind) (target site : Address) : Decidable (kind.Designates target site) :=
  match kind with
  | .jump => inferInstanceAs (Decidable (_ = _))
  | .branch => inferInstanceAs (Decidable (_ = _))

section Exact

variable {target site : Address}

/-- The field of a branch, read as a signed number, is the distance up to multiples of `2 ^ 16`. -/
theorem toInt_branchField (target site : Address) :
    ((branchField target site).extractLsb' 0 16).toInt =
      (displacement target site).bmod (2 ^ 16) := by
  have hfield : (branchField target site).extractLsb' 0 16 =
      BitVec.ofInt 16 (displacement target site) := by
    unfold branchField
    rw [BitVec.extractLsb'_setWidth_of_le (by decide)]
    exact BitVec.extractLsb'_eq_self
  rw [hfield, BitVec.toInt_ofInt]

/-- A distance fits exactly when the field of the branch leads to the target. -/
theorem displacementFits_iff (htarget : IsAligned target) (hsite : IsAligned site) :
    DisplacementFits (displacement target site) ↔
      (site.toNat : Int) + 4 + 4 * ((branchField target site).extractLsb' 0 16).toInt =
        target.toNat := by
  have hexact := wordSize_mul_displacement htarget hsite
  have hlow := Int.le_bmod (x := displacement target site) (m := 2 ^ 16) (by decide)
  have hhigh := Int.bmod_lt (x := displacement target site) (m := 2 ^ 16) (by decide)
  rw [toInt_branchField]
  unfold DisplacementFits
  simp only [wordSize] at hexact
  constructor
  · rintro ⟨hge, hlt⟩
    have hvalue : (displacement target site).bmod (2 ^ 16) = displacement target site :=
      Int.bmod_eq_of_le (by omega) (by omega)
    omega
  · intro hleads
    omega

/-- The field of a jump, shifted into place, is all of the target but its region. -/
theorem jumpField_shiftLeft (target : Address) :
    jumpField target <<< 2 = 0#4 ++ (target.extractLsb' 2 26 ++ 0#2) := by
  apply BitVec.eq_of_getLsbD_eq
  intro i hi
  unfold jumpField
  simp only [BitVec.getLsbD_shiftLeft, BitVec.getLsbD_setWidth, BitVec.getLsbD_append,
    BitVec.getLsbD_zero]
  by_cases hlow : i < 2
  · simp [hlow]
  · by_cases hhigh : i < 28
    · simp [hlow, hi, hhigh, show i - 2 < 26 by omega, show i - 2 < 32 by omega]
    · simp [hlow, hi, show ¬i - 2 < 26 by omega]

/-- A jump reaches its target exactly when its field leads there. -/
theorem jumpReaches_iff (htarget : IsAligned target) :
    JumpReaches target site ↔
      ((site + 4#32) &&& (0xF0000000 : Address)) ||| (jumpField target <<< 2) = target := by
  have hleads : ((site + 4#32) &&& (0xF0000000 : Address)) ||| (jumpField target <<< 2) =
      (site + 4#32).extractLsb' 28 4 ++ (target.extractLsb' 2 26 ++ 0#2) := by
    rw [and_regionMask, jumpField_shiftLeft]
    refine BitVec.or_append.trans ?_
    rw [BitVec.or_zero, BitVec.zero_or]
  rw [hleads]
  constructor
  · intro hreach
    have hregion : (site + 4#32).extractLsb' 28 4 = target.extractLsb' 28 4 := hreach
    rw [hregion]
    exact append_of_isAligned htarget
  · intro h
    have hregion := congrArg (BitVec.extractLsb' 28 4) h
    rw [BitVec.extractLsb'_append_eq_left] at hregion
    exact hregion

/-- The range check of a reference passes exactly when its field designates the target. -/
theorem FixupKind.reaches_iff_designates (htarget : IsAligned target) (hsite : IsAligned site)
    (kind : FixupKind) : kind.reaches target site = true ↔ kind.Designates target site := by
  rcases kind with _ | _
  · exact decide_eq_true_iff.trans (jumpReaches_iff htarget)
  · exact decide_eq_true_iff.trans (displacementFits_iff htarget hsite)

end Exact

/-! ## The references of a table -/

/-- The references of a label whose field does not designate it, oldest first, each as a failure. -/
def Label.strays (label : Label) : List PatchError :=
  match label.address with
  | none => []
  | some target => label.fixups.toList.filterMap fun fixup =>
    if fixup.kind.Designates target fixup.site then none
    else some (fixup.kind.outOfRange label.name fixup.site)

/-- The references of a table whose field does not designate their label, in the order of labels and
references, each as a failure. -/
def SymbolTable.strays (table : SymbolTable) : List PatchError :=
  table.labels.flatMap Label.strays

section Checks

variable {image : Image} {name : String} {target : Address} {fixup : Fixup} {patch : Patch}

/-- A reference in order with checks on is so with checks off. -/
theorem Fixup.patch_unchecked (h : fixup.patch true image name target = .ok patch) :
    fixup.patch false image name target = .ok patch := by
  have hplace := Fixup.addressOf_of_patch h
  rw [Fixup.patch_of_addressOf hplace] at h ⊢
  split at h
  · cases h
  · exact h

/-- A reference in order with checks off is so with checks on, unless it is out of range. -/
theorem Fixup.patch_checked (h : fixup.patch false image name target = .ok patch) :
    fixup.patch true image name target =
      if fixup.kind.reaches target fixup.site then .ok patch
      else .error (fixup.kind.outOfRange name fixup.site) := by
  have hplace := Fixup.addressOf_of_patch h
  rw [Fixup.patch_of_addressOf hplace] at h ⊢
  obtain rfl := Except.ok.inj h
  cases fixup.kind.reaches target fixup.site <;> rfl

namespace Plan

variable {demands : List Demand}

/-- Where nothing is wrong with checks on, the same patches are accepted with checks off. -/
theorem accepted_unchecked (hnil : failures true image demands = []) :
    accepted false image demands = accepted true image demands := by
  have hsame : ∀ handle, ∀ demand ∈ demands,
      demand.patchAt? false image handle = demand.patchAt? true image handle := by
    intro handle demand hmem
    rcases demand with name | ⟨name, target, fixup⟩
    · rfl
    · obtain ⟨kind, patch, hpatch, -⟩ := (failures_eq_nil_iff.mp hnil).2 name target fixup hmem
      simp only [Demand.patchAt?, hpatch, Fixup.patch_unchecked hpatch]
  funext handle
  unfold accepted
  rw [← List.head?_filterMap, ← List.head?_filterMap, List.filterMap_congr (hsame handle)]

/-- Where nothing is wrong with checks on, nothing is with checks off. -/
theorem failures_unchecked (hnil : failures true image demands = []) :
    failures false image demands = [] := by
  obtain ⟨hmissing, hfixup⟩ := failures_eq_nil_iff.mp hnil
  refine failures_eq_nil_iff.mpr ⟨hmissing, ?_⟩
  intro name target fixup hmem
  obtain ⟨kind, patch, hpatch, hfirst⟩ := hfixup name target fixup hmem
  rw [accepted_unchecked hnil]
  exact ⟨kind, patch, Fixup.patch_unchecked hpatch, hfirst⟩

/-- Where nothing is wrong with checks off, checks refuse each reference on its own account only. -/
theorem failures_checked (hnil : failures false image demands = []) :
    failures true image demands = demands.filterMap (Demand.fault? true image) := by
  apply failures_eq_of_uncontested
  rintro site ⟨name, target, fixup, patch, name', target', fixup', patch', hmem, hpatch, hmem',
    hpatch', hhandle, hsite, hdiffer⟩
  -- the two would be in conflict without checks as well
  have hcontested : Contested false image demands site :=
    ⟨name, target, fixup, patch, name', target', fixup', patch', hmem,
      Fixup.patch_unchecked hpatch, hmem', Fixup.patch_unchecked hpatch', hhandle, hsite, hdiffer⟩
  have hconflict := mem_failures_iff.mpr (Or.inr ⟨site, rfl, hcontested⟩)
  rw [hnil] at hconflict
  cases hconflict

end Plan

/-- What is patched with checks on is patched alike with checks off. -/
theorem Draft.patch_unchecked {draft after : Draft} {report : PatchReport}
    (h : draft.patch true = (.ok report, after)) : draft.patch false = (.ok report, after) := by
  obtain ⟨hnil, rfl, rfl⟩ := Draft.of_patch_ok h
  have hnil' : draft.failures false = [] := Plan.failures_unchecked hnil
  have haccepted := Plan.accepted_unchecked hnil
  rw [Draft.patch_eq, if_pos hnil']
  unfold Draft.report Draft.patched Plan.acceptedCount Plan.patched Plan.fieldAt
  rw [haccepted]

/-- What is wrong with the references of one label when nothing is without checks. -/
theorem Label.filterMap_fault? {label : Label} (haligned : label.Aligned)
    (hdefined : label.fixups ≠ #[] → label.isDefined)
    (horder : ∀ target, label.address = some target → ∀ fixup ∈ label.fixups,
      ∃ patch, fixup.patch false image label.name target = .ok patch) :
    label.demands.filterMap (Demand.fault? true image) = label.strays := by
  unfold demands strays
  rcases haddress : label.address with _ | target
  · have hempty : label.fixups = #[] := by
      by_contra hfixups
      have hsome := hdefined hfixups
      simp [isDefined, haddress] at hsome
    simp [hempty]
  · simp only [List.filterMap_map]
    refine List.filterMap_congr fun fixup hmem => ?_
    have hfixup := Array.mem_toList_iff.mp hmem
    obtain ⟨patch, hpatch⟩ := horder target haddress fixup hfixup
    have hdesignates := FixupKind.reaches_iff_designates (haligned.address target haddress)
      (haligned.sites fixup hfixup) fixup.kind
    have hchecked := Fixup.patch_checked hpatch
    by_cases hreach : fixup.kind.reaches target fixup.site = true
    · rw [if_pos hreach] at hchecked
      exact (Demand.fault?_of_ok hchecked).trans (if_pos (hdesignates.mp hreach)).symm
    · rw [if_neg hreach] at hchecked
      exact (Demand.fault?_of_error hchecked).trans
        (if_neg fun h => hreach (hdesignates.mpr h)).symm

/-- Where nothing is wrong with checks off, checks refuse the references that stray. -/
theorem Draft.failures_checked {table : SymbolTable}
    (haligned : ∀ label ∈ table.labels, label.Aligned)
    (hnil : Draft.failures false ⟨image, table⟩ = []) :
    Draft.failures true ⟨image, table⟩ = table.strays := by
  obtain ⟨hmissing, hfixup⟩ := Plan.failures_eq_nil_iff.mp hnil
  refine (Plan.failures_checked hnil).trans ?_
  unfold SymbolTable.demands SymbolTable.strays
  rw [List.filterMap_flatMap]
  refine List.flatMap_congr fun label hlabel => ?_
  apply Label.filterMap_fault? (haligned label hlabel)
  · intro hfixups
    by_contra hundefined
    exact hmissing label.name
      (SymbolTable.mem_demands_missing_iff.mpr ⟨label, hlabel, rfl, hfixups, hundefined⟩)
  · intro target htarget fixup hmem
    obtain ⟨kind, patch, hpatch, -⟩ := hfixup label.name target fixup
      (SymbolTable.mem_demands_fixup_iff.mpr ⟨label, hlabel, rfl, htarget, hmem⟩)
    exact ⟨patch, hpatch⟩

end Checks

/-- Range checks are exact. A distance fits exactly when the field of the branch leads to the
target, and a jump reaches exactly when its field does. A table that is patched with checks on is
patched alike with checks off; one that is patched with checks off is patched alike with checks on,
unless the field of some reference does not designate its label, and then exactly these references
are reported, each once. -/
theorem range_checks_exact :
    (∀ target site : Address, IsAligned target → IsAligned site →
      (DisplacementFits (displacement target site) ↔
        (site.toNat : Int) + 4 + 4 * ((branchField target site).extractLsb' 0 16).toInt =
          target.toNat) ∧
      (JumpReaches target site ↔
        ((site + 4#32) &&& (0xF0000000 : Address)) ||| (jumpField target <<< 2) = target)) ∧
    ∀ (image : Image) (table : SymbolTable), table.Reachable → ∀ report after,
      (Draft.patch true ⟨image, table⟩ = (.ok report, after) →
        Draft.patch false ⟨image, table⟩ = (.ok report, after)) ∧
      (Draft.patch false ⟨image, table⟩ = (.ok report, after) →
        Draft.patch true ⟨image, table⟩ =
          if table.strays = [] then (.ok report, after)
          else (.error table.strays, ⟨image, table⟩)) := by
  refine ⟨?_, ?_⟩
  · intro target site htarget hsite
    exact ⟨displacementFits_iff htarget hsite, jumpReaches_iff htarget⟩
  · intro image table htable report after
    refine ⟨Draft.patch_unchecked, ?_⟩
    intro hpatch
    have hfailures := Draft.failures_checked htable.aligned (Draft.of_patch_ok hpatch).1
    rcases hchecked : Draft.patch true ⟨image, table⟩ with ⟨diagnostics | report', after'⟩
    · obtain ⟨hne, rfl, rfl⟩ := Draft.of_patch_error hchecked
      rw [hfailures] at hne ⊢
      exact (if_neg hne).symm
    · have hnil := (Draft.of_patch_ok hchecked).1
      rw [hfailures] at hnil
      rw [if_pos hnil, ← hpatch]
      exact (Draft.patch_unchecked hchecked).symm

/-- Two branches to one label, the first one word too far away and the second just near enough. -/
theorem range_checks_exact_far :
    let image : Image := { words := #[0x10000000, 0x10000000] }
    let table : SymbolTable :=
      { labels := [⟨"far", some 0x20004, #[⟨0, 0, .branch⟩, ⟨1, 4, .branch⟩]⟩] }
    ¬DisplacementFits (displacement 0x20004 0) ∧
      ((0 : Address).toNat : Int) + 4 + 4 * ((branchField 0x20004 0).extractLsb' 0 16).toInt ≠
        (0x20004 : Address).toNat ∧
      table.Reachable ∧
      (∃ after, Draft.patch false ⟨image, table⟩ = (.ok ⟨1, 0, 2⟩, after)) ∧
      Draft.patch true ⟨image, table⟩ =
        (.error [.displacementOverflow "far" 0], ⟨image, table⟩) := by
  intro image table
  obtain ⟨hsingle, hpatch⟩ := range_checks_exact
  have hfar : ¬DisplacementFits (displacement 0x20004 0) := by decide
  have htable : table.Reachable :=
    ((SymbolTable.Reachable.start.define "far" 0x20004).addReference ⟨0, 0, .branch⟩
      "far").addReference ⟨1, 4, .branch⟩ "far"
  have hok : Draft.patch false ⟨image, table⟩ =
      (.ok ⟨1, 0, 2⟩, (Draft.patch false ⟨image, table⟩).2) := by decide
  have hstrays : table.strays = [.displacementOverflow "far" 0] := by decide
  refine ⟨hfar, ?_, htable, ⟨_, hok⟩, ?_⟩
  · intro hleads
    exact hfar ((hsingle 0x20004 0 (by decide) (by decide)).1.mpr hleads)
  · have hchecked := (hpatch image table htable _ _).2 hok
    rw [hstrays] at hchecked
    exact hchecked

end Backpatch
