import Backpatch.Proofs.Patch.Consistency

/-!
# What a plan finds wrong, without an order

A plan visits demands one after another and keeps the first patch for an instruction that is in
order, so that of two demands that do not agree the later one is refused. Here the failures are told
from the demands as a set.

* `Demand.fault?`: what a demand is refused for on its own account.
* `Plan.Contested`: demands that are each in order ask for different patches of one instruction.
* `Plan.mem_failures_iff`: the failures are the faults, and a conflict for each instruction that is
  contested. `Plan.filter_failures` keeps the order and the number of the faults.

It follows that demands with the same members, in any order and any number, lead to the same
failures (`mem_failures_congr`) and, if there is none, to the same fields (`fieldAt_congr`) and to
as many patches (`acceptedCount_congr`).
-/

namespace Backpatch

variable {checkRanges : Bool} {image : Image}

/-! ## Faults -/

/-- What a demand is refused for on its own account. -/
def Demand.fault? (checkRanges : Bool) (image : Image) : Demand → Option PatchError
  | .missing name => some (.undefinedLabel name)
  | .fixup name target reference =>
    match reference.patch checkRanges image name target with
    | .error error => some error
    | .ok _ => none

theorem Demand.fault?_of_error {name : String} {target : Address} {fixup : Fixup}
    {error : PatchError} (h : fixup.patch checkRanges image name target = .error error) :
    (Demand.fixup name target fixup).fault? checkRanges image = some error := by
  simp only [fault?, h]

theorem Demand.fault?_of_ok {name : String} {target : Address} {fixup : Fixup} {patch : Patch}
    (h : fixup.patch checkRanges image name target = .ok patch) :
    (Demand.fixup name target fixup).fault? checkRanges image = none := by
  simp only [fault?, h]

/-- Whether a failure is about references that do not agree. -/
def PatchError.isConflict : PatchError → Bool
  | .conflictingReference _ => true
  | _ => false

/-- A reference in order stands where it says. -/
theorem Fixup.addressOf_of_patch {fixup : Fixup} {name : String} {target : Address} {patch : Patch}
    (h : fixup.patch checkRanges image name target = .ok patch) :
    image.addressOf fixup.handle = .ok fixup.site := by
  unfold Fixup.patch at h
  rcases hactual : image.addressOf fixup.handle with error | actual
  · rw [hactual] at h
    cases h
  · by_cases hsite : actual = fixup.site
    · rw [hsite]
    · simp [hactual, hsite] at h

/-- A reference that stands where it says is in order, unless its target is out of reach. -/
theorem Fixup.patch_of_addressOf {fixup : Fixup}
    (h : image.addressOf fixup.handle = .ok fixup.site) (checkRanges : Bool) (name : String)
    (target : Address) :
    fixup.patch checkRanges image name target =
      if checkRanges && !fixup.kind.reaches target fixup.site then
        .error (fixup.kind.outOfRange name fixup.site)
      else .ok { name, field := fixup.kind.field target fixup.site } := by
  unfold patch
  rw [h]
  exact if_neg (not_not.mpr rfl)

/-- A reference by itself is never refused for a conflict. -/
theorem Fixup.not_isConflict_of_patch {fixup : Fixup} {name : String} {target : Address}
    {error : PatchError} (h : fixup.patch checkRanges image name target = .error error) :
    error.isConflict = false := by
  unfold Fixup.patch at h
  rcases hactual : image.addressOf fixup.handle with other | actual
  · rw [hactual] at h
    obtain rfl := Except.error.inj h
    unfold Image.addressOf Image.addressAt at hactual
    split at hactual
    · split at hactual
      · cases hactual
      · obtain rfl := Except.error.inj hactual
        rfl
    · obtain rfl := Except.error.inj hactual
      rfl
  · rw [hactual] at h
    simp only at h
    split at h
    · obtain rfl := Except.error.inj h
      rfl
    · split at h
      · obtain rfl := Except.error.inj h
        unfold FixupKind.outOfRange
        split <;> rfl
      · cases h

/-- Without conflicts, what a demand is refused for is its fault, whatever patches there are. -/
theorem Demand.filter_failure? (first : Handle → Option (FixupKind × Patch)) (demand : Demand) :
    (demand.failure? checkRanges image first).filter (!·.isConflict) =
      demand.fault? checkRanges image := by
  rcases demand with name | ⟨name, target, fixup⟩
  · rfl
  · rcases hpatch : fixup.patch checkRanges image name target with error | patch
    · rw [failure?_of_error hpatch, fault?_of_error hpatch]
      exact Option.filter_some_pos (by rw [Fixup.not_isConflict_of_patch hpatch]; rfl)
    · rw [failure?_of_ok hpatch, fault?_of_ok hpatch]
      split
      · rfl
      · rfl

theorem Demand.failure?_of_fault? {demand : Demand} {error : PatchError}
    (h : demand.fault? checkRanges image = some error)
    (first : Handle → Option (FixupKind × Patch)) :
    demand.failure? checkRanges image first = some error := by
  rw [← filter_failure? first, Option.filter_eq_some_iff] at h
  exact h.1

namespace Plan

/-- The failures other than conflicts are the faults of the demands, in their order. -/
theorem filter_failures (demands : List Demand) :
    (failures checkRanges image demands).filter (!·.isConflict) =
      demands.filterMap (Demand.fault? checkRanges image) := by
  unfold failures
  rw [List.filter_filterMap]
  simp only [Demand.filter_failure?]

/-! ## Conflicts -/

/-- Demands that are each in order ask for different patches of the instruction at `site`. -/
def Contested (checkRanges : Bool) (image : Image) (demands : List Demand) (site : Address) :
    Prop :=
  ∃ name target fixup patch name' target' fixup' patch',
    .fixup name target fixup ∈ demands ∧
      fixup.patch checkRanges image name target = .ok patch ∧
      .fixup name' target' fixup' ∈ demands ∧
      fixup'.patch checkRanges image name' target' = .ok patch' ∧
      fixup.handle = fixup'.handle ∧ fixup.site = site ∧ patch ≠ patch'

/-- The failures of demands are their faults, and a conflict for each contested instruction. -/
theorem mem_failures_iff {demands : List Demand} {error : PatchError} :
    error ∈ failures checkRanges image demands ↔
      (∃ demand ∈ demands, demand.fault? checkRanges image = some error) ∨
        ∃ site, error = .conflictingReference site ∧
          Contested checkRanges image demands site := by
  unfold failures
  rw [List.mem_filterMap]
  constructor
  · rintro ⟨demand, hmem, hfailure⟩
    rcases demand with name | ⟨name, target, fixup⟩
    · exact Or.inl ⟨_, hmem, hfailure⟩
    · rcases hpatch : fixup.patch checkRanges image name target with error' | patch
      · rw [Demand.failure?_of_error hpatch] at hfailure
        exact Or.inl ⟨_, hmem, (Demand.fault?_of_error hpatch).trans hfailure⟩
      · obtain ⟨⟨kind, first⟩, hfirst⟩ := exists_accepted_of_mem hmem hpatch
        obtain ⟨name', target', fixup', hmem', hhandle, -, hpatch'⟩ := mem_of_accepted hfirst
        rw [Demand.failure?_of_ok hpatch, hfirst] at hfailure
        split at hfailure
        · cases hfailure
        · next hdiffer =>
          refine Or.inr ⟨fixup.site, (Option.some.inj hfailure).symm, ?_⟩
          refine ⟨name, target, fixup, patch, name', target', fixup', first, hmem, hpatch, hmem',
            hpatch', hhandle.symm, rfl, ?_⟩
          rintro rfl
          exact hdiffer rfl
  · rintro (⟨demand, hmem, hfault⟩ | ⟨site, rfl, hcontested⟩)
    · exact ⟨demand, hmem, Demand.failure?_of_fault? hfault _⟩
    · obtain ⟨name, target, fixup, patch, name', target', fixup', patch', hmem, hpatch, hmem',
        hpatch', hhandle, rfl, hdiffer⟩ := hcontested
      have hsite : fixup'.site = fixup.site := by
        have hplace := Fixup.addressOf_of_patch hpatch
        rw [hhandle, Fixup.addressOf_of_patch hpatch'] at hplace
        exact Except.ok.inj hplace
      obtain ⟨⟨kind, first⟩, hfirst⟩ := exists_accepted_of_mem hmem hpatch
      -- the patch accepted is not both of the two, so one of them is refused
      by_cases heq : first = patch
      · refine ⟨_, hmem', ?_⟩
        rw [Demand.failure?_of_ok hpatch', ← hhandle, hfirst, hsite]
        exact if_neg fun h => hdiffer (heq.symm.trans (Option.some.inj h))
      · refine ⟨_, hmem, ?_⟩
        rw [Demand.failure?_of_ok hpatch, hfirst]
        exact if_neg fun h => heq (Option.some.inj h)

/-- Where no instruction is contested, each demand is refused on its own account only. -/
theorem failures_eq_of_uncontested {demands : List Demand}
    (h : ∀ site, ¬Contested checkRanges image demands site) :
    failures checkRanges image demands =
      demands.filterMap (Demand.fault? checkRanges image) := by
  rw [← filter_failures, eq_comm, List.filter_eq_self]
  intro error hmem
  rcases mem_failures_iff.mp hmem with ⟨demand, -, hfault⟩ | ⟨site, -, hcontested⟩
  · rw [← Demand.filter_failure? fun _ => none, Option.filter_eq_some_iff] at hfault
    exact hfault.2
  · exact absurd hcontested (h site)

/-- If demands on one instruction ask for one patch, each is refused on its own account only. -/
theorem failures_eq_of_agreed {demands : List Demand}
    (hagreed : ∀ name target fixup, .fixup name target fixup ∈ demands →
      ∀ name' target' fixup', .fixup name' target' fixup' ∈ demands →
        fixup.handle = fixup'.handle → name = name' ∧ target = target' ∧ fixup = fixup') :
    failures checkRanges image demands =
      demands.filterMap (Demand.fault? checkRanges image) := by
  apply failures_eq_of_uncontested
  rintro site ⟨name, target, fixup, patch, name', target', fixup', patch', hmem, hpatch, hmem',
    hpatch', hhandle, -, hdiffer⟩
  obtain ⟨rfl, rfl, rfl⟩ := hagreed _ _ _ hmem _ _ _ hmem' hhandle
  rw [hpatch] at hpatch'
  exact hdiffer (Except.ok.inj hpatch')

/-! ## Demands with the same members -/

/-- An instruction has a patch when some demand about it is in order. -/
theorem isSome_accepted_iff {demands : List Demand} {handle : Handle} :
    (accepted checkRanges image demands handle).isSome ↔
      ∃ name target fixup patch, .fixup name target fixup ∈ demands ∧ fixup.handle = handle ∧
        fixup.patch checkRanges image name target = .ok patch := by
  rw [Option.isSome_iff_exists]
  constructor
  · rintro ⟨⟨kind, patch⟩, hfirst⟩
    obtain ⟨name, target, fixup, hmem, hhandle, -, hpatch⟩ := mem_of_accepted hfirst
    exact ⟨name, target, fixup, patch, hmem, hhandle, hpatch⟩
  · rintro ⟨name, target, fixup, patch, hmem, rfl, hpatch⟩
    exact exists_accepted_of_mem hmem hpatch

/-- Each instruction with a patch counts for one kind. -/
theorem acceptedCount_add (demands : List Demand) :
    acceptedCount checkRanges image demands .jump +
        acceptedCount checkRanges image demands .branch =
      ((Finset.range image.size).filter fun handle =>
        (accepted checkRanges image demands handle).isSome).card := by
  have hkinds := Finset.card_filter_add_card_filter_not
    (s := (Finset.range image.size).filter fun handle =>
      (accepted checkRanges image demands handle).isSome)
    fun handle => (accepted checkRanges image demands handle).map Prod.fst = some .jump
  rw [← hkinds, Finset.filter_filter, Finset.filter_filter]
  unfold acceptedCount
  congr 2
  · apply Finset.filter_congr
    intro handle _
    rcases accepted checkRanges image demands handle with _ | ⟨kind, patch⟩ <;> simp
  · apply Finset.filter_congr
    intro handle _
    rcases accepted checkRanges image demands handle with _ | ⟨kind | kind, patch⟩ <;> simp

section Congr

variable {demands demands' : List Demand} (h : ∀ demand, demand ∈ demands ↔ demand ∈ demands')
include h

/-- The same demands have the same failures. -/
theorem mem_failures_congr (error : PatchError) :
    error ∈ failures checkRanges image demands ↔
      error ∈ failures checkRanges image demands' := by
  rw [mem_failures_iff, mem_failures_iff]
  simp only [Contested, h]

/-- The same demands lead to as many patches. -/
theorem acceptedCount_congr :
    acceptedCount checkRanges image demands .jump +
        acceptedCount checkRanges image demands .branch =
      acceptedCount checkRanges image demands' .jump +
        acceptedCount checkRanges image demands' .branch := by
  rw [acceptedCount_add, acceptedCount_add]
  congr 1
  apply Finset.filter_congr
  intro handle _
  simp only [isSome_accepted_iff, h]

/-- The same demands set the same bits, if none of them is refused. -/
theorem fieldAt_congr (hnil : failures checkRanges image demands = []) (handle : Handle) :
    fieldAt checkRanges image demands handle = fieldAt checkRanges image demands' handle := by
  have hnil' : failures checkRanges image demands' = [] := by
    apply List.eq_nil_iff_forall_not_mem.mpr
    intro error hmem
    rw [← mem_failures_congr h, hnil] at hmem
    cases hmem
  unfold fieldAt
  rcases hfirst : accepted checkRanges image demands handle with _ | ⟨kind, patch⟩
  · rcases hfirst' : accepted checkRanges image demands' handle with _ | ⟨kind', patch'⟩
    · rfl
    · obtain ⟨name, target, fixup, hmem, rfl, -, hpatch⟩ := mem_of_accepted hfirst'
      obtain ⟨first, hsome⟩ := exists_accepted_of_mem ((h _).mpr hmem) hpatch
      rw [hfirst] at hsome
      cases hsome
  · obtain ⟨name, target, fixup, hmem, rfl, -, hpatch⟩ := mem_of_accepted hfirst
    obtain ⟨kind', patch', hpatch', hfirst'⟩ :=
      (failures_eq_nil_iff.mp hnil').2 name target fixup ((h _).mp hmem)
    rw [hpatch] at hpatch'
    rw [hfirst', ← Except.ok.inj hpatch']
    rfl

end Congr

end Plan

end Backpatch
