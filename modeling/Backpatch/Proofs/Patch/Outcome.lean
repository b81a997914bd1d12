import Backpatch.Draft
import Backpatch.Proofs.Patch.Plan

/-!
# The outcome of patching

`Draft.patch_eq` gives the whole effect of `Draft.patch` in closed form. If some demand of the table
is refused, the failures are returned and the draft is as before. Otherwise each word gets the bits
of the patch accepted for it, the references are gone, and the report counts what was done. The
writes come from the slots of the plan, so they name different words of the image, and none of them
can fail.
-/

namespace Backpatch

namespace Plan

variable {checkRanges : Bool} {image : Image} {demands : List Demand} {plan : Plan}

/-- The bits that patching sets in the word behind a handle; none if no patch is accepted for it. -/
def fieldAt (checkRanges : Bool) (image : Image) (demands : List Demand) (handle : Handle) : Word :=
  ((accepted checkRanges image demands handle).map fun first => first.2.field).getD 0

/-- The writes of a plan are the fields of the patches accepted. -/
theorem Summarizes.mem_writes_iff (h : Summarizes checkRanges image demands plan)
    {handle : Handle} {field : Word} :
    (handle, field) ∈ plan.writes ↔
      handle < image.size ∧ ∃ kind patch,
        accepted checkRanges image demands handle = some (kind, patch) ∧ patch.field = field := by
  have hslots : plan.slots.toList.length = image.size := h.size
  unfold writes
  rw [List.mem_filterMap]
  constructor
  · rintro ⟨⟨slot, index⟩, hmem, hslot⟩
    obtain ⟨patch, rfl, hpatch⟩ := Option.map_eq_some_iff.mp hslot
    cases hpatch
    have hget := List.mem_zipIdx_iff_getElem?.mp hmem
    obtain ⟨hlt, -⟩ := List.getElem?_eq_some_iff.mp hget
    rw [hslots] at hlt
    refine ⟨hlt, ?_⟩
    rw [Array.getElem?_toList, h.slot handle hlt, Option.some_inj, Option.map_eq_some_iff] at hget
    obtain ⟨⟨kind, patch'⟩, haccepted, rfl⟩ := hget
    exact ⟨kind, patch', haccepted, rfl⟩
  · rintro ⟨hlt, kind, patch, haccepted, rfl⟩
    refine ⟨(some patch, handle), ?_, rfl⟩
    rw [List.mem_zipIdx_iff_getElem?, Array.getElem?_toList, h.slot handle hlt, haccepted]
    rfl

/-- A plan writes to each word once at most. -/
theorem writes_nodup (plan : Plan) : (plan.writes.map Prod.fst).Nodup := by
  have hindices : plan.slots.toList.zipIdx.Pairwise fun entry other => entry.2 ≠ other.2 := by
    apply List.pairwise_map.mp
    rw [List.zipIdx_map_snd]
    exact List.nodup_range'
  refine List.pairwise_map.mpr (hindices.filterMap _ ?_)
  rintro ⟨slot, index⟩ ⟨slot', index'⟩ hne write hwrite write' hwrite'
  obtain ⟨patch, -, rfl⟩ := Option.map_eq_some_iff.mp hwrite
  obtain ⟨patch', -, rfl⟩ := Option.map_eq_some_iff.mp hwrite'
  exact hne

/-- An image in which every word has the bits of the patch accepted for it. -/
def patched (checkRanges : Bool) (image : Image) (demands : List Demand) : Image :=
  { image with words := image.words.mapIdx fun handle word =>
      word ||| fieldAt checkRanges image demands handle }

/-- The writes of a plan succeed, and lead to the image with all accepted patches. -/
theorem Summarizes.writeFields_writes (h : Summarizes checkRanges image demands plan) :
    image.writeFields plan.writes = (.ok (), patched checkRanges image demands) := by
  have hrange : ∀ write ∈ plan.writes, write.1 < image.size :=
    fun write hmem => (h.mem_writes_iff.mp hmem).1
  obtain ⟨hok, heffect⟩ := Image.writeFields_ok hrange (writes_nodup plan)
  have hwords : (image.writeFields plan.writes).2.words =
      (patched checkRanges image demands).words := by
    apply Array.ext_getElem?
    intro handle
    rw [patched, Array.getElem?_mapIdx]
    cases haccepted : accepted checkRanges image demands handle with
    | none =>
        rw [(heffect handle).2]
        · simp [fieldAt, haccepted]
        · intro hmem
          obtain ⟨⟨handle, field⟩, hwrite, rfl⟩ := List.mem_map.mp hmem
          obtain ⟨-, kind, patch, hsome, -⟩ := h.mem_writes_iff.mp hwrite
          rw [haccepted] at hsome
          cases hsome
    | some first =>
        obtain ⟨kind, patch⟩ := first
        by_cases hlt : handle < image.size
        · rw [(heffect handle).1 _ (h.mem_writes_iff.mpr ⟨hlt, kind, patch, haccepted, rfl⟩)]
          simp [fieldAt, haccepted]
        · have hsize := (Image.writeFields_frame plan.writes image).2
          have hold : image.words.size ≤ handle := Nat.le_of_not_lt hlt
          have hnew : (image.writeFields plan.writes).2.words.size ≤ handle :=
            Nat.le_trans (Nat.le_of_eq hsize) hold
          rw [Array.getElem?_eq_none hnew, Array.getElem?_eq_none hold, Option.map_none]
  have hbase := (Image.writeFields_frame plan.writes image).1
  have himage : (image.writeFields plan.writes).2 = patched checkRanges image demands := by
    cases hout : (image.writeFields plan.writes).2
    rw [hout] at hwords hbase
    simp only at hwords hbase
    rw [hwords, hbase]
    rfl
  exact Prod.ext hok himage

end Plan

namespace Draft

/-- Everything that stands in the way of patching a draft, in the order of labels and references. -/
def failures (checkRanges : Bool) (draft : Draft) : List PatchError :=
  Plan.failures checkRanges draft.image draft.symbols.demands

/-- What a successful patching does to a draft. -/
def patched (checkRanges : Bool) (draft : Draft) : Draft :=
  ⟨Plan.patched checkRanges draft.image draft.symbols.demands, draft.symbols.clearFixups⟩

/-- What a successful patching of a draft reports. -/
def report (checkRanges : Bool) (draft : Draft) : PatchReport :=
  ⟨draft.symbols.size, Plan.acceptedCount checkRanges draft.image draft.symbols.demands .jump,
    Plan.acceptedCount checkRanges draft.image draft.symbols.demands .branch⟩

/-- Patching either reports all failures and changes nothing, or applies every accepted patch. -/
theorem patch_eq (checkRanges : Bool) (draft : Draft) :
    draft.patch checkRanges =
      if draft.failures checkRanges = [] then
        (.ok (draft.report checkRanges), draft.patched checkRanges)
      else (.error (draft.failures checkRanges), draft) := by
  obtain ⟨image, symbols⟩ := draft
  have h := Plan.make_summarizes checkRanges image symbols
  unfold patch
  simp only [← Array.isEmpty_toList, h.diagnostics, List.isEmpty_iff, h.writeFields_writes, h.jumps,
    h.branches]
  rfl

section Result

variable {checkRanges : Bool} {draft after : Draft}

/-- A patching that succeeds has found nothing wrong. -/
theorem of_patch_ok {report : PatchReport} (h : draft.patch checkRanges = (.ok report, after)) :
    draft.failures checkRanges = [] ∧ report = draft.report checkRanges ∧
      after = draft.patched checkRanges := by
  rw [patch_eq] at h
  split at h
  · next hnil =>
    obtain ⟨hreport, rfl⟩ := Prod.mk.inj h
    exact ⟨hnil, (Except.ok.inj hreport).symm, rfl⟩
  · cases h

/-- A patching that fails reports what it has found wrong. -/
theorem of_patch_error {diagnostics : Diagnostics}
    (h : draft.patch checkRanges = (.error diagnostics, after)) :
    draft.failures checkRanges ≠ [] ∧ diagnostics = draft.failures checkRanges ∧
      after = draft := by
  rw [patch_eq] at h
  split at h
  · cases h
  · next hnil =>
    obtain ⟨hfailures, rfl⟩ := Prod.mk.inj h
    exact ⟨hnil, (Except.error.inj hfailures).symm, rfl⟩

end Result

end Draft

end Backpatch
