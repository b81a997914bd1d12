import Backpatch.Patch.Plan
import Backpatch.Proofs.Image
import Mathlib.Data.Finset.Card
import Mathlib.Data.Finset.Range

/-!
# What a plan holds

A plan is made by visiting demands one after another, and what a visit does depends on the slots
filled before. Here the outcome is described without the order of events.

* `accepted` is the patch of an instruction: the one asked for by the first demand that is in order.
* `failures` lists one failure at most for each demand, told from the demand and from `accepted`.
  A demand in order can only conflict with the patch accepted for its instruction.
* `make_summarizes`: the plan for a table has exactly these patches, failures and counts.

The induction is on the demands visited, newest last. What carries it is that a patch once accepted
stays (`accepted_concat`), so that a later demand changes no earlier verdict.
-/

namespace Backpatch

variable (checkRanges : Bool) (image : Image)

/-- The patch that a demand asks for at an instruction, with the kind of the reference; none if the
demand is about another instruction or is out of order. -/
def Demand.patchAt? (handle : Handle) : Demand → Option (FixupKind × Patch)
  | .missing _ => none
  | .fixup name target reference =>
    if reference.handle = handle then
      match reference.patch checkRanges image name target with
      | .ok patch => some (reference.kind, patch)
      | .error _ => none
    else none

/-- What a demand is refused for, when `first` tells the patch of each instruction. -/
def Demand.failure? (first : Handle → Option (FixupKind × Patch)) : Demand → Option PatchError
  | .missing name => some (.undefinedLabel name)
  | .fixup name target reference =>
    match reference.patch checkRanges image name target with
    | .error error => some error
    | .ok patch =>
      if (first reference.handle).map Prod.snd = some patch then none
      else some (.conflictingReference reference.site)

namespace Plan

/-- The patch of an instruction: the first one asked for that is in order. -/
def accepted (demands : List Demand) (handle : Handle) : Option (FixupKind × Patch) :=
  demands.findSome? (Demand.patchAt? checkRanges image handle)

/-- What the demands are refused for, in their order. -/
def failures (demands : List Demand) : List PatchError :=
  demands.filterMap (Demand.failure? checkRanges image (accepted checkRanges image demands))

/-- The number of instructions whose patch comes from a reference of a kind. -/
def acceptedCount (demands : List Demand) (kind : FixupKind) : Nat :=
  ((Finset.range image.size).filter fun handle =>
    (accepted checkRanges image demands handle).map Prod.fst = some kind).card

/-- The plan is the outcome of visiting the demands `seen`. -/
structure Summarizes (seen : List Demand) (plan : Plan) : Prop where
  size : plan.slots.size = image.size
  slot : ∀ handle < image.size,
    plan.slots[handle]? = some ((accepted checkRanges image seen handle).map Prod.snd)
  diagnostics : plan.diagnostics.toList = failures checkRanges image seen
  jumps : plan.jumps = acceptedCount checkRanges image seen .jump
  branches : plan.branches = acceptedCount checkRanges image seen .branch

end Plan

variable {checkRanges : Bool} {image : Image}

/-! ## One more demand -/

/-- A reference that passes its own checks is one of the image's instructions. -/
theorem Fixup.lt_size_of_patch {fixup : Fixup} {name : String} {target : Address} {patch : Patch}
    (h : fixup.patch checkRanges image name target = .ok patch) : fixup.handle < image.size := by
  unfold Fixup.patch at h
  cases hactual : image.addressOf fixup.handle with
  | error error =>
      rw [hactual] at h
      cases h
  | ok actual => exact Image.lt_size_of_addressOf hactual

namespace Demand

theorem patchAt?_eq_some_iff {demand : Demand} {handle : Handle} {kind : FixupKind}
    {patch : Patch} :
    demand.patchAt? checkRanges image handle = some (kind, patch) ↔
      ∃ name target fixup, demand = .fixup name target fixup ∧ fixup.handle = handle ∧
        fixup.kind = kind ∧ fixup.patch checkRanges image name target = .ok patch := by
  cases demand with
  | missing name => simp [patchAt?]
  | fixup name target fixup =>
      by_cases hhandle : fixup.handle = handle
      · cases hpatch : fixup.patch checkRanges image name target with
        | error error => simp [patchAt?, hhandle, hpatch]
        | ok patch' => simp [patchAt?, hhandle, hpatch]
      · simp [patchAt?, hhandle]

theorem failure?_of_error {name : String} {target : Address} {fixup : Fixup} {error : PatchError}
    (h : fixup.patch checkRanges image name target = .error error)
    (first : Handle → Option (FixupKind × Patch)) :
    (Demand.fixup name target fixup).failure? checkRanges image first = some error := by
  simp only [failure?, h]

theorem failure?_of_ok {name : String} {target : Address} {fixup : Fixup} {patch : Patch}
    (h : fixup.patch checkRanges image name target = .ok patch)
    (first : Handle → Option (FixupKind × Patch)) :
    (Demand.fixup name target fixup).failure? checkRanges image first =
      if (first fixup.handle).map Prod.snd = some patch then none
      else some (.conflictingReference fixup.site) := by
  simp only [failure?, h]

end Demand

namespace Plan

/-- A demand that comes last is accepted only where no patch is. -/
theorem accepted_concat (seen : List Demand) (demand : Demand) (handle : Handle) :
    accepted checkRanges image (seen ++ [demand]) handle =
      (accepted checkRanges image seen handle).or
        (demand.patchAt? checkRanges image handle) := by
  simp [accepted, List.findSome?_append]

/-- An instruction has a patch as soon as one demand about it is in order. -/
theorem exists_accepted_of_mem {demands : List Demand} {name : String} {target : Address}
    {fixup : Fixup} {patch : Patch} (hmem : .fixup name target fixup ∈ demands)
    (hpatch : fixup.patch checkRanges image name target = .ok patch) :
    ∃ first, accepted checkRanges image demands fixup.handle = some first := by
  rw [← Option.isSome_iff_exists, accepted, List.findSome?_isSome_iff]
  have hat := Demand.patchAt?_eq_some_iff.mpr ⟨name, target, fixup, rfl, rfl, rfl, hpatch⟩
  exact ⟨_, hmem, by rw [hat]; rfl⟩

/-- A patch that is accepted comes from one of the demands. -/
theorem mem_of_accepted {demands : List Demand} {handle : Handle} {kind : FixupKind}
    {patch : Patch} (h : accepted checkRanges image demands handle = some (kind, patch)) :
    ∃ name target fixup, .fixup name target fixup ∈ demands ∧ fixup.handle = handle ∧
      fixup.kind = kind ∧ fixup.patch checkRanges image name target = .ok patch := by
  obtain ⟨demand, hmem, hat⟩ := List.exists_of_findSome?_eq_some h
  obtain ⟨name, target, fixup, rfl, hfixup⟩ := Demand.patchAt?_eq_some_iff.mp hat
  exact ⟨name, target, fixup, hmem, hfixup⟩

/-- A later demand does not change what an earlier one is refused for. -/
theorem failure?_concat {seen : List Demand} {demand : Demand} (hmem : demand ∈ seen)
    (last : Demand) :
    demand.failure? checkRanges image (accepted checkRanges image (seen ++ [last])) =
      demand.failure? checkRanges image (accepted checkRanges image seen) := by
  cases demand with
  | missing name => rfl
  | fixup name target fixup =>
      cases hpatch : fixup.patch checkRanges image name target with
      | error error => rw [Demand.failure?_of_error hpatch, Demand.failure?_of_error hpatch]
      | ok patch =>
          obtain ⟨first, hfirst⟩ := exists_accepted_of_mem hmem hpatch
          rw [Demand.failure?_of_ok hpatch, Demand.failure?_of_ok hpatch, accepted_concat, hfirst,
            Option.some_or]

theorem failures_concat (seen : List Demand) (last : Demand) :
    failures checkRanges image (seen ++ [last]) =
      failures checkRanges image seen ++
        (last.failure? checkRanges image
          (accepted checkRanges image (seen ++ [last]))).toList := by
  have hseen : seen.filterMap (Demand.failure? checkRanges image
      (accepted checkRanges image (seen ++ [last]))) = failures checkRanges image seen :=
    List.filterMap_congr fun demand hmem => failure?_concat hmem last
  rw [failures, List.filterMap_append, hseen]
  rfl

/-- A demand that asks for no patch leaves all patches as they are. -/
theorem accepted_concat_of_none (seen : List Demand) {last : Demand}
    (hlast : ∀ handle, last.patchAt? checkRanges image handle = none) :
    accepted checkRanges image (seen ++ [last]) = accepted checkRanges image seen := by
  funext handle
  rw [accepted_concat, hlast, Option.or_none]

/-- A demand that is in order is accepted if its instruction has no patch yet. -/
theorem accepted_concat_fixup {name : String} {target : Address} {fixup : Fixup} {patch : Patch}
    (hpatch : fixup.patch checkRanges image name target = .ok patch) (seen : List Demand)
    (handle : Handle) :
    accepted checkRanges image (seen ++ [.fixup name target fixup]) handle =
      if handle = fixup.handle then
        (accepted checkRanges image seen handle).or (some (fixup.kind, patch))
      else accepted checkRanges image seen handle := by
  rw [accepted_concat]
  by_cases h : handle = fixup.handle
  · rw [if_pos h,
      Demand.patchAt?_eq_some_iff.mpr ⟨name, target, fixup, rfl, h.symm, rfl, hpatch⟩]
  · rw [if_neg h]
    simp [Demand.patchAt?, Ne.symm h]

/-! ## One more visit -/

/-- A failure is noted and changes nothing else. -/
theorem Summarizes.report {seen : List Demand} {plan : Plan} {last : Demand} {error : PatchError}
    (h : Summarizes checkRanges image seen plan)
    (haccepted : accepted checkRanges image (seen ++ [last]) = accepted checkRanges image seen)
    (hfailure : last.failure? checkRanges image (accepted checkRanges image seen) = some error) :
    Summarizes checkRanges image (seen ++ [last]) (plan.report error) where
  size := h.size
  slot := by
    rw [haccepted]
    exact h.slot
  diagnostics := by
    rw [failures_concat, haccepted, hfailure, ← h.diagnostics]
    simp [Plan.report]
  jumps := by
    unfold acceptedCount
    rw [haccepted]
    exact h.jumps
  branches := by
    unfold acceptedCount
    rw [haccepted]
    exact h.branches

/-- A patch that is asked for again leaves everything as it is. -/
theorem Summarizes.again {seen : List Demand} {plan : Plan} {last : Demand}
    (h : Summarizes checkRanges image seen plan)
    (haccepted : accepted checkRanges image (seen ++ [last]) = accepted checkRanges image seen)
    (hfailure : last.failure? checkRanges image (accepted checkRanges image seen) = none) :
    Summarizes checkRanges image (seen ++ [last]) plan where
  size := h.size
  slot := by
    rw [haccepted]
    exact h.slot
  diagnostics := by
    rw [failures_concat, haccepted, hfailure, h.diagnostics]
    simp
  jumps := by
    unfold acceptedCount
    rw [haccepted]
    exact h.jumps
  branches := by
    unfold acceptedCount
    rw [haccepted]
    exact h.branches

/-- The first patch of an instruction counts for the kind of its reference. -/
theorem acceptedCount_concat {seen : List Demand} {name : String} {target : Address}
    {fixup : Fixup} {patch : Patch}
    (hpatch : fixup.patch checkRanges image name target = .ok patch)
    (hfree : accepted checkRanges image seen fixup.handle = none) (kind : FixupKind) :
    acceptedCount checkRanges image (seen ++ [.fixup name target fixup]) kind =
      acceptedCount checkRanges image seen kind + if fixup.kind = kind then 1 else 0 := by
  have hlt : fixup.handle < image.size := Fixup.lt_size_of_patch hpatch
  unfold acceptedCount
  by_cases hkind : fixup.kind = kind
  · rw [if_pos hkind, ← Finset.card_insert_of_notMem (a := fixup.handle)]
    · congr 1
      ext handle
      by_cases hhandle : handle = fixup.handle
      · subst hhandle
        simp [accepted_concat_fixup hpatch, hfree, hkind, hlt]
      · simp [accepted_concat_fixup hpatch, hhandle]
    · simp [hfree]
  · rw [if_neg hkind, Nat.add_zero]
    congr 1
    ext handle
    by_cases hhandle : handle = fixup.handle
    · subst hhandle
      simp [accepted_concat_fixup hpatch, hfree, hkind]
    · simp [accepted_concat_fixup hpatch, hhandle]

/-- The first patch of an instruction is accepted. -/
theorem Summarizes.accept {seen : List Demand} {plan : Plan} {name : String} {target : Address}
    {fixup : Fixup} {patch : Patch} (h : Summarizes checkRanges image seen plan)
    (hpatch : fixup.patch checkRanges image name target = .ok patch)
    (hfree : accepted checkRanges image seen fixup.handle = none) :
    Summarizes checkRanges image (seen ++ [.fixup name target fixup])
      (plan.accept fixup patch) where
  size := by
    simpa [Plan.accept] using h.size
  slot := by
    intro handle hlt
    rw [accepted_concat_fixup hpatch]
    by_cases hhandle : handle = fixup.handle
    · subst hhandle
      simp [Plan.accept, hfree, h.size, hlt]
    · simp [Plan.accept, hhandle, Ne.symm hhandle, h.slot handle hlt]
  diagnostics := by
    rw [failures_concat, Demand.failure?_of_ok hpatch, accepted_concat_fixup hpatch, hfree]
    simpa [Plan.accept] using h.diagnostics
  jumps := by
    rw [acceptedCount_concat hpatch hfree, ← h.jumps]
    rfl
  branches := by
    rw [acceptedCount_concat hpatch hfree, ← h.branches]
    rfl

/-- The plan for an image before any visit summarizes no demand. -/
theorem summarizes_start : Summarizes checkRanges image [] (start image) where
  size := by simp [start]
  slot := by
    intro handle hlt
    simp [start, accepted, hlt]
  diagnostics := rfl
  jumps := by simp [start, acceptedCount, accepted]
  branches := by simp [start, acceptedCount, accepted]

/-- Bringing a patch together with the one its instruction has already adds the demand for it. -/
theorem Summarizes.settle {seen : List Demand} {plan : Plan} {name : String} {target : Address}
    {fixup : Fixup} {patch : Patch} (h : Summarizes checkRanges image seen plan)
    (hpatch : fixup.patch checkRanges image name target = .ok patch) :
    Summarizes checkRanges image (seen ++ [.fixup name target fixup])
      (plan.settle fixup patch) := by
  have hslot := h.slot fixup.handle (Fixup.lt_size_of_patch hpatch)
  have hfailure := Demand.failure?_of_ok hpatch (accepted checkRanges image seen)
  unfold Plan.settle
  rw [hslot, Option.join_some]
  cases hfirst : accepted checkRanges image seen fixup.handle with
  | none => exact h.accept hpatch hfirst
  | some first =>
      have haccepted : accepted checkRanges image (seen ++ [.fixup name target fixup]) =
          accepted checkRanges image seen := by
        funext handle
        rw [accepted_concat_fixup hpatch]
        split
        · next hhandle => rw [hhandle, hfirst, Option.some_or]
        · rfl
      rw [hfirst, Option.map_some] at hfailure
      rw [Option.map_some]
      by_cases hsame : first.2 = patch
      · rw [if_pos (congrArg some hsame)] at hfailure
        simpa only [if_pos hsame] using h.again haccepted hfailure
      · rw [if_neg (fun heq => hsame (Option.some.inj heq))] at hfailure
        simpa only [if_neg hsame] using h.report haccepted hfailure

/-- A visit adds the demand that is visited. -/
theorem Summarizes.visit {seen : List Demand} {plan : Plan}
    (h : Summarizes checkRanges image seen plan) (demand : Demand) :
    Summarizes checkRanges image (seen ++ [demand]) (plan.visit checkRanges image demand) := by
  cases demand with
  | missing name =>
      have hlast : ∀ handle, (Demand.missing name).patchAt? checkRanges image handle = none :=
        fun _ => rfl
      exact h.report (accepted_concat_of_none seen hlast) rfl
  | fixup name target fixup =>
      cases hpatch : fixup.patch checkRanges image name target with
      | error error =>
          have hlast : ∀ handle,
              (Demand.fixup name target fixup).patchAt? checkRanges image handle = none := by
            intro handle
            simp [Demand.patchAt?, hpatch]
          simpa only [Plan.visit, hpatch] using
            h.report (accepted_concat_of_none seen hlast) (Demand.failure?_of_error hpatch _)
      | ok patch => simpa only [Plan.visit, hpatch] using h.settle hpatch

/-- The plan for a table holds the patches, the failures and the counts of its demands. -/
theorem make_summarizes (checkRanges : Bool) (image : Image) (table : SymbolTable) :
    Summarizes checkRanges image table.demands (make checkRanges image table) := by
  suffices h : ∀ rest seen plan, Summarizes checkRanges image seen plan →
      Summarizes checkRanges image (seen ++ rest)
        (rest.foldl (Plan.visit checkRanges image) plan) from
    h table.demands [] (start image) summarizes_start
  intro rest
  induction rest with
  | nil =>
      intro seen plan h
      simpa using h
  | cons demand rest ih =>
      intro seen plan h
      simpa using ih (seen ++ [demand]) _ (h.visit demand)

end Plan

end Backpatch
