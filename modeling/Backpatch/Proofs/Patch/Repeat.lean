import Backpatch.Proofs.Patch.Outcome
import Backpatch.Proofs.SymbolTable.Record

/-!
# Patching more than once

An image and a table that are used directly can be patched at any time and any number of times. A
field is set by adding its bits to a word, so that to set it twice would not do; but a patching that
succeeds takes the references away, and one that fails leaves everything as it was.

* `Draft.patch_of_drained`: without references there is nothing to patch, in whatever image.
* `Draft.run`: calls on an image and a table, with the log of what they return.
* `Draft.run_kept`: a run comes to the same end, and its other calls return the same, without the
  patchings in it that fail.
-/

namespace Backpatch

/-! ## Nothing to patch -/

namespace SymbolTable

variable (table : SymbolTable)

/-- Without references a table demands nothing. -/
theorem demands_clearFixups : table.clearFixups.demands = [] := by
  unfold demands clearFixups
  rw [List.flatMap_map, List.flatMap_eq_nil_iff]
  intro label _
  unfold Label.demands
  cases label.address with
  | none => rfl
  | some target => rfl

theorem clearFixups_clearFixups : table.clearFixups.clearFixups = table.clearFixups := by
  unfold clearFixups
  rw [List.map_map]
  rfl

theorem size_clearFixups : table.clearFixups.size = table.size :=
  List.length_map _

end SymbolTable

/-- Without demands no bit is set. -/
theorem Plan.patched_nil (checkRanges : Bool) (image : Image) :
    patched checkRanges image [] = image := by
  have hwords : image.words.mapIdx (fun handle word =>
      word ||| fieldAt checkRanges image [] handle) = image.words := by
    rw [Array.mapIdx_eq_iff]
    intro handle
    cases image.words[handle]? with
    | none => rfl
    | some word => exact congrArg some BitVec.or_zero.symm
  unfold patched
  rw [hwords]

namespace Draft

/-- A table without references is patched into any image, and nothing is changed by that. -/
theorem patch_of_drained (checkRanges : Bool) (image : Image) (table : SymbolTable) :
    Draft.patch checkRanges ⟨image, table.clearFixups⟩ =
      (.ok ⟨table.size, 0, 0⟩, ⟨image, table.clearFixups⟩) := by
  have hcount : ∀ kind, Plan.acceptedCount checkRanges image [] kind = 0 := by
    intro kind
    simp [Plan.acceptedCount, Plan.accepted]
  have hnil : Draft.failures checkRanges ⟨image, table.clearFixups⟩ = [] := by
    rw [failures, table.demands_clearFixups]
    rfl
  rw [patch_eq, if_pos hnil, report, patched]
  simp only [table.demands_clearFixups]
  rw [hcount, hcount, Plan.patched_nil, table.clearFixups_clearFixups, table.size_clearFixups]

/-! ## Runs -/

/-- A call on an image and a table that are used directly. -/
inductive Call where
  | append (word : Word)
  | set (handle : Handle) (word : Word)
  | record (call : SymbolTable.Call)
  | patch (checkRanges : Bool)
  deriving DecidableEq, Repr

/-- What a call returns. -/
inductive Outcome where
  | appended (result : Except PatchError Handle)
  | changed (result : Except PatchError Unit)
  | recorded (result : Except PatchError Unit)
  | patched (result : Except Diagnostics PatchReport)
  deriving DecidableEq, Repr

/-- Carries out a call. -/
def Call.perform : Call → Draft → Outcome × Draft
  | .append word, draft => (draft.append word).map .appended id
  | .set handle word, draft => (draft.onImage (Image.set handle word)).map .changed id
  | .record call, draft => (draft.onSymbols call.perform).map .recorded id
  | .patch checkRanges, draft => (draft.patch checkRanges).map .patched id

/-- Calls with what they returned, oldest first. -/
abbrev Log := List (Call × Outcome)

/-- Carries out calls, one after the other, and returns the log with the draft reached. -/
def run (draft : Draft) : List Call → Log × Draft
  | [] => ([], draft)
  | call :: rest =>
    let next := (call.perform draft).2
    ((call, (call.perform draft).1) :: (next.run rest).1, (next.run rest).2)

/-- Whether an entry of a log is a patching that has failed. -/
def isFailedPatch : Call × Outcome → Bool
  | (.patch _, .patched (.error _)) => true
  | _ => false

/-- The entries of a log but for the patchings that have failed. -/
def Log.kept (log : Log) : Log :=
  log.filter (!isFailedPatch ·)

/-- A patching that fails leaves the draft as it is. -/
theorem Call.perform_of_isFailedPatch {call : Call} {draft : Draft}
    (h : isFailedPatch (call, (call.perform draft).1) = true) : (call.perform draft).2 = draft := by
  rcases call with word | ⟨handle, word⟩ | call | checkRanges
  · cases h
  · cases h
  · cases h
  · rcases hpatch : draft.patch checkRanges with ⟨diagnostics | report, after⟩
    · obtain ⟨-, -, rfl⟩ := of_patch_error hpatch
      rw [Call.perform, hpatch]
      rfl
    · rw [Call.perform, hpatch] at h
      cases h

/-- Without its patchings that fail, a run logs its other calls as before and comes to the same
end. -/
theorem run_kept (draft : Draft) (calls : List Call) :
    draft.run ((draft.run calls).1.kept.map Prod.fst) =
      ((draft.run calls).1.kept, (draft.run calls).2) := by
  induction calls generalizing draft with
  | nil => rfl
  | cons call rest ih =>
      have hrest := ih (call.perform draft).2
      rw [run]
      unfold Log.kept at hrest ⊢
      simp only [List.filter_cons]
      by_cases hfailed : isFailedPatch (call, (call.perform draft).1) = true
      · rw [Call.perform_of_isFailedPatch hfailed] at hrest ⊢
        simpa only [hfailed, Bool.not_true, Bool.false_eq_true, if_false] using hrest
      · rw [Bool.not_eq_true] at hfailed
        simp only [hfailed, Bool.not_false, if_true, List.map_cons]
        rw [run, hrest]

/-- Patching a drained table again and again reports its labels each time and changes nothing. -/
theorem run_patch_of_drained (image : Image) (table : SymbolTable) (flags : List Bool) :
    Draft.run ⟨image, table.clearFixups⟩ (flags.map .patch) =
      (flags.map fun flag => (.patch flag, .patched (.ok ⟨table.size, 0, 0⟩)),
        ⟨image, table.clearFixups⟩) := by
  induction flags with
  | nil => rfl
  | cons flag rest ih =>
      have hperform : Call.perform (.patch flag) ⟨image, table.clearFixups⟩ =
          (.patched (.ok ⟨table.size, 0, 0⟩), ⟨image, table.clearFixups⟩) := by
        rw [Call.perform, patch_of_drained]
        rfl
      rw [List.map_cons, run, hperform, ih]
      rfl

end Draft

/-- Patching again is harmless. After a patching that succeeds, any further ones succeed as well,
with checks or without, report as many labels and no jump or branch, and leave image and table as
they are; the table can also be patched into any other image. A patching that fails can be tried
again with the same failures, and calls behind it do what they would do without it. So from a run
with any calls, all patchings that fail can be left out. -/
theorem patch_repeatable (draft : Draft) (checkRanges : Bool) :
    (∀ report after, draft.patch checkRanges = (.ok report, after) →
      (∀ flags : List Bool, after.run (flags.map .patch) =
        (flags.map fun flag => (.patch flag, .patched (.ok ⟨report.labels, 0, 0⟩)), after)) ∧
      ∀ flag image, Draft.patch flag ⟨image, after.symbols⟩ =
        (.ok ⟨report.labels, 0, 0⟩, ⟨image, after.symbols⟩)) ∧
    (∀ diagnostics after, draft.patch checkRanges = (.error diagnostics, after) →
      after.patch checkRanges = (.error diagnostics, after) ∧
      ∀ calls, draft.run (.patch checkRanges :: calls) =
        ((.patch checkRanges, .patched (.error diagnostics)) :: (draft.run calls).1,
          (draft.run calls).2)) ∧
    ∀ calls, draft.run ((draft.run calls).1.kept.map Prod.fst) =
      ((draft.run calls).1.kept, (draft.run calls).2) := by
  refine ⟨?_, ?_, draft.run_kept⟩
  · intro report after h
    obtain ⟨-, rfl, rfl⟩ := Draft.of_patch_ok h
    exact ⟨Draft.run_patch_of_drained _ _, fun flag image => Draft.patch_of_drained flag image _⟩
  · intro diagnostics after h
    obtain ⟨-, -, rfl⟩ := Draft.of_patch_error h
    refine ⟨h, fun calls => ?_⟩
    have hperform : Draft.Call.perform (.patch checkRanges) after =
        (.patched (.error diagnostics), after) := by
      rw [Draft.Call.perform, h]
      rfl
    rw [Draft.run, hperform]

/-- A branch is patched twice; a jump to a label without an address is patched in vain, then the
label is defined and the jump is patched. -/
theorem patch_repeatable_late_label :
    let branch : Draft := ⟨{ words := #[0x10000000] }, ⟨[⟨"loop", some 0, #[⟨0, 0, .branch⟩]⟩]⟩⟩
    let jump : Draft := ⟨{ words := #[0x08000000] }, ⟨[⟨"end", none, #[⟨0, 0, .jump⟩]⟩]⟩⟩
    let patched : Draft := ⟨{ words := #[0x1000FFFF] }, ⟨[⟨"loop", some 0, #[]⟩]⟩⟩
    branch.patch true = (.ok ⟨1, 0, 1⟩, patched) ∧
      patched.run [.patch false, .patch true] =
        ([(.patch false, .patched (.ok ⟨1, 0, 0⟩)), (.patch true, .patched (.ok ⟨1, 0, 0⟩))],
          patched) ∧
      jump.patch true = (.error [.undefinedLabel "end"], jump) ∧
      jump.run [.patch true, .record (.define "end" 4), .patch true] =
        ([(.patch true, .patched (.error [.undefinedLabel "end"])),
          (.record (.define "end" 4), .recorded (.ok ())),
          (.patch true, .patched (.ok ⟨1, 1, 0⟩))],
          ⟨{ words := #[0x08000001] }, ⟨[⟨"end", some 4, #[]⟩]⟩⟩) := by
  intro branch jump patched
  have hok : branch.patch true = (.ok ⟨1, 0, 1⟩, patched) := by decide
  have herror : jump.patch true = (.error [.undefinedLabel "end"], jump) := by decide
  have hrest : jump.run [.record (.define "end" 4), .patch true] =
      ([(.record (.define "end" 4), .recorded (.ok ())), (.patch true, .patched (.ok ⟨1, 1, 0⟩))],
        ⟨{ words := #[0x08000001] }, ⟨[⟨"end", some 4, #[]⟩]⟩⟩) := by decide
  have hagain := ((patch_repeatable branch true).1 _ _ hok).1 [false, true]
  obtain ⟨hsame, hbehind⟩ := (patch_repeatable jump true).2.1 _ _ herror
  refine ⟨hok, hagain, hsame, ?_⟩
  have hrun := hbehind [.record (.define "end" 4), .patch true]
  rw [hrest] at hrun
  exact hrun

end Backpatch
