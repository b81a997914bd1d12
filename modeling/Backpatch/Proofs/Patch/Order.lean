import Backpatch.Proofs.Patch.Faults
import Backpatch.Proofs.SymbolTable.Record

/-!
# The order of recording does not matter

Definitions and references may be recorded in any order and any number of times. A table keeps both:
the order of labels and references, and each reference as often as it was recorded. Patching visits
them in that order, lets the first patch of an instruction win, and still comes to the same end.

What the table of a record demands is a matter of the set of its calls
(`Record.mem_demands_congr`), and what a plan does with demands is a matter of their set as well
(`Plan.mem_failures_congr`, `Plan.fieldAt_congr`, `Plan.acceptedCount_congr`). Which of two
references is in conflict with the other depends on the order, and how often a conflict is reported
too; the other failures are reported once for each demand, so that another order only permutes them.
-/

namespace Backpatch

section Demands

variable {checkRanges : Bool} {image : Image} {table table' : SymbolTable}
  (h : ∀ demand, demand ∈ table.demands ↔ demand ∈ table'.demands)
include h

/-- Tables with the same demands can be patched together or not at all. -/
theorem Draft.failures_eq_nil_congr :
    Draft.failures checkRanges ⟨image, table⟩ = [] ↔
      Draft.failures checkRanges ⟨image, table'⟩ = [] := by
  simp only [List.eq_nil_iff_forall_not_mem, Draft.failures, Plan.mem_failures_congr h]

/-- Tables with the same demands are patched into the same image. -/
theorem Plan.patched_congr (hnil : Draft.failures checkRanges ⟨image, table⟩ = []) :
    Plan.patched checkRanges image table.demands =
      Plan.patched checkRanges image table'.demands := by
  unfold Plan.patched
  simp only [Plan.fieldAt_congr h hnil]

end Demands

/-- Two sequences of definitions and references that succeed and consist of the same calls lead to
tables that are patched alike: both into the same words, with as many labels and references
reported, or neither, with the same failures. If one sequence only permutes the other, each failure
that is no conflict is also reported as often. -/
theorem patch_order_irrelevant {calls calls' : List SymbolTable.Call} {table table' : SymbolTable}
    (h : SymbolTable.recordAll {} calls = .ok table)
    (h' : SymbolTable.recordAll {} calls' = .ok table')
    (hsame : ∀ call, call ∈ calls ↔ call ∈ calls') (image : Image) (checkRanges : Bool) :
    (∃ report report' patched,
        Draft.patch checkRanges ⟨image, table⟩ = (.ok report, ⟨patched, table.clearFixups⟩) ∧
          Draft.patch checkRanges ⟨image, table'⟩ = (.ok report', ⟨patched, table'.clearFixups⟩) ∧
          report.labels = report'.labels ∧ report.references = report'.references) ∨
      ∃ diagnostics diagnostics',
        Draft.patch checkRanges ⟨image, table⟩ = (.error diagnostics, ⟨image, table⟩) ∧
          Draft.patch checkRanges ⟨image, table'⟩ = (.error diagnostics', ⟨image, table'⟩) ∧
          (∀ error, error ∈ diagnostics ↔ error ∈ diagnostics') ∧
          (calls.Perm calls' →
            (diagnostics.filter (!·.isConflict)).Perm (diagnostics'.filter (!·.isConflict))) := by
  obtain ⟨rfl, hagrees⟩ := Record.of_recordAll h
  obtain ⟨rfl, hagrees'⟩ := Record.of_recordAll h'
  have hdemands := Record.mem_demands_congr hagrees hagrees' hsame
  rw [Draft.patch_eq, Draft.patch_eq]
  by_cases hnil : Draft.failures checkRanges ⟨image, Record.table calls⟩ = []
  · rw [if_pos hnil, if_pos ((Draft.failures_eq_nil_congr hdemands).mp hnil)]
    refine Or.inl ⟨Draft.report checkRanges ⟨image, Record.table calls⟩,
      Draft.report checkRanges ⟨image, Record.table calls'⟩,
      Plan.patched checkRanges image (Record.table calls).demands, rfl, ?_, ?_, ?_⟩
    · rw [Plan.patched_congr hdemands hnil]
      rfl
    · show (Record.table calls).size = (Record.table calls').size
      simp [SymbolTable.size, Record.table, (Record.perm_names hsame).length_eq]
    · exact Plan.acceptedCount_congr hdemands
  · rw [if_neg hnil, if_neg fun hnil' => hnil ((Draft.failures_eq_nil_congr hdemands).mpr hnil')]
    refine Or.inr ⟨_, _, rfl, rfl, ?_, ?_⟩
    · intro error
      exact Plan.mem_failures_congr hdemands error
    · intro hperm
      unfold Draft.failures
      rw [Plan.filter_failures, Plan.filter_failures]
      exact (Record.perm_demands hagrees hagrees' hperm).filterMap _

/-- Two labels for one jump and a label that is missing, recorded forwards and backwards. -/
theorem patch_order_irrelevant_reverse :
    let calls : List SymbolTable.Call :=
      [.define "a" 0, .define "b" 4, .refer ⟨0, 0, .jump⟩ "a", .refer ⟨0, 0, .jump⟩ "b",
        .refer ⟨1, 4, .branch⟩ "c"]
    let image : Image := { words := #[0x08000000, 0x10000000] }
    ∃ table table', SymbolTable.recordAll {} calls = .ok table ∧
      SymbolTable.recordAll {} calls.reverse = .ok table' ∧
      table.names = ["a", "b", "c"] ∧ table'.names = ["c", "b", "a"] ∧
      ∃ diagnostics diagnostics',
        Draft.patch true ⟨image, table⟩ = (.error diagnostics, ⟨image, table⟩) ∧
          Draft.patch true ⟨image, table'⟩ = (.error diagnostics', ⟨image, table'⟩) ∧
          (∀ error, error ∈ diagnostics ↔ error ∈ diagnostics') ∧
          (diagnostics.filter (!·.isConflict)).Perm (diagnostics'.filter (!·.isConflict)) := by
  intro calls image
  have hsame : ∀ call, call ∈ calls ↔ call ∈ calls.reverse := fun call => List.mem_reverse.symm
  have h : SymbolTable.recordAll {} calls = .ok (Record.table calls) := rfl
  have h' : SymbolTable.recordAll {} calls.reverse = .ok (Record.table calls.reverse) := rfl
  refine ⟨_, _, h, h', rfl, rfl, ?_⟩
  have hfails : (Draft.patch true ⟨image, Record.table calls⟩).1 =
      .error [.conflictingReference 0, .undefinedLabel "c"] := by decide
  rcases patch_order_irrelevant h h' hsame image true with
    ⟨report, report', patched, hok, -⟩ | ⟨diagnostics, diagnostics', hpatch, hpatch', hmem, hperm⟩
  · rw [hok] at hfails
    cases hfails
  · exact ⟨diagnostics, diagnostics', hpatch, hpatch', hmem, hperm calls.reverse_perm.symm⟩

end Backpatch
