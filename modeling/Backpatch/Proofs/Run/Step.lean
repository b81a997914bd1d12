import Backpatch.Assembly
import Backpatch.Proofs.Draft
import Backpatch.Proofs.Patch.Outcome
import Backpatch.Proofs.SymbolTable
import Mathlib.Data.List.Induction

/-!
# Runs, call by call

A run is a row of calls on an assembly that has recorded nothing. Each call returns something and
leads to a next state, also when it fails; the calls together with what they returned are the log of
the run.

`Step` lists what a single call can do. Most calls that fail change nothing. The exceptions are a
patching that fails, which ends the recording, and a jump or branch that is appended with a
reference where no word should stand: the word is appended before the symbol table refuses the
reference. Every call does one of the things listed (`Call.step_perform`), so that an invariant of
runs is shown by one case for each of them (`run_induction`).
-/

namespace Backpatch

namespace Assembly

/-! ## Calls and runs -/

/-- A call that may change an assembly, with its arguments. -/
inductive Call where
  | append (word : Word)
  | define (name : String) (address : Address)
  | defineHere (name : String)
  | reference (handle : Handle) (site : Address) (name : String)
  | appendReference (word : Word) (name : String)
  | patch
  deriving DecidableEq, Repr

/-- What a call returns. -/
inductive Outcome where
  /-- The result of appending a word. -/
  | appended (result : Except PatchError Handle)
  /-- The result of recording a label or a reference. -/
  | recorded (result : Except PatchError Unit)
  /-- The result of patching. -/
  | patched (result : Except Diagnostics PatchReport)
  deriving DecidableEq, Repr

/-- Whether a call has failed. -/
def Outcome.failed : Outcome → Bool
  | .appended (.error _) | .recorded (.error _) | .patched (.error _) => true
  | .appended (.ok _) | .recorded (.ok _) | .patched (.ok _) => false

/-- Carries out a call. -/
def Call.perform : Call → Assembly → Outcome × Assembly
  | .append word, assembly => (assembly.append word).map .appended id
  | .define name address, assembly => (assembly.define name address).map .recorded id
  | .defineHere name, assembly => (assembly.defineHere name).map .recorded id
  | .reference handle site name, assembly =>
    (assembly.reference handle site name).map .recorded id
  | .appendReference word name, assembly => (assembly.appendReference word name).map .appended id
  | .patch, assembly => assembly.patch.map .patched id

/-- The calls of a run with what they returned, oldest first. -/
abbrev Log := List (Call × Outcome)

/-- Carries out a call and logs it. -/
def proceed : Log × Assembly → Call → Log × Assembly
  | (log, assembly), call =>
    let (outcome, assembly) := call.perform assembly
    (log ++ [(call, outcome)], assembly)

/-- Carries out calls, one after the other, and returns the log with the state reached. -/
def run (config : Config) (calls : List Call) : Log × Assembly :=
  calls.foldl proceed ([], start config)

/-! ## What a call can do -/

/-- The call gives a label an address, in an image. -/
inductive Call.Defines (image : Image) : Call → String → Address → Prop
  /-- The address is said. -/
  | there (name : String) (address : Address) : Defines image (.define name address) name address
  /-- The address is that of the next word. -/
  | here {name : String} {address : Address} :
      image.nextAddress = .ok address → Defines image (.defineHere name) name address

/-- What a call returns when recording is over. -/
def Call.late : Call → Outcome
  | .append _ | .appendReference _ _ => .appended (.error (.phaseViolation .instruction))
  | .define _ _ | .defineHere _ => .recorded (.error (.phaseViolation .label))
  | .reference _ _ _ => .recorded (.error (.phaseViolation .reference))
  | .patch => .patched (.error [.alreadyPatched])

theorem Call.late_failed (call : Call) : call.late.failed := by
  cases call <;> rfl

/-- A call of an assembly, what it returns and the assembly that it leaves. -/
inductive Step (assembly : Assembly) : Call → Outcome → Assembly → Prop
  /-- Recording is over. -/
  | closed {call : Call} :
      assembly.phase ≠ .collecting → Step assembly call call.late assembly
  /-- A call is refused and changes nothing. -/
  | refused {call : Call} {outcome : Outcome} :
      assembly.phase = .collecting → call ≠ .patch → outcome.failed →
        Step assembly call outcome assembly
  /-- A word is appended. -/
  | appended {word : Word} {site : Address} :
      assembly.phase = .collecting → assembly.image.nextAddress = .ok site →
        Step assembly (.append word) (.appended (.ok assembly.image.size))
          { assembly with draft := ⟨assembly.image.push word, assembly.symbols⟩ }
  /-- A label gets its address, or has it already. -/
  | defined {call : Call} {name : String} {address : Address} {table : SymbolTable} :
      assembly.phase = .collecting → call.Defines assembly.image name address →
        assembly.symbols.define name address = (.ok (), table) →
        Step assembly call (.recorded (.ok ()))
          { assembly with draft := ⟨assembly.image, table⟩ }
  /-- A jump or a branch of the image refers to a label. -/
  | referred {handle : Handle} {site : Address} {name : String} {word : Word} {kind : FixupKind}
      {table : SymbolTable} :
      assembly.phase = .collecting → assembly.image.words[handle]? = some word →
        assembly.image.addressOf handle = .ok site → word.fixupKind? = some kind →
        assembly.symbols.addReference ⟨handle, site, kind⟩ name = (.ok (), table) →
        Step assembly (.reference handle site name) (.recorded (.ok ()))
          { assembly with draft := ⟨assembly.image, table⟩ }
  /-- A jump or a branch is appended and refers to a label. -/
  | appendedReference {word : Word} {name : String} {site : Address} {kind : FixupKind}
      {table : SymbolTable} :
      assembly.phase = .collecting → assembly.image.nextAddress = .ok site →
        word.fixupKind? = some kind →
        assembly.symbols.addReference ⟨assembly.image.size, site, kind⟩ name = (.ok (), table) →
        Step assembly (.appendReference word name) (.appended (.ok assembly.image.size))
          { assembly with draft := ⟨assembly.image.push word, table⟩ }
  /-- A jump or a branch is appended at a place where no word should stand, and its reference is
  refused. -/
  | strayed {word : Word} {name : String} {site : Address} {kind : FixupKind} :
      assembly.phase = .collecting → assembly.image.nextAddress = .ok site →
        word.fixupKind? = some kind → ¬IsAligned site →
        Step assembly (.appendReference word name)
          (.appended (.error (.misalignedAddress name site)))
          { assembly with draft := ⟨assembly.image.push word, assembly.symbols⟩ }
  /-- All references are resolved. -/
  | patched {report : PatchReport} {after : Draft} :
      assembly.phase = .collecting →
        assembly.draft.patch assembly.config.checkRanges = (.ok report, after) →
        Step assembly .patch (.patched (.ok report))
          { assembly with draft := after, phase := .patched }
  /-- Some reference cannot be resolved. -/
  | failed {diagnostics : Diagnostics} :
      assembly.phase = .collecting →
        assembly.draft.patch assembly.config.checkRanges = (.error diagnostics, assembly.draft) →
        Step assembly .patch (.patched (.error diagnostics)) { assembly with phase := .failed }

/-! ## Every call takes a step -/

/-- When recording is over, a call changes nothing. -/
theorem Call.perform_of_closed {assembly : Assembly} (h : assembly.phase ≠ .collecting)
    (call : Call) : call.perform assembly = (call.late, assembly) := by
  obtain ⟨config, draft, phase⟩ := assembly
  rcases phase with _ | _ | _
  · exact absurd rfl h
  · cases call <;> rfl
  · cases call <;> rfl

section Collecting

variable (config : Config) (draft : Draft)

/-- An operation that ends in a definition. -/
theorem step_define {call : Call} {name : String} {address : Address}
    (h : call.Defines draft.image name address) :
    Step ⟨config, draft, .collecting⟩ call (.recorded (draft.define name address).1)
      ⟨config, (draft.define name address).2, .collecting⟩ := by
  have hcall : call ≠ .patch := by
    rintro rfl
    cases h
  have hdefine : draft.define name address =
      ((draft.symbols.define name address).1,
        ⟨draft.image, (draft.symbols.define name address).2⟩) := rfl
  rw [hdefine]
  rcases htable : draft.symbols.define name address with ⟨error | ⟨⟩, table⟩
  · obtain rfl := SymbolTable.of_define_error htable
    exact .refused rfl hcall rfl
  · exact .defined rfl h htable

theorem step_append (word : Word) :
    Step ⟨config, draft, .collecting⟩ (.append word) (.appended (draft.append word).1)
      ⟨config, (draft.append word).2, .collecting⟩ := by
  rcases hnext : draft.image.nextAddress with error | site
  · rw [Draft.append_of_error hnext]
    exact .refused rfl (by rintro ⟨⟩) rfl
  · rw [Draft.append_of_ok hnext]
    exact .appended rfl hnext

theorem step_defineHere (name : String) :
    Step ⟨config, draft, .collecting⟩ (.defineHere name) (.recorded (draft.defineHere name).1)
      ⟨config, (draft.defineHere name).2, .collecting⟩ := by
  rcases hnext : draft.image.nextAddress with error | address
  · rw [Draft.defineHere_of_error hnext]
    exact .refused rfl (by rintro ⟨⟩) rfl
  · rw [Draft.defineHere_of_ok hnext]
    exact step_define config draft (.here hnext)

theorem step_reference (handle : Handle) (site : Address) (name : String) :
    Step ⟨config, draft, .collecting⟩ (.reference handle site name)
      (.recorded (draft.reference handle site name).1)
      ⟨config, (draft.reference handle site name).2, .collecting⟩ := by
  rcases hfixup : draft.fixupAt handle site with error | fixup
  · simp only [Draft.reference, hfixup]
    exact .refused rfl (by rintro ⟨⟩) rfl
  · obtain ⟨word, hword, hsite, hkind, rfl, rfl⟩ := Draft.of_fixupAt_ok hfixup
    simp only [Draft.reference, hfixup, Draft.addReference, Draft.onSymbols]
    rcases htable : draft.symbols.addReference fixup name with ⟨error | ⟨⟩, table⟩
    · obtain ⟨-, -, rfl⟩ := SymbolTable.of_addReference_error htable
      exact .refused rfl (by rintro ⟨⟩) rfl
    · exact .referred rfl hword hsite hkind htable

theorem step_appendReference (word : Word) (name : String) :
    Step ⟨config, draft, .collecting⟩ (.appendReference word name)
      (.appended (draft.appendReference word name).1)
      ⟨config, (draft.appendReference word name).2, .collecting⟩ := by
  rcases hnext : draft.image.nextAddress with error | site
  · rw [Draft.appendReference_of_error hnext]
    exact .refused rfl (by rintro ⟨⟩) rfl
  · rcases hkind : word.fixupKind? with _ | kind
    · rw [Draft.appendReference_of_none hnext hkind]
      exact .refused rfl (by rintro ⟨⟩) rfl
    · rcases htable : draft.symbols.addReference ⟨draft.image.size, site, kind⟩ name with
        ⟨error | ⟨⟩, table⟩
      · rw [Draft.appendReference_of_refused hnext hkind htable]
        obtain ⟨hsite, rfl, rfl⟩ := SymbolTable.of_addReference_error htable
        exact .strayed rfl hnext hkind hsite
      · rw [Draft.appendReference_of_ok hnext hkind htable]
        exact .appendedReference rfl hnext hkind htable

theorem step_patch :
    Step ⟨config, draft, .collecting⟩ .patch
      (.patched (patch ⟨config, draft, .collecting⟩).1) (patch ⟨config, draft, .collecting⟩).2 := by
  rcases hpatch : draft.patch config.checkRanges with ⟨diagnostics | report, after⟩
  · obtain ⟨-, -, rfl⟩ := Draft.of_patch_error hpatch
    simp only [patch, hpatch]
    exact .failed rfl hpatch
  · simp only [patch, hpatch]
    exact .patched rfl hpatch

end Collecting

/-- Every call takes a step, whatever the assembly. -/
theorem Call.step_perform (call : Call) (assembly : Assembly) :
    Step assembly call (call.perform assembly).1 (call.perform assembly).2 := by
  by_cases hphase : assembly.phase = .collecting
  · obtain ⟨config, draft, phase⟩ := assembly
    obtain rfl : phase = .collecting := hphase
    cases call with
    | append word => exact step_append config draft word
    | define name address => exact step_define config draft (.there name address)
    | defineHere name => exact step_defineHere config draft name
    | reference handle site name => exact step_reference config draft handle site name
    | appendReference word name => exact step_appendReference config draft word name
    | patch => exact step_patch config draft
  · rw [call.perform_of_closed hphase]
    exact .closed hphase

/-- No step changes the settings. -/
theorem Step.config_eq {assembly after : Assembly} {call : Call} {outcome : Outcome}
    (h : Step assembly call outcome after) : after.config = assembly.config := by
  cases h <;> rfl

/-! ## Runs -/

/-- The last call of a run is a step from the state that the calls before it lead to. -/
theorem run_concat (config : Config) (calls : List Call) (call : Call) :
    run config (calls ++ [call]) = proceed (run config calls) call := by
  unfold run
  rw [List.foldl_append, List.foldl_cons, List.foldl_nil]

/-- What holds before the first call and is kept by every step holds after any run. -/
theorem run_induction {config : Config} {motive : Log → Assembly → Prop}
    (start : motive [] (start config))
    (step : ∀ {log assembly call outcome after}, motive log assembly →
      Step assembly call outcome after → motive (log ++ [(call, outcome)]) after)
    (calls : List Call) : motive (run config calls).1 (run config calls).2 := by
  induction calls using List.reverseRec with
  | nil => exact start
  | append_singleton calls call ih =>
      rw [run_concat]
      exact step ih (call.step_perform _)

end Assembly

end Backpatch
