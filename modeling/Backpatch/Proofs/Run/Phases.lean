import Backpatch.Proofs.Run.Step

/-!
# The two phases of a run

A run is asked things: the calls that may change the assembly, and the requests that only read it.
`Turn` is one request with its answer and the states before and after it, and a history is the row
of turns so far.

* `Stage` ties the phase of an assembly to its history: it collects as long as patching was not
  called, it is patched exactly if a patching has succeeded, and the first patching has left it as
  it is now. One more turn keeps this (`Stage.turn`).
* `TwoPhases` is what follows for the history as a whole and for the final words. It holds after any
  requests (`twoPhases_of_requests`).
-/

namespace Backpatch

namespace Assembly

/-! ## Requests and turns -/

/-- Whatever an assembly can be asked, with the arguments. -/
inductive Request where
  /-- A call that may change the assembly. -/
  | call (call : Call)
  | finalWords
  | finalBytes
  | listing
  | currentAddress
  deriving DecidableEq, Repr

/-- What a request is answered. -/
inductive Answer where
  /-- What a call returns. -/
  | returned (outcome : Outcome)
  | words (result : Except PatchError (List Word))
  | bytes (result : Except PatchError (List UInt8))
  | lines (lines : List String)
  | address (result : Except PatchError Address)
  deriving DecidableEq, Repr

/-- Answers a request. Only a call leads to another state. -/
def Request.serve : Request → Assembly → Answer × Assembly
  | .call made, assembly => (made.perform assembly).map .returned id
  | .finalWords, assembly => (.words assembly.finalWords, assembly)
  | .finalBytes, assembly => (.bytes assembly.finalBytes, assembly)
  | .listing, assembly => (.lines assembly.listing, assembly)
  | .currentAddress, assembly => (.address assembly.currentAddress, assembly)

/-- A request with the state it meets, its answer and the state it leaves. -/
structure Turn where
  before : Assembly
  request : Request
  answer : Answer
  after : Assembly

/-- The turn of a request. -/
def Request.turn (request : Request) (assembly : Assembly) : Turn where
  before := assembly
  request
  answer := (request.serve assembly).1
  after := (request.serve assembly).2

namespace Turn

/-- Patching is called. -/
def Patches (turn : Turn) : Prop :=
  turn.request = .call .patch

/-- Patching is called and succeeds. -/
def Succeeds (turn : Turn) : Prop :=
  turn.Patches ∧ ∃ report, turn.answer = .returned (.patched (.ok report))

/-- The request changes nothing, and a call is refused because recording is over. -/
structure Late (turn : Turn) : Prop where
  unchanged : turn.after = turn.before
  refused : ∀ call, turn.request = .call call → turn.answer = .returned call.late

/-- A patching that fails leaves words and labels as they are, and one that succeeds has resolved
every reference. -/
structure AllOrNothing (turn : Turn) : Prop where
  failed : turn.Patches → ¬turn.Succeeds → turn.after.draft = turn.before.draft
  succeeded : turn.Succeeds →
    turn.before.draft.failures turn.before.config.checkRanges = [] ∧
      turn.after.draft = turn.before.draft.patched turn.before.config.checkRanges

end Turn

/-- Serves a request and adds its turn to the history. -/
def attend : List Turn × Assembly → Request → List Turn × Assembly
  | (history, assembly), request =>
    (history ++ [request.turn assembly], (request.serve assembly).2)

/-- Serves requests, one after the other, and returns the history with the state reached. -/
def serveAll (config : Config) (requests : List Request) : List Turn × Assembly :=
  requests.foldl attend ([], start config)

theorem serveAll_concat (config : Config) (requests : List Request) (request : Request) :
    serveAll config (requests ++ [request]) = attend (serveAll config requests) request := by
  unfold serveAll
  rw [List.foldl_append, List.foldl_cons, List.foldl_nil]

/-- What holds before the first request and is kept by every turn holds after any requests. -/
theorem serveAll_induction {config : Config} {motive : List Turn → Assembly → Prop}
    (start : motive [] (start config))
    (turn : ∀ {history assembly}, motive history assembly → ∀ request : Request,
      motive (history ++ [request.turn assembly]) (request.serve assembly).2)
    (requests : List Request) :
    motive (serveAll config requests).1 (serveAll config requests).2 := by
  induction requests using List.reverseRec with
  | nil => exact start
  | append_singleton requests request ih =>
      rw [serveAll_concat]
      exact turn ih request

/-! ## One turn -/

section Turn

variable {assembly : Assembly}

/-- While an assembly collects, patching alone ends the recording. -/
theorem Step.phase_eq {call : Call} {outcome : Outcome} {after : Assembly}
    (h : Step assembly call outcome after) (hphase : assembly.phase = .collecting)
    (hcall : call ≠ .patch) : after.phase = .collecting := by
  cases h with
  | closed hclosed => exact absurd hphase hclosed
  | refused | appended | defined | referred | appendedReference | strayed => exact hphase
  | patched | failed => exact absurd rfl hcall

theorem Request.phase_serve (hphase : assembly.phase = .collecting) {request : Request}
    (hrequest : request ≠ .call .patch) :
    (request.serve assembly).2.phase = .collecting := by
  cases request with
  | call made =>
      have hmade : made ≠ .patch := fun heq => hrequest (congrArg Request.call heq)
      exact (made.step_perform assembly).phase_eq hphase hmade
  | finalWords | finalBytes | listing | currentAddress => exact hphase

/-- When recording is over, every request comes late. -/
theorem Request.late_turn (hphase : assembly.phase ≠ .collecting) (request : Request) :
    (request.turn assembly).Late := by
  cases request with
  | call made =>
      have hserve : Request.serve (.call made) assembly = (.returned made.late, assembly) := by
        simp only [serve, made.perform_of_closed hphase]
        rfl
      refine ⟨congrArg Prod.snd hserve, ?_⟩
      rintro _ ⟨⟩
      exact congrArg Prod.fst hserve
  | finalWords | finalBytes | listing | currentAddress => exact ⟨rfl, nofun⟩

/-- No patching succeeds late. -/
theorem Turn.Late.not_succeeds {turn : Turn} (h : turn.Late) : ¬turn.Succeeds := by
  rintro ⟨hpatches, report, hanswer⟩
  rw [h.refused _ hpatches] at hanswer
  cases hanswer

/-- While an assembly collects, patching succeeds or fails, and its phase tells which. -/
theorem Request.patch_cases (hphase : assembly.phase = .collecting) :
    let turn := Request.turn (.call .patch) assembly
    turn.Succeeds ∧ turn.after.phase = .patched ∧
        assembly.draft.failures assembly.config.checkRanges = [] ∧
        turn.after.draft = assembly.draft.patched assembly.config.checkRanges ∨
      ¬turn.Succeeds ∧ turn.after.phase = .failed ∧ turn.after.draft = assembly.draft := by
  obtain ⟨config, draft, phase⟩ := assembly
  obtain rfl : phase = .collecting := hphase
  rcases hpatch : draft.patch config.checkRanges with ⟨diagnostics | report, after⟩
  · obtain ⟨-, -, rfl⟩ := Draft.of_patch_error hpatch
    have hserve : Request.serve (.call .patch) ⟨config, after, .collecting⟩ =
        (.returned (.patched (.error diagnostics)), ⟨config, after, .failed⟩) := by
      simp only [Request.serve, Call.perform, patch, hpatch]
      rfl
    right
    simp only [Turn.Succeeds, Turn.Patches, Request.turn, hserve]
    refine ⟨?_, trivial, trivial⟩
    rintro ⟨-, report, ⟨⟩⟩
  · have hserve : Request.serve (.call .patch) ⟨config, draft, .collecting⟩ =
        (.returned (.patched (.ok report)), ⟨config, after, .patched⟩) := by
      simp only [Request.serve, Call.perform, patch, hpatch]
      rfl
    left
    simp only [Turn.Succeeds, Turn.Patches, Request.turn, hserve]
    obtain ⟨hfailures, -, hafter⟩ := Draft.of_patch_ok hpatch
    exact ⟨⟨trivial, report, rfl⟩, trivial, hfailures, hafter⟩

/-- Patching is all or nothing, whenever it is called. -/
theorem Request.allOrNothing_turn (request : Request) (assembly : Assembly) :
    (request.turn assembly).AllOrNothing := by
  by_cases hphase : assembly.phase = .collecting
  · by_cases hrequest : request = .call .patch
    · subst hrequest
      rcases Request.patch_cases hphase with ⟨hsucceeds, -, hresolved⟩ | ⟨hfails, -, hsame⟩
      · exact ⟨fun _ hfails => absurd hsucceeds hfails, fun _ => hresolved⟩
      · exact ⟨fun _ _ => hsame, fun hsucceeds => absurd hsucceeds hfails⟩
    · exact ⟨fun hpatches => absurd hpatches hrequest,
        fun hsucceeds => absurd hsucceeds.1 hrequest⟩
  · have hlate := request.late_turn hphase
    exact ⟨fun _ _ => congrArg Assembly.draft hlate.unchanged,
      fun hsucceeds => absurd hsucceeds hlate.not_succeeds⟩

end Turn

/-! ## The phase and the history -/

/-- What the phase of an assembly says of the turns that have led to it. -/
structure Stage (history : List Turn) (assembly : Assembly) : Prop where
  collecting : assembly.phase = .collecting ↔ ∀ turn ∈ history, ¬turn.Patches
  patched : assembly.phase = .patched ↔ ∃ turn ∈ history, turn.Succeeds
  /-- Nothing has changed since patching was called. -/
  closed : ∀ turn ∈ history, turn.Patches → turn.after = assembly

theorem stage_start (config : Config) : Stage [] (start config) where
  collecting := ⟨fun _ _ hmem => absurd hmem List.not_mem_nil, fun _ => rfl⟩
  patched := by
    constructor
    · rintro ⟨⟩
    · rintro ⟨_, hmem, -⟩
      exact absurd hmem List.not_mem_nil
  closed := fun _ hmem => absurd hmem List.not_mem_nil

section Stage

variable {history : List Turn} {assembly : Assembly}

theorem forall_mem_concat_iff {turn : Turn} {property : Turn → Prop} :
    (∀ other ∈ history ++ [turn], property other) ↔
      (∀ other ∈ history, property other) ∧ property turn := by
  simp [or_imp, forall_and]

theorem exists_mem_concat_iff {turn : Turn} {property : Turn → Prop} :
    (∃ other ∈ history ++ [turn], property other) ↔
      (∃ other ∈ history, property other) ∨ property turn := by
  simp [or_and_right, exists_or]

/-- Nothing was patched as long as an assembly collects. -/
theorem Stage.not_succeeds (h : Stage history assembly) (hphase : assembly.phase = .collecting) :
    ¬∃ turn ∈ history, turn.Succeeds := by
  rintro ⟨turn, hmem, hsucceeds⟩
  exact h.collecting.mp hphase turn hmem hsucceeds.1

/-- The first patching ends the recording. -/
theorem Stage.turn_patch (h : Stage history assembly) (hphase : assembly.phase = .collecting) :
    Stage (history ++ [Request.turn (.call .patch) assembly])
      (Request.serve (.call .patch) assembly).2 := by
  have hafter : (Request.turn (.call .patch) assembly).after =
      (Request.serve (.call .patch) assembly).2 := rfl
  have hpatches : (Request.turn (.call .patch) assembly).Patches := rfl
  have hended : (Request.serve (.call .patch) assembly).2.phase ≠ .collecting ∧
      ((Request.serve (.call .patch) assembly).2.phase = .patched ↔
        (Request.turn (.call .patch) assembly).Succeeds) := by
    rcases Request.patch_cases hphase with ⟨hsucceeds, hpatched, -⟩ | ⟨hfails, hfailed, -⟩
    · rw [← hafter, hpatched]
      exact ⟨nofun, iff_of_true rfl hsucceeds⟩
    · rw [← hafter, hfailed]
      exact ⟨nofun, iff_of_false nofun hfails⟩
  refine ⟨?_, ?_, forall_mem_concat_iff.mpr ⟨?_, fun _ => rfl⟩⟩
  · rw [forall_mem_concat_iff]
    exact iff_of_false hended.1 fun hno => hno.2 hpatches
  · rw [exists_mem_concat_iff, hended.2]
    exact (or_iff_right (h.not_succeeds hphase)).symm
  · intro turn hmem hearlier
    exact absurd hearlier (h.collecting.mp hphase turn hmem)

/-- Any other request leaves a collecting assembly collecting. -/
theorem Stage.turn_open (h : Stage history assembly) (hphase : assembly.phase = .collecting)
    {request : Request} (hrequest : request ≠ .call .patch) :
    Stage (history ++ [request.turn assembly]) (request.serve assembly).2 := by
  have hopen := h.collecting.mp hphase
  have hcollects := Request.phase_serve hphase hrequest
  have hnot : ¬(request.turn assembly).Patches := hrequest
  refine ⟨?_, ?_, forall_mem_concat_iff.mpr ⟨?_, fun hpatches => absurd hpatches hnot⟩⟩
  · rw [forall_mem_concat_iff]
    exact iff_of_true hcollects ⟨hopen, hnot⟩
  · rw [exists_mem_concat_iff, hcollects]
    exact iff_of_false nofun
      (not_or.mpr ⟨h.not_succeeds hphase, fun hsucceeds => hnot hsucceeds.1⟩)
  · intro turn hmem hpatches
    exact absurd hpatches (hopen turn hmem)

/-- When recording is over, a request changes nothing. -/
theorem Stage.turn_late (h : Stage history assembly) (hphase : assembly.phase ≠ .collecting)
    (request : Request) :
    Stage (history ++ [request.turn assembly]) (request.serve assembly).2 := by
  have hlate := request.late_turn hphase
  have hsame : (request.serve assembly).2 = assembly := hlate.unchanged
  rw [hsame]
  refine ⟨?_, ?_, forall_mem_concat_iff.mpr ⟨h.closed, fun _ => hlate.unchanged⟩⟩
  · rw [forall_mem_concat_iff]
    exact iff_of_false hphase fun hno => hphase (h.collecting.mpr hno.1)
  · rw [exists_mem_concat_iff, or_iff_left hlate.not_succeeds]
    exact h.patched

/-- One more turn keeps the phase in step with the history. -/
theorem Stage.turn (h : Stage history assembly) (request : Request) :
    Stage (history ++ [request.turn assembly]) (request.serve assembly).2 := by
  by_cases hphase : assembly.phase = .collecting
  · by_cases hrequest : request = .call .patch
    · rw [hrequest]
      exact h.turn_patch hphase
    · exact h.turn_open hphase hrequest
  · exact h.turn_late hphase request

/-- What can be read as final: the words that a patching has left, if one has succeeded. -/
theorem Stage.final_cases (h : Stage history assembly) :
    (∃ turn ∈ history, turn.Succeeds ∧
        assembly.finalWords = .ok turn.after.image.words.toList ∧
        assembly.finalBytes = .ok (turn.after.image.bytes turn.after.config.byteOrder)) ∨
      (∀ turn ∈ history, ¬turn.Succeeds) ∧ assembly.finalWords = .error .notPatched ∧
        assembly.finalBytes = .error .notPatched := by
  by_cases hphase : assembly.phase = .patched
  · obtain ⟨turn, hmem, hsucceeds⟩ := h.patched.mp hphase
    have hwords : assembly.finalWords = .ok assembly.image.words.toList := by
      simp only [finalWords, hphase]
    left
    refine ⟨turn, hmem, hsucceeds, ?_⟩
    rw [h.closed turn hmem hsucceeds.1]
    refine ⟨hwords, ?_⟩
    simp only [finalBytes, hwords]
    rfl
  · have hwords : assembly.finalWords = .error .notPatched := by
      unfold finalWords
      split
      · next hpatched => exact absurd hpatched hphase
      · rfl
      · rfl
    right
    refine ⟨fun turn hmem hsucceeds => hphase (h.patched.mpr ⟨turn, hmem, hsucceeds⟩), hwords, ?_⟩
    simp only [finalBytes, hwords]
    rfl

end Stage

/-! ## Runs -/

/-- What holds of a run after the turns of a history. -/
structure TwoPhases (history : List Turn) (assembly : Assembly) : Prop where
  /-- Patching succeeds at most once, and only if it has not been called before. -/
  once : history.Pairwise fun turn later => turn.Patches → ¬later.Succeeds
  /-- From the first patching on every call is refused, and words, labels and phase stay. -/
  closed : history.Pairwise fun turn later =>
    turn.Patches → later.Late ∧ later.after = turn.after
  /-- Final words can be read exactly if a patching has succeeded, and are those that it left. -/
  final : (∃ turn ∈ history, turn.Succeeds ∧
      assembly.finalWords = .ok turn.after.image.words.toList ∧
      assembly.finalBytes = .ok (turn.after.image.bytes turn.after.config.byteOrder)) ∨
    (∀ turn ∈ history, ¬turn.Succeeds) ∧ assembly.finalWords = .error .notPatched ∧
      assembly.finalBytes = .error .notPatched
  /-- Words that were read before are those that are read now. -/
  words : ∀ turn ∈ history, ∀ words, turn.answer = .words (.ok words) →
    assembly.finalWords = .ok words
  bytes : ∀ turn ∈ history, ∀ bytes, turn.answer = .bytes (.ok bytes) →
    assembly.finalBytes = .ok bytes
  /-- No word is patched by a patching that fails, and none is left out by one that succeeds. -/
  whole : ∀ turn ∈ history, turn.AllOrNothing

section Runs

variable {history : List Turn} {assembly : Assembly}

/-- Once final words have been read, nothing changes them. -/
theorem Request.finalWords_serve {words : List Word} (h : assembly.finalWords = .ok words)
    (request : Request) : (request.serve assembly).2 = assembly := by
  have hphase : assembly.phase ≠ .collecting := by
    intro hphase
    simp only [Assembly.finalWords, hphase] at h
    cases h
  exact (request.late_turn hphase).unchanged

theorem exists_finalWords {bytes : List UInt8} (h : assembly.finalBytes = .ok bytes) :
    ∃ words, assembly.finalWords = .ok words := by
  obtain ⟨words, hwords, -⟩ := bind_eq_ok_iff.mp h
  exact ⟨words, hwords⟩

/-- One more turn keeps the two phases apart. -/
theorem TwoPhases.turn (h : TwoPhases history assembly) (hstage : Stage history assembly)
    (request : Request) :
    TwoPhases (history ++ [request.turn assembly]) (request.serve assembly).2 := by
  have hlate : ∀ turn ∈ history, turn.Patches → (request.turn assembly).Late := by
    intro turn hmem hpatches
    refine request.late_turn fun hphase => ?_
    exact hstage.collecting.mp hphase turn hmem hpatches
  have hlast : ∀ {relation : Turn → Turn → Prop}, history.Pairwise relation →
      (∀ turn ∈ history, relation turn (request.turn assembly)) →
        (history ++ [request.turn assembly]).Pairwise relation := by
    intro relation hpairs hnew
    refine List.pairwise_append.mpr ⟨hpairs, List.pairwise_singleton _ _, ?_⟩
    simpa using hnew
  refine ⟨hlast h.once ?_, hlast h.closed ?_, (hstage.turn request).final_cases,
    forall_mem_concat_iff.mpr ⟨?_, ?_⟩, forall_mem_concat_iff.mpr ⟨?_, ?_⟩,
    forall_mem_concat_iff.mpr ⟨h.whole, request.allOrNothing_turn assembly⟩⟩
  · intro turn hmem hpatches
    exact (hlate turn hmem hpatches).not_succeeds
  · intro turn hmem hpatches
    have hnow := hlate turn hmem hpatches
    exact ⟨hnow, hnow.unchanged.trans (hstage.closed turn hmem hpatches).symm⟩
  · intro turn hmem words hread
    have hwords := h.words turn hmem words hread
    rw [Request.finalWords_serve hwords]
    exact hwords
  · intro words hread
    cases request with
    | finalWords => exact Answer.words.inj hread
    | call | finalBytes | listing | currentAddress => cases hread
  · intro turn hmem bytes hread
    have hbytes := h.bytes turn hmem bytes hread
    obtain ⟨words, hwords⟩ := exists_finalWords hbytes
    rw [Request.finalWords_serve hwords]
    exact hbytes
  · intro bytes hread
    cases request with
    | finalBytes => exact Answer.bytes.inj hread
    | call | finalWords | listing | currentAddress => cases hread

end Runs

/-- Whatever an assembly is asked, and however much of it fails: patching succeeds once at most, as
the first patching. From the first patching on nothing is recorded or patched any more. Final words
can be read exactly after a patching that has succeeded, and are always the same. -/
theorem twoPhases_of_requests (config : Config) (requests : List Request) :
    TwoPhases (serveAll config requests).1 (serveAll config requests).2 := by
  refine (serveAll_induction (motive := fun history assembly =>
    Stage history assembly ∧ TwoPhases history assembly) ?_ ?_ requests).2
  · refine ⟨stage_start config, List.Pairwise.nil, List.Pairwise.nil,
      (stage_start config).final_cases, ?_, ?_, ?_⟩
    · exact fun _ hmem => absurd hmem List.not_mem_nil
    · exact fun _ hmem => absurd hmem List.not_mem_nil
    · exact fun _ hmem => absurd hmem List.not_mem_nil
  · rintro history assembly ⟨hstage, h⟩ request
    exact ⟨hstage.turn request, h.turn hstage request⟩

/-- A reading that comes too early, a patching, and what comes too late. -/
example :
    (serveAll {} [.call (.appendReference 0x08000000 "end"), .finalWords,
      .call (.defineHere "end"), .call .patch, .finalWords, .call (.append 0), .call .patch,
      .finalBytes]).1.map Turn.answer =
        [.returned (.appended (.ok 0)), .words (.error .notPatched), .returned (.recorded (.ok ())),
          .returned (.patched (.ok ⟨1, 1, 0⟩)), .words (.ok [0x08000001]),
          .returned (.appended (.error (.phaseViolation .instruction))),
          .returned (.patched (.error [.alreadyPatched])), .bytes (.ok [1, 0, 0, 8])] := by
  decide

end Assembly

end Backpatch
