import Backpatch.Proofs.Run.Failure
import Backpatch.Proofs.Run.Phases

/-!
# Two ways to say the same

A jump or a branch with its label is recorded by one call, or by two: the word is appended, and then
the word refers to the label from the address at which it was appended. A label is defined at the
next word by one call that finds the address itself, or by one that is told it.

* `appendThenReference_cases`: the two calls return what the one returns, and leave what it leaves,
  but for a word that is no jump or branch. The two calls have appended that word before they find
  out, and the one call has not.
* `defineHere_eq_define`: a definition that finds the next address is the one that is told.
* `Rephrased`: requests in which some steps that succeed are said in the other way. They lead to the
  same state (`Rephrased.state_eq`), so that whatever is asked later is answered in the same way.
-/

namespace Backpatch

/-- A reference from the word appended last is the one that the word would make if it were
appended. -/
theorem Draft.fixupAt_push {draft : Draft} {site : Address}
    (h : draft.image.nextAddress = .ok site) (word : Word) :
    Draft.fixupAt ⟨draft.image.push word, draft.symbols⟩ draft.image.size site =
      draft.nextFixup word := by
  have hget : (draft.image.push word).get draft.image.size = .ok word := by
    have hword : (draft.image.words.push word)[draft.image.words.size]? = some word := by simp
    simp only [Image.get, Image.push, Image.size, hword]
  have hplace : (draft.image.push word).addressOf draft.image.size = .ok site := by
    have hlt : draft.image.size < (draft.image.push word).size := by simp
    rw [← h, Image.addressOf, if_pos hlt]
    rfl
  unfold fixupAt nextFixup
  rw [h, hget]
  simp only [bind, Except.bind, hplace]
  simp

/-- An image without room says how many words it cannot hold. -/
theorem Image.of_nextAddress_error {image : Image} {error : PatchError}
    (h : image.nextAddress = .error error) :
    error = .addressOverflow image.base (image.size + 1) := by
  unfold nextAddress addressAt at h
  split at h
  · cases h
  · exact (Except.error.inj h).symm

namespace Assembly

/-! ## The two ways -/

/-- Appends a word, and then refers to a label from it, at the address that was the next one. The
first of the two calls that fails is the last. -/
def appendThenReference (word : Word) (name : String) (assembly : Assembly) :
    Except PatchError Handle × Assembly :=
  match assembly.append word with
  | (.error error, after) => (.error error, after)
  | (.ok handle, after) =>
    match assembly.currentAddress with
    | .error error => (.error error, after)
    | .ok site =>
      match after.reference handle site name with
      | (.error error, after) => (.error error, after)
      | (.ok (), after) => (.ok handle, after)

section Collecting

variable {config : Config} {draft : Draft} {word : Word} {name : String}

/-- On a draft that is full, neither way does anything. -/
theorem appendThenReference_of_full {error : PatchError}
    (h : draft.image.nextAddress = .error error) (config : Config) (word : Word) (name : String) :
    appendThenReference word name ⟨config, draft, .collecting⟩ =
        (.error error, ⟨config, draft, .collecting⟩) ∧
      appendReference word name ⟨config, draft, .collecting⟩ =
        (.error error, ⟨config, draft, .collecting⟩) := by
  simp only [appendThenReference, appendReference, append, recording, Draft.append_of_error h,
    Draft.appendReference_of_error h, and_self]

/-- On a draft with room, the two calls append the word and record the reference that it would make,
if it makes one. -/
theorem appendThenReference_of_room {site : Address} (h : draft.image.nextAddress = .ok site) :
    appendThenReference word name ⟨config, draft, .collecting⟩ =
      match draft.nextFixup word with
      | .error error =>
        (.error error, ⟨config, ⟨draft.image.push word, draft.symbols⟩, .collecting⟩)
      | .ok fixup =>
        ((draft.symbols.addReference fixup name).1.map fun _ => draft.image.size,
          ⟨config, ⟨draft.image.push word, (draft.symbols.addReference fixup name).2⟩,
            .collecting⟩) := by
  have hcurrent : currentAddress ⟨config, draft, .collecting⟩ = .ok site := h
  have happend : append word ⟨config, draft, .collecting⟩ =
      (.ok draft.image.size, ⟨config, ⟨draft.image.push word, draft.symbols⟩, .collecting⟩) := by
    simp only [append, recording, Draft.append_of_ok h, Image.push]
  simp only [appendThenReference, happend, hcurrent, reference, recording, Draft.reference,
    Draft.fixupAt_push h]
  rcases draft.nextFixup word with error | fixup
  · rfl
  · simp only [Draft.addReference, Draft.onSymbols]
    rcases draft.symbols.addReference fixup name with ⟨error | ⟨⟩, table⟩ <;> rfl

/-- On a draft with room, the one call looks at the reference first. -/
theorem appendReference_of_room {site : Address} (h : draft.image.nextAddress = .ok site) :
    appendReference word name ⟨config, draft, .collecting⟩ =
      match draft.nextFixup word with
      | .error error => (.error error, ⟨config, draft, .collecting⟩)
      | .ok fixup =>
        ((draft.symbols.addReference fixup name).1.map fun _ => draft.image.size,
          ⟨config, ⟨draft.image.push word, (draft.symbols.addReference fixup name).2⟩,
            .collecting⟩) := by
  simp only [appendReference, recording, Draft.appendReference]
  rcases draft.nextFixup word with error | fixup
  · rfl
  · simp only [Draft.append_of_ok h, Draft.addReference, Draft.onSymbols, Image.push]
    rcases draft.symbols.addReference fixup name with ⟨error | ⟨⟩, table⟩ <;> rfl

/-- What is refused on a draft with room because of the word or its address. -/
theorem nextFixup_error {site : Address} (h : draft.image.nextAddress = .ok site)
    {error : PatchError} (hfixup : draft.nextFixup word = .error error) :
    error = .notJumpOrBranch site word := by
  unfold Draft.nextFixup at hfixup
  rw [h] at hfixup
  simp only [bind, Except.bind, FixupKind.classify] at hfixup
  split at hfixup
  · next herror =>
    split at herror
    · cases herror
    · rw [← Except.error.inj hfixup, ← Except.error.inj herror]
  · cases hfixup

end Collecting

/-- The two calls succeed when the first returns a handle and the second takes it. -/
theorem appendThenReference_eq_ok_iff {word : Word} {name : String} {handle : Handle}
    {site : Address} {assembly after : Assembly} (hsite : assembly.currentAddress = .ok site) :
    appendThenReference word name assembly = (.ok handle, after) ↔
      (assembly.append word).1 = .ok handle ∧
        (assembly.append word).2.reference handle site name = (.ok (), after) := by
  unfold appendThenReference
  rcases assembly.append word with ⟨error | made, appended⟩
  · simp
  · simp only [hsite, Except.ok.injEq]
    rcases hreference : appended.reference made site name with ⟨error | ⟨⟩, referred⟩
    · constructor
      · nofun
      · rintro ⟨rfl, h⟩
        rw [hreference] at h
        cases h
    · constructor
      · rintro ⟨⟩
        exact ⟨rfl, hreference⟩
      · rintro ⟨rfl, h⟩
        rw [hreference] at h
        cases h
        rfl

section Agree

variable (word : Word) (name : String) (assembly : Assembly)

/-- The two ways part on a word that is no jump or branch, and nowhere else. -/
theorem appendThenReference_cases :
    (∃ site, appendReference word name assembly =
          (.error (.notJumpOrBranch site word), assembly) ∧
        appendThenReference word name assembly =
          (.error (.notJumpOrBranch site word), assembly.withWord word)) ∨
      (∀ site other,
          (appendReference word name assembly).1 ≠ .error (.notJumpOrBranch site other)) ∧
        appendThenReference word name assembly = appendReference word name assembly := by
  obtain ⟨config, draft, phase⟩ := assembly
  cases phase with
  | patched | failed => exact Or.inr ⟨nofun, rfl⟩
  | collecting =>
      rcases hnext : draft.image.nextAddress with error | site
      · obtain ⟨htwo, hone⟩ := appendThenReference_of_full hnext config word name
        obtain rfl := Image.of_nextAddress_error hnext
        rw [htwo, hone]
        exact Or.inr ⟨nofun, rfl⟩
      · rw [appendThenReference_of_room hnext, appendReference_of_room hnext]
        rcases hfixup : draft.nextFixup word with error | fixup
        · obtain rfl := nextFixup_error hnext hfixup
          exact Or.inl ⟨site, rfl, rfl⟩
        · refine Or.inr ⟨fun other found => ?_, rfl⟩
          rcases hadd : draft.symbols.addReference fixup name with ⟨error | done, table⟩
          · obtain ⟨-, rfl, -⟩ := SymbolTable.of_addReference_error hadd
            simp [hadd, Except.map]
          · simp [hadd, Except.map]

/-- The two calls return what the one call returns. -/
theorem appendThenReference_result :
    (appendThenReference word name assembly).1 = (appendReference word name assembly).1 := by
  rcases appendThenReference_cases word name assembly with ⟨site, hone, htwo⟩ | ⟨-, hsame⟩
  · rw [hone, htwo]
  · rw [hsame]

end Agree

/-- Where the one call succeeds, the second of the two leaves what it leaves. -/
theorem reference_append_state {word : Word} {name : String} {handle : Handle} {site : Address}
    {assembly : Assembly} (hsite : assembly.currentAddress = .ok site)
    (hone : (assembly.appendReference word name).1 = .ok handle) :
    ((assembly.append word).2.reference handle site name).2 =
      (assembly.appendReference word name).2 := by
  rcases appendThenReference_cases word name assembly with ⟨other, hother, -⟩ | ⟨-, hsame⟩
  · rw [hother] at hone
    cases hone
  · have htwo : appendThenReference word name assembly =
        (.ok handle, (appendReference word name assembly).2) := hsame.trans (Prod.ext hone rfl)
    rw [((appendThenReference_eq_ok_iff hsite).mp htwo).2]

/-- A definition at the next word is the definition at the address of that word. -/
theorem defineHere_eq_define {assembly : Assembly} {site : Address}
    (hsite : assembly.currentAddress = .ok site) (name : String) :
    assembly.defineHere name = assembly.define name site := by
  obtain ⟨config, draft, phase⟩ := assembly
  cases phase with
  | patched | failed => rfl
  | collecting => simp only [defineHere, define, recording, Draft.defineHere_of_ok hsite]

/-- Where the next word would have no address, nothing is defined. -/
theorem defineHere_of_full {assembly : Assembly} {error : PatchError}
    (hphase : assembly.phase = .collecting) (herror : assembly.currentAddress = .error error)
    (name : String) : assembly.defineHere name = (.error error, assembly) := by
  obtain ⟨config, draft, phase⟩ := assembly
  obtain rfl : phase = .collecting := hphase
  simp only [defineHere, recording, Draft.defineHere_of_error herror]

/-! ## Requests said in the other way -/

/-- Two ways to ask an assembly for the same, of which the first succeeds. -/
inductive SaysSame (assembly : Assembly) : List Request → List Request → Prop
  /-- One call for a jump or a branch with its label, then two. -/
  | split {word : Word} {name : String} {handle : Handle} {site : Address} :
      assembly.currentAddress = .ok site →
        (assembly.appendReference word name).1 = .ok handle →
        SaysSame assembly [.call (.appendReference word name)]
          [.call (.append word), .call (.reference handle site name)]
  /-- Two calls for a jump or a branch with its label, then one. -/
  | join {word : Word} {name : String} {handle : Handle} {site : Address} :
      assembly.currentAddress = .ok site → (assembly.append word).1 = .ok handle →
        ((assembly.append word).2.reference handle site name).1 = .ok () →
        SaysSame assembly [.call (.append word), .call (.reference handle site name)]
          [.call (.appendReference word name)]
  /-- A label at the next word, then one at an address. -/
  | there {name : String} {site : Address} :
      assembly.currentAddress = .ok site → (assembly.defineHere name).1 = .ok () →
        SaysSame assembly [.call (.defineHere name)] [.call (.define name site)]
  /-- A label at an address, then one at the next word. -/
  | here {name : String} {site : Address} :
      assembly.currentAddress = .ok site → (assembly.define name site).1 = .ok () →
        SaysSame assembly [.call (.define name site)] [.call (.defineHere name)]

/-- Requests to a new assembly, and the same with some of them said in the other way. -/
inductive Rephrased (config : Config) : List Request → List Request → Prop
  | nil : Rephrased config [] []
  /-- One more request, said as it was. -/
  | keep {said other : List Request} (request : Request) :
      Rephrased config said other → Rephrased config (said ++ [request]) (other ++ [request])
  /-- One more request, or two, said in the other way. -/
  | swap {said other form form' : List Request} :
      Rephrased config said other → SaysSame (serveAll config said).2 form form' →
        Rephrased config (said ++ form) (other ++ form')

/-- Serves requests to an assembly that need not be new. -/
def serveFrom (assembly : Assembly) (requests : List Request) : List Turn × Assembly :=
  requests.foldl attend ([], assembly)

theorem foldl_attend (requests : List Request) (history : List Turn) (assembly : Assembly) :
    requests.foldl attend (history, assembly) =
      (history ++ (serveFrom assembly requests).1, (serveFrom assembly requests).2) := by
  induction requests using List.reverseRec with
  | nil => simp [serveFrom]
  | append_singleton requests request ih =>
      simp only [serveFrom, List.foldl_append, List.foldl_cons, List.foldl_nil] at ih ⊢
      rw [ih]
      simp only [attend, List.append_assoc]

/-- Requests are served to the assembly that those before them lead to. -/
theorem serveAll_append (config : Config) (said later : List Request) :
    serveAll config (said ++ later) =
      ((serveAll config said).1 ++ (serveFrom (serveAll config said).2 later).1,
        (serveFrom (serveAll config said).2 later).2) := by
  rw [← foldl_attend]
  unfold serveAll
  rw [List.foldl_append]

/-- Every request has its turn. -/
theorem requests_serveFrom (assembly : Assembly) (requests : List Request) :
    (serveFrom assembly requests).1.map Turn.request = requests := by
  induction requests using List.reverseRec with
  | nil => rfl
  | append_singleton requests request ih =>
      unfold serveFrom at ih ⊢
      rw [List.foldl_append, List.foldl_cons, List.foldl_nil, attend, List.map_append, ih]
      rfl

/-- What is said in the other way leads to the same state. -/
theorem SaysSame.state_eq {assembly : Assembly} {form form' : List Request}
    (h : SaysSame assembly form form') :
    (serveFrom assembly form').2 = (serveFrom assembly form).2 := by
  cases h with
  | split hsite hone => exact reference_append_state hsite hone
  | join hsite happend hreference =>
      have htwo := (appendThenReference_eq_ok_iff hsite).mpr ⟨happend, Prod.ext hreference rfl⟩
      have hone := (appendThenReference_result _ _ assembly).symm.trans (congrArg Prod.fst htwo)
      exact (reference_append_state hsite hone).symm
  | @there name site hsite =>
      have hsame := congrArg Prod.snd (defineHere_eq_define hsite name)
      exact hsame.symm
  | @here name site hsite =>
      have hsame := congrArg Prod.snd (defineHere_eq_define hsite name)
      exact hsame

/-- Requests said in the other way lead to the same state. -/
theorem Rephrased.state_eq {config : Config} {said other : List Request}
    (h : Rephrased config said other) :
    (serveAll config other).2 = (serveAll config said).2 := by
  induction h with
  | nil => rfl
  | keep request _ ih => rw [serveAll_append, serveAll_append, ih]
  | swap _ hform ih => rw [serveAll_append, serveAll_append, ih, hform.state_eq]

/-! ## The two ways agree -/

/-- A jump or a branch with its label may be recorded by one call or by two: they return the same,
and leave the same unless the word is no jump or branch, which the two calls append and the one call
does not. A label at the next word may be defined with its address or without, as long as that word
would have one. If requests that succeed are said in the other way, at any places of a run, then
whatever is asked later meets the same states and is answered in the same way. -/
theorem run_rephrased :
    (∀ (assembly : Assembly) (word : Word) (name : String),
        let one := appendReference word name assembly
        let two := appendThenReference word name assembly
        two.1 = one.1 ∧
          ((∃ site, one.1 = .error (.notJumpOrBranch site word) ∧ one.2 = assembly ∧
              two.2 = assembly.withWord word) ∨
            (∀ site other, one.1 ≠ .error (.notJumpOrBranch site other)) ∧ two.2 = one.2)) ∧
      (∀ assembly : Assembly, assembly.phase = .collecting → ∀ name,
        (∀ site, assembly.currentAddress = .ok site →
            assembly.defineHere name = assembly.define name site) ∧
          ∀ error, assembly.currentAddress = .error error →
            assembly.defineHere name = (.error error, assembly)) ∧
      ∀ (config : Config) (said other : List Request), Rephrased config said other →
        ∀ later, ∃ turns : List Turn, turns.map Turn.request = later ∧
          (serveAll config (said ++ later)).1 = (serveAll config said).1 ++ turns ∧
          (serveAll config (other ++ later)).1 = (serveAll config other).1 ++ turns ∧
          (serveAll config (other ++ later)).2 = (serveAll config (said ++ later)).2 := by
  refine ⟨fun assembly word name => ?_, fun assembly hphase name => ?_, ?_⟩
  · refine ⟨appendThenReference_result word name assembly, ?_⟩
    rcases appendThenReference_cases word name assembly with ⟨site, hone, htwo⟩ | ⟨hother, hsame⟩
    · rw [hone, htwo]
      exact Or.inl ⟨site, rfl, rfl, rfl⟩
    · exact Or.inr ⟨hother, congrArg Prod.snd hsame⟩
  · exact ⟨fun site hsite => defineHere_eq_define hsite name,
      fun error herror => defineHere_of_full hphase herror name⟩
  · intro config said other hother later
    refine ⟨(serveFrom (serveAll config said).2 later).1, requests_serveFrom _ later, ?_, ?_, ?_⟩
    · rw [serveAll_append]
    · rw [serveAll_append, hother.state_eq]
    · rw [serveAll_append, serveAll_append, hother.state_eq]

/-- A jump past a word, said in one way and in the other: patching and the final words are the same.
A word that is no jump is refused by both ways, and left behind by one of them. -/
theorem run_rephrased_jump :
    let said : List Request := [.call (.appendReference 0x08000000 "end"), .call (.append 0),
      .call (.defineHere "end")]
    let other : List Request := [.call (.append 0x08000000), .call (.reference 0 0x40 "end"),
      .call (.append 0), .call (.define "end" 0x48)]
    let config : Config := { baseAddress := 0x40 }
    Rephrased config said other ∧
      (∃ turns : List Turn, turns.map Turn.request = [.call .patch, .finalWords] ∧
        (serveAll config (said ++ [.call .patch, .finalWords])).1 =
          (serveAll config said).1 ++ turns ∧
        (serveAll config (other ++ [.call .patch, .finalWords])).1 =
          (serveAll config other).1 ++ turns ∧
        (serveAll config (other ++ [.call .patch, .finalWords])).2 =
          (serveAll config (said ++ [.call .patch, .finalWords])).2) ∧
      (start config).phase = .collecting ∧ (start config).currentAddress = .ok 0x40 ∧
      (start config).defineHere "end" = (start config).define "end" 0x40 ∧
      (appendThenReference 0 "end" (start config)).1 = .error (.notJumpOrBranch 0x40 0) ∧
      (appendThenReference 0 "end" (start config)).1 =
        (appendReference 0 "end" (start config)).1 := by
  intro said other config
  obtain ⟨hways, hdefine, hrephrased⟩ := run_rephrased
  have hother : Rephrased config said other :=
    .swap (.keep _ (.swap .nil (.split (by decide) (by decide)))) (.there (by decide) (by decide))
  exact ⟨hother, hrephrased config said other hother [.call .patch, .finalWords], rfl, rfl,
    (hdefine (start config) rfl "end").1 0x40 rfl, by decide, (hways (start config) 0 "end").1⟩

end Assembly

end Backpatch
