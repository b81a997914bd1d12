import Backpatch.Proofs.Run.Coherence

/-!
# Calls that fail

A call of an assembly that fails leaves it as it was, whatever the call and however far the run has
come. There is one exception. To append a jump or a branch with its reference takes two steps, and
the symbol table, which comes second, refuses a reference from a place where no word should stand:
the word is there by then, and stays. `Call.Strays` tells the calls that end so. They need an
assembly that starts at such a place, for otherwise every word stands right.

Patching is apart from the other calls, since it ends the recording also when it fails.
-/

namespace Backpatch

namespace Assembly

/-- The call appends a jump or a branch with a reference, to an assembly that collects, starts
where no word should stand, and has room for one more word, at `site`. -/
structure Call.Strays (assembly : Assembly) (call : Call) (word : Word) (name : String)
    (site : Address) : Prop where
  call : call = .appendReference word name
  collecting : assembly.phase = .collecting
  base : ¬IsAligned assembly.config.baseAddress
  transfer : ∃ opcode, word.opcode? = some opcode ∧
    (opcode.isJump = true ∨ opcode.isBranch = true)
  room : assembly.image.nextAddress = .ok site

/-- The assembly with one more word and nothing else. -/
def withWord (assembly : Assembly) (word : Word) : Assembly :=
  { assembly with draft := ⟨assembly.image.push word, assembly.symbols⟩ }

/-- A step that fails changes nothing, unless a word is appended where none should stand or the
recording ends. -/
theorem Step.of_failed {assembly after : Assembly} {call : Call} {outcome : Outcome}
    (h : Step assembly call outcome after) (hfailed : outcome.failed = true)
    (hbase : assembly.image.base = assembly.config.baseAddress) :
    after = assembly ∨ (∃ word name site, call.Strays assembly word name site) ∨ call = .patch := by
  cases h with
  | closed => exact Or.inl rfl
  | refused => exact Or.inl rfl
  | strayed hphase hsite hkind haligned =>
      obtain ⟨opcode, hopcode, htransfer⟩ := exists_opcode_of_fixupKind? hkind
      rw [Image.isAligned_nextAddress_iff hsite, hbase] at haligned
      have hclass : opcode.isJump = true ∨ opcode.isBranch = true :=
        htransfer.imp And.right And.right
      exact Or.inr (Or.inl ⟨_, _, _, rfl, hphase, haligned, ⟨opcode, hopcode, hclass⟩, hsite⟩)
  | failed => exact Or.inr (Or.inr rfl)
  | appended | defined | referred | appendedReference | patched => cases hfailed

/-- A call that strays is refused for the address of its word, and leaves the word behind. -/
theorem Call.Strays.perform_eq {assembly : Assembly} {call : Call} {word : Word} {name : String}
    {site : Address} (h : call.Strays assembly word name site)
    (hbase : assembly.image.base = assembly.config.baseAddress) :
    call.perform assembly =
      (.appended (.error (.misalignedAddress name site)), assembly.withWord word) := by
  obtain ⟨rfl, hphase, haligned, ⟨opcode, hopcode, hclass⟩, hsite⟩ := h
  have hkind : ∃ kind, word.fixupKind? = some kind := by
    rcases hclass with hjump | hbranch
    · exact ⟨_, fixupKind?_of_isJump hopcode hjump⟩
    · exact ⟨_, fixupKind?_of_isBranch hopcode hbranch⟩
  obtain ⟨kind, hkind⟩ := hkind
  rw [← hbase, ← Image.isAligned_nextAddress_iff hsite] at haligned
  obtain ⟨config, draft, phase⟩ := assembly
  obtain rfl : phase = .collecting := hphase
  have htable : draft.symbols.addReference ⟨draft.image.size, site, kind⟩ name =
      (.error (.misalignedAddress name site), draft.symbols) := by
    unfold SymbolTable.addReference
    exact if_pos haligned
  simp only [perform, Assembly.appendReference, recording,
    Draft.appendReference_of_refused hsite hkind htable]
  rfl

/-- A patching that fails while references are recorded ends the recording. -/
theorem patch_of_error {assembly : Assembly} (hphase : assembly.phase = .collecting)
    {diagnostics : Diagnostics} (h : assembly.patch.1 = .error diagnostics) :
    assembly.patch.2 = { assembly with phase := .failed } := by
  obtain ⟨config, draft, phase⟩ := assembly
  obtain rfl : phase = .collecting := hphase
  rcases hpatch : draft.patch config.checkRanges with ⟨found | report, after⟩
  · obtain ⟨-, -, rfl⟩ := Draft.of_patch_error hpatch
    simp only [patch, hpatch]
  · simp only [patch, hpatch] at h
    cases h

/-- After any calls, a call other than patching that fails leaves everything as it was, or strays;
a call that strays fails, for the address of its word, and leaves that word behind and nothing else.
Where words stand right none strays. Patching that fails ends the recording and changes nothing
else, and after the recording patching changes nothing. -/
theorem run_failed_unchanged (config : Config) (calls : List Call) :
    let assembly := (run config calls).2
    (∀ call : Call, call ≠ .patch → (call.perform assembly).1.failed = true →
        (call.perform assembly).2 = assembly ∨
          ∃ word name site, call.Strays assembly word name site) ∧
      (∀ (call : Call) word name site, call.Strays assembly word name site →
        call.perform assembly =
          (.appended (.error (.misalignedAddress name site)), assembly.withWord word)) ∧
      (IsAligned config.baseAddress → ∀ call : Call, call ≠ .patch →
        (call.perform assembly).1.failed = true → (call.perform assembly).2 = assembly) ∧
      (assembly.phase = .collecting → ∀ diagnostics, assembly.patch.1 = .error diagnostics →
        assembly.patch.2 = { assembly with phase := .failed }) ∧
      (assembly.phase ≠ .collecting → assembly.patch.2 = assembly) := by
  intro assembly
  obtain ⟨hconfig, hcoherent⟩ := coherent_of_run config calls
  have hfailed : ∀ call : Call, call ≠ .patch → (call.perform assembly).1.failed = true →
      (call.perform assembly).2 = assembly ∨
        ∃ word name site, call.Strays assembly word name site := by
    intro call hcall hfailed
    rcases (call.step_perform assembly).of_failed hfailed hcoherent.base with
      hsame | hstrays | hpatch
    · exact Or.inl hsame
    · exact Or.inr hstrays
    · exact absurd hpatch hcall
  refine ⟨hfailed, fun call word name site h => h.perform_eq hcoherent.base, ?_, ?_, ?_⟩
  · intro haligned call hcall hfails
    rcases hfailed call hcall hfails with hsame | ⟨word, name, site, hstrays⟩
    · exact hsame
    · have hbase := hstrays.base
      rw [hconfig] at hbase
      exact absurd haligned hbase
  · intro hphase diagnostics hpatch
    exact patch_of_error hphase hpatch
  · intro hphase
    exact congrArg Prod.snd (Call.perform_of_closed hphase .patch)

/-- An assembly that starts at address 2: a definition at the next word is refused and changes
nothing, and a jump with its reference is refused and leaves its word. -/
theorem run_failed_unchanged_stray :
    let assembly := (run { baseAddress := 2 } [.append 0x24080001]).2
    ((Call.defineHere "a").perform assembly).1.failed = true ∧
      ((Call.defineHere "a").perform assembly).2 = assembly ∧
      (Call.appendReference 0x08000000 "a").Strays assembly 0x08000000 "a" 6 ∧
      (Call.appendReference 0x08000000 "a").perform assembly =
        (.appended (.error (.misalignedAddress "a" 6)), assembly.withWord 0x08000000) := by
  intro assembly
  obtain ⟨hfailed, hstrays, -⟩ := run_failed_unchanged { baseAddress := 2 } [.append 0x24080001]
  have hrefused : ((Call.defineHere "a").perform assembly).1.failed = true := by decide
  have hstray : (Call.appendReference 0x08000000 "a").Strays assembly 0x08000000 "a" 6 :=
    ⟨rfl, rfl, by decide, ⟨.j, by decide, Or.inl rfl⟩, by decide⟩
  refine ⟨hrefused, ?_, hstray, hstrays _ _ _ _ hstray⟩
  rcases hfailed _ (by decide) hrefused with hsame | ⟨word, name, site, hother⟩
  · exact hsame
  · cases hother.call

end Assembly

end Backpatch
