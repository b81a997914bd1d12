import Backpatch.Proofs.Run.Log

/-!
# The final words of a run

The final words are those that were appended, each with the field of the label that its references
name, at the address that the first definition of the label gave to it. All of this is read off the
log (`Log.Resolved`), wherever in the run the definition came.

`Accounts` ties the state of a run to its log. While the assembly collects, its draft is what the
log says. After the patching it no longer is, so that the draft from before is kept in mind, with
its patching; calls that come after add nothing to the log. With an aligned base every word stands
where it should, so that no call appends a word and fails.
-/

namespace Backpatch

namespace Assembly

/-! ## The state that a log accounts for -/

/-- What the log of a run says of the state that the run has reached. -/
structure Accounts (config : Config) (log : Log) (assembly : Assembly) : Prop where
  config_eq : assembly.config = config
  /-- While the assembly collects, the draft is that of the log. -/
  collecting : assembly.phase = .collecting →
    log.firstPatch? = none ∧ Log.Describes config.baseAddress log assembly.draft
  /-- After the patching, the draft is that of the log, patched. -/
  patched : assembly.phase = .patched → ∃ report before,
    log.firstPatch? = some (.ok report) ∧ Log.Describes config.baseAddress log before ∧
      before.Coherent ∧ before.patch config.checkRanges = (.ok report, assembly.draft)
  failed : assembly.phase = .failed → ∃ diagnostics, log.firstPatch? = some (.error diagnostics)

theorem accounts_start (config : Config) : Accounts config [] (start config) where
  config_eq := rfl
  collecting := by
    intro _
    refine ⟨rfl, rfl, rfl, rfl, [], rfl, fun _ _ hmem => absurd hmem List.not_mem_nil,
      fun _ => rfl, ?_⟩
    intro handle name
    simp [Log.uses]
  patched := nofun
  failed := nofun

section Step

variable {config : Config} {log : Log} {assembly after : Assembly} {call : Call}
  {outcome : Outcome}

/-- A call that records adds to the draft what it adds to the log. -/
theorem Accounts.record (h : Accounts config log assembly) (hphase : assembly.phase = .collecting)
    {entry : Call × Outcome} (hentry : Log.patch? entry = none) {draft : Draft}
    (hdescribes : Log.Describes config.baseAddress (log ++ [entry]) draft) :
    Accounts config (log ++ [entry]) { assembly with draft } where
  config_eq := h.config_eq
  collecting := by
    intro _
    refine ⟨?_, hdescribes⟩
    rw [Log.firstPatch?_concat, (h.collecting hphase).1, hentry]
    rfl
  patched := fun hpatched => nomatch hphase.symm.trans hpatched
  failed := fun hfailed => nomatch hphase.symm.trans hfailed

/-- When recording is over, neither the state nor what the log says changes any more. -/
theorem Accounts.late (h : Accounts config log assembly) (hphase : assembly.phase ≠ .collecting)
    (call : Call) : Accounts config (log ++ [(call, call.late)]) assembly where
  config_eq := h.config_eq
  collecting := fun hcollecting => absurd hcollecting hphase
  patched := by
    intro hpatched
    obtain ⟨report, before, hfirst, hdescribes, hbefore⟩ := h.patched hpatched
    refine ⟨report, before, ?_, hdescribes.silent (Log.silent_of_failed _ call.late_failed), hbefore⟩
    rw [Log.firstPatch?_concat, hfirst, Option.some_or]
  failed := by
    intro hfailed
    obtain ⟨diagnostics, hfirst⟩ := h.failed hfailed
    refine ⟨diagnostics, ?_⟩
    rw [Log.firstPatch?_concat, hfirst, Option.some_or]

/-- A step keeps state and log together. -/
theorem Accounts.step (haligned : IsAligned config.baseAddress) (h : Accounts config log assembly)
    (hcoherent : assembly.Coherent) (hstep : Step assembly call outcome after) :
    Accounts config (log ++ [(call, outcome)]) after := by
  have hconfig := h.config_eq
  have hdescribes : assembly.phase = .collecting →
      Log.Describes config.baseAddress log ⟨assembly.image, assembly.symbols⟩ :=
    fun hphase => (h.collecting hphase).2
  cases hstep with
  | closed hphase => exact h.late hphase call
  | refused hphase hcall hfailed =>
      have hpatch : Log.patch? (call, outcome) = none := by
        cases call with
        | patch => exact absurd rfl hcall
        | _ => rfl
      exact h.record hphase hpatch ((hdescribes hphase).silent (Log.silent_of_failed _ hfailed))
  | appended hphase hsite =>
      refine h.record hphase rfl ((hdescribes hphase).push rfl ?_)
      exact (hdescribes hphase).table.keep rfl fun _ => rfl
  | defined hphase hdefines htable =>
      have hlists := (hdescribes hphase).table
      rcases hdefines with ⟨name, address⟩ | hnext
      · exact h.record hphase rfl ((hdescribes hphase).keep rfl (hlists.define htable rfl rfl))
      · obtain rfl := (hdescribes hphase).site_eq hnext
        exact h.record hphase rfl ((hdescribes hphase).keep rfl (hlists.define htable rfl rfl))
  | referred hphase hword hsite hkind htable =>
      refine h.record hphase rfl ((hdescribes hphase).keep rfl ?_)
      exact (hdescribes hphase).table.refer htable rfl fun _ => rfl
  | appendedReference hphase hsite hkind htable =>
      refine h.record hphase rfl ((hdescribes hphase).push rfl ?_)
      exact (hdescribes hphase).table.refer htable rfl fun _ => rfl
  | strayed hphase hsite hkind hmisaligned =>
      -- from an aligned base on, the next place is aligned too
      obtain ⟨hroom, rfl⟩ := Image.addressAt_eq_ok_iff.mp hsite
      rw [(hdescribes hphase).start] at hroom hmisaligned
      exact absurd (Image.isAligned_place haligned hroom) hmisaligned
  | @patched report _ hphase hpatch =>
      refine ⟨hconfig, nofun, fun _ => ?_, nofun⟩
      refine ⟨report, assembly.draft, ?_, (hdescribes hphase).silent (Log.silent_patch _),
        hcoherent.draft, hconfig ▸ hpatch⟩
      rw [Log.firstPatch?_concat, (h.collecting hphase).1]
      rfl
  | @failed diagnostics hphase =>
      refine ⟨hconfig, nofun, nofun, fun _ => ⟨diagnostics, ?_⟩⟩
      rw [Log.firstPatch?_concat, (h.collecting hphase).1]
      rfl

end Step

/-- The log of a run accounts for the state that the run has reached. -/
theorem accounts_of_run {config : Config} (haligned : IsAligned config.baseAddress)
    (calls : List Call) : Accounts config (run config calls).1 (run config calls).2 := by
  have hrun : (run config calls).2.Coherent ∧
      Accounts config (run config calls).1 (run config calls).2 := by
    refine run_induction (motive := fun log assembly =>
      assembly.Coherent ∧ Accounts config log assembly) ?_ ?_ calls
    · exact ⟨coherent_start config, accounts_start config⟩
    · rintro log assembly call outcome after ⟨hcoherent, h⟩ hstep
      exact ⟨hcoherent.step hstep, h.step haligned hcoherent hstep⟩
  exact hrun.2

/-! ## Words with their references resolved -/

namespace Log

/-- The words that were appended, with every reference resolved. -/
structure Resolved (base : Address) (log : Log) (final : List Word) : Prop where
  length : final.length = log.appended.length
  /-- The words were given the handles 0, 1, 2 and so on. -/
  handles : log.appended.map Prod.fst = List.range log.appended.length
  /-- A word from which there is no reference is the one that was appended. -/
  untouched : ∀ handle word, (handle, word) ∈ log.appended →
    (∀ name, (handle, name) ∉ log.uses) → final[handle]? = some word
  /-- All references from one word are to one label. -/
  agreed : ∀ handle name name', (handle, name) ∈ log.uses → (handle, name') ∈ log.uses →
    name = name'
  /-- A word with references gets the field of the label, which is defined. -/
  patched : ∀ handle name, (handle, name) ∈ log.uses → ∃ word kind target,
    (handle, word) ∈ log.appended ∧ word.fixupKind? = some kind ∧
      log.addressOf? base name = some target ∧
      final[handle]? = some (word ||| kind.field target (placeAddress base handle))

section Resolved

variable {base : Address} {log : Log}

/-- A handle was given to one word. -/
theorem Resolved.word_eq {final : List Word} (h : Resolved base log final) {handle : Handle}
    {word word' : Word} (hmem : (handle, word) ∈ log.appended)
    (hmem' : (handle, word') ∈ log.appended) : word = word' := by
  have hnodup : (log.appended.map Prod.fst).Nodup := by
    rw [h.handles]
    exact List.nodup_range
  exact congrArg Prod.snd (List.inj_on_of_nodup_map hnodup hmem hmem' rfl)

/-- What the caller has given of a word stays: its opcode, and its registers unless it is a jump
that is patched. -/
theorem Resolved.kept {final : List Word} (h : Resolved base log final) {handle : Handle}
    {word : Word} (hmem : (handle, word) ∈ log.appended) :
    ∃ result, final[handle]? = some result ∧
      result.extractLsb' 26 6 = word.extractLsb' 26 6 ∧
      (word.fixupKind? = some .branch ∨ (∀ name, (handle, name) ∉ log.uses) →
        result.extractLsb' 16 10 = word.extractLsb' 16 10) := by
  by_cases huse : ∃ name, (handle, name) ∈ log.uses
  · obtain ⟨name, huse⟩ := huse
    obtain ⟨word', kind, target, hmem', hkind, -, hfinal⟩ := h.patched handle name huse
    obtain rfl := h.word_eq hmem hmem'
    refine ⟨_, hfinal, kind.opcode_or_field _ _ _, ?_⟩
    rintro (hbranch | hnone)
    · obtain rfl := Option.some.inj (hkind.symm.trans hbranch)
      exact registers_or_branchField _ _ _
    · exact absurd huse (hnone name)
  · have hnone : ∀ name, (handle, name) ∉ log.uses := fun name hmem => huse ⟨name, hmem⟩
    exact ⟨word, h.untouched handle word hmem hnone, rfl, fun _ => rfl⟩

variable {before after : Draft} {checkRanges : Bool} {report : PatchReport}

/-- A reference of the log is one of the table, to a label that is defined. -/
theorem Describes.resolves (h : Describes base log before)
    (hpatch : before.patch checkRanges = (.ok report, after)) {handle : Handle} {name : String}
    (huse : (handle, name) ∈ log.uses) :
    ∃ target fixup, before.symbols.Resolves name target fixup ∧ fixup.handle = handle ∧
      log.addressOf? base name = some target := by
  obtain ⟨record, hrecord, htells⟩ := h.table
  obtain ⟨site, kind, hrefer⟩ := (htells.uses handle name).mpr huse
  rcases hdefinition : record.definition? name with _ | target
  · have hmissing : .missing name ∈ before.symbols.demands := by
      rw [hrecord]
      exact Record.mem_demands_missing_iff.mpr ⟨hdefinition, _, hrefer⟩
    exact absurd hmissing ((Plan.failures_eq_nil_iff.mp (Draft.of_patch_ok hpatch).1).1 name)
  · refine ⟨target, ⟨handle, site, kind⟩, ?_, rfl, ?_⟩
    · rw [hrecord]
      exact Record.resolves_table_iff.mpr ⟨hdefinition, hrefer⟩
    · rw [← htells.addresses, hdefinition]

/-- A reference of the table is one of the log. -/
theorem Describes.mem_uses (h : Describes base log before) {name : String} {target : Address}
    {fixup : Fixup} (hresolves : before.symbols.Resolves name target fixup) :
    (fixup.handle, name) ∈ log.uses := by
  obtain ⟨record, hrecord, htells⟩ := h.table
  rw [hrecord] at hresolves
  exact (htells.uses fixup.handle name).mp
    ⟨fixup.site, fixup.kind, (Record.resolves_table_iff.mp hresolves).2⟩

/-- Patching the draft of a log resolves the references of the log. -/
theorem Describes.resolved (h : Describes base log before) (hcoherent : before.Coherent)
    (hpatch : before.patch checkRanges = (.ok report, after)) :
    Resolved base log after.image.words.toList := by
  obtain ⟨image, symbols⟩ := before
  have hconsistent := (Draft.failures_eq_nil_iff hcoherent.fits).mp (Draft.of_patch_ok hpatch).1
  have hinto := hconsistent.patchedInto hcoherent.fits
  rw [← (Draft.of_patch_ok hpatch).2.2] at hinto
  refine ⟨?_, h.handles, ?_, ?_, ?_⟩
  · rw [← h.size, ← hinto.size]
    exact Array.length_toList
  · intro handle word hmem hnone
    rw [Array.getElem?_toList, hinto.kept handle, h.mem_appended_iff.mp hmem]
    -- a reference of the table from here would be one of the log, since its label is defined
    rintro fixup hfixup rfl
    obtain ⟨label, hlabel, hmem⟩ := SymbolTable.mem_references_iff.mp hfixup
    obtain ⟨target, htarget⟩ := Option.isSome_iff_exists.mp
      (hconsistent.defined label hlabel (Array.ne_empty_of_mem hmem))
    exact hnone label.name (h.mem_uses ⟨label, hlabel, rfl, htarget, hmem⟩)
  · intro handle name name' huse huse'
    obtain ⟨target, fixup, hresolves, rfl, -⟩ := h.resolves hpatch huse
    obtain ⟨target', fixup', hresolves', hhandle, -⟩ := h.resolves hpatch huse'
    exact (hconsistent.agreed _ _ _ hresolves _ _ _ hresolves' hhandle.symm).1
  · intro handle name huse
    obtain ⟨target, fixup, hresolves, rfl, haddress⟩ := h.resolves hpatch huse
    have hhosts := hcoherent.hosts hresolves
    obtain ⟨word, hword, hkind⟩ := hhosts.kind
    have hsite : fixup.site = placeAddress base fixup.handle := by
      apply BitVec.eq_of_toNat_eq
      rw [hhosts.site, h.start]
      have hroom := hcoherent.fits fixup.handle hhosts.inside
      rw [h.start] at hroom
      exact (Image.toNat_place hroom).symm
    refine ⟨word, fixup.kind, target, h.mem_appended_iff.mpr hword,
      FixupKind.classify_eq_ok_iff.mp hkind, haddress, ?_⟩
    rw [Array.getElem?_toList, hinto.written name target fixup hresolves, hword, ← hsite,
      Option.map_some]

end Resolved

end Log

/-- If the first patching of a run succeeds, the final words are those that the log says: the words
that calls have appended, in the order of the calls, and each that is referred from with the field
of its one label, at the address that the first definition of the label gave to it. -/
theorem run_finalWords {config : Config} (haligned : IsAligned config.baseAddress)
    (calls : List Call) {report : PatchReport}
    (hpatch : (run config calls).1.firstPatch? = some (.ok report)) :
    ∃ final, (run config calls).2.finalWords = .ok final ∧
      Log.Resolved config.baseAddress (run config calls).1 final ∧
      ∀ handle word, (handle, word) ∈ (run config calls).1.appended →
        ∃ result, final[handle]? = some result ∧
          result.extractLsb' 26 6 = word.extractLsb' 26 6 ∧
          (word.fixupKind? = some .branch ∨
              (∀ name, (handle, name) ∉ (run config calls).1.uses) →
            result.extractLsb' 16 10 = word.extractLsb' 16 10) := by
  have h := accounts_of_run haligned calls
  rcases hphase : (run config calls).2.phase with _ | _ | _
  · rw [(h.collecting hphase).1] at hpatch
    cases hpatch
  · obtain ⟨_, before, -, hdescribes, hcoherent, hbefore⟩ := h.patched hphase
    have hresolved := hdescribes.resolved hcoherent hbefore
    refine ⟨_, ?_, hresolved, fun handle word hmem => hresolved.kept hmem⟩
    unfold finalWords
    rw [hphase]
    rfl
  · obtain ⟨diagnostics, hfirst⟩ := h.failed hphase
    rw [hfirst] at hpatch
    cases hpatch

/-- A jump forward, referred from twice, and a branch to itself. A reference from a word that is
neither is refused, and so is what comes after the patching. -/
theorem run_finalWords_end :
    let config : Config := { baseAddress := 0x1000 }
    let calls : List Call := [.appendReference 0x08000000 "end", .append 0x00000021,
      .reference 0 0x1000 "end", .reference 1 0x1004 "end", .defineHere "end",
      .appendReference 0x10000000 "end", .patch, .append 0, .define "late" 0, .patch]
    let log := (run config calls).1
    log.appended = [(0, 0x08000000), (1, 0x00000021), (2, 0x10000000)] ∧
      log.uses = [(0, "end"), (0, "end"), (2, "end")] ∧
      log.addressOf? 0x1000 "end" = some 0x1008 ∧
      log.firstPatch? = some (.ok ⟨1, 1, 1⟩) ∧
      (run config calls).2.finalWords = .ok [0x08000402, 0x00000021, 0x1000FFFF] ∧
      log.Resolved 0x1000 [0x08000402, 0x00000021, 0x1000FFFF] := by
  intro config calls log
  have hpatch : log.firstPatch? = some (.ok ⟨1, 1, 1⟩) := by decide
  have hwords : (run config calls).2.finalWords =
      .ok [0x08000402, 0x00000021, 0x1000FFFF] := by decide
  have haligned : IsAligned config.baseAddress := by decide
  obtain ⟨final, hfinal, hresolved, -⟩ := run_finalWords haligned calls hpatch
  rw [hwords] at hfinal
  obtain rfl := Except.ok.inj hfinal
  exact ⟨by decide, by decide, by decide, hpatch, hwords, hresolved⟩

end Assembly

end Backpatch
