import Backpatch.Proofs.Patch.Faults
import Backpatch.Proofs.Run.Step

/-!
# What holds of every assembly

The image and the symbol table of an assembly fit together, whatever was called and whatever failed.
`Assembly.Coherent` says how, and a step keeps it (`Coherent.step`): a word that is appended moves
no other word, so that references to those before stay right; a reference is recorded only from an
instruction that is there, at its address and with its kind; and a label enters the table with an
address or with a reference.

From this it follows what patching can find wrong. A reference that waits stands where it says, so
that only its target can be out of reach (`Draft.Coherent.fault_cases`). References from one
instruction are of one kind, so that they are in conflict exactly when they go to two labels
(`Draft.Coherent.contested_iff`).
-/

namespace Backpatch

/-- A reference comes from an instruction of the image, tells its address and is of its kind. -/
structure Image.Hosts (image : Image) (fixup : Fixup) : Prop where
  inside : fixup.handle < image.size
  site : fixup.site.toNat = image.base.toNat + wordSize * fixup.handle
  aligned : IsAligned fixup.site
  kind : ∃ word, image.words[fixup.handle]? = some word ∧
    FixupKind.classify word fixup.site = .ok fixup.kind

/-- What holds of each label that is recorded for an image. -/
structure Label.Coherent (image : Image) (label : Label) : Prop where
  /-- A word can stand where the label does. -/
  aligned : ∀ address, label.address = some address → IsAligned address
  /-- References that wait come from the image. -/
  hosted : ∀ fixup ∈ label.fixups, image.Hosts fixup
  /-- The label is not in the table for nothing. -/
  mentioned : label.isDefined ∨ label.fixups ≠ #[]

/-- What holds of each program under construction. -/
structure Draft.Coherent (draft : Draft) : Prop where
  /-- Every word has an address. -/
  fits : draft.image.Fits
  /-- No two labels have one name. -/
  unique : draft.symbols.names.Nodup
  labels : ∀ label ∈ draft.symbols.labels, label.Coherent draft.image

/-- What holds of an assembly after any calls. -/
structure Assembly.Coherent (assembly : Assembly) : Prop where
  /-- The image starts where the settings say. -/
  base : assembly.image.base = assembly.config.baseAddress
  draft : assembly.draft.Coherent
  /-- When references are patched, every label has its address and no reference waits. -/
  resolved : assembly.phase = .patched →
    ∀ label ∈ assembly.symbols.labels, label.isDefined ∧ label.fixups = #[]

/-! ## Changes of a draft -/

/-- A word that is appended changes nothing for the references before. -/
theorem Image.Hosts.push {image : Image} {fixup : Fixup} (h : image.Hosts fixup) (word : Word) :
    (image.push word).Hosts fixup where
  inside := by
    rw [size_push]
    exact Nat.lt_succ_of_lt h.inside
  site := h.site
  aligned := h.aligned
  kind := by
    obtain ⟨found, hword, hkind⟩ := h.kind
    refine ⟨found, ?_, hkind⟩
    show (image.words.push word)[fixup.handle]? = some found
    rw [Array.getElem?_push_lt h.inside, ← hword]
    exact (Array.getElem?_eq_getElem h.inside).symm

theorem Label.Coherent.push {image : Image} {label : Label} (h : label.Coherent image)
    (word : Word) : label.Coherent (image.push word) where
  aligned := h.aligned
  hosted := fun fixup hmem => (h.hosted fixup hmem).push word
  mentioned := h.mentioned

/-- A reference from a jump or a branch of the image, taken at its address. -/
theorem Image.hosts_of_addressOf {image : Image} (hfits : image.Fits) {handle : Handle}
    {site : Address} {word : Word} {kind : FixupKind} (hword : image.words[handle]? = some word)
    (hsite : image.addressOf handle = .ok site) (hkind : word.fixupKind? = some kind)
    (haligned : IsAligned site) : image.Hosts ⟨handle, site, kind⟩ := by
  obtain ⟨hlt, haddress⟩ := (addressOf_eq_ok_iff hfits).mp hsite
  exact ⟨hlt, haddress, haligned, word, hword, FixupKind.classify_of_some hkind site⟩

namespace Draft.Coherent

variable {image : Image} {symbols table : SymbolTable} {name : String}

theorem push (h : Coherent ⟨image, symbols⟩) {site : Address}
    (hsite : image.nextAddress = .ok site) (word : Word) :
    Coherent ⟨image.push word, symbols⟩ where
  fits := Image.fits_push (Image.addressAt_eq_ok_iff.mp hsite).1 word
  unique := h.unique
  labels := fun label hlabel => (h.labels label hlabel).push word

/-- The instruction that is appended hosts a reference from itself. -/
theorem hosts_push (h : Coherent ⟨image, symbols⟩) {site : Address} {word : Word}
    {kind : FixupKind} (hsite : image.nextAddress = .ok site) (hkind : word.fixupKind? = some kind)
    (haligned : IsAligned site) : (image.push word).Hosts ⟨image.size, site, kind⟩ := by
  have hlast : (image.push word).words[image.size]? = some word :=
    Array.getElem?_push_size
  have haddress : (image.push word).addressOf image.size = .ok site := by
    unfold Image.addressOf
    rw [if_pos (by simp)]
    exact hsite
  exact Image.hosts_of_addressOf (h.push hsite word).fits hlast haddress hkind haligned

/-- A name that is new has an entry in which nothing can be wrong yet. -/
theorem entry (h : Coherent ⟨image, symbols⟩) (name : String) :
    (∀ address, ((symbols.find? name).getD { name }).address = some address → IsAligned address) ∧
      ∀ fixup ∈ ((symbols.find? name).getD { name }).fixups, image.Hosts fixup := by
  rcases hentry : symbols.find? name with _ | label
  · exact ⟨nofun, fun fixup hmem => absurd hmem (Array.not_mem_empty fixup)⟩
  · have hlabel := h.labels label ((SymbolTable.find?_eq_some_iff h.unique).mp hentry).1
    exact ⟨hlabel.aligned, hlabel.hosted⟩

/-- Only the entry that is changed has to be looked at. -/
theorem update (h : Coherent ⟨image, symbols⟩) {change : Label → Label}
    (hname : ∀ label, (change label).name = label.name)
    (hchange : (change ((symbols.find? name).getD { name })).Coherent image) :
    Coherent ⟨image, symbols.update name change⟩ where
  fits := h.fits
  unique := SymbolTable.nodup_names_update hname h.unique
  labels := by
    intro label hlabel
    rcases (SymbolTable.mem_update_iff hname h.unique).mp hlabel with rfl | ⟨hmem, -⟩
    · exact hchange
    · exact h.labels label hmem

theorem define (h : Coherent ⟨image, symbols⟩) {address : Address}
    (hdefine : symbols.define name address = (.ok (), table)) : Coherent ⟨image, table⟩ := by
  obtain ⟨haligned, ⟨-, rfl⟩ | ⟨-, rfl⟩⟩ := SymbolTable.of_define_ok hdefine
  · exact h
  · refine h.update (fun _ => rfl) ⟨?_, (h.entry name).2, Or.inl rfl⟩
    intro known hknown
    obtain rfl := Option.some.inj hknown
    exact haligned

theorem addReference (h : Coherent ⟨image, symbols⟩) {fixup : Fixup}
    (hadd : symbols.addReference fixup name = (.ok (), table)) (hhosts : image.Hosts fixup) :
    Coherent ⟨image, table⟩ := by
  obtain ⟨-, rfl⟩ := SymbolTable.of_addReference_ok hadd
  refine h.update (fun _ => rfl) ⟨(h.entry name).1, ?_, Or.inr Array.push_ne_empty⟩
  intro other hother
  rcases Array.mem_push.mp hother with hold | rfl
  · exact (h.entry name).2 other hold
  · exact hhosts

section Patched

variable {draft after : Draft} {checkRanges : Bool} {report : PatchReport}

/-- A patching that succeeds leaves labels that are defined, without references. -/
theorem resolved (h : draft.Coherent) (hpatch : draft.patch checkRanges = (.ok report, after)) :
    ∀ label ∈ after.symbols.labels, label.isDefined ∧ label.fixups = #[] := by
  obtain ⟨hnil, -, rfl⟩ := Draft.of_patch_ok hpatch
  have hconsistent := (Draft.failures_eq_nil_iff h.fits).mp hnil
  intro label hlabel
  obtain ⟨before, hbefore, rfl⟩ := List.mem_map.mp hlabel
  refine ⟨?_, rfl⟩
  show before.isDefined
  rcases (h.labels before hbefore).mentioned with hdefined | hfixups
  · exact hdefined
  · exact hconsistent.defined before hbefore hfixups

theorem patched (h : draft.Coherent) (hpatch : draft.patch checkRanges = (.ok report, after)) :
    after.Coherent := by
  have hresolved := h.resolved hpatch
  obtain ⟨-, -, rfl⟩ := Draft.of_patch_ok hpatch
  refine ⟨?_, ?_, ?_⟩
  · exact h.fits.congr rfl (by simp [Draft.patched, Plan.patched, Image.size])
  · have hnames : (draft.patched checkRanges).symbols.names = draft.symbols.names := by
      simp [Draft.patched, SymbolTable.names, SymbolTable.clearFixups]
    rw [hnames]
    exact h.unique
  · intro label hlabel
    obtain ⟨hdefined, hfixups⟩ := hresolved label hlabel
    obtain ⟨before, hbefore, rfl⟩ := List.mem_map.mp hlabel
    refine ⟨(h.labels before hbefore).aligned, ?_, Or.inl hdefined⟩
    intro fixup hmem
    rw [hfixups] at hmem
    exact absurd hmem (Array.not_mem_empty fixup)

end Patched

end Draft.Coherent

/-! ## Steps and runs -/

namespace Assembly

/-- An assembly that has recorded nothing is coherent. -/
theorem coherent_start (config : Config) : (start config).Coherent where
  base := rfl
  draft := ⟨Image.fits_of_empty _, List.nodup_nil, fun _ hlabel => absurd hlabel List.not_mem_nil⟩
  resolved := fun hphase => nomatch hphase

/-- While an assembly collects, only its draft has to be looked at. -/
theorem Coherent.collecting {assembly : Assembly} (h : assembly.Coherent)
    (hphase : assembly.phase = .collecting) {draft : Draft}
    (hbase : draft.image.base = assembly.image.base) (hdraft : draft.Coherent) :
    Coherent { assembly with draft } where
  base := hbase.trans h.base
  draft := hdraft
  resolved := by
    intro hpatched
    rw [show ({ assembly with draft } : Assembly).phase = .collecting from hphase] at hpatched
    cases hpatched

/-- A step keeps an assembly coherent. -/
theorem Coherent.step {assembly after : Assembly} {call : Call} {outcome : Outcome}
    (h : assembly.Coherent) (hstep : Step assembly call outcome after) : after.Coherent := by
  have hdraft := h.draft
  cases hstep with
  | closed => exact h
  | refused => exact h
  | appended hphase hsite =>
      exact h.collecting hphase rfl (hdraft.push hsite _)
  | defined hphase _ htable =>
      exact h.collecting hphase rfl (hdraft.define htable)
  | referred hphase hword hsite hkind htable =>
      have haligned := (SymbolTable.of_addReference_ok htable).1
      have hhosts := Image.hosts_of_addressOf hdraft.fits hword hsite hkind haligned
      exact h.collecting hphase rfl (hdraft.addReference htable hhosts)
  | appendedReference hphase hsite hkind htable =>
      have haligned := (SymbolTable.of_addReference_ok htable).1
      have hhosts := hdraft.hosts_push hsite hkind haligned
      exact h.collecting hphase rfl ((hdraft.push hsite _).addReference htable hhosts)
  | strayed hphase hsite =>
      exact h.collecting hphase rfl (hdraft.push hsite _)
  | patched _ hpatch =>
      refine ⟨?_, hdraft.patched hpatch, fun _ => hdraft.resolved hpatch⟩
      obtain ⟨-, -, rfl⟩ := Draft.of_patch_ok hpatch
      exact h.base
  | failed => exact ⟨h.base, hdraft, fun hphase => nomatch hphase⟩

/-- Any calls lead to a coherent assembly with the settings that it was started with. -/
theorem coherent_of_run (config : Config) (calls : List Call) :
    (run config calls).2.config = config ∧ (run config calls).2.Coherent := by
  refine run_induction (motive := fun _ assembly =>
    assembly.config = config ∧ assembly.Coherent) ?_ ?_ calls
  · exact ⟨rfl, coherent_start config⟩
  · intro log assembly call outcome after h hstep
    exact ⟨hstep.config_eq.trans h.1, h.2.step hstep⟩

end Assembly

/-! ## What patching can find wrong -/

section Failures

variable {image : Image} {symbols : SymbolTable} {checkRanges : Bool}

/-- The instruction at an address refers to a label that is defined and, if that is checked, within
reach. -/
def Draft.RefersTo (checkRanges : Bool) (draft : Draft) (site : Address) (name : String) : Prop :=
  ∃ target fixup, draft.symbols.Resolves name target fixup ∧ fixup.site = site ∧
    (checkRanges = true → fixup.kind.reaches target site = true)

/-- A reference to a label that is defined is in order, unless its target is out of reach. -/
theorem Image.Hosts.patch_eq {fixup : Fixup} (h : image.Hosts fixup) (hfits : image.Fits)
    (checkRanges : Bool) (name : String) (target : Address) :
    fixup.patch checkRanges image name target =
      if checkRanges && !fixup.kind.reaches target fixup.site then
        .error (fixup.kind.outOfRange name fixup.site)
      else .ok { name, field := fixup.kind.field target fixup.site } :=
  Fixup.patch_of_addressOf ((addressOf_eq_ok_iff hfits).mpr ⟨h.inside, h.site⟩) checkRanges name
    target

/-- References from one instruction are of one kind. -/
theorem Image.Hosts.kind_eq {fixup fixup' : Fixup} (h : image.Hosts fixup)
    (h' : image.Hosts fixup') (hhandle : fixup.handle = fixup'.handle) :
    fixup.kind = fixup'.kind := by
  obtain ⟨word, hword, hkind⟩ := h.kind
  obtain ⟨word', hword', hkind'⟩ := h'.kind
  rw [hhandle, hword'] at hword
  obtain rfl := Option.some.inj hword
  rw [FixupKind.classify_eq_ok_iff] at hkind hkind'
  exact Option.some.inj (hkind.symm.trans hkind')

/-- Different instructions have different addresses. -/
theorem Image.Hosts.handle_eq_iff {fixup fixup' : Fixup} (h : image.Hosts fixup)
    (h' : image.Hosts fixup') : fixup.handle = fixup'.handle ↔ fixup.site = fixup'.site := by
  rw [← BitVec.toNat_inj, h.site, h'.site, Nat.add_left_cancel_iff,
    Nat.mul_left_cancel_iff (by decide)]

/-- A reference that is resolved waits in the table of its draft. -/
theorem Draft.Coherent.hosts (h : Coherent ⟨image, symbols⟩) {name : String} {target : Address}
    {fixup : Fixup} (hresolves : symbols.Resolves name target fixup) : image.Hosts fixup := by
  obtain ⟨label, hlabel, -, -, hmem⟩ := hresolves
  exact (h.labels label hlabel).hosted fixup hmem

/-- A label has one address. -/
theorem Draft.Coherent.target_eq (h : Coherent ⟨image, symbols⟩) {name : String}
    {target target' : Address} {fixup fixup' : Fixup}
    (hresolves : symbols.Resolves name target fixup)
    (hresolves' : symbols.Resolves name target' fixup') : target = target' := by
  obtain ⟨label, hlabel, hname, haddress, -⟩ := hresolves
  obtain ⟨label', hlabel', hname', haddress', -⟩ := hresolves'
  obtain rfl : label = label' :=
    List.inj_on_of_nodup_map h.unique hlabel hlabel' (hname.trans hname'.symm)
  exact Option.some.inj (haddress.symm.trans haddress')

/-- What a demand is refused for on its own account: a label is missing, or a target is out of
reach. -/
theorem Draft.Coherent.fault_cases (h : Coherent ⟨image, symbols⟩) {demand : Demand}
    (hmem : demand ∈ symbols.demands) {error : PatchError}
    (hfault : demand.fault? checkRanges image = some error) :
    (∃ name, error = .undefinedLabel name) ∨
      ∃ kind name site, error = FixupKind.outOfRange kind name site := by
  rcases demand with name | ⟨name, target, fixup⟩
  · exact Or.inl ⟨name, (Option.some.inj hfault).symm⟩
  · have hhosts := h.hosts (SymbolTable.mem_demands_fixup_iff.mp hmem)
    have hpatch := hhosts.patch_eq h.fits checkRanges name target
    split at hpatch
    · rw [Demand.fault?_of_error hpatch] at hfault
      exact Or.inr ⟨fixup.kind, name, fixup.site, (Option.some.inj hfault).symm⟩
    · rw [Demand.fault?_of_ok hpatch] at hfault
      cases hfault

/-- References from one instruction are in conflict exactly when they go to two labels. -/
theorem Draft.Coherent.contested_iff (h : Coherent ⟨image, symbols⟩) {site : Address} :
    Plan.Contested checkRanges image symbols.demands site ↔
      ∃ name name', name ≠ name' ∧ RefersTo checkRanges ⟨image, symbols⟩ site name ∧
        RefersTo checkRanges ⟨image, symbols⟩ site name' := by
  constructor
  · rintro ⟨name, target, fixup, patch, name', target', fixup', patch', hmem, hpatch, hmem',
      hpatch', hhandle, hsite, hdiffer⟩
    rw [SymbolTable.mem_demands_fixup_iff] at hmem hmem'
    have hhosts := h.hosts hmem
    have hhosts' := h.hosts hmem'
    obtain ⟨-, hreach, rfl⟩ := (Fixup.patch_eq_ok_iff h.fits).mp hpatch
    obtain ⟨-, hreach', rfl⟩ := (Fixup.patch_eq_ok_iff h.fits).mp hpatch'
    have hsame : fixup.site = fixup'.site := (hhosts.handle_eq_iff hhosts').mp hhandle
    refine ⟨name, name', ?_, ⟨target, fixup, hmem, hsite, hsite ▸ hreach⟩,
      ⟨target', fixup', hmem', hsame.symm.trans hsite, (hsame.symm.trans hsite) ▸ hreach'⟩⟩
    -- two references to one label ask for the same bits
    rintro rfl
    apply hdiffer
    rw [h.target_eq hmem hmem', hsame, hhosts.kind_eq hhosts' hhandle]
  · rintro ⟨name, name', hname, ⟨target, fixup, hresolves, rfl, hreach⟩,
      ⟨target', fixup', hresolves', hsite, hreach'⟩⟩
    have hhosts := h.hosts hresolves
    have hhosts' := h.hosts hresolves'
    refine ⟨name, target, fixup, _, name', target', fixup', _,
      SymbolTable.mem_demands_fixup_iff.mpr hresolves,
      (Fixup.patch_eq_ok_iff h.fits).mpr ⟨⟨hhosts.inside, hhosts.site⟩, hreach, rfl⟩,
      SymbolTable.mem_demands_fixup_iff.mpr hresolves',
      (Fixup.patch_eq_ok_iff h.fits).mpr
        ⟨⟨hhosts'.inside, hhosts'.site⟩, hsite.symm ▸ hreach', rfl⟩,
      (hhosts.handle_eq_iff hhosts').mpr hsite.symm, rfl, ?_⟩
    intro heq
    exact hname (Patch.mk.inj heq).1

/-- What stands in the way of a coherent draft: labels that are missing, targets out of reach, and
references in conflict. -/
theorem Draft.Coherent.failure_cases {draft : Draft} (h : draft.Coherent) {error : PatchError}
    (hmem : error ∈ draft.failures checkRanges) :
    (∃ name, error = .undefinedLabel name) ∨
      (∃ kind name site, error = FixupKind.outOfRange kind name site) ∨
        ∃ site, error = .conflictingReference site := by
  rcases Plan.mem_failures_iff.mp hmem with ⟨demand, hdemand, hfault⟩ | ⟨site, rfl, -⟩
  · rcases h.fault_cases hdemand hfault with hmissing | hreach
    · exact Or.inl hmissing
    · exact Or.inr (Or.inl hreach)
  · exact Or.inr (Or.inr ⟨site, rfl⟩)

/-- A conflict stands in the way exactly where an instruction refers to two labels. -/
theorem Draft.Coherent.conflict_iff {draft : Draft} (h : draft.Coherent) {site : Address} :
    .conflictingReference site ∈ draft.failures checkRanges ↔
      ∃ name name', name ≠ name' ∧ draft.RefersTo checkRanges site name ∧
        draft.RefersTo checkRanges site name' := by
  refine Iff.trans Plan.mem_failures_iff (Iff.trans ?_ h.contested_iff)
  constructor
  · rintro (⟨demand, hdemand, hfault⟩ | ⟨site', hsite, hcontested⟩)
    · rcases h.fault_cases hdemand hfault with ⟨name, ⟨⟩⟩ | ⟨kind, name, site', hsite⟩
      cases kind <;> cases hsite
    · obtain rfl := PatchError.conflictingReference.inj hsite
      exact hcontested
  · intro hcontested
    exact Or.inr ⟨site, rfl, hcontested⟩

end Failures

namespace Assembly

/-- Patching would report a failure. -/
def Reports (assembly : Assembly) (error : PatchError) : Prop :=
  ∃ diagnostics, assembly.patch.1 = .error diagnostics ∧ error ∈ diagnostics

/-- While an assembly collects, its patching reports what stands in the way of its draft. -/
theorem reports_iff {assembly : Assembly} (hphase : assembly.phase = .collecting)
    {error : PatchError} :
    assembly.Reports error ↔ error ∈ assembly.draft.failures assembly.config.checkRanges := by
  obtain ⟨config, draft, phase⟩ := assembly
  obtain rfl : phase = .collecting := hphase
  unfold Reports
  rcases hpatch : draft.patch config.checkRanges with ⟨diagnostics | report, after⟩
  · simp only [patch, hpatch, Except.error.injEq]
    rw [← (Draft.of_patch_error hpatch).2.1]
    constructor
    · rintro ⟨_, rfl, hmem⟩
      exact hmem
    · intro hmem
      exact ⟨diagnostics, rfl, hmem⟩
  · simp only [patch, hpatch]
    rw [(Draft.of_patch_ok hpatch).1]
    constructor
    · rintro ⟨_, ⟨⟩, -⟩
    · intro hmem
      exact absurd hmem List.not_mem_nil

/-- Whatever is called, and whatever of it fails, image and table stay coherent, and a label is
found under its name. While references are recorded, patching can report no handle and no address
that is not right, and a conflict exactly where one instruction refers to two labels. -/
theorem run_coherent (config : Config) (calls : List Call) :
    let assembly := (run config calls).2
    assembly.config = config ∧ assembly.Coherent ∧
      (∀ name label, assembly.symbols.find? name = some label ↔
        label ∈ assembly.symbols.labels ∧ label.name = name) ∧
      (assembly.phase = .collecting →
        (∀ handle, ¬assembly.Reports (.unknownHandle handle)) ∧
          (∀ recorded actual, ¬assembly.Reports (.addressMismatch recorded actual)) ∧
          ∀ site, assembly.Reports (.conflictingReference site) ↔
            ∃ name name', name ≠ name' ∧
              assembly.draft.RefersTo config.checkRanges site name ∧
              assembly.draft.RefersTo config.checkRanges site name') := by
  intro assembly
  obtain ⟨hconfig, hcoherent⟩ := coherent_of_run config calls
  refine ⟨hconfig, hcoherent,
    fun name label => SymbolTable.find?_eq_some_iff hcoherent.draft.unique, ?_⟩
  intro hphase
  rw [← hconfig]
  refine ⟨?_, ?_, ?_⟩
  · intro handle hreported
    rcases hcoherent.draft.failure_cases ((reports_iff hphase).mp hreported) with
      ⟨name, ⟨⟩⟩ | ⟨kind, name, site, herror⟩ | ⟨site, ⟨⟩⟩
    cases kind <;> cases herror
  · intro recorded actual hreported
    rcases hcoherent.draft.failure_cases ((reports_iff hphase).mp hreported) with
      ⟨name, ⟨⟩⟩ | ⟨kind, name, site, herror⟩ | ⟨site, ⟨⟩⟩
    cases kind <;> cases herror
  · intro site
    rw [reports_iff hphase]
    exact hcoherent.draft.conflict_iff

/-- One jump that refers to two labels, and a reference from an instruction that is not there. -/
theorem run_coherent_two_labels :
    let calls : List Call := [.append 0x08000000, .define "a" 0, .reference 0 0 "a",
      .reference 7 28 "a", .reference 0 0 "b", .define "b" 4]
    let assembly := (run {} calls).2
    (run {} calls).1.map (·.2.failed) = [false, false, false, true, false, false] ∧
      assembly.phase = .collecting ∧ assembly.Coherent ∧
      assembly.Reports (.conflictingReference 0) ∧ ¬assembly.Reports (.unknownHandle 7) := by
  intro calls assembly
  have hphase : assembly.phase = .collecting := rfl
  obtain ⟨-, hcoherent, -, hfailures⟩ := run_coherent {} calls
  obtain ⟨hunknown, -, hconflict⟩ := hfailures hphase
  refine ⟨by decide, hphase, hcoherent, (hconflict 0).mpr ?_, hunknown 7⟩
  refine ⟨"a", "b", by decide, ⟨0, ⟨0, 0, .jump⟩, ?_, rfl, fun _ => by decide⟩,
    ⟨4, ⟨0, 0, .jump⟩, ?_, rfl, fun _ => by decide⟩⟩
  · exact ⟨⟨"a", some 0, #[⟨0, 0, .jump⟩]⟩, by decide, rfl, rfl, Array.mem_singleton.mpr rfl⟩
  · exact ⟨⟨"b", some 4, #[⟨0, 0, .jump⟩]⟩, by decide, rfl, rfl, Array.mem_singleton.mpr rfl⟩

end Assembly

end Backpatch
