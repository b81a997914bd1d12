import Backpatch.Proofs.Patch.Faults

/-!
# What a failed patching reports

The report of a patching that fails, told label by label and reference by reference, without the
plan that finds it.

* `Link`: a reference together with the label that it is to. `SymbolTable.links` are the links of a
  table, in the order in which they are visited.
* `Link.fault?`: what is wrong with a link by itself. `SymbolTable.first?` is the first link of an
  instruction with which nothing is; later ones have to agree with it.
* `SymbolTable.complaints`: one complaint for each label that is missing, and one at most for each
  link. `Draft.failures_eq_complaints`: this is what patching finds.
* `SymbolTable.sound`: the table without the links that are wrong by themselves. Its complaints are
  the other ones of the whole table (`complaints_sound`), so that no link hides what is wrong with
  the rest.
-/

namespace Backpatch

/-! ## Links -/

/-- A reference, with the name and the address of the label that it is to. -/
structure Link where
  name : String
  target : Address
  fixup : Fixup
  deriving DecidableEq, Repr

/-- The references to a label that has an address, oldest first. -/
def Label.links (label : Label) : List Link :=
  match label.address with
  | none => []
  | some target => label.fixups.toList.map fun fixup => { name := label.name, target, fixup }

/-- The references of a table to labels that have an address, in the order of labels and
references. -/
def SymbolTable.links (table : SymbolTable) : List Link :=
  table.labels.flatMap Label.links

/-- The bits that a reference asks for. -/
def Link.field (link : Link) : Word :=
  link.fixup.kind.field link.target link.fixup.site

/-- Whether the target of a reference is out of its range. -/
def Link.outOfRange? (link : Link) : Option PatchError :=
  match link.fixup.kind with
  | .jump =>
    if JumpReaches link.target link.fixup.site then none
    else some (.jumpOutOfRegion link.name link.fixup.site)
  | .branch =>
    if DisplacementFits (displacement link.target link.fixup.site) then none
    else some (.displacementOverflow link.name link.fixup.site)

/-- A reference goes against another one from its instruction when it is to another label or asks
for other bits. -/
def Link.conflict? (link first : Link) : Option PatchError :=
  if link.name = first.name ∧ link.field = first.field then none
  else some (.conflictingReference link.fixup.site)

section Complaints

variable (checkRanges : Bool) (image : Image)

/-- What is wrong with a reference by itself: the first of the checks that it does not pass. -/
def Link.fault? (link : Link) : Option PatchError :=
  let site := placeAddress image.base link.fixup.handle
  if image.size ≤ link.fixup.handle then some (.unknownHandle link.fixup.handle)
  else if link.fixup.site ≠ site then some (.addressMismatch link.fixup.site site)
  else if checkRanges then link.outOfRange?
  else none

/-- Whether a reference comes from an instruction and nothing is wrong with it. -/
def Link.isSoundAt (handle : Handle) (link : Link) : Bool :=
  decide (link.fixup.handle = handle) && (link.fault? checkRanges image).isNone

/-- The first reference from an instruction with which nothing is wrong. -/
def SymbolTable.first? (table : SymbolTable) (handle : Handle) : Option Link :=
  table.links.find? (Link.isSoundAt checkRanges image handle)

/-- What is reported of a reference, if `first` tells the first sound one from each instruction. -/
def Link.complaint? (first : Handle → Option Link) (link : Link) : Option PatchError :=
  (link.fault? checkRanges image).or ((first link.fixup.handle).bind link.conflict?)

/-- What is reported of a label and of the references to it. -/
def Label.complaints (first : Handle → Option Link) (label : Label) : List PatchError :=
  match label.address with
  | none => if label.fixups.isEmpty then [] else [.undefinedLabel label.name]
  | some target => label.fixups.toList.filterMap fun fixup =>
    Link.complaint? checkRanges image first { name := label.name, target, fixup }

/-- What is reported of a table, in the order of labels and references. -/
def SymbolTable.complaints (table : SymbolTable) : List PatchError :=
  table.labels.flatMap (Label.complaints checkRanges image (table.first? checkRanges image))

/-- A label without the references that are wrong by themselves. Those to a label without an address
stay, since nothing is known of them. -/
def Label.sound (label : Label) : Label :=
  { label with
    fixups := label.fixups.filter fun fixup => label.address.all fun target =>
      (Link.fault? checkRanges image { name := label.name, target, fixup }).isNone }

/-- A table without the references that are wrong by themselves. -/
def SymbolTable.sound (table : SymbolTable) : SymbolTable :=
  { labels := table.labels.map (Label.sound checkRanges image) }

end Complaints

/-- The name that a failure reports as undefined. -/
def PatchError.undefinedName? : PatchError → Option String
  | .undefinedLabel name => some name
  | _ => none

/-- Whether a failure is about one reference by itself. -/
def PatchError.isFault : PatchError → Bool
  | .unknownHandle _ | .addressMismatch _ _ | .jumpOutOfRegion _ _ | .displacementOverflow _ _ =>
    true
  | _ => false

variable {checkRanges : Bool} {image : Image}

/-! ## Links and demands -/

/-- The reference of a demand, if it is one to a label that has an address. -/
def Demand.link? : Demand → Option Link
  | .missing _ => none
  | .fixup name target reference => some { name, target, fixup := reference }

theorem SymbolTable.filterMap_link? (table : SymbolTable) :
    table.demands.filterMap Demand.link? = table.links := by
  unfold demands links
  rw [List.filterMap_flatMap]
  refine List.flatMap_congr fun label _ => ?_
  unfold Label.demands Label.links
  cases label.address with
  | none =>
      by_cases hempty : label.fixups.isEmpty = true
      · simp [hempty]
      · simp [hempty, Demand.link?]
  | some target =>
      simp only [List.filterMap_map]
      exact congrFun List.filterMap_eq_map label.fixups.toList

namespace Link

variable {link : Link}

theorem fault?_of_placed (h : image.addressOf link.fixup.handle = .ok link.fixup.site) :
    link.fault? checkRanges image = if checkRanges then link.outOfRange? else none := by
  have hlt := Image.lt_size_of_addressOf h
  have hsite : link.fixup.site = placeAddress image.base link.fixup.handle := by
    unfold Image.addressOf at h
    rw [if_pos hlt] at h
    exact (Image.addressAt_eq_ok_iff.mp h).2
  unfold fault?
  rw [if_neg (Nat.not_le_of_lt hlt), if_neg (not_not.mpr hsite)]

/-- The range check of a reference, with the failure that it leads to. -/
theorem outOfRange?_eq (link : Link) :
    link.outOfRange? =
      if link.fixup.kind.reaches link.target link.fixup.site then none
      else some (link.fixup.kind.outOfRange link.name link.fixup.site) := by
  unfold outOfRange? FixupKind.reaches FixupKind.outOfRange
  cases link.fixup.kind with
  | jump => simp only [decide_eq_true_eq]
  | branch => simp only [decide_eq_true_eq]

/-- A reference gets its patch unless something is wrong with it by itself. -/
theorem patch_eq (hfits : image.Fits) (link : Link) :
    link.fixup.patch checkRanges image link.name link.target =
      (link.fault? checkRanges image).elim (.ok { name := link.name, field := link.field })
        .error := by
  by_cases hlt : link.fixup.handle < image.size
  · have hactual : image.addressOf link.fixup.handle =
        .ok (placeAddress image.base link.fixup.handle) :=
      (if_pos hlt).trans (Image.addressAt_of_lt (hfits _ hlt))
    by_cases hsite : link.fixup.site = placeAddress image.base link.fixup.handle
    · rw [← hsite] at hactual
      rw [Fixup.patch_of_addressOf hactual, fault?_of_placed hactual, outOfRange?_eq]
      cases checkRanges with
      | false => rfl
      | true =>
          cases link.fixup.kind.reaches link.target link.fixup.site with
          | false => rfl
          | true => rfl
    · unfold Fixup.patch fault?
      rw [hactual]
      simp only
      rw [if_neg (Nat.not_le_of_lt hlt), if_pos hsite, if_pos (Ne.symm hsite)]
      rfl
  · unfold Fixup.patch fault?
    rw [Image.addressOf_of_not_lt hlt, if_pos (Nat.le_of_not_lt hlt)]
    rfl

theorem patch_of_fault? (hfits : image.Fits) {error : PatchError}
    (h : link.fault? checkRanges image = some error) :
    link.fixup.patch checkRanges image link.name link.target = .error error := by
  rw [link.patch_eq hfits, h]
  rfl

theorem patch_of_sound (hfits : image.Fits) (h : link.fault? checkRanges image = none) :
    link.fixup.patch checkRanges image link.name link.target =
      .ok { name := link.name, field := link.field } := by
  rw [link.patch_eq hfits, h]
  rfl

end Link

/-! ## The complaints of a plan -/

section Demands

variable (hfits : image.Fits)
include hfits

/-- The patch that a demand asks for at an instruction is that of its link, if nothing is wrong with
the link. -/
theorem Demand.patchAt?_eq (demand : Demand) (handle : Handle) :
    demand.patchAt? checkRanges image handle =
      (demand.link?.filter (Link.isSoundAt checkRanges image handle)).map fun link =>
        (link.fixup.kind, { name := link.name, field := link.field }) := by
  cases demand with
  | missing name => rfl
  | fixup name target fixup =>
      unfold patchAt? link?
      rw [Option.filter_some]
      by_cases hhandle : fixup.handle = handle
      · cases hfault : Link.fault? checkRanges image ⟨name, target, fixup⟩ with
        | none =>
            have hpatch := Link.patch_of_sound hfits hfault
            simp [hhandle, hpatch, Link.isSoundAt, hfault]
        | some error =>
            have hpatch := Link.patch_of_fault? hfits hfault
            simp [hhandle, hpatch, Link.isSoundAt, hfault]
      · simp [hhandle, Link.isSoundAt]

/-- The patch accepted for an instruction is that of the first link with which nothing is wrong. -/
theorem Plan.accepted_eq (demands : List Demand) (handle : Handle) :
    accepted checkRanges image demands handle =
      ((demands.filterMap Demand.link?).find? (Link.isSoundAt checkRanges image handle)).map
        fun link => (link.fixup.kind, { name := link.name, field := link.field }) := by
  unfold accepted
  induction demands with
  | nil => rfl
  | cons demand rest ih =>
      rw [List.findSome?_cons, Demand.patchAt?_eq hfits, ih, List.filterMap_cons]
      cases demand.link? with
      | none => rfl
      | some link =>
          rw [Option.filter_some, List.find?_cons]
          cases link.isSoundAt checkRanges image handle with
          | false => rfl
          | true => rfl

/-- What the demand of a link is refused for is the complaint about the link. -/
theorem Demand.failure?_eq {table : SymbolTable} {link : Link} (hlink : link ∈ table.links) :
    (Demand.fixup link.name link.target link.fixup).failure? checkRanges image
        (Plan.accepted checkRanges image table.demands) =
      link.complaint? checkRanges image (table.first? checkRanges image) := by
  unfold Link.complaint?
  cases hfault : link.fault? checkRanges image with
  | some error => rw [failure?_of_error (Link.patch_of_fault? hfits hfault), Option.some_or]
  | none =>
      have hsome : (table.first? checkRanges image link.fixup.handle).isSome := by
        unfold SymbolTable.first?
        rw [List.find?_isSome]
        exact ⟨link, hlink, by simp [Link.isSoundAt, hfault]⟩
      obtain ⟨first, hfirst⟩ := Option.isSome_iff_exists.mp hsome
      rw [failure?_of_ok (Link.patch_of_sound hfits hfault), Plan.accepted_eq hfits,
        table.filterMap_link?, ← SymbolTable.first?, hfirst, Option.none_or, Option.bind_some,
        Option.map_some, Option.map_some, Link.conflict?]
      simp only [Option.some_inj, Patch.mk.injEq, eq_comm]

/-- What patching finds wrong is what is reported of the labels and of the references to them. -/
theorem Draft.failures_eq_complaints (table : SymbolTable) :
    Draft.failures checkRanges ⟨image, table⟩ = table.complaints checkRanges image := by
  unfold Draft.failures Plan.failures SymbolTable.complaints
  conv_lhs => rw [SymbolTable.demands, List.filterMap_flatMap]
  refine List.flatMap_congr fun label hlabel => ?_
  have hlink : ∀ link ∈ label.links, link ∈ table.links := fun link hmem =>
    List.mem_flatMap.mpr ⟨label, hlabel, hmem⟩
  unfold Label.links at hlink
  unfold Label.demands Label.complaints
  cases haddress : label.address with
  | none =>
      by_cases hempty : label.fixups.isEmpty = true
      · simp [hempty]
      · simp [hempty, Demand.failure?]
  | some target =>
      rw [haddress] at hlink
      simp only [List.filterMap_map]
      refine List.filterMap_congr fun fixup hfixup => ?_
      exact Demand.failure?_eq hfits (hlink _ (List.mem_map_of_mem hfixup))

end Demands

/-! ## Each problem once -/

namespace Link

variable {link : Link} {error : PatchError} {first : Handle → Option Link}

theorem isFault_of_fault? (h : link.fault? checkRanges image = some error) :
    error.isFault = true := by
  unfold fault? outOfRange? at h
  simp only at h
  split at h
  · cases h
    rfl
  · split at h
    · cases h
      rfl
    · split at h
      · split at h
        · split at h
          · cases h
          · cases h
            rfl
        · split at h
          · cases h
          · cases h
            rfl
      · cases h

theorem conflict?_eq_some_iff {other : Link} :
    link.conflict? other = some error ↔
      ¬(link.name = other.name ∧ link.field = other.field) ∧
        error = .conflictingReference link.fixup.site := by
  unfold conflict?
  split
  · next h => simp [h]
  · next h => simp [h, eq_comm]

/-- A reference that is wrong by itself is reported for that. -/
theorem complaint?_of_fault? (h : link.fault? checkRanges image = some error) :
    link.complaint? checkRanges image first = some error := by
  unfold complaint?
  rw [h, Option.some_or]

/-- Any other reference is reported for a conflict only. -/
theorem complaint?_of_sound (h : link.fault? checkRanges image = none)
    (hcomplaint : link.complaint? checkRanges image first = some error) :
    error = .conflictingReference link.fixup.site := by
  unfold complaint? at hcomplaint
  rw [h, Option.none_or] at hcomplaint
  obtain ⟨other, -, hother⟩ := Option.bind_eq_some_iff.mp hcomplaint
  exact (conflict?_eq_some_iff.mp hother).2

/-- No reference is reported as an undefined label. -/
theorem undefinedName?_of_complaint? (h : link.complaint? checkRanges image first = some error) :
    error.undefinedName? = none := by
  cases hfault : link.fault? checkRanges image with
  | some own =>
      obtain rfl : own = error := Option.some.inj ((complaint?_of_fault? hfault).symm.trans h)
      have hown := isFault_of_fault? hfault
      cases own with
      | undefinedLabel name => cases hown
      | _ => rfl
  | none =>
      rw [complaint?_of_sound hfault h]
      rfl

/-- Among what is reported of a reference, the faults are its own. -/
theorem filter_isFault_complaint? (link : Link) (first : Handle → Option Link) :
    (link.complaint? checkRanges image first).filter (·.isFault) =
      link.fault? checkRanges image := by
  cases hfault : link.fault? checkRanges image with
  | some error =>
      rw [complaint?_of_fault? hfault, Option.filter_some, if_pos (isFault_of_fault? hfault)]
  | none =>
      rw [Option.filter_eq_none_iff]
      intro error hcomplaint
      rw [complaint?_of_sound hfault hcomplaint]
      exact Bool.false_ne_true

/-- A reference that is wrong by itself is reported for nothing else. -/
theorem filter_not_isFault_complaint? (link : Link) (first : Handle → Option Link) :
    (link.complaint? checkRanges image first).filter (!·.isFault) =
      if (link.fault? checkRanges image).isNone then link.complaint? checkRanges image first
      else none := by
  cases hfault : link.fault? checkRanges image with
  | some error =>
      rw [complaint?_of_fault? hfault, Option.filter_some, isFault_of_fault? hfault]
      rfl
  | none =>
      rw [if_pos Option.isNone_none]
      cases hcomplaint : link.complaint? checkRanges image first with
      | none => rfl
      | some error =>
          rw [complaint?_of_sound hfault hcomplaint]
          rfl

end Link

/-- A label is reported as missing, or the references to it are looked at one by one. -/
theorem Label.complaints_eq (first : Handle → Option Link) (label : Label) :
    label.complaints checkRanges image first =
      (if label.isMissing then [.undefinedLabel label.name] else []) ++
        label.links.filterMap (Link.complaint? checkRanges image first) := by
  unfold complaints isMissing isDefined links
  cases label.address with
  | none => cases label.fixups.isEmpty <;> rfl
  | some target =>
      simp only [List.filterMap_map]
      rfl

namespace SymbolTable

variable (table : SymbolTable)

theorem missing_eq_flatMap :
    table.missing =
      table.labels.flatMap fun label => if label.isMissing then [label.name] else [] := by
  unfold missing
  induction table.labels with
  | nil => rfl
  | cons label rest ih =>
      rw [List.filter_cons, List.flatMap_cons, ← ih]
      split
      · rfl
      · rfl

/-- The labels reported as undefined are those that are missing, in the order of the table. -/
theorem filterMap_undefinedName?_complaints :
    (table.complaints checkRanges image).filterMap PatchError.undefinedName? = table.missing := by
  rw [complaints, missing_eq_flatMap, List.filterMap_flatMap]
  refine List.flatMap_congr fun label _ => ?_
  have hlinks : (label.links.filterMap (Link.complaint? checkRanges image
      (table.first? checkRanges image))).filterMap PatchError.undefinedName? = [] := by
    rw [List.filterMap_eq_nil_iff]
    intro error hmem
    obtain ⟨link, -, hcomplaint⟩ := List.mem_filterMap.mp hmem
    exact Link.undefinedName?_of_complaint? hcomplaint
  rw [Label.complaints_eq, List.filterMap_append, hlinks, List.append_nil]
  split
  · rfl
  · rfl

/-- Apart from undefined labels, each reference is reported once at most, in the order of the
table. -/
theorem filter_complaints :
    (table.complaints checkRanges image).filter (·.undefinedName?.isNone) =
      table.links.filterMap
        (Link.complaint? checkRanges image (table.first? checkRanges image)) := by
  rw [complaints, links, List.filter_flatMap, List.filterMap_flatMap]
  refine List.flatMap_congr fun label _ => ?_
  have hlinks : (label.links.filterMap (Link.complaint? checkRanges image
      (table.first? checkRanges image))).filter (·.undefinedName?.isNone) =
        label.links.filterMap (Link.complaint? checkRanges image
          (table.first? checkRanges image)) := by
    rw [List.filter_eq_self]
    intro error hmem
    obtain ⟨link, -, hcomplaint⟩ := List.mem_filterMap.mp hmem
    rw [Link.undefinedName?_of_complaint? hcomplaint]
    rfl
  rw [Label.complaints_eq, List.filter_append, hlinks]
  split
  · rfl
  · rfl

/-- Every reference that is wrong by itself is reported for that. -/
theorem filter_isFault_complaints :
    (table.complaints checkRanges image).filter (·.isFault) =
      table.links.filterMap (Link.fault? checkRanges image) := by
  rw [complaints, links, List.filter_flatMap, List.filterMap_flatMap]
  refine List.flatMap_congr fun label _ => ?_
  rw [Label.complaints_eq, List.filter_append, List.filter_filterMap]
  simp only [Link.filter_isFault_complaint?]
  split
  · rfl
  · rfl

end SymbolTable

/-! ## Without the references that are wrong by themselves -/

section Sound

/-- The links to a label that are left are those with which nothing is wrong. -/
theorem Label.links_sound (label : Label) :
    (label.sound checkRanges image).links =
      label.links.filter fun link => (link.fault? checkRanges image).isNone := by
  unfold links sound
  cases label.address with
  | none => rfl
  | some target =>
      simp only [Array.toList_filter, List.filter_map]
      rfl

theorem Label.isMissing_sound (label : Label) :
    (label.sound checkRanges image).isMissing = label.isMissing := by
  unfold isMissing isDefined sound
  cases label.address with
  | none =>
      have hkept : label.fixups.filter (fun _ => true) = label.fixups :=
        Array.filter_eq_self.mpr fun _ _ => rfl
      simp only [Option.all_none, hkept]
  | some target => rfl

variable (table : SymbolTable)

/-- The first sound reference from an instruction stays. -/
theorem SymbolTable.first?_sound :
    (table.sound checkRanges image).first? checkRanges image = table.first? checkRanges image := by
  have hlinks : (table.sound checkRanges image).links =
      table.links.filter fun link => (link.fault? checkRanges image).isNone := by
    unfold links sound
    rw [List.flatMap_map, List.filter_flatMap]
    simp only [Label.links_sound]
  funext handle
  unfold first?
  rw [hlinks, List.find?_filter]
  congr 1
  funext link
  unfold Link.isSoundAt
  cases (link.fault? checkRanges image).isNone <;> simp

/-- Without the references that are wrong by themselves, the same is reported of all others. -/
theorem SymbolTable.complaints_sound :
    (table.sound checkRanges image).complaints checkRanges image =
      (table.complaints checkRanges image).filter (!·.isFault) := by
  unfold complaints
  rw [first?_sound, List.filter_flatMap, sound, List.flatMap_map]
  refine List.flatMap_congr fun label _ => ?_
  rw [Label.complaints_eq, Label.complaints_eq, Label.isMissing_sound, Label.links_sound,
    List.filter_append, List.filter_filterMap, List.filterMap_filter]
  simp only [Link.filter_not_isFault_complaint?]
  split
  · rfl
  · rfl

end Sound

/-! ## The report -/

/-- What a report says about a table. -/
structure SymbolTable.Diagnosis (checkRanges : Bool) (image : Image) (table : SymbolTable)
    (diagnostics : Diagnostics) : Prop where
  /-- It has the complaint about each missing label and about each reference, in their order. -/
  complete : diagnostics = table.complaints checkRanges image
  /-- The labels that it calls undefined are those that are missing. -/
  undefined : diagnostics.filterMap PatchError.undefinedName? = table.missing
  /-- Every other entry is that of one reference, and each reference has one at most. -/
  once : diagnostics.filter (·.undefinedName?.isNone) =
    table.links.filterMap (Link.complaint? checkRanges image (table.first? checkRanges image))
  /-- Every reference that is wrong by itself is reported for that. -/
  faults : diagnostics.filter (·.isFault) = table.links.filterMap (Link.fault? checkRanges image)
  /-- Without these references, all other entries are found as well, and nothing else. -/
  unhidden : (Plan.make checkRanges image (table.sound checkRanges image)).diagnostics.toList =
    diagnostics.filter (!·.isFault)

/-- Patching fails exactly when there is something to complain of, and then it reports every problem
of labels and references, each of them once. -/
theorem patch_reports_all {image : Image} (hreachable : image.Reachable) (table : SymbolTable)
    (checkRanges : Bool) :
    ((∃ diagnostics, (Draft.patch checkRanges ⟨image, table⟩).1 = .error diagnostics) ↔
        table.complaints checkRanges image ≠ []) ∧
      ∀ diagnostics, (Draft.patch checkRanges ⟨image, table⟩).1 = .error diagnostics →
        table.Diagnosis checkRanges image diagnostics := by
  have hfits := hreachable.fits
  have hsound :=
    (Plan.make_summarizes checkRanges image (table.sound checkRanges image)).diagnostics
  have hothers : Draft.failures checkRanges ⟨image, table.sound checkRanges image⟩ =
      (table.sound checkRanges image).complaints checkRanges image :=
    Draft.failures_eq_complaints hfits _
  rw [Draft.patch_eq, Draft.failures_eq_complaints hfits]
  by_cases hnil : table.complaints checkRanges image = []
  · rw [if_pos hnil]
    refine ⟨⟨?_, fun h => absurd hnil h⟩, ?_⟩
    · rintro ⟨diagnostics, ⟨⟩⟩
    · rintro diagnostics ⟨⟩
  · rw [if_neg hnil]
    refine ⟨⟨fun _ => hnil, fun _ => ⟨_, rfl⟩⟩, ?_⟩
    rintro diagnostics ⟨⟩
    exact {
      complete := rfl
      undefined := table.filterMap_undefinedName?_complaints
      once := table.filter_complaints
      faults := table.filter_isFault_complaints
      unhidden := hsound.trans (hothers.trans table.complaints_sound) }

/-- A table with a problem of each kind, and a reference that is recorded twice. The jump to `far`
comes first from its instruction, and is no reason to refuse the one to `here`. -/
theorem patch_reports_all_kinds :
    let image : Image := { base := 0x1000, words := #[0x08000000, 0x10000000] }
    let table : SymbolTable := { labels := [
      ⟨"far", some 0x10000000, #[⟨0, 0x1000, .jump⟩, ⟨9, 0x1024, .jump⟩, ⟨1, 0x1000, .branch⟩]⟩,
      ⟨"here", some 0x1000, #[⟨0, 0x1000, .jump⟩, ⟨0, 0x1000, .jump⟩]⟩,
      ⟨"next", some 0x1004, #[⟨0, 0x1000, .jump⟩]⟩,
      ⟨"gone", none, #[⟨1, 0x1004, .branch⟩]⟩] }
    let diagnostics : Diagnostics := [.jumpOutOfRegion "far" 0x1000, .unknownHandle 9,
      .addressMismatch 0x1000 0x1004, .conflictingReference 0x1000, .undefinedLabel "gone"]
    image.Reachable ∧ (Draft.patch true ⟨image, table⟩).1 = .error diagnostics ∧
      table.Diagnosis true image diagnostics := by
  intro image table diagnostics
  have hreachable : image.Reachable :=
    ((Image.Reachable.start 0x1000).append 0x08000000).append 0x10000000
  have herror : (Draft.patch true ⟨image, table⟩).1 = .error diagnostics := by decide
  exact ⟨hreachable, herror, (patch_reports_all hreachable table true).2 _ herror⟩

end Backpatch
