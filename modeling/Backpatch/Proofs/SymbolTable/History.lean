import Backpatch.Proofs.Patch.Outcome
import Backpatch.Proofs.SymbolTable.Record

/-!
# A symbol table as a log of its uses

A table is used in two ways: it takes definitions and references, and it is patched into images.
Whatever the order, and whatever fails, the table says what the log of its uses says. The names are
those of the calls that succeeded, in the order of first mention; a name has the address of its
first definition; and the references that wait are those recorded since the last patching that
succeeded.

* `Log.recorded`, `Log.pending`: the calls of a log that succeeded, all of them and those since the
  last successful patching. `Log.table` is the table that they make up.
* `Use.perform_table`: one more use leads from the table of a log to the table of the longer log.
* `Mirrors`: what this means for everything that can be asked of a table (`useAll_mirrors`).
-/

namespace Backpatch

namespace SymbolTable

/-! ## Uses -/

/-- What can be done with a table: to record, and to patch into an image. -/
inductive Use where
  | record (call : Call)
  | patch (checkRanges : Bool) (image : Image)
  deriving DecidableEq, Repr

/-- What a use returns. -/
inductive Outcome where
  | recorded (result : Except PatchError Unit)
  | patched (result : Except Diagnostics PatchReport)
  deriving DecidableEq, Repr

/-- Whether a use has failed. -/
def Outcome.failed : Outcome → Bool
  | .recorded (.error _) | .patched (.error _) => true
  | .recorded (.ok _) | .patched (.ok _) => false

/-- Carries out a use. -/
def Use.perform : Use → SymbolTable → Outcome × SymbolTable
  | .record call, table => (call.perform table).map .recorded id
  | .patch checkRanges image, table =>
    (Draft.patch checkRanges ⟨image, table⟩).map .patched Draft.symbols

/-- The uses of a table with what they returned, oldest first. -/
abbrev Log := List (Use × Outcome)

/-- Carries out a use and logs it. -/
def proceed : Log × SymbolTable → Use → Log × SymbolTable
  | (log, table), use => (log ++ [(use, (use.perform table).1)], (use.perform table).2)

/-- Carries out uses of a fresh table, one after the other, and returns the log with the table. -/
def useAll (uses : List Use) : Log × SymbolTable :=
  uses.foldl proceed ([], {})

/-! ## Reading a log -/

namespace Log

/-- The call that an entry has recorded. -/
def recorded? : Use × Outcome → Option Call
  | (.record call, .recorded (.ok ())) => some call
  | _ => none

/-- Whether an entry is a patching that has succeeded. -/
def isResolved : Use × Outcome → Bool
  | (.patch _ _, .patched (.ok _)) => true
  | _ => false

/-- The calls that have succeeded. -/
def recorded (log : Log) : Record :=
  log.filterMap recorded?

/-- The entries behind the last patching that has succeeded. -/
def unresolved (log : Log) : Log :=
  (log.reverse.takeWhile fun entry => !isResolved entry).reverse

/-- The calls that have succeeded since the last patching that has. -/
def pending (log : Log) : Record :=
  log.unresolved.recorded

/-- What a log says of a name. -/
def label (log : Log) (name : String) : Label where
  name
  address := log.recorded.definition? name
  fixups := (log.pending.fixups name).toArray

/-- The symbol table of a log. -/
def table (log : Log) : SymbolTable :=
  { labels := log.recorded.names.map log.label }

variable {log : Log} {entry : Use × Outcome}

theorem recorded_concat (log : Log) (entry : Use × Outcome) :
    recorded (log ++ [entry]) = log.recorded ++ (recorded? entry).toList := by
  unfold recorded
  rw [List.filterMap_append]
  rfl

/-- A patching that succeeds leaves nothing pending, and any other entry adds what it records. -/
theorem pending_concat (log : Log) (entry : Use × Outcome) :
    pending (log ++ [entry]) =
      if isResolved entry then [] else log.pending ++ (recorded? entry).toList := by
  unfold pending unresolved
  rw [List.reverse_append, List.reverse_singleton, List.singleton_append, List.takeWhile_cons]
  by_cases h : isResolved entry = true
  · simp only [h]
    rfl
  · simp only [h, Bool.not_false, if_true, List.reverse_cons]
    exact recorded_concat _ entry

/-- What is pending has been recorded. -/
theorem mem_recorded_of_pending {call : Call} (h : call ∈ log.pending) : call ∈ log.recorded := by
  obtain ⟨entry, hmem, hcall⟩ := List.mem_filterMap.mp h
  apply List.mem_filterMap.mpr ⟨entry, ?_, hcall⟩
  apply List.mem_reverse.mp
  exact List.takeWhile_subset _ (List.mem_reverse.mp hmem)

/-- A log says nothing of a name that it does not mention. -/
theorem label_of_not_mem {name : String} (h : name ∉ log.recorded.names) :
    log.label name = { name } := by
  have hpending : name ∉ log.pending.names := by
    intro hmem
    obtain ⟨call, hcall, hname⟩ := Record.mem_names_iff.mp hmem
    exact h (Record.mem_names_iff.mpr ⟨call, mem_recorded_of_pending hcall, hname⟩)
  have haddress := congrArg Label.address (Record.label_of_not_mem h)
  have hfixups := congrArg Label.fixups (Record.label_of_not_mem hpending)
  simp only [Record.label] at haddress hfixups
  rw [label, haddress, hfixups]

/-! ## One more entry -/

/-- An entry that records nothing and resolves nothing says nothing new. -/
theorem table_concat_of_silent (hrecorded : recorded? entry = none)
    (hresolved : isResolved entry = false) : table (log ++ [entry]) = log.table := by
  have hsame : label (log ++ [entry]) = log.label := by
    funext name
    simp [label, recorded_concat, pending_concat, hrecorded, hresolved]
  unfold table
  rw [hsame, recorded_concat, hrecorded, Option.toList_none, List.append_nil]

/-- A patching that succeeds takes all references away. -/
theorem table_concat_of_resolved (hrecorded : recorded? entry = none)
    (hresolved : isResolved entry = true) :
    table (log ++ [entry]) = log.table.clearFixups := by
  have hlabel : label (log ++ [entry]) = fun name => { log.label name with fixups := #[] } := by
    funext name
    simp [label, recorded_concat, pending_concat, hrecorded, hresolved, Record.fixups]
  unfold table clearFixups
  rw [hlabel, recorded_concat, hrecorded, Option.toList_none, List.append_nil, List.map_map]
  rfl

section Recorded

variable {call : Call}

/-- What a log says of a name behind one more call that succeeds. -/
theorem label_concat (hrecorded : recorded? entry = some call)
    (hresolved : isResolved entry = false) (name : String) :
    label (log ++ [entry]) name =
      { name
        address := (log.recorded.definition? name).or (call.address? name)
        fixups := (log.pending.fixups name ++ (call.fixup? name).toList).toArray } := by
  simp [label, recorded_concat, pending_concat, hrecorded, hresolved, Record.definition?_concat,
    Record.fixups_concat]

/-- A call that succeeds changes only what is known of its own name. -/
theorem table_concat (hrecorded : recorded? entry = some call)
    (hresolved : isResolved entry = false) {change : Label → Label}
    (hchange : change (log.label call.name) = label (log ++ [entry]) call.name) :
    log.table.update call.name change = table (log ++ [entry]) := by
  have hother : ∀ other, other ≠ call.name → label (log ++ [entry]) other = log.label other := by
    intro other hne
    have haddress : call.address? other = none := by
      rcases call with ⟨name, address⟩ | ⟨fixup, name⟩
      · exact if_neg (Ne.symm hne)
      · rfl
    have hfixup : call.fixup? other = none := by
      rcases call with ⟨name, address⟩ | ⟨fixup, name⟩
      · rfl
      · exact if_neg (Ne.symm hne)
    rw [label_concat hrecorded hresolved, haddress, hfixup]
    simp [label]
  unfold table
  rw [update_map (fun _ => rfl) (Record.names_nodup _) label_of_not_mem hchange hother,
    recorded_concat, hrecorded, Option.toList_some, Record.names_concat]

/-- A call that repeats what is known leaves the table as it is. -/
theorem table_concat_of_known (hrecorded : recorded? entry = some call)
    (hresolved : isResolved entry = false) (hmem : call.name ∈ log.recorded.names)
    (hsame : label (log ++ [entry]) call.name = log.label call.name) :
    table (log ++ [entry]) = log.table := by
  have hchanged : log.table.update call.name id = table (log ++ [entry]) :=
    table_concat hrecorded hresolved hsame.symm
  have hkept : log.table.update call.name id = log.table := by
    have hupdate := update_map (fun _ => rfl) (Record.names_nodup _) label_of_not_mem
      (Eq.refl (id (log.label call.name))) fun _ _ => rfl
    rwa [if_pos hmem] at hupdate
  rw [← hchanged, hkept]

end Recorded

theorem addressOf?_table (log : Log) (name : String) :
    log.table.addressOf? name = log.recorded.definition? name :=
  addressOf?_map (fun _ => rfl) label_of_not_mem

theorem names_table (log : Log) : log.table.names = log.recorded.names := by
  simp [table, names, label, Function.comp_def]

/-- A call that succeeds on the table of a log leads to the table of the longer log. -/
theorem table_of_perform {call : Call} {after : SymbolTable}
    (h : call.perform log.table = (.ok (), after)) :
    after = table (log ++ [(.record call, .recorded (.ok ()))]) := by
  have hrecorded : recorded? (.record call, .recorded (.ok ())) = some call := rfl
  have hresolved : isResolved (.record call, .recorded (.ok ())) = false := rfl
  have hlabel := @label_concat log _ call hrecorded hresolved call.name
  rcases call with ⟨name, address⟩ | ⟨fixup, name⟩
  · obtain ⟨-, ⟨hknown, rfl⟩ | ⟨hnew, rfl⟩⟩ := of_define_ok h
    · rw [addressOf?_table] at hknown
      have hmem : name ∈ log.recorded.names :=
        Record.mem_names_iff.mpr ⟨_, Record.mem_of_definition? hknown, rfl⟩
      refine (table_concat_of_known hrecorded hresolved hmem ?_).symm
      rw [hlabel]
      simp [label, Call.name, Call.fixup?, hknown]
    · rw [addressOf?_table] at hnew
      refine table_concat hrecorded hresolved ?_
      rw [hlabel]
      simp [label, Call.name, Call.address?, Call.fixup?, hnew]
  · obtain ⟨-, rfl⟩ := of_addReference_ok h
    refine table_concat hrecorded hresolved ?_
    rw [hlabel]
    simp [label, Call.name, Call.address?, Call.fixup?, Label.addFixup]

end Log

/-! ## One more use -/

/-- A use that fails leaves the table as it is. -/
theorem Use.perform_of_failed {use : Use} {table : SymbolTable}
    (h : (use.perform table).1.failed = true) : (use.perform table).2 = table := by
  rcases use with ⟨⟨name, address⟩ | ⟨fixup, name⟩⟩ | ⟨checkRanges, image⟩
  · rcases hdefine : table.define name address with ⟨error | ⟨⟩, after⟩
    · obtain rfl := of_define_error hdefine
      simp [perform, Call.perform, hdefine]
    · simp [perform, Call.perform, hdefine, Outcome.failed] at h
  · rcases hadd : table.addReference fixup name with ⟨error | ⟨⟩, after⟩
    · obtain ⟨-, -, rfl⟩ := of_addReference_error hadd
      simp [perform, Call.perform, hadd]
    · simp [perform, Call.perform, hadd, Outcome.failed] at h
  · rcases hpatch : Draft.patch checkRanges ⟨image, table⟩ with ⟨diagnostics | report, after⟩
    · obtain ⟨-, -, rfl⟩ := Draft.of_patch_error hpatch
      simp [perform, hpatch]
    · simp [perform, hpatch, Outcome.failed] at h

/-- A use of the table of a log leads to the table of the longer log. -/
theorem Use.perform_table (use : Use) (log : Log) :
    (use.perform log.table).2 = Log.table (log ++ [(use, (use.perform log.table).1)]) := by
  by_cases hfailed : (use.perform log.table).1.failed = true
  · rw [Use.perform_of_failed hfailed]
    generalize (use.perform log.table).1 = outcome at hfailed
    refine (Log.table_concat_of_silent ?_ ?_).symm
    · rcases outcome with (error | ⟨⟩) | (diagnostics | report)
      case recorded.ok | patched.ok => cases hfailed
      all_goals cases use <;> rfl
    · rcases outcome with (error | ⟨⟩) | (diagnostics | report)
      case recorded.ok | patched.ok => cases hfailed
      all_goals cases use <;> rfl
  · rcases use with call | ⟨checkRanges, image⟩
    · rcases hcall : call.perform log.table with ⟨error | ⟨⟩, after⟩
      · simp [Use.perform, hcall, Outcome.failed] at hfailed
      · simpa [Use.perform, hcall] using Log.table_of_perform hcall
    · rcases hpatch : Draft.patch checkRanges ⟨image, log.table⟩ with
        ⟨diagnostics | report, after⟩
      · simp [Use.perform, hpatch, Outcome.failed] at hfailed
      · obtain ⟨-, -, rfl⟩ := Draft.of_patch_ok hpatch
        simp only [Use.perform, hpatch, Prod.map_apply]
        exact (Log.table_concat_of_resolved rfl rfl).symm

/-! ## Runs of uses -/

theorem useAll_append (uses more : List Use) :
    useAll (uses ++ more) = more.foldl proceed (useAll uses) :=
  List.foldl_append

/-- Whatever the uses, the table is that of their log. -/
theorem useAll_eq_table (uses : List Use) : (useAll uses).2 = (useAll uses).1.table := by
  induction uses using List.reverseRec with
  | nil => rfl
  | append_singleton uses use ih =>
      rw [useAll_append, List.foldl_cons, List.foldl_nil, proceed, ih]
      exact use.perform_table _

/-- Further uses make the log longer. -/
theorem exists_useAll_append (uses more : List Use) :
    ∃ entries, (useAll (uses ++ more)).1 = (useAll uses).1 ++ entries := by
  induction more using List.reverseRec with
  | nil => exact ⟨[], by simp⟩
  | append_singleton more use ih =>
      obtain ⟨entries, hentries⟩ := ih
      rw [← List.append_assoc, useAll_append, List.foldl_cons, List.foldl_nil, proceed, hentries,
        List.append_assoc]
      exact ⟨_, rfl⟩

/-- What a table says after the uses of a log. -/
structure Mirrors (log : Log) (table : SymbolTable) : Prop where
  /-- The names of the calls that succeeded, in the order of first mention. -/
  names : table.names = log.recorded.names
  unique : table.names.Nodup
  /-- The address that the first definition gave. -/
  addresses : ∀ name, table.addressOf? name = log.recorded.definition? name
  /-- The references recorded since the last patching that succeeded, oldest first. -/
  references : ∀ label ∈ table.labels, label.fixups.toList = log.pending.fixups label.name
  fixupCount : table.fixupCount = (log.recorded.names.flatMap log.pending.fixups).length
  /-- The names that are referred to and have no address. -/
  missing : table.missing = log.recorded.names.filter fun name =>
    (log.recorded.definition? name).isNone && !(log.pending.fixups name).isEmpty
  /-- A definition is refused if it is not of a word's address, or if there is another one. -/
  define : ∀ name address, (table.define name address).1 =
    if ¬IsAligned address then .error (.misalignedAddress name address)
    else if (log.recorded.definition? name).all (· = address) then .ok ()
    else .error (.duplicateLabel name)
  /-- A reference is refused if it is not from a word's address. -/
  addReference : ∀ fixup name, (table.addReference fixup name).1 =
    if ¬IsAligned fixup.site then .error (.misalignedAddress name fixup.site) else .ok ()
  unchanged : ∀ use : Use, (use.perform table).1.failed = true → (use.perform table).2 = table

namespace Log

variable (log : Log)

theorem fixupCount_table :
    log.table.fixupCount = (log.recorded.names.flatMap log.pending.fixups).length := by
  have hfold : ∀ (names : List String) (count : Nat),
      (names.map log.label).foldl (fun count label => count + label.fixups.size) count =
        count + (names.flatMap log.pending.fixups).length := by
    intro names
    induction names with
    | nil => simp
    | cons name names ih =>
        intro count
        rw [List.map_cons, List.foldl_cons, ih, List.flatMap_cons, List.length_append,
          Nat.add_assoc]
        rfl
  unfold fixupCount table
  rw [hfold, Nat.zero_add]

theorem missing_table :
    log.table.missing = log.recorded.names.filter fun name =>
      (log.recorded.definition? name).isNone && !(log.pending.fixups name).isEmpty := by
  unfold missing table
  rw [List.filter_map, List.map_map]
  have hname : Label.name ∘ log.label = id := rfl
  rw [hname, List.map_id]
  apply List.filter_congr
  intro name _
  simp [Label.isMissing, Label.isDefined, label]

theorem define_table (name : String) (address : Address) :
    (log.table.define name address).1 =
      if ¬IsAligned address then .error (.misalignedAddress name address)
      else if (log.recorded.definition? name).all (· = address) then .ok ()
      else .error (.duplicateLabel name) := by
  unfold SymbolTable.define
  rw [addressOf?_table]
  by_cases haligned : IsAligned address
  · simp only [haligned, not_true, if_false]
    rcases log.recorded.definition? name with _ | known
    · simp
    · by_cases hsame : known = address
      · simp [hsame]
      · simp [hsame]
  · simp [haligned]

/-- The table of a log says what the log says. -/
theorem mirrors_table : Mirrors log log.table where
  names := log.names_table
  unique := by
    rw [names_table]
    exact Record.names_nodup _
  addresses := log.addressOf?_table
  references := by
    intro entry hentry
    obtain ⟨name, -, rfl⟩ := List.mem_map.mp hentry
    rfl
  fixupCount := log.fixupCount_table
  missing := log.missing_table
  define := log.define_table
  addReference := by
    intro fixup name
    unfold SymbolTable.addReference
    split <;> rfl
  unchanged := fun _ hfailed => Use.perform_of_failed hfailed

end Log

/-- After any definitions, references and patchings, of which any may fail, a table says what the
log of its uses says, and an address that a name has is its address for good. -/
theorem useAll_mirrors (uses : List Use) :
    Mirrors (useAll uses).1 (useAll uses).2 ∧
      ∀ more name address, (useAll uses).2.addressOf? name = some address →
        (useAll (uses ++ more)).2.addressOf? name = some address := by
  rw [useAll_eq_table]
  refine ⟨Log.mirrors_table _, ?_⟩
  intro more name address haddress
  obtain ⟨entries, hentries⟩ := exists_useAll_append uses more
  rw [Log.addressOf?_table] at haddress
  rw [useAll_eq_table, Log.addressOf?_table, hentries]
  unfold Log.recorded Record.definition? at haddress ⊢
  rw [List.filterMap_append, List.findSome?_append, haddress, Option.some_or]

/-- A jump to a label that is defined later, a definition that comes too late, and a second jump
after the patching. -/
theorem useAll_mirrors_patched :
    let uses : List Use := [.record (.refer ⟨0, 0, .jump⟩ "end"), .record (.define "end" 8),
      .patch true { words := #[0x08000000] }, .record (.define "end" 12),
      .record (.refer ⟨1, 4, .jump⟩ "end")]
    let log := (useAll uses).1
    let table := (useAll uses).2
    log.map (·.2.failed) = [false, false, false, true, false] ∧
      log.pending.fixups "end" = [⟨1, 4, .jump⟩] ∧
      Mirrors log table ∧ table.addressOf? "end" = some 8 ∧
      (useAll (uses ++ [.record (.define "end" 16)])).2.addressOf? "end" = some 8 := by
  intro uses log table
  obtain ⟨hmirrors, hkept⟩ := useAll_mirrors uses
  have haddress : table.addressOf? "end" = some 8 := by decide
  exact ⟨by decide, by decide, hmirrors, haddress, hkept _ _ _ haddress⟩

end SymbolTable

end Backpatch
