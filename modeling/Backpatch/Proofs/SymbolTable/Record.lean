import Backpatch.Proofs.Patch.Consistency
import Backpatch.Proofs.SymbolTable

/-!
# A symbol table as a record of calls

A table that definitions and references lead to is a function of the calls that succeeded. The names
stand in the order of their first mention, a name has the address of its first definition, and its
references are those that were recorded for it, oldest first; a definition neither adds nor moves
one.

* `Record.table`: that function. `Record.define_table` and `Record.addReference_table` are its two
  steps, with all that can go wrong.
* `Record.of_recordAll`: the table after calls that all succeed is the table of the calls, and
  definitions of one name agree (`Record.Agrees`).
* `Record.mem_demands_congr`, `Record.perm_demands`: what a table demands depends on the set of the
  calls, and how often it does on the calls up to their order.
-/

namespace Backpatch

namespace SymbolTable

/-- A call that records something about a name. -/
inductive Call where
  /-- The name has an address. -/
  | define (name : String) (address : Address)
  /-- An instruction refers to the name. -/
  | refer (fixup : Fixup) (name : String)
  deriving DecidableEq, Repr

namespace Call

/-- The name that a call is about. -/
def name : Call → String
  | .define name _ => name
  | .refer _ name => name

/-- The address that a call gives to a name. -/
def address? (name : String) : Call → Option Address
  | .define other address => if other = name then some address else none
  | .refer _ _ => none

/-- The reference to a name that a call records. -/
def fixup? (name : String) : Call → Option Fixup
  | .define _ _ => none
  | .refer fixup other => if other = name then some fixup else none

/-- What a call does to a table. -/
def perform : Call → SymbolTable → Except PatchError Unit × SymbolTable
  | .define name address => SymbolTable.define name address
  | .refer fixup name => SymbolTable.addReference fixup name

end Call

/-- The table after some calls, if all of them succeed. -/
def recordAll (table : SymbolTable) : List Call → Except PatchError SymbolTable
  | [] => .ok table
  | call :: rest =>
    match call.perform table with
    | (.ok (), table) => recordAll table rest
    | (.error error, _) => .error error

end SymbolTable

/-- Calls on a table that succeeded, oldest first. -/
abbrev Record := List SymbolTable.Call

namespace Record

open SymbolTable (Call recordAll)

/-- The names that calls are about, in the order of first mention. -/
def names (record : Record) : List String :=
  (record.map Call.name).eraseDups

/-- The address that the first definition of a name gives to it. -/
def definition? (record : Record) (name : String) : Option Address :=
  record.findSome? (Call.address? name)

/-- The references to a name, oldest first. -/
def fixups (record : Record) (name : String) : List Fixup :=
  record.filterMap (Call.fixup? name)

/-- What calls say of a name. -/
def label (record : Record) (name : String) : Label where
  name
  address := record.definition? name
  fixups := (record.fixups name).toArray

/-- The symbol table that calls lead to. -/
def table (record : Record) : SymbolTable :=
  { labels := record.names.map record.label }

/-! ## One more call -/

section Concat

variable (record : Record) (call : Call) (name : String)

theorem names_concat :
    names (record ++ [call]) =
      if call.name ∈ record.names then record.names else record.names ++ [call.name] := by
  unfold names
  rw [List.map_append, List.map_singleton, eraseDups_concat]

theorem definition?_concat :
    definition? (record ++ [call]) name = (record.definition? name).or (call.address? name) := by
  unfold definition?
  rw [List.findSome?_append]
  simp

theorem fixups_concat :
    fixups (record ++ [call]) name = record.fixups name ++ (call.fixup? name).toList := by
  unfold fixups
  rw [List.filterMap_append]
  rfl

end Concat

variable {record : Record} {name : String} {target : Address} {fixup : Fixup}

theorem names_nodup (record : Record) : record.names.Nodup :=
  nodup_eraseDups _

theorem mem_names_iff : name ∈ record.names ↔ ∃ call ∈ record, call.name = name := by
  unfold names
  rw [List.mem_eraseDups, List.mem_map]

theorem mem_fixups_iff : fixup ∈ record.fixups name ↔ .refer fixup name ∈ record := by
  unfold fixups
  rw [List.mem_filterMap]
  constructor
  · rintro ⟨⟨other, address⟩ | ⟨fixup', other⟩, hmem, hfixup⟩
    · cases hfixup
    · obtain ⟨rfl, rfl⟩ : other = name ∧ fixup' = fixup := by simpa [Call.fixup?] using hfixup
      exact hmem
  · intro hmem
    exact ⟨_, hmem, if_pos rfl⟩

theorem mem_of_definition? (h : record.definition? name = some target) :
    .define name target ∈ record := by
  obtain ⟨⟨other, address⟩ | ⟨fixup, other⟩, hmem, haddress⟩ := List.exists_of_findSome?_eq_some h
  · obtain ⟨rfl, rfl⟩ : other = name ∧ address = target := by
      simpa [Call.address?] using haddress
    exact hmem
  · cases haddress

/-- Nothing is known of a name that no call is about. -/
theorem label_of_not_mem (h : name ∉ record.names) : record.label name = { name } := by
  have hdefinition : record.definition? name = none := by
    rcases hsome : record.definition? name with _ | target
    · rfl
    · exact absurd (mem_names_iff.mpr ⟨_, mem_of_definition? hsome, rfl⟩) h
  have hfixups : record.fixups name = [] := by
    apply List.eq_nil_iff_forall_not_mem.mpr
    intro fixup hmem
    exact h (mem_names_iff.mpr ⟨_, mem_fixups_iff.mp hmem, rfl⟩)
  simp [label, hdefinition, hfixups]

/-- A call changes only what is known of its own name. -/
theorem label_concat_of_ne {call : Call} (h : name ≠ call.name) :
    label (record ++ [call]) name = record.label name := by
  rcases call with ⟨other, address⟩ | ⟨fixup, other⟩
  · have haddress : Call.address? name (.define other address) = none := if_neg (Ne.symm h)
    simp [label, definition?_concat, fixups_concat, haddress, Call.fixup?]
  · have hfixup : Call.fixup? name (.refer fixup other) = none := if_neg (Ne.symm h)
    simp [label, definition?_concat, fixups_concat, hfixup, Call.address?]

/-- A call leads from the table of a record to the next one by an update of the entry of its
name. -/
theorem update_table (call : Call) {change : Label → Label}
    (hchange : change (record.label call.name) = label (record ++ [call]) call.name) :
    record.table.update call.name change = table (record ++ [call]) := by
  unfold table
  rw [SymbolTable.update_map (fun _ => rfl) (names_nodup record) label_of_not_mem hchange
    fun other hother => label_concat_of_ne hother, names_concat]

/-- A call that says nothing new leaves the table as it is. -/
theorem table_concat_of_mem (call : Call) (hmem : call.name ∈ record.names)
    (hsame : label (record ++ [call]) call.name = record.label call.name) :
    table (record ++ [call]) = record.table := by
  unfold table
  rw [names_concat, if_pos hmem]
  congr 1
  apply List.map_congr_left
  intro other _
  by_cases hother : other = call.name
  · rw [hother, hsame]
  · exact label_concat_of_ne hother

theorem addressOf?_table (record : Record) (name : String) :
    record.table.addressOf? name = record.definition? name :=
  SymbolTable.addressOf?_map (fun _ => rfl) label_of_not_mem

/-! ## What calls do to the table of a record -/

/-- A definition is refused when it is not of a word's address, or when the name has another one.
Otherwise it is one more call of the record. -/
theorem define_table (record : Record) (name : String) (address : Address) :
    record.table.define name address =
      if ¬IsAligned address then (.error (.misalignedAddress name address), record.table)
      else if definition? (record ++ [.define name address]) name = some address then
        (.ok (), table (record ++ [.define name address]))
      else (.error (.duplicateLabel name), record.table) := by
  unfold SymbolTable.define
  by_cases haligned : IsAligned address
  · rw [if_neg (not_not.mpr haligned), if_neg (not_not.mpr haligned), addressOf?_table,
      definition?_concat]
    rcases hfirst : record.definition? name with _ | first
    · have hchange : record.table.update name
          (fun label => { label with address := some address }) =
            table (record ++ [.define name address]) := by
        refine update_table (.define name address) ?_
        simp [label, definition?_concat, fixups_concat, hfirst, Call.address?, Call.fixup?,
          Call.name]
      simp [Call.address?, hchange]
    · have hmem : name ∈ record.names := mem_names_iff.mpr ⟨_, mem_of_definition? hfirst, rfl⟩
      have hsame : table (record ++ [.define name address]) = record.table := by
        refine table_concat_of_mem (.define name address) hmem ?_
        simp [label, definition?_concat, fixups_concat, hfirst, Call.fixup?, Call.name]
      simp only [Option.some_or, Option.some.injEq, hsame]
  · rw [if_pos haligned, if_pos haligned]

/-- A reference is refused when it is not from a word's address. Otherwise it is one more call of
the record. -/
theorem addReference_table (record : Record) (fixup : Fixup) (name : String) :
    record.table.addReference fixup name =
      if ¬IsAligned fixup.site then (.error (.misalignedAddress name fixup.site), record.table)
      else (.ok (), table (record ++ [.refer fixup name])) := by
  have hchange : record.table.update name (·.addFixup fixup) =
      table (record ++ [.refer fixup name]) := by
    refine update_table (.refer fixup name) ?_
    simp [label, definition?_concat, fixups_concat, Call.address?, Call.fixup?, Call.name,
      Label.addFixup]
  unfold SymbolTable.addReference
  rw [hchange]

/-- Every definition of a name gives it the same address. -/
def Agrees (record : Record) : Prop :=
  ∀ name address, .define name address ∈ record → record.definition? name = some address

/-- A call that succeeds is one more call of the record, and agrees with the others. -/
theorem Agrees.perform {call : Call} {after : SymbolTable} (h : record.Agrees)
    (hcall : call.perform record.table = (.ok (), after)) :
    after = table (record ++ [call]) ∧ Agrees (record ++ [call]) := by
  have hkeep : ∀ name address, .define name address ∈ record →
      definition? (record ++ [call]) name = some address := by
    intro name address hmem
    rw [definition?_concat, h name address hmem, Option.some_or]
  rcases call with ⟨name, address⟩ | ⟨fixup, name⟩
  · rw [Call.perform, define_table] at hcall
    split at hcall
    · cases hcall
    · split at hcall
      · next hfirst =>
        cases hcall
        refine ⟨rfl, ?_⟩
        intro other address' hmem
        rcases List.mem_append.mp hmem with hold | hnew
        · exact hkeep other address' hold
        · cases List.mem_singleton.mp hnew
          exact hfirst
      · cases hcall
  · rw [Call.perform, addReference_table] at hcall
    split at hcall
    · cases hcall
    · cases hcall
      refine ⟨rfl, ?_⟩
      intro other address' hmem
      rcases List.mem_append.mp hmem with hold | hnew
      · exact hkeep other address' hold
      · cases List.mem_singleton.mp hnew

/-- Calls that all succeed on a fresh table lead to the table of their record, and the definitions
among them agree. -/
theorem of_recordAll {after : SymbolTable} (h : recordAll {} record = .ok after) :
    after = record.table ∧ record.Agrees := by
  suffices hrest : ∀ rest seen : Record, seen.Agrees → recordAll seen.table rest = .ok after →
      after = table (seen ++ rest) ∧ Agrees (seen ++ rest) from
    hrest record [] (fun _ _ hmem => absurd hmem List.not_mem_nil) h
  intro rest
  induction rest with
  | nil =>
      intro seen hseen hall
      rw [List.append_nil]
      exact ⟨(Except.ok.inj hall).symm, hseen⟩
  | cons call rest ih =>
      intro seen hseen hall
      unfold recordAll at hall
      split at hall
      · next next hcall =>
        obtain ⟨rfl, hnext⟩ := hseen.perform hcall
        rw [List.append_cons]
        exact ih (seen ++ [call]) hnext hall
      · cases hall

/-! ## What the table of a record demands -/

theorem Agrees.definition?_eq_some_iff (h : record.Agrees) :
    record.definition? name = some target ↔ .define name target ∈ record :=
  ⟨mem_of_definition?, h name target⟩

theorem resolves_table_iff :
    record.table.Resolves name target fixup ↔
      record.definition? name = some target ∧ .refer fixup name ∈ record := by
  have hfixup : fixup ∈ (record.label name).fixups ↔ .refer fixup name ∈ record := by
    simpa [label] using mem_fixups_iff
  unfold table
  rw [SymbolTable.resolves_map_iff fun _ => rfl, hfixup]
  constructor
  · rintro ⟨-, haddress, hmem⟩
    exact ⟨haddress, hmem⟩
  · rintro ⟨haddress, hmem⟩
    exact ⟨mem_names_iff.mpr ⟨_, hmem, rfl⟩, haddress, hmem⟩

theorem mem_demands_missing_iff :
    .missing name ∈ record.table.demands ↔
      record.definition? name = none ∧ ∃ fixup, .refer fixup name ∈ record := by
  rw [SymbolTable.mem_demands_missing_iff]
  constructor
  · rintro ⟨_, hlabel, rfl, hfixups, hundefined⟩
    obtain ⟨name, -, rfl⟩ := List.mem_map.mp hlabel
    obtain ⟨fixup, hfixup⟩ := List.exists_mem_of_ne_nil (record.fixups name)
      fun hnil => hfixups (by simp [label, hnil])
    exact ⟨by simpa [Label.isDefined, label] using hundefined, fixup, mem_fixups_iff.mp hfixup⟩
  · rintro ⟨hnone, fixup, hmem⟩
    have hname : name ∈ record.names := mem_names_iff.mpr ⟨_, hmem, rfl⟩
    refine ⟨record.label name, List.mem_map_of_mem hname, rfl, ?_,
      by simp [Label.isDefined, label, hnone]⟩
    exact Array.ne_empty_of_mem (a := fixup) (by simpa [label] using mem_fixups_iff.mpr hmem)

section Congr

variable {record' : Record} (h : record.Agrees) (h' : record'.Agrees)
  (hsame : ∀ call, call ∈ record ↔ call ∈ record')

include hsame in
/-- The same calls are about the same names. -/
theorem perm_names : record.names.Perm record'.names := by
  refine (List.perm_ext_iff_of_nodup (names_nodup _) (names_nodup _)).mpr ?_
  intro name
  simp only [mem_names_iff, hsame]

include h h' hsame

theorem definition?_congr (name : String) : record.definition? name = record'.definition? name := by
  apply Option.ext
  intro target
  rw [h.definition?_eq_some_iff, h'.definition?_eq_some_iff, hsame]

/-- The same calls make the same demands. -/
theorem mem_demands_congr (demand : Demand) :
    demand ∈ record.table.demands ↔ demand ∈ record'.table.demands := by
  rcases demand with name | ⟨name, target, fixup⟩
  · simp only [mem_demands_missing_iff, definition?_congr h h' hsame, hsame]
  · simp only [SymbolTable.mem_demands_fixup_iff, resolves_table_iff,
      definition?_congr h h' hsame, hsame]

end Congr

/-- The same calls in another order make the same demands in another order. -/
theorem perm_demands {record' : Record} (h : record.Agrees) (h' : record'.Agrees)
    (hperm : record.Perm record') : record.table.demands.Perm record'.table.demands := by
  have hsame : ∀ call, call ∈ record ↔ call ∈ record' := fun call => hperm.mem_iff
  unfold SymbolTable.demands table
  rw [List.flatMap_map, List.flatMap_map]
  refine (perm_names hsame).flatMap ?_
  intro name _
  have hfixups : (record.fixups name).Perm (record'.fixups name) := hperm.filterMap _
  have hempty : (record.label name).fixups.isEmpty = (record'.label name).fixups.isEmpty := by
    simp only [label, List.isEmpty_toArray, hfixups.isEmpty_eq]
  have haddress : (record.label name).address = (record'.label name).address :=
    definition?_congr h h' hsame name
  unfold Label.demands
  rw [haddress, hempty]
  split
  · exact List.Perm.refl _
  · exact hfixups.map _

end Record

end Backpatch
