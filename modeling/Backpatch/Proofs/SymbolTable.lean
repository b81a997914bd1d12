import Backpatch.SymbolTable
import Mathlib.Data.List.Induction
import Mathlib.Data.List.Nodup

/-!
# Entries of a symbol table

A table is a list in which each name has one entry, in the order of first mention. Here are the
facts about such lists that every account of a table uses.

* `eraseDups_concat`, `nodup_eraseDups`: names in the order of first mention.
* `find?_map`, `addressOf?_map`, `update_map`: tables that list what a function says of some names.
* `find?_eq_some_iff`, `mem_update_iff`: in a table with unique names an entry is found under its
  name and under no other, and an update replaces it and leaves the others. In any table an update
  keeps what the change keeps (`forall_update`).
* `of_define_ok`, `of_addReference_ok`: what a call that succeeds has found and done. One that fails
  leaves the table as it is.
-/

namespace Backpatch

/-! ## Names in the order of first mention -/

section Names

variable (names : List String)

/-- A name that comes last is kept when it is mentioned for the first time. -/
theorem eraseDups_concat (name : String) :
    (names ++ [name]).eraseDups =
      if name ∈ names.eraseDups then names.eraseDups else names.eraseDups ++ [name] := by
  rw [List.eraseDups_append]
  by_cases hmem : name ∈ names
  · simp [hmem, List.removeAll, List.mem_eraseDups]
  · simp [hmem, List.removeAll, List.mem_eraseDups, List.eraseDups_cons]

theorem nodup_eraseDups : names.eraseDups.Nodup := by
  induction names using List.reverseRec with
  | nil => exact List.nodup_nil
  | append_singleton names name ih =>
      rw [eraseDups_concat]
      split
      · exact ih
      · next hnew =>
        refine List.nodup_append.mpr ⟨ih, by simp, ?_⟩
        intro other hother last hlast heq
        rw [heq, List.mem_singleton.mp hlast] at hother
        exact hnew hother

end Names

namespace SymbolTable

/-! ## Tables that are given name by name -/

/-- An update of a table that lists what a function says of some names. -/
theorem updateLabels_map {names : List String} {info : String → Label} {name : String}
    (hname : ∀ other, (info other).name = other) (hnodup : names.Nodup)
    (hnew : name ∉ names → info name = { name }) (change : Label → Label) :
    updateLabels name change (names.map info) =
      (if name ∈ names then names else names ++ [name]).map fun other =>
        if other = name then change (info name) else info other := by
  induction names with
  | nil => simp [updateLabels, hnew]
  | cons first rest ih =>
      obtain ⟨hfirst, hrest⟩ := List.nodup_cons.mp hnodup
      by_cases heq : first = name
      · subst heq
        have hkeep : rest.map info =
            rest.map fun other => if other = first then change (info first) else info other := by
          apply List.map_congr_left
          intro other hother
          rw [if_neg]
          rintro rfl
          exact hfirst hother
        simp [updateLabels, hname, hkeep]
      · have hrest := ih hrest fun hmem => hnew fun h => (List.mem_cons.mp h).elim
          (fun h => heq h.symm) hmem
        rw [List.map_cons, updateLabels, if_neg (by rw [hname]; exact heq), hrest]
        by_cases hmem : name ∈ rest
        · simp [hmem, heq]
        · simp [hmem, heq, Ne.symm heq]

/-- The entry of a name in a table that lists what a function says of some names. -/
theorem find?_map {names : List String} {info : String → Label}
    (hname : ∀ other, (info other).name = other) (name : String) :
    find? { labels := names.map info } name =
      if name ∈ names then some (info name) else none := by
  unfold find?
  induction names with
  | nil => rfl
  | cons first rest ih =>
      by_cases heq : first = name
      · subst heq
        simp [hname]
      · simpa [hname, heq, Ne.symm heq] using ih

/-- The address of a name in such a table, if a new name is one of which nothing is known. -/
theorem addressOf?_map {names : List String} {info : String → Label}
    (hname : ∀ other, (info other).name = other) {name : String}
    (hnew : name ∉ names → info name = { name }) :
    addressOf? { labels := names.map info } name = (info name).address := by
  unfold addressOf?
  rw [find?_map hname]
  split
  · rfl
  · next h =>
    rw [hnew h]
    rfl

/-- An update leads to what `info'` says, if that differs from what `info` says at one name only,
and there by the change. -/
theorem update_map {names : List String} {info info' : String → Label} {name : String}
    (hname : ∀ other, (info other).name = other) (hnodup : names.Nodup)
    (hnew : name ∉ names → info name = { name }) {change : Label → Label}
    (hchange : change (info name) = info' name)
    (hother : ∀ other, other ≠ name → info' other = info other) :
    update name change { labels := names.map info } =
      { labels := (if name ∈ names then names else names ++ [name]).map info' } := by
  unfold update
  rw [updateLabels_map hname hnodup hnew]
  congr 1
  apply List.map_congr_left
  intro other _
  by_cases h : other = name
  · rw [if_pos h, h, hchange]
  · rw [if_neg h, hother other h]

/-- What holds of the entries and of the changed entry holds of all entries after an update. -/
theorem forall_update {table : SymbolTable} {name : String} {change : Label → Label}
    {property : Label → Prop} (h : ∀ label ∈ table.labels, property label)
    (hnew : property { name }) (hchange : ∀ label, property label → property (change label)) :
    ∀ label ∈ (table.update name change).labels, property label := by
  obtain ⟨labels⟩ := table
  unfold update
  induction labels with
  | nil => simpa [updateLabels] using hchange _ hnew
  | cons first rest ih =>
      obtain ⟨hfirst, hrest⟩ := List.forall_mem_cons.mp h
      by_cases heq : first.name = name
      · simpa [updateLabels, heq] using ⟨hchange first hfirst, hrest⟩
      · simpa [updateLabels, heq] using ⟨hfirst, ih hrest⟩

/-! ## Tables with unique names -/

section Unique

variable {table : SymbolTable}

/-- Under a name stands the entry that has it, and no other. -/
theorem find?_eq_some_iff (h : table.names.Nodup) {name : String} {label : Label} :
    table.find? name = some label ↔ label ∈ table.labels ∧ label.name = name := by
  unfold find?
  constructor
  · intro hfind
    exact ⟨List.mem_of_find?_eq_some hfind, by simpa using List.find?_some hfind⟩
  · rintro ⟨hmem, rfl⟩
    obtain ⟨other, hother⟩ : ∃ other, table.labels.find? (·.name = label.name) = some other :=
      Option.isSome_iff_exists.mp (List.find?_isSome.mpr ⟨label, hmem, by simp⟩)
    have hname : other.name = label.name := by simpa using List.find?_some hother
    have hsame : other = label :=
      List.inj_on_of_nodup_map h (List.mem_of_find?_eq_some hother) hmem hname
    rw [hother, hsame]

section Update

variable {name : String} {change : Label → Label} (hname : ∀ label, (change label).name = label.name)
include hname

/-- An update adds a name at most once. -/
theorem nodup_names_update (h : table.names.Nodup) : (table.update name change).names.Nodup := by
  rw [names_update table hname]
  split
  · exact h
  · next hnew =>
    refine List.nodup_append.mpr ⟨h, by simp, ?_⟩
    intro other hother last hlast heq
    rw [heq, List.mem_singleton.mp hlast] at hother
    exact hnew hother

/-- The entries after an update: the changed one, and those of all other names. -/
theorem mem_update_iff (h : table.names.Nodup) {label : Label} :
    label ∈ (table.update name change).labels ↔
      label = change ((table.find? name).getD { name }) ∨
        label ∈ table.labels ∧ label.name ≠ name := by
  have hfind : label ∈ (table.update name change).labels ↔
      (table.update name change).find? label.name = some label := by
    rw [find?_eq_some_iff (nodup_names_update hname h)]
    simp
  have hfound : ((table.find? name).getD { name }).name = name := by
    rcases hentry : table.find? name with _ | entry
    · rfl
    · exact ((find?_eq_some_iff h).mp hentry).2
  rw [hfind, find?_update table hname]
  by_cases heq : label.name = name
  · rw [if_pos heq, Option.some.injEq]
    simp [heq, eq_comm]
  · rw [if_neg heq, find?_eq_some_iff h]
    constructor
    · rintro ⟨hmem, -⟩
      exact Or.inr ⟨hmem, heq⟩
    · rintro (rfl | ⟨hmem, -⟩)
      · exact absurd ((hname _).trans hfound) heq
      · exact ⟨hmem, rfl⟩

end Update

end Unique

/-! ## Calls that succeed and calls that fail -/

section Calls

variable {table after : SymbolTable} {name : String} {address : Address} {fixup : Fixup}
  {error : PatchError}

/-- A definition that succeeds is of a word's address. It repeats what is known of the name, or is
the first one. -/
theorem of_define_ok (h : table.define name address = (.ok (), after)) :
    IsAligned address ∧
      (table.addressOf? name = some address ∧ after = table ∨
        table.addressOf? name = none ∧
          after = table.update name fun label => { label with address := some address }) := by
  unfold define at h
  by_cases haligned : IsAligned address
  · rw [if_neg (not_not.mpr haligned)] at h
    refine ⟨haligned, ?_⟩
    rcases hknown : table.addressOf? name with _ | known
    · rw [hknown] at h
      exact Or.inr ⟨rfl, (Prod.mk.inj h).2.symm⟩
    · simp only [hknown] at h
      split at h
      · next hsame => exact Or.inl ⟨by rw [hsame], (Prod.mk.inj h).2.symm⟩
      · cases h
  · rw [if_pos haligned] at h
    cases h

/-- A definition that is refused changes nothing. -/
theorem of_define_error (h : table.define name address = (.error error, after)) :
    after = table := by
  unfold define at h
  split at h
  · exact (Prod.mk.inj h).2.symm
  · split at h
    · cases h
    · split at h
      · cases h
      · exact (Prod.mk.inj h).2.symm

/-- A reference that is recorded comes from a word's address. -/
theorem of_addReference_ok (h : table.addReference fixup name = (.ok (), after)) :
    IsAligned fixup.site ∧ after = table.update name (·.addFixup fixup) := by
  unfold addReference at h
  by_cases haligned : IsAligned fixup.site
  · rw [if_neg (not_not.mpr haligned)] at h
    exact ⟨haligned, (Prod.mk.inj h).2.symm⟩
  · rw [if_pos haligned] at h
    cases h

/-- A reference is refused only if it does not come from a word's address, and then nothing
changes. -/
theorem of_addReference_error (h : table.addReference fixup name = (.error error, after)) :
    ¬IsAligned fixup.site ∧ error = .misalignedAddress name fixup.site ∧ after = table := by
  unfold addReference at h
  by_cases haligned : IsAligned fixup.site
  · rw [if_neg (not_not.mpr haligned)] at h
    cases h
  · rw [if_pos haligned] at h
    obtain ⟨herror, rfl⟩ := Prod.mk.inj h
    exact ⟨haligned, (Except.error.inj herror).symm, rfl⟩

end Calls

end SymbolTable

end Backpatch
