import Backpatch.Proofs.Patch.Field
import Backpatch.Proofs.Run.Coherence
import Backpatch.Proofs.SymbolTable.Record

/-!
# What the log of a run says

The log of a run tells what was called and what was returned, and nothing of the state. It says all
the same what a program consists of, as long as none of it is patched: the words that were appended,
the labels that were defined, and what refers to them.

* `Log.appended`, `Log.uses`, `Log.addressOf?`: what the calls that succeeded have said, read off
  the log.
* `Log.Describes`: a draft holds what the log says. One more entry adds to both alike
  (`Describes.keep`, `Describes.push`), and the entry of a call that fails adds nothing.

The symbol table is that of a record of the definitions and references (`Log.Lists`), which the log
says but for the kinds of the references.
-/

namespace Backpatch

namespace Assembly

namespace Log

/-! ## Reading a log -/

/-- The word that a call has appended, with the handle that it returned. -/
def appended? : Call × Outcome → Option (Handle × Word)
  | (.append word, .appended (.ok handle)) => some (handle, word)
  | (.appendReference word _, .appended (.ok handle)) => some (handle, word)
  | _ => none

/-- The instruction from which a call has recorded a reference, with the name of the label. -/
def use? : Call × Outcome → Option (Handle × String)
  | (.reference handle _ name, .recorded (.ok ())) => some (handle, name)
  | (.appendReference _ name, .appended (.ok handle)) => some (handle, name)
  | _ => none

/-- The label that a call has defined, with its address; `next` is that of the next word. -/
def definition? (next : Address) : Call × Outcome → Option (String × Address)
  | (.define name address, .recorded (.ok ())) => some (name, address)
  | (.defineHere name, .recorded (.ok ())) => some (name, next)
  | _ => none

/-- What a patching has returned. -/
def patch? : Call × Outcome → Option (Except Diagnostics PatchReport)
  | (.patch, .patched result) => some result
  | _ => none

/-- The words that were appended, with their handles, in the order of the calls. -/
def appended (log : Log) : List (Handle × Word) :=
  log.filterMap appended?

/-- The references that were recorded, by handle and name. -/
def uses (log : Log) : List (Handle × String) :=
  log.filterMap use?

/-- The definitions that were made after `place` words had been appended. -/
def definitionsFrom (base : Address) (place : Nat) : Log → List (String × Address)
  | [] => []
  | entry :: rest =>
    (definition? (placeAddress base place) entry).toList ++
      definitionsFrom base (place + (appended? entry).toList.length) rest

/-- The address that the first definition of a name has given to it. -/
def addressOf? (base : Address) (log : Log) (name : String) : Option Address :=
  (definitionsFrom base 0 log).findSome? fun (other, address) =>
    if other = name then some address else none

/-- What the first patching has returned. -/
def firstPatch? (log : Log) : Option (Except Diagnostics PatchReport) :=
  log.findSome? patch?

/-! ## One more entry -/

section Concat

variable (log : Log) (entry : Call × Outcome)

theorem appended_concat : appended (log ++ [entry]) = log.appended ++ (appended? entry).toList := by
  unfold appended
  rw [List.filterMap_append]
  rfl

theorem uses_concat : uses (log ++ [entry]) = log.uses ++ (use? entry).toList := by
  unfold uses
  rw [List.filterMap_append]
  rfl

theorem firstPatch?_concat : firstPatch? (log ++ [entry]) = log.firstPatch?.or (patch? entry) := by
  unfold firstPatch?
  rw [List.findSome?_append]
  simp

theorem definitionsFrom_concat (base : Address) (place : Nat) :
    definitionsFrom base place (log ++ [entry]) =
      definitionsFrom base place log ++
        (definition? (placeAddress base (place + log.appended.length)) entry).toList := by
  induction log generalizing place with
  | nil => simp [definitionsFrom, appended]
  | cons first rest ih =>
      have hplace : place + (appended (first :: rest)).length =
          place + (appended? first).toList.length + (appended rest).length := by
        have happended : appended (first :: rest) = (appended? first).toList ++ appended rest :=
          List.filterMap_append (l := [first])
        rw [happended, List.length_append, Nat.add_assoc]
      rw [List.cons_append, definitionsFrom, definitionsFrom, ih, hplace, List.append_assoc]

theorem addressOf?_concat (base : Address) (name : String) :
    addressOf? base (log ++ [entry]) name =
      (addressOf? base log name).or
        ((definition? (placeAddress base log.appended.length) entry).bind
          fun (other, address) => if other = name then some address else none) := by
  unfold addressOf?
  rw [definitionsFrom_concat, List.findSome?_append, Nat.zero_add]
  rcases definition? (placeAddress base log.appended.length) entry with _ | said
  · rfl
  · simp

end Concat

/-- An entry that adds nothing to the program. -/
structure Silent (entry : Call × Outcome) : Prop where
  appended : appended? entry = none
  use : use? entry = none
  definition : ∀ next, definition? next entry = none

theorem silent_of_failed (call : Call) {outcome : Outcome} (h : outcome.failed) :
    Silent (call, outcome) := by
  -- whatever was called, the readers of the log look at results that are no failures
  rcases outcome with (error | handle) | (error | ⟨⟩) | (error | report)
  case appended.ok | recorded.ok | patched.ok => cases h
  all_goals cases call <;> exact ⟨rfl, rfl, fun _ => rfl⟩

theorem silent_patch (result : Except Diagnostics PatchReport) :
    Silent (.patch, .patched result) :=
  ⟨rfl, rfl, fun _ => rfl⟩

/-! ## The symbol table of a log -/

/-- The definitions and references of a record are those of a log. -/
structure Tells (base : Address) (log : Log) (record : Record) : Prop where
  agrees : record.Agrees
  addresses : ∀ name, record.definition? name = log.addressOf? base name
  uses : ∀ handle name,
    (∃ site kind, .refer ⟨handle, site, kind⟩ name ∈ record) ↔ (handle, name) ∈ log.uses

/-- A symbol table lists the definitions and references of a log. -/
def Lists (base : Address) (log : Log) (table : SymbolTable) : Prop :=
  ∃ record : Record, table = record.table ∧ Tells base log record

section Lists

variable {base : Address} {log : Log} {table after : SymbolTable} {entry : Call × Outcome}

/-- An entry that says nothing of a label. -/
theorem Lists.keep (h : Lists base log table) (huse : use? entry = none)
    (hdefinition : ∀ next, definition? next entry = none) : Lists base (log ++ [entry]) table := by
  obtain ⟨record, hrecord, htells⟩ := h
  refine ⟨record, hrecord, htells.agrees, ?_, ?_⟩
  · intro name
    rw [addressOf?_concat, hdefinition, Option.bind_none, Option.or_none]
    exact htells.addresses name
  · intro handle name
    rw [uses_concat, huse, Option.toList_none, List.append_nil]
    exact htells.uses handle name

/-- An entry that says where a label stands. -/
theorem Lists.define (h : Lists base log table) {name : String} {address : Address}
    (htable : table.define name address = (.ok (), after)) (huse : use? entry = none)
    (hdefinition : definition? (placeAddress base log.appended.length) entry =
      some (name, address)) : Lists base (log ++ [entry]) after := by
  obtain ⟨record, rfl, htells⟩ := h
  have hcall : (SymbolTable.Call.define name address).perform record.table = (.ok (), after) :=
    htable
  obtain ⟨hafter, hagrees⟩ := htells.agrees.perform hcall
  refine ⟨record ++ [.define name address], hafter, hagrees, ?_, ?_⟩
  · intro other
    rw [Record.definition?_concat, addressOf?_concat, hdefinition, htells.addresses]
    rfl
  · intro handle other
    rw [uses_concat, huse, Option.toList_none, List.append_nil, ← htells.uses]
    simp

/-- An entry that says what refers to a label. -/
theorem Lists.refer (h : Lists base log table) {name : String} {fixup : Fixup}
    (htable : table.addReference fixup name = (.ok (), after))
    (huse : use? entry = some (fixup.handle, name))
    (hdefinition : ∀ next, definition? next entry = none) :
    Lists base (log ++ [entry]) after := by
  obtain ⟨record, rfl, htells⟩ := h
  have hcall : (SymbolTable.Call.refer fixup name).perform record.table = (.ok (), after) :=
    htable
  obtain ⟨hafter, hagrees⟩ := htells.agrees.perform hcall
  refine ⟨record ++ [.refer fixup name], hafter, hagrees, ?_, ?_⟩
  · intro other
    rw [Record.definition?_concat, addressOf?_concat, hdefinition, htells.addresses]
    rfl
  · intro handle other
    rw [uses_concat, huse, Option.toList_some, List.mem_append, List.mem_singleton, ← htells.uses]
    simp only [List.mem_append, List.mem_singleton, exists_or]
    refine or_congr_right ?_
    constructor
    · rintro ⟨site, kind, hcall⟩
      cases hcall
      rfl
    · intro heq
      cases heq
      exact ⟨fixup.site, fixup.kind, rfl⟩

end Lists

/-! ## The draft of a log -/

/-- A draft holds what a log says. -/
structure Describes (base : Address) (log : Log) (draft : Draft) : Prop where
  start : draft.image.base = base
  /-- The words are those that were appended, in the order of the calls. -/
  words : draft.image.words.toList = log.appended.map Prod.snd
  /-- A word was given its position as handle. -/
  handles : log.appended.map Prod.fst = List.range log.appended.length
  table : Lists base log draft.symbols

section Describes

variable {base : Address} {log : Log} {image : Image} {symbols table : SymbolTable}
  {entry : Call × Outcome}

theorem Describes.size (h : Describes base log ⟨image, symbols⟩) :
    image.size = log.appended.length := by
  have hlength := congrArg List.length h.words
  rwa [List.length_map, Array.length_toList] at hlength

/-- A handle names the word that was appended with it. -/
theorem Describes.mem_appended_iff {draft : Draft} (h : Describes base log draft) {handle : Handle}
    {word : Word} : (handle, word) ∈ log.appended ↔ draft.image.words[handle]? = some word := by
  have hword : ∀ (index : Nat) (first : Handle × Word), log.appended[index]? = some first →
      draft.image.words[index]? = some first.2 ∧ first.1 = index := by
    intro index first hfirst
    refine ⟨?_, ?_⟩
    · rw [← Array.getElem?_toList, h.words, List.getElem?_map, hfirst, Option.map_some]
    · have hindex : (log.appended.map Prod.fst)[index]? = some first.1 := by
        rw [List.getElem?_map, hfirst, Option.map_some]
      rw [h.handles] at hindex
      obtain ⟨hlt, heq⟩ := List.getElem?_eq_some_iff.mp hindex
      rw [← heq, List.getElem_range]
  constructor
  · intro hmem
    obtain ⟨index, hfirst⟩ := List.mem_iff_getElem?.mp hmem
    obtain ⟨hfound, rfl⟩ := hword index _ hfirst
    exact hfound
  · intro hfound
    rw [← Array.getElem?_toList, h.words, List.getElem?_map, Option.map_eq_some_iff] at hfound
    obtain ⟨⟨other, word⟩, hfirst, rfl⟩ := hfound
    obtain ⟨-, rfl⟩ := hword handle _ hfirst
    exact List.mem_of_getElem? hfirst

/-- The next word stands at the next place. -/
theorem Describes.site_eq (h : Describes base log ⟨image, symbols⟩) {site : Address}
    (hsite : image.nextAddress = .ok site) : site = placeAddress base log.appended.length := by
  rw [← h.size, ← h.start]
  exact (Image.addressAt_eq_ok_iff.mp hsite).2

/-- An entry that appends no word. -/
theorem Describes.keep (h : Describes base log ⟨image, symbols⟩) (hentry : appended? entry = none)
    (htable : Lists base (log ++ [entry]) table) :
    Describes base (log ++ [entry]) ⟨image, table⟩ := by
  have happended : appended (log ++ [entry]) = log.appended := by
    rw [appended_concat, hentry, Option.toList_none, List.append_nil]
  refine ⟨h.start, ?_, ?_, htable⟩
  · rw [happended]
    exact h.words
  · rw [happended]
    exact h.handles

/-- An entry that appends a word. -/
theorem Describes.push (h : Describes base log ⟨image, symbols⟩) {word : Word}
    (hentry : appended? entry = some (image.size, word))
    (htable : Lists base (log ++ [entry]) table) :
    Describes base (log ++ [entry]) ⟨image.push word, table⟩ := by
  have happended : appended (log ++ [entry]) = log.appended ++ [(image.size, word)] := by
    rw [appended_concat, hentry, Option.toList_some]
  refine ⟨h.start, ?_, ?_, htable⟩
  · rw [happended, List.map_append, ← h.words]
    exact Array.toList_push
  · rw [happended, List.map_append, h.handles, List.length_append, List.length_singleton,
      List.range_succ, h.size]
    rfl

/-- An entry that adds nothing. -/
theorem Describes.silent {draft : Draft} (h : Describes base log draft) (hentry : Silent entry) :
    Describes base (log ++ [entry]) draft :=
  h.keep hentry.appended (h.table.keep hentry.use hentry.definition)

end Describes

end Log

end Assembly

end Backpatch
