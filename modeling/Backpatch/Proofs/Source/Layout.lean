import Backpatch.Assembly
import Backpatch.Proofs.Draft
import Backpatch.Proofs.Image
import Backpatch.Proofs.SymbolTable
import Backpatch.Source.Line

/-!
# Layouts

What a source text means, one line at a time and without a state. A line says some items: its
labels, then its statement. An item stands at a place, the number of statements on earlier lines,
and its address is the base address plus four times its place.

A layout is the row of placed items. From it come directly the names in the order of first mention,
the place where a name is defined first, the references to a name, and the words. `Layout.label`
collects what is known of one name, and `Layout.refused` and `Layout.unresolved` are everything that
is wrong with a program.
-/

namespace Backpatch

/-- One thing that a source line says. -/
inductive Item where
  /-- A label for the place of the line. -/
  | label (name : String)
  /-- A statement, which takes the place. -/
  | statement (statement : Statement)
  deriving DecidableEq, Repr

namespace Item

/-- The number of words that an item takes. -/
def length : Item → Nat
  | .label _ => 0
  | .statement _ => 1

/-- The statement, if the item is one. -/
def statement? : Item → Option Statement
  | .label _ => none
  | .statement emitted => some emitted

/-- The name that an item mentions: as a label, or as the target of a jump or a branch. -/
def name? : Item → Option String
  | .label name => some name
  | .statement (.word _) => none
  | .statement (.reference _ name) => some name

end Item

/-- The items of a line, in textual order. -/
def SourceLine.items (line : SourceLine) : List Item :=
  line.labels.map Item.label ++ line.statement.toList.map Item.statement

/-- The word of a statement, with its target field still empty. -/
def Statement.emitted : Statement → Word
  | .word value => value
  | .reference value _ => value

/-- The number of words from a base address to the end of the address space. -/
def capacity (base : Address) : Nat :=
  (0x1_0000_0000 - base.toNat) / wordSize

/-! ## Places -/

/-- Items with their places. -/
abbrev Layout := List (Nat × Item)

/-- The statements among items. -/
def Item.statements (items : List Item) : List Statement :=
  items.filterMap Item.statement?

namespace Layout

/-- The layout of items, the first of which stands at a given place. -/
def ofItems : Nat → List Item → Layout
  | _, [] => []
  | place, item :: rest => (place, item) :: ofItems (place + item.length) rest

/-- The layout of a program. -/
def ofLines (lines : List SourceLine) : Layout :=
  ofItems 0 (lines.flatMap SourceLine.items)

/-- The items for which the address space has room. -/
def recorded (base : Address) (layout : Layout) : Layout :=
  layout.filter (·.1 < capacity base)

/-- The names mentioned, in the order of their first mention. -/
def names (layout : Layout) : List String :=
  (layout.filterMap (·.2.name?)).eraseDups

/-- The words of the statements. -/
def words (layout : Layout) : List Word :=
  layout.filterMap fun (_, item) => item.statement?.map Statement.emitted

/-- The place at which a name is defined first. -/
def definition? (layout : Layout) (name : String) : Option Nat :=
  layout.findSome? fun (place, item) => if item = .label name then some place else none

/-- The reference that an item at a place makes to a name. -/
def fixup? (base : Address) (name : String) : Nat × Item → Option Fixup
  | (place, .statement (.reference word target)) =>
    if target = name then
      word.fixupKind?.map fun kind => { handle := place, site := placeAddress base place, kind }
    else none
  | _ => none

/-- The references to a name, in textual order. -/
def fixups (base : Address) (layout : Layout) (name : String) : List Fixup :=
  layout.filterMap (fixup? base name)

/-- What a layout says of a name. -/
def label (base : Address) (layout : Layout) (name : String) : Label where
  name
  address := (layout.definition? name).map (placeAddress base)
  fixups := (layout.fixups base name).toArray

/-- The symbol table of a layout. -/
def table (base : Address) (layout : Layout) : SymbolTable :=
  { labels := layout.names.map (layout.label base) }

/-- The image of a layout, with all target fields empty. -/
def image (base : Address) (layout : Layout) : Image :=
  { base, words := layout.words.toArray }

/-! ## What is wrong with a program -/

/-- What an item is refused for when it is recorded, if `recorded` are the items for which there is
room: it stands past the end of the address space, or it defines a name again at another place. -/
def refusal? (base : Address) (recorded : Layout) : Nat × Item → Option PatchError
  | (place, item) =>
    if capacity base ≤ place then some (.addressOverflow base (capacity base + 1))
    else
      match item with
      | .label name =>
        if recorded.definition? name = some place then none else some (.duplicateLabel name)
      | .statement _ => none

/-- Past the end of the address space every item is refused. -/
theorem refusal?_of_full {base : Address} {place : Nat} (h : capacity base ≤ place)
    (recorded : Layout) (item : Item) :
    refusal? base recorded (place, item) =
      some (.addressOverflow base (capacity base + 1)) :=
  if_pos h

/-- A label is refused at any place but the one where it is defined first. -/
theorem refusal?_label {base : Address} {place : Nat} (h : place < capacity base)
    (recorded : Layout) (name : String) :
    refusal? base recorded (place, .label name) =
      if recorded.definition? name = some place then none else some (.duplicateLabel name) :=
  if_neg (Nat.not_le_of_lt h)

/-- A statement is refused only where there is no room. -/
theorem refusal?_statement {base : Address} {place : Nat} (h : place < capacity base)
    (recorded : Layout) (statement : Statement) :
    refusal? base recorded (place, .statement statement) = none :=
  if_neg (Nat.not_le_of_lt h)

/-- What items are refused for when they are recorded, in textual order. -/
def refused (base : Address) (layout : Layout) : List PatchError :=
  layout.filterMap (refusal? base (layout.recorded base))

/-- What stands in the way of a reference to a name that is defined at `target`. -/
def outOfRange? (checkRanges : Bool) (name : String) (target : Address) (fixup : Fixup) :
    Option PatchError :=
  if checkRanges && !fixup.kind.reaches target fixup.site then
    some (fixup.kind.outOfRange name fixup.site)
  else none

/-- What stands in the way of the references to a name: it has no definition, or they are too far
from it. -/
def unresolvedName (checkRanges : Bool) (base : Address) (layout : Layout) (name : String) :
    List PatchError :=
  match layout.definition? name with
  | none => if layout.fixups base name = [] then [] else [.undefinedLabel name]
  | some place =>
    (layout.fixups base name).filterMap
      (outOfRange? checkRanges name (placeAddress base place))

/-- What stands in the way of the references, name by name in the order of first mention. -/
def unresolved (checkRanges : Bool) (base : Address) (layout : Layout) : List PatchError :=
  layout.names.flatMap (layout.unresolvedName checkRanges base)

end Layout

/-! ## One more item -/

namespace Item

@[simp] theorem statements_nil : statements [] = [] := rfl

@[simp] theorem statements_cons_label (name : String) (items : List Item) :
    statements (.label name :: items) = statements items := rfl

@[simp] theorem statements_cons_statement (first : Statement) (items : List Item) :
    statements (.statement first :: items) = first :: statements items := rfl

@[simp] theorem statements_append (front back : List Item) :
    statements (front ++ back) = statements front ++ statements back :=
  List.filterMap_append

end Item

namespace Layout

/-- Items behind others stand behind their statements. -/
theorem ofItems_append (place : Nat) (front back : List Item) :
    ofItems place (front ++ back) =
      ofItems place front ++ ofItems (place + (Item.statements front).length) back := by
  induction front generalizing place with
  | nil => rfl
  | cons item rest ih =>
      cases item with
      | label name => simp [ofItems, Item.length, ih]
      | statement first =>
          have hplace : place + 1 + (Item.statements rest).length =
              place + ((Item.statements rest).length + 1) := by omega
          simp [ofItems, Item.length, ih, hplace]

theorem ofItems_concat (place : Nat) (items : List Item) (item : Item) :
    ofItems place (items ++ [item]) =
      ofItems place items ++ [(place + (Item.statements items).length, item)] :=
  ofItems_append place items [item]

/-- The statements of a layout stand at their own numbers. -/
theorem mem_ofItems_statement_iff {items : List Item} {first place : Nat} {statement : Statement} :
    (place, .statement statement) ∈ ofItems first items ↔
      first ≤ place ∧ (Item.statements items)[place - first]? = some statement := by
  induction items generalizing first with
  | nil => simp [ofItems]
  | cons item rest ih =>
      cases item with
      | label name => simpa [ofItems, Item.length] using ih
      | statement other =>
          simp only [ofItems, Item.length, List.mem_cons, ih, Prod.mk.injEq, Item.statement.injEq,
            Item.statements_cons_statement]
          constructor
          · rintro (⟨rfl, rfl⟩ | ⟨hle, hget⟩)
            · simp
            · refine ⟨by omega, ?_⟩
              rw [show place - first = place - (first + 1) + 1 by omega]
              exact hget
          · rintro ⟨hle, hget⟩
            by_cases heq : place = first
            · subst heq
              rw [Nat.sub_self, List.getElem?_cons_zero, Option.some.injEq] at hget
              exact Or.inl ⟨rfl, hget.symm⟩
            · refine Or.inr ⟨by omega, ?_⟩
              rw [show place - first = place - (first + 1) + 1 by omega] at hget
              exact hget

/-- A place takes one statement. -/
theorem statement_unique {items : List Item} {first place : Nat} {statement other : Statement}
    (h : (place, .statement statement) ∈ ofItems first items)
    (hother : (place, .statement other) ∈ ofItems first items) : statement = other := by
  have heq := (mem_ofItems_statement_iff.mp h).2
  rw [(mem_ofItems_statement_iff.mp hother).2] at heq
  exact (Option.some.inj heq).symm

/-- No item stands behind the last statement by more than its own place. -/
theorem le_length_of_mem {items : List Item} {first place : Nat} {item : Item}
    (h : (place, item) ∈ ofItems first items) :
    place + item.length ≤ first + (Item.statements items).length := by
  induction items generalizing first with
  | nil => cases h
  | cons head rest ih =>
      have hlength : (Item.statements (head :: rest)).length =
          head.length + (Item.statements rest).length := by
        cases head with
        | label name => simp [Item.length]
        | statement value => simp [Item.length, Nat.add_comm]
      rcases List.mem_cons.mp h with heq | hmem
      · cases heq
        omega
      · have hle := ih hmem
        omega

section Concat

variable (base : Address) (layout : Layout) (place : Nat) (item : Item)

theorem recorded_concat :
    recorded base (layout ++ [(place, item)]) =
      recorded base layout ++ if place < capacity base then [(place, item)] else [] := by
  unfold recorded
  rw [List.filter_append]
  by_cases h : place < capacity base <;> simp [h]

theorem words_concat :
    words (layout ++ [(place, item)]) =
      layout.words ++ (item.statement?.map Statement.emitted).toList := by
  unfold words
  rw [List.filterMap_append]
  rfl

theorem fixups_concat (name : String) :
    fixups base (layout ++ [(place, item)]) name =
      layout.fixups base name ++ (fixup? base name (place, item)).toList := by
  unfold fixups
  rw [List.filterMap_append]
  rfl

theorem definition?_concat (name : String) :
    definition? (layout ++ [(place, item)]) name =
      (layout.definition? name).or (if item = .label name then some place else none) := by
  unfold definition?
  rw [List.findSome?_append]
  by_cases h : item = .label name <;> simp [h]

theorem names_concat :
    names (layout ++ [(place, item)]) =
      match item.name? with
      | none => layout.names
      | some name => if name ∈ layout.names then layout.names else layout.names ++ [name] := by
  unfold names
  rw [List.filterMap_append]
  cases h : item.name? with
  | none => simp [h]
  | some name => simp [h, eraseDups_concat]

end Concat

/-! ## Names, definitions and references -/

variable {base : Address} {layout : Layout} {name : String}

theorem mem_names_iff : name ∈ layout.names ↔ ∃ entry ∈ layout, entry.2.name? = some name := by
  unfold names
  rw [List.mem_eraseDups, List.mem_filterMap]

theorem names_nodup (layout : Layout) : layout.names.Nodup :=
  nodup_eraseDups _

theorem mem_of_definition? {place : Nat} (h : layout.definition? name = some place) :
    (place, .label name) ∈ layout := by
  obtain ⟨⟨place', item⟩, hmem, hsome⟩ := List.exists_of_findSome?_eq_some h
  simp only at hsome
  split at hsome
  · next hitem =>
    cases hsome
    exact hitem ▸ hmem
  · cases hsome

theorem definition?_isSome_of_mem {place : Nat} (h : (place, .label name) ∈ layout) :
    ∃ first, layout.definition? name = some first := by
  rw [← Option.isSome_iff_exists, definition?, List.findSome?_isSome_iff]
  exact ⟨_, h, by simp⟩

theorem fixup?_eq_some_iff {entry : Nat × Item} {fixup : Fixup} :
    fixup? base name entry = some fixup ↔
      ∃ word, entry = (fixup.handle, .statement (.reference word name)) ∧
        word.fixupKind? = some fixup.kind ∧ fixup.site = placeAddress base fixup.handle := by
  obtain ⟨place, item⟩ := entry
  obtain ⟨handle, site, kind⟩ := fixup
  cases item with
  | label other => simp [fixup?]
  | statement statement =>
      cases statement with
      | word word => simp [fixup?]
      | reference word target =>
          by_cases htarget : target = name
          · subst htarget
            cases hkind : word.fixupKind? with
            | none => simp [fixup?, hkind]
            | some kind' =>
                simp only [fixup?, hkind, if_true, Option.map_some, Option.some.injEq,
                  Fixup.mk.injEq, Prod.mk.injEq, Item.statement.injEq, Statement.reference.injEq]
                constructor
                · rintro ⟨rfl, rfl, rfl⟩
                  exact ⟨word, ⟨rfl, rfl, trivial⟩, hkind, rfl⟩
                · rintro ⟨word', ⟨rfl, rfl, -⟩, hkind', rfl⟩
                  rw [hkind] at hkind'
                  exact ⟨rfl, rfl, Option.some.inj hkind'⟩
          · simp [fixup?, htarget]

theorem mem_fixups_iff {fixup : Fixup} :
    fixup ∈ layout.fixups base name ↔
      ∃ word, (fixup.handle, .statement (.reference word name)) ∈ layout ∧
        word.fixupKind? = some fixup.kind ∧ fixup.site = placeAddress base fixup.handle := by
  unfold fixups
  rw [List.mem_filterMap]
  constructor
  · rintro ⟨entry, hmem, hfixup⟩
    obtain ⟨word, rfl, hkind, hsite⟩ := fixup?_eq_some_iff.mp hfixup
    exact ⟨word, hmem, hkind, hsite⟩
  · rintro ⟨word, hmem, hkind, hsite⟩
    exact ⟨_, hmem, fixup?_eq_some_iff.mpr ⟨word, rfl, hkind, hsite⟩⟩

/-- A jump or a branch refers to its label from its place. -/
theorem mem_fixups_of_reference {place : Nat} {word : Word} {kind : FixupKind}
    (h : (place, .statement (.reference word name)) ∈ layout) (hkind : word.fixupKind? = some kind) :
    ⟨place, placeAddress base place, kind⟩ ∈ layout.fixups base name :=
  mem_fixups_iff.mpr ⟨word, h, hkind, rfl⟩

end Layout

/-- Everything that is wrong with a program whose lines can be read. -/
def programErrors (config : Config) (lines : List SourceLine) : List PatchError :=
  let layout := Layout.ofLines lines
  layout.refused config.baseAddress ++
    (layout.recorded config.baseAddress).unresolved config.checkRanges config.baseAddress

end Backpatch
