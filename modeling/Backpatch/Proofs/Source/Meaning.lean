import Backpatch.Proofs.Patch.Field
import Backpatch.Proofs.Source.Program

/-!
# What an assembled program is

The end of the development from a text to its final words: a run that succeeds has made of the lines
of the text exactly what they say, one at a time.

* `Statement.Becomes`: the final word of one statement, from its address and the addresses of
  labels.
* `Assembly.Realizes`: the table has the names that the lines mention, each with the address of its
  line, and the words are those of the statements, in order.
-/

namespace Backpatch

/-- The word that a statement at an address becomes, with labels as in a table. Jumps get the index
of the word of their label, branches the distance from the next instruction. -/
inductive Statement.Becomes (symbols : SymbolTable) (site : Nat) : Statement → Word → Prop
  | word (value : Word) : Becomes symbols site (.word value) value
  | jump {value : Word} {opcode : Opcode} {name : String} {target : Address}
      (hopcode : value.opcode? = some opcode) (hjump : opcode.isJump = true)
      (htarget : symbols.addressOf? name = some target) :
      Becomes symbols site (.reference value name) (value ||| ((target >>> 2) &&& 0x3FFFFFF))
  | branch {value : Word} {opcode : Opcode} {name : String} {target : Address}
      (hopcode : value.opcode? = some opcode) (hbranch : opcode.isBranch = true)
      (htarget : symbols.addressOf? name = some target) :
      Becomes symbols site (.reference value name)
        (value |||
          (BitVec.ofInt 32 (((target.toNat : Int) - site - wordSize) >>> (2 : Nat)) &&& 0xFFFF))

/-- A run has made of lines what they say. -/
structure Assembly.Realizes (config : Config) (lines : List SourceLine) (assembly : Assembly) :
    Prop where
  /-- A label has the address of its line, wherever it stands. -/
  labels : ∀ index line name, lines[index]? = some line → name ∈ line.labels →
    ∃ address, assembly.symbols.addressOf? name = some address ∧
      address.toNat = config.baseAddress.toNat + wordSize * SourceLine.place lines index
  /-- All lines with one label have one address. -/
  agreed : ∀ index line index' line' name,
    lines[index]? = some line → name ∈ line.labels →
      lines[index']? = some line' → name ∈ line'.labels →
        SourceLine.place lines index = SourceLine.place lines index'
  /-- The names are those mentioned, in the order of their first mention. -/
  names : assembly.symbols.names = (lines.flatMap SourceLine.mentions).eraseDups
  /-- Each name is a label of some line. -/
  defined : ∀ name ∈ assembly.symbols.names, ∃ (index : Nat) (line : SourceLine),
    lines[index]? = some line ∧ name ∈ line.labels
  /-- No reference is left. -/
  drained : ∀ label ∈ assembly.symbols.labels, label.fixups = #[]
  /-- The last word stands within the address space. -/
  room : config.baseAddress.toNat + wordSize * (SourceLine.statements lines).length ≤
    0x1_0000_0000
  /-- The final words are those of the statements, and are laid out in the order of bytes chosen. -/
  words : ∃ words, assembly.finalWords = .ok words ∧
    assembly.finalBytes = .ok (words.flatMap config.byteOrder.bytes) ∧
    words.length = (SourceLine.statements lines).length ∧
    ∀ (place : Nat) (statement : Statement) (word : Word),
      (SourceLine.statements lines)[place]? = some statement → words[place]? = some word →
        statement.Becomes assembly.symbols (config.baseAddress.toNat + wordSize * place) word

section Realizes

variable {config : Config} {lines : List SourceLine}

/-- A label has the address of the place of its line. -/
theorem Sound.addressOf?_label (h : Sound config lines) {index : Nat} {line : SourceLine}
    (hline : lines[index]? = some line) {name : String} (hname : name ∈ line.labels) :
    (Assembly.resolved config lines).symbols.addressOf? name =
      some (placeAddress config.baseAddress (SourceLine.place lines index)) := by
  rw [h.addressOf?_eq, h.agreed _ _ (Layout.mem_ofLines_label hline hname), Option.map_some]

/-- The name of a reference is defined, and has the address of its definition. -/
theorem Sound.exists_target (h : Sound config lines) {place : Nat} {value : Word} {name : String}
    (hstatement : (SourceLine.statements lines)[place]? = some (.reference value name)) :
    ∃ first, (Layout.ofLines lines).definition? name = some first ∧
      (Assembly.resolved config lines).symbols.addressOf? name =
        some (placeAddress config.baseAddress first) := by
  have hmention : name ∈ (Layout.ofLines lines).names :=
    Layout.mem_names_iff.mpr ⟨_, Layout.mem_ofLines_statement_iff.mpr hstatement, rfl⟩
  obtain ⟨first, hfirst⟩ := h.defined name hmention
  refine ⟨first, hfirst, ?_⟩
  rw [h.addressOf?_eq, hfirst, Option.map_some]

/-- A statement of a program stands within the address space. -/
theorem Sound.lt_capacity (h : Sound config lines) {place : Nat}
    (hplace : place < (SourceLine.statements lines).length) :
    place < capacity config.baseAddress :=
  h.room _ (Layout.mem_ofLines_statement_iff.mpr (List.getElem?_eq_getElem hplace))

/-- Each final word is what its statement becomes. -/
theorem Sound.becomes (h : Sound config lines)
    (hfield : ∀ line ∈ lines, ∀ item ∈ line.items, item.HasField) {report : PatchReport}
    (hafter : PatchedInto ((Layout.ofLines lines).image config.baseAddress)
      ((Layout.ofLines lines).table config.baseAddress) report
      (Assembly.resolved config lines).draft)
    {place : Nat} {statement : Statement} {word : Word}
    (hstatement : (SourceLine.statements lines)[place]? = some statement)
    (hword : (Assembly.resolved config lines).draft.image.words.toList[place]? = some word) :
    statement.Becomes (Assembly.resolved config lines).symbols
      (config.baseAddress.toNat + wordSize * place) word := by
  cases statement with
  | word value =>
      rw [hafter.word_eq hstatement] at hword
      obtain rfl := Option.some.inj hword
      exact .word value
  | reference value name =>
      have hplace := (List.getElem?_eq_some_iff.mp hstatement).1
      have hsite := toNat_placeAddress (h.lt_capacity hplace)
      obtain ⟨first, hfirst, htarget⟩ := h.exists_target hstatement
      obtain ⟨kind, hkind⟩ := Option.isSome_iff_exists.mp
        (Layout.hasField_of_mem_ofLines hfield (Layout.mem_ofLines_statement_iff.mpr hstatement))
      rw [hafter.reference_eq hstatement hkind hfirst] at hword
      obtain rfl := Option.some.inj hword
      obtain ⟨opcode, hopcode, ⟨rfl, hjump⟩ | ⟨rfl, hbranch⟩⟩ := exists_opcode_of_fixupKind? hkind
      · rw [FixupKind.field, jumpField_eq]
        exact .jump hopcode hjump htarget
      · rw [FixupKind.field, branchField_eq, hsite]
        exact .branch hopcode hbranch htarget

/-- A resolved program realizes its lines. -/
theorem Sound.realizes (h : Sound config lines)
    (hfield : ∀ line ∈ lines, ∀ item ∈ line.items, item.HasField)
    (herrors : programErrors config lines = []) :
    (Assembly.resolved config lines).Realizes config lines := by
  obtain ⟨report, hafter⟩ := patchedInto_resolved h herrors
  refine ⟨?_, ?_, h.names_eq, ?_, hafter.drained, ?_, ?_⟩
  · intro index line name hline hname
    have hmem := Layout.mem_ofLines_label hline hname
    exact ⟨_, h.addressOf?_label hline hname, toNat_placeAddress (h.room _ hmem)⟩
  · intro index line index' line' name hline hname hline' hname'
    have hfirst := h.agreed _ _ (Layout.mem_ofLines_label hline hname)
    rw [h.agreed _ _ (Layout.mem_ofLines_label hline' hname')] at hfirst
    exact (Option.some.inj hfirst).symm
  · intro name hname
    rw [h.names_eq, ← Layout.names_ofLines] at hname
    obtain ⟨first, hfirst⟩ := h.defined name hname
    exact Layout.exists_line_of_mem_ofLines (Layout.mem_of_definition? hfirst)
  · rcases Nat.eq_zero_or_pos (SourceLine.statements lines).length with hzero | hpos
    · rw [hzero]
      exact Nat.le_of_lt config.baseAddress.isLt
    · have hlast := h.lt_capacity (Nat.sub_lt hpos Nat.one_pos)
      unfold capacity at hlast
      simp only [wordSize] at hlast ⊢
      omega
  · refine ⟨_, rfl, rfl, hafter.length_words, ?_⟩
    intro place statement word hstatement hword
    exact h.becomes hfield hafter hstatement hword

end Realizes

/-- A source text that is assembled is read line by line, and its final words and its labels are
what the lines say. -/
theorem assemble_realizes {config : Config} {source : String} {assembly : Assembly}
    (h : assemble config source = .ok assembly) :
    ∃ lines, (textLines source).map SourceLine.parse = lines.map .ok ∧
      assembly.Realizes config lines := by
  obtain ⟨-, hrefused, herrors, rfl⟩ := of_assemble_eq_ok h
  have hsound := sound_of_programErrors hasField_of_mem_sourceLines herrors
  exact ⟨sourceLines source, map_parse_textLines hrefused,
    hsound.realizes hasField_of_mem_sourceLines herrors⟩

/-- A branch forward over a jump back, with two labels at one address. -/
theorem assemble_realizes_loop :
    let source := "loop: beq $t0, $t1, end\n j loop\nend: done: .word 7"
    ∃ assembly, assemble {} source = .ok assembly ∧
      ∃ lines, (textLines source).map SourceLine.parse = lines.map .ok ∧
        assembly.Realizes {} lines := by
  intro source
  have hok : (assemble {} source).toOption.isSome := by decide +kernel
  obtain ⟨assembly, hassembly⟩ := Option.isSome_iff_exists.mp hok
  have h := eq_ok_of_toOption hassembly
  exact ⟨assembly, h, assemble_realizes h⟩

end Backpatch
