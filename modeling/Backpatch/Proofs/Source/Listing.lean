import Backpatch.Proofs.Image.History
import Backpatch.Proofs.Source.Meaning
import Backpatch.Proofs.Source.Reread
import Backpatch.Proofs.Source.Restyle

/-!
# The listing of a program

A line of the listing has two columns of a fixed width, the address and the word, and behind them
the labels of the address and the text of the word. The labels fill a column that has no width to
rely on: there may be several, and any of them may be longer than the padding. Still nothing of them
is lost, because what stands behind the two columns is a source line.

* `SymbolTable.namesAt`: the names at an address. The label column holds these and no others
  (`Assembly.toList_labelColumn`).
* `SourceLine.splitLabels_code_labelled`: names that are printed as labels are read back from in
  front of any line, and the rest is read as a line.
* `Word.splitLabels_disassembly`: the text of a word has no label of its own. It may be refused, so
  this is told from its characters and not from what it is read as.
* `Assembly.ShowsWord` and `Assembly.ListsProgram`: what one line shows, and all of them.
-/

namespace Backpatch

open Operand Text

/-! ## Labels in front of a line -/

namespace SourceLine

/-- Names as they are printed in front of a statement: with a colon behind each one and a space
between two of them. -/
def labelled (names : List String) : List Char :=
  [' '].intercalate (names.map fun name => name.toList ++ [':'])

theorem labelled_cons_cons (first second : String) (rest : List String) :
    labelled (first :: second :: rest) =
      first.toList ++ ':' :: ([' '] ++ labelled (second :: rest)) := by
  simp [labelled, List.intercalate_cons_cons]

/-- Names that are printed in front of a line are its first labels, and what is behind them is read
as a line. -/
theorem splitLabels_code_labelled {names : List String} (h : ∀ name ∈ names, IsName name.toList)
    {gap : List Char} (hgap : AllBlank gap) (line : List Char) :
    splitLabels (code (labelled names ++ (gap ++ line))) =
      (names ++ (splitLabels (code line)).1, (splitLabels (code line)).2) := by
  induction names with
  | nil =>
      have hnil : labelled [] = [] := rfl
      rw [hnil, List.nil_append, List.nil_append, code_append_left hgap]
  | cons first rest ih =>
      have hfirst := h first List.mem_cons_self
      have htrim : trim first.toList = first.toList := hfirst.solid.tight.trim_eq
      have hrest := ih fun name hmem => h name (List.mem_cons_of_mem _ hmem)
      have hname : IsName (trim first.toList) := by rwa [htrim]
      have htaken := splitLabels_code_label hname
      rw [htrim, String.ofList_toList] at htaken
      cases rest with
      | nil =>
          have hsingle : labelled [first] ++ (gap ++ line) =
              first.toList ++ ':' :: (gap ++ line) := by simp [labelled]
          rw [hsingle, htaken, code_append_left hgap]
          rfl
      | cons second rest =>
          rw [labelled_cons_cons, List.append_assoc, List.cons_append, List.append_assoc, htaken,
            code_append_left allBlank_space, hrest]
          rfl

/-- Lines that say the same behind their labels say the same but for the labels, or are refused for
the same reason. -/
theorem parse_eq_map_labels {line other text : List Char} {labels : List String}
    (hline : splitLabels (code line) = (labels, text))
    (hother : splitLabels (code other) = ([], text)) :
    parse line = (parse other).map fun parsed => { parsed with labels } := by
  unfold parse
  rw [hline, hother]
  simp only
  split
  · rfl
  · cases readStatement text <;> rfl

/-- The labels of a line are names. -/
theorem isName_of_mem_labels {line : List Char} {parsed : SourceLine} (h : parse line = .ok parsed)
    {name : String} (hname : name ∈ parsed.labels) : IsName name.toList := by
  obtain ⟨hlabels, -⟩ := parse_eq_ok_iff_rest.mp h
  rw [← hlabels] at hname
  obtain ⟨text, htext, rfl⟩ := List.mem_map.mp hname
  rw [String.toList_ofList]
  exact isLabelName_iff.mp (List.mem_takeWhile_imp htext)

theorem mem_of_mem_code {line : List Char} {c : Char} (h : c ∈ code line) : c ∈ line := by
  obtain ⟨before, behind, hline, -⟩ := exists_around_code line
  rw [hline]
  simp [h]

end SourceLine

/-! ## The text of a word has no label -/

namespace Word

open SourceLine

variable (word : Word)

theorem colon_not_mem_of_solid {text : List Char} (h : Solid text) : ':' ∉ text :=
  fun hmem => h.not_mem ':' hmem (by decide)

theorem colon_not_mem_text (register : Register) : ':' ∉ register.text.toList :=
  colon_not_mem_of_solid (solid_text register)

theorem colon_not_mem_dataText : ':' ∉ word.dataText.toList := by
  have htext : word.dataText = ".word " ++ hexWord word := rfl
  have hword := colon_not_mem_of_solid word.datum_hexWord.solid
  rw [htext, String.toList_append, List.mem_append]
  exact not_or.mpr ⟨by decide, hword⟩

theorem colon_not_mem_registerText (funct : Funct) : ':' ∉ (word.registerText funct).toList := by
  have hmnemonic : ':' ∉ funct.mnemonic.toList := by cases funct <;> decide
  unfold registerText
  split
  simp [toString, hmnemonic, colon_not_mem_text]

theorem colon_not_mem_operationText (opcode : Opcode) :
    ':' ∉ (word.operationText opcode).toList := by
  have hmnemonic : ':' ∉ opcode.mnemonic.toList := by cases opcode <;> decide
  have himmediate : ':' ∉ word.immediate.toInt.repr.toList :=
    colon_not_mem_of_solid word.solid_immediate
  have htarget : ':' ∉ hexDigits 7 word.target.toNat :=
    fun hmem => absurd (mem_hexDigits hmem) (by decide)
  cases opcode
  case special =>
    cases hfunct : word.funct? with
    | none => simpa [operationText, hfunct] using word.colon_not_mem_dataText
    | some funct => simpa [operationText, hfunct] using word.colon_not_mem_registerText funct
  all_goals
    simp [operationText, hex, toString, hmnemonic, himmediate, htarget, colon_not_mem_text]

theorem colon_not_mem_disassembly : ':' ∉ word.disassembly.toList := by
  unfold disassembly
  split
  · decide
  · split
    · exact word.colon_not_mem_operationText _
    · exact word.colon_not_mem_dataText

/-- The text of a word has no label, be it read or refused. -/
theorem splitLabels_disassembly : ∃ text,
    splitLabels (code word.disassembly.toList) = ([], text) :=
  ⟨_, splitLabels_of_not (not_startsWithLabel fun hmem =>
    word.colon_not_mem_disassembly (mem_of_mem_code hmem))⟩

end Word

/-! ## The names at an address -/

namespace SymbolTable

/-- The names that have an address, in the order of their first mention. -/
def namesAt (table : SymbolTable) (address : Address) : List String :=
  table.names.filter fun name => table.addressOf? name = some address

variable {table : SymbolTable} {address : Address} {name : String}

theorem mem_namesAt_iff :
    name ∈ table.namesAt address ↔ name ∈ table.names ∧ table.addressOf? name = some address := by
  simp [namesAt]

/-- A name that has an address is in the table. -/
theorem mem_names_of_addressOf? (h : table.addressOf? name = some address) :
    name ∈ table.names := by
  obtain ⟨label, hfind, -⟩ := Option.bind_eq_some_iff.mp h
  have hname : label.name = name := by simpa using List.find?_some hfind
  exact hname ▸ List.mem_map_of_mem (List.mem_of_find?_eq_some hfind)

/-- Where names are unique, the names at an address are those of the entries with that address. -/
theorem namesAt_eq (hunique : table.names.Nodup) (address : Address) :
    table.namesAt address = (table.labels.filter (·.address = some address)).map Label.name := by
  unfold namesAt names
  rw [List.filter_map]
  refine congrArg _ (List.filter_congr fun label hlabel => ?_)
  have hfind : table.find? label.name = some label :=
    (find?_eq_some_iff hunique).mpr ⟨hlabel, rfl⟩
  simp [addressOf?, hfind]

end SymbolTable

namespace Assembly

open SourceLine

/-! ## One line -/

/-- The text of a line of a listing behind the columns of its address and its word. -/
def behindColumns (line : String) : List Char :=
  line.toList.drop 22

/-- The labels that a reader takes off the text behind the columns, also if it refuses the rest. -/
def shownNames (line : String) : List String :=
  (splitLabels (code (behindColumns line))).1

/-- A line of a listing shows a word at an address, with some names as labels. -/
structure ShowsWord (names : List String) (address : Address) (word : Word) (line : String) :
    Prop where
  /-- The address behind `0x` and the word, each with two blanks behind it. -/
  columns : ∃ addressDigits wordDigits,
    ShowsHex 8 address.toNat addressDigits ∧ ShowsHex 8 word.toNat wordDigits ∧
      line.toList = ['0', 'x'] ++ addressDigits ++ [' ', ' '] ++ wordDigits ++ [' ', ' '] ++
        behindColumns line
  /-- What is behind the columns says what the text of the word says, with the names as labels, or
  is refused as the text of the word is. -/
  reads : parse (behindColumns line) =
    (parse word.disassembly.toList).map fun parsed => { parsed with labels := names }
  /-- There are no other labels in the text of the word. -/
  bare : ∀ parsed, parse word.disassembly.toList = .ok parsed → parsed.labels = []
  /-- The names are found in front of the text of any word. -/
  shown : shownNames line = names

section Line

variable {symbols : SymbolTable} {address : Address}

/-- The label column holds the names at the address. -/
theorem toList_labelColumn (hunique : symbols.names.Nodup) (address : Address) :
    (labelColumn symbols address).toList = labelled (symbols.namesAt address) := by
  have hspace : " ".toList = [' '] := rfl
  rw [symbols.namesAt_eq hunique, labelColumn, String.toList_intercalate, hspace, labelled]
  simp only [List.map_map]
  congr 2
  funext label
  simp

/-- Blanks stand behind the labels, even if these are longer than the padding. -/
theorem toList_padded (width : Nat) (text : String) :
    ∃ gap, AllBlank gap ∧ (padded width text ++ " ").toList = text.toList ++ gap := by
  refine ⟨List.replicate (width - text.length) ' ' ++ [' '], ?_, by simp [padded]⟩
  intro c hc
  rcases List.mem_append.mp hc with hc | hc
  · rw [List.eq_of_mem_replicate hc]
    decide
  · exact allBlank_space c hc

/-- A line of the listing shows its word, and the names at its address. -/
theorem showsWord_listingLine (hunique : symbols.names.Nodup)
    (hnames : ∀ name ∈ symbols.namesAt address, IsName name.toList) (word : Word) :
    ShowsWord (symbols.namesAt address) address word (listingLine symbols address word) := by
  obtain ⟨gap, hgap, hpadded⟩ := toList_padded 12 (labelColumn symbols address)
  have htext : (listingLine symbols address word).toList =
      ['0', 'x'] ++ hexDigits 8 address.toNat ++ [' ', ' '] ++ hexDigits 8 word.toNat ++
        [' ', ' '] ++ (labelled (symbols.namesAt address) ++ (gap ++ word.disassembly.toList)) := by
    rw [← List.append_assoc (labelled _), ← toList_labelColumn hunique, ← hpadded]
    simp [listingLine, hexWord, hex]
  have hbehind : behindColumns (listingLine symbols address word) =
      labelled (symbols.namesAt address) ++ (gap ++ word.disassembly.toList) := by
    unfold behindColumns
    rw [htext]
    exact List.drop_left' (by simp [length_hexDigits])
  obtain ⟨text, hbare⟩ := word.splitLabels_disassembly
  have hlabels : splitLabels (code (behindColumns (listingLine symbols address word))) =
      (symbols.namesAt address, text) := by
    rw [hbehind, splitLabels_code_labelled hnames hgap, hbare, List.append_nil]
  refine ⟨⟨_, _, showsHex_word address, showsHex_word word, ?_⟩, ?_, ?_, ?_⟩
  · rw [htext, hbehind]
  · exact parse_eq_map_labels hlabels hbare
  · intro parsed hparse
    rw [← (parse_eq_ok_iff_rest.mp hparse).1, hbare]
  · rw [shownNames, hlabels]

end Line

/-! ## All lines -/

/-- The listing of a program shows its words in order, and loses no label of its lines. -/
structure ListsProgram (config : Config) (lines : List SourceLine) (words : List Word)
    (assembly : Assembly) : Prop where
  /-- There is one line for each word. -/
  length : assembly.listing.length = words.length
  /-- Each line shows the word of its place, at the address of the place and with the names that
  have this address. -/
  shows : ∀ (index : Nat) (word : Word), words[index]? = some word → ∃ address line,
    address.toNat = config.baseAddress.toNat + wordSize * index ∧
      assembly.listing[index]? = some line ∧
      ShowsWord (assembly.symbols.namesAt address) address word line
  /-- The names are in the order in which the lines mention them first. -/
  names : assembly.symbols.names = (lines.flatMap SourceLine.mentions).eraseDups
  /-- A label that stands at an instruction is shown on the line of the instruction, once, and on no
  other line. -/
  once : ∀ index source name, lines[index]? = some source → name ∈ source.labels →
    place lines index < words.length →
      ∃ line, assembly.listing[place lines index]? = some line ∧
        (shownNames line).count name = 1 ∧
        ∀ (other : Nat) (text : String), assembly.listing[other]? = some text →
          name ∈ shownNames text → other = place lines index
  /-- A label behind the last instruction is shown on no line. -/
  ended : ∀ index source name, lines[index]? = some source → name ∈ source.labels →
    words.length ≤ place lines index → ∀ line ∈ assembly.listing, name ∉ shownNames line

/-- The line of a word is that of its place. -/
theorem getElem?_listing (assembly : Assembly) (index : Nat) :
    assembly.listing[index]? = assembly.image.words.toList[index]?.map
      (listingLine assembly.symbols (placeAddress assembly.image.base index)) := by
  rw [listing, List.getElem?_map, Image.getElem?_entries, Array.getElem?_toList, Option.map_map]
  rfl

end Assembly

section Program

variable {config : Config} {lines : List SourceLine}

/-- A name with an address is a label of some line. -/
theorem Sound.exists_line_of_addressOf? (h : Sound config lines) {name : String}
    {address : Address}
    (haddress : (Assembly.resolved config lines).symbols.addressOf? name = some address) :
    ∃ (index : Nat) (line : SourceLine), lines[index]? = some line ∧ name ∈ line.labels := by
  rw [h.addressOf?_eq] at haddress
  obtain ⟨first, hfirst, -⟩ := Option.map_eq_some_iff.mp haddress
  exact Layout.exists_line_of_mem_ofLines (Layout.mem_of_definition? hfirst)

/-- A label is one of the names at the address of a place if its line has that place. -/
theorem Sound.mem_namesAt_iff (h : Sound config lines) {index : Nat} {line : SourceLine}
    (hline : lines[index]? = some line) {name : String} (hname : name ∈ line.labels) {place : Nat}
    (hplace : place < capacity config.baseAddress) :
    name ∈ (Assembly.resolved config lines).symbols.namesAt
        (placeAddress config.baseAddress place) ↔ SourceLine.place lines index = place := by
  have haddress := h.addressOf?_label hline hname
  have hroom := h.room _ (Layout.mem_ofLines_label hline hname)
  rw [SymbolTable.mem_namesAt_iff, haddress, Option.some.injEq, placeAddress_inj hroom hplace]
  exact and_iff_right (SymbolTable.mem_names_of_addressOf? haddress)

/-- The names of a resolved program are unique. -/
theorem Sound.nodup_names (h : Sound config lines) :
    (Assembly.resolved config lines).symbols.names.Nodup :=
  h.names_eq ▸ nodup_eraseDups _

section Resolved

variable {report : PatchReport}
  (hafter : PatchedInto ((Layout.ofLines lines).image config.baseAddress)
    ((Layout.ofLines lines).table config.baseAddress) report (Assembly.resolved config lines).draft)
  (hlabel : ∀ line ∈ lines, ∀ name ∈ line.labels, Operand.IsName name.toList)

include hafter hlabel

/-- Each word of a resolved program is shown, with the names at its address. -/
theorem Sound.exists_showsWord (h : Sound config lines) {index : Nat} {word : Word}
    (hword : (Assembly.resolved config lines).image.words.toList[index]? = some word) :
    ∃ line, (Assembly.resolved config lines).listing[index]? = some line ∧
      Assembly.ShowsWord
        ((Assembly.resolved config lines).symbols.namesAt (placeAddress config.baseAddress index))
        (placeAddress config.baseAddress index) word line := by
  have hbase : (Assembly.resolved config lines).image.base = config.baseAddress := hafter.base
  rw [Assembly.getElem?_listing, hword, hbase]
  refine ⟨_, rfl, Assembly.showsWord_listingLine h.nodup_names ?_ word⟩
  intro name hmem
  obtain ⟨place, line, hline, hname⟩ :=
    h.exists_line_of_addressOf? (SymbolTable.mem_namesAt_iff.mp hmem).2
  exact hlabel line (List.mem_of_getElem? hline) name hname

/-- Each line of the listing is that of a word. -/
theorem Sound.of_getElem?_listing (h : Sound config lines) {index : Nat} {text : String}
    (htext : (Assembly.resolved config lines).listing[index]? = some text) :
    index < (SourceLine.statements lines).length ∧ Assembly.shownNames text =
      (Assembly.resolved config lines).symbols.namesAt
        (placeAddress config.baseAddress index) := by
  have hmap := htext
  rw [Assembly.getElem?_listing] at hmap
  obtain ⟨word, hword, -⟩ := Option.map_eq_some_iff.mp hmap
  obtain ⟨line, hline, hshows⟩ := h.exists_showsWord hafter hlabel hword
  obtain rfl : line = text := Option.some.inj (hline.symm.trans htext)
  refine ⟨?_, hshows.shown⟩
  have hlength : (Assembly.resolved config lines).image.words.toList.length =
      (SourceLine.statements lines).length := hafter.length_words
  rw [← hlength]
  exact (List.getElem?_eq_some_iff.mp hword).1

/-- A label is shown on a line exactly if it stands at the place of the line. -/
theorem Sound.mem_shownNames_iff (h : Sound config lines) {index : Nat} {line : SourceLine}
    (hline : lines[index]? = some line) {name : String} (hname : name ∈ line.labels) {place : Nat}
    {text : String} (htext : (Assembly.resolved config lines).listing[place]? = some text) :
    name ∈ Assembly.shownNames text ↔ SourceLine.place lines index = place := by
  obtain ⟨hlt, hshown⟩ := h.of_getElem?_listing hafter hlabel htext
  rw [hshown, h.mem_namesAt_iff hline hname (h.lt_capacity hlt)]

/-- The listing of a resolved program shows its words and its labels. -/
theorem Sound.listsProgram (h : Sound config lines) :
    (Assembly.resolved config lines).ListsProgram config lines
      (Assembly.resolved config lines).image.words.toList := by
  have hlength : (Assembly.resolved config lines).image.words.toList.length =
      (SourceLine.statements lines).length := hafter.length_words
  refine ⟨?length, ?shows, h.names_eq, ?once, ?ended⟩
  case length => simp [Assembly.listing, Image.length_entries, Image.size]
  case shows =>
    intro index word hword
    have hlt := (List.getElem?_eq_some_iff.mp hword).1
    obtain ⟨line, hline, hshows⟩ := h.exists_showsWord hafter hlabel hword
    exact ⟨_, line, toNat_placeAddress (h.lt_capacity (hlength ▸ hlt)), hline, hshows⟩
  case once =>
    intro index source name hsource hname hlt
    obtain ⟨line, hline, -⟩ :=
      h.exists_showsWord hafter hlabel (List.getElem?_eq_getElem hlt)
    have hmem := (h.mem_shownNames_iff hafter hlabel hsource hname hline).mpr rfl
    refine ⟨line, hline, ?_, ?_⟩
    · rw [(h.of_getElem?_listing hafter hlabel hline).2] at hmem ⊢
      exact List.count_eq_one_of_mem (h.nodup_names.filter _) hmem
    · intro other text htext hshown
      exact ((h.mem_shownNames_iff hafter hlabel hsource hname htext).mp hshown).symm
  case ended =>
    intro index source name hsource hname hle line hmem hshown
    obtain ⟨place, hline⟩ := List.mem_iff_getElem?.mp hmem
    have hplace := (h.mem_shownNames_iff hafter hlabel hsource hname hline).mp hshown
    have hlt := (h.of_getElem?_listing hafter hlabel hline).1
    omega

end Resolved

end Program

/-- The listing of a source text that is assembled shows the final words in order, each at its
address, with the labels of this address in front of its text. -/
theorem assemble_lists {config : Config} {source : String} {assembly : Assembly}
    (h : assemble config source = .ok assembly) :
    ∃ lines words, (textLines source).map SourceLine.parse = lines.map .ok ∧
      assembly.finalWords = .ok words ∧ assembly.ListsProgram config lines words := by
  obtain ⟨-, hrefused, herrors, rfl⟩ := of_assemble_eq_ok h
  have hsound := sound_of_programErrors hasField_of_mem_sourceLines herrors
  obtain ⟨report, hafter⟩ := patchedInto_resolved hsound herrors
  have hlabel : ∀ line ∈ sourceLines source, ∀ name ∈ line.labels,
      Operand.IsName name.toList := by
    intro line hmem name hname
    obtain ⟨text, hparse⟩ := exists_parse_of_mem hmem
    exact SourceLine.isName_of_mem_labels hparse hname
  exact ⟨_, _, map_parse_textLines hrefused, rfl, hsound.listsProgram hafter hlabel⟩

/-- Two labels at one address, one of them longer than the padding, and a label behind the last
instruction. -/
theorem assemble_lists_loop :
    let source := "loop: the_second_label: addiu $t0, $t0, -1\n bne $t0, $zero, loop\n j end\nend:"
    ∃ assembly, assemble {} source = .ok assembly ∧ ∃ lines words,
      (textLines source).map SourceLine.parse = lines.map .ok ∧
        assembly.finalWords = .ok words ∧ assembly.ListsProgram {} lines words := by
  intro source
  have hok : (assemble {} source).toOption.isSome := by decide +kernel
  obtain ⟨assembly, hassembly⟩ := Option.isSome_iff_exists.mp hok
  have h := eq_ok_of_toOption hassembly
  exact ⟨assembly, h, assemble_lists h⟩

/-- A label that stands behind the last instruction is on no line. -/
example : (assemble {} "loop: the_second_label: addiu $t0, $t0, -1\n j end\nend:").toOption.map
    Assembly.listing = some [
      "0x00000000  2508ffff  loop: the_second_label: addiu $t0, $t0, -1",
      "0x00000004  08000002               j 0x0000008"] := by
  decide +kernel

end Backpatch
