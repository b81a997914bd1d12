import Backpatch.Proofs.Source.Target

/-!
# Programs at another base address

A source text speaks of places and not of addresses. So when the base address moves, every address
moves with it, and a program is the same at both ends but for what depends on an address itself: the
fields of jumps, and the two ways in which addresses can be too high.

* `displacement_placeAddress`: the displacement between two places does not depend on the base, so
  branches are position-independent.
* `extractLsb'_placeAddress`: the field of a jump is the index of the word of its target, and moves
  by the distance in words.
* `Assembly.Relocated`: what two runs at different base addresses have in common. Both directions of
  `assemble_relocated` go through the places of the layout, which no base address enters.
-/

namespace Backpatch

/-! ## Places seen from two bases -/

section Place

variable {base moved : Address} {place first : Nat}

/-- The distance between two base addresses, in words. -/
def wordShift (base moved : Address) : Int :=
  ((moved.toNat : Int) - base.toNat) / wordSize

/-- A place moves as far as the base. -/
theorem placeAddress_sub (hplace : place < capacity base) (hmoved : place < capacity moved) :
    ((placeAddress moved place).toNat : Int) - (placeAddress base place).toNat =
      (moved.toNat : Int) - base.toNat := by
  rw [toNat_placeAddress hplace, toNat_placeAddress hmoved]
  omega

/-- The displacement from one place to another counts the places between them. -/
theorem displacement_placeAddress (hfirst : first < capacity base) (hplace : place < capacity base) :
    displacement (placeAddress base first) (placeAddress base place) = (first : Int) - place - 1 := by
  unfold displacement
  rw [toNat_placeAddress hfirst, toNat_placeAddress hplace]
  simp only [wordSize]
  omega

/-- The field of a branch does not depend on the base. -/
theorem branchField_placeAddress (hfirst : first < capacity base) (hplace : place < capacity base)
    (hfirst' : first < capacity moved) (hplace' : place < capacity moved) :
    branchField (placeAddress moved first) (placeAddress moved place) =
      branchField (placeAddress base first) (placeAddress base place) := by
  unfold branchField
  rw [displacement_placeAddress hfirst hplace, displacement_placeAddress hfirst' hplace']

/-- The index of the word at a place moves by the distance of the bases in words. -/
theorem extractLsb'_placeAddress (hbase : IsAligned base) (haligned : IsAligned moved)
    (hfirst : first < capacity base) (hfirst' : first < capacity moved) :
    (placeAddress moved first).extractLsb' 2 26 =
      (placeAddress base first).extractLsb' 2 26 + BitVec.ofInt 26 (wordShift base moved) := by
  apply BitVec.eq_of_toNat_eq
  unfold IsAligned at hbase haligned
  unfold wordShift
  rw [BitVec.toNat_add, BitVec.extractLsb'_toNat, BitVec.extractLsb'_toNat, BitVec.toNat_ofInt,
    toNat_placeAddress hfirst, toNat_placeAddress hfirst', Nat.shiftRight_eq_div_pow,
    Nat.shiftRight_eq_div_pow]
  simp only [wordSize] at hbase haligned ⊢
  omega

end Place

/-! ## What moves and what stays -/

/-- The statement is a jump to a label. -/
def Statement.IsJump (statement : Statement) : Prop :=
  ∃ word name opcode, statement = .reference word name ∧ word.opcode? = some opcode ∧
    opcode.isJump = true

/-- The final words of one statement at two base addresses that lie some words apart. -/
inductive Statement.Moves (shift : Int) : Statement → Word → Word → Prop
  /-- A word that is no jump to a label is the same. -/
  | fixed {statement : Statement} (hjump : ¬statement.IsJump) (word : Word) :
      Moves shift statement word word
  /-- The opcode of a jump to a label is the same, and its field counts the words moved. -/
  | jump {statement : Statement} (hjump : statement.IsJump) {word other : Word}
      (hopcode : other.extractLsb' 26 6 = word.extractLsb' 26 6)
      (hfield : other.extractLsb' 0 26 = word.extractLsb' 0 26 + BitVec.ofInt 26 shift) :
      Moves shift statement word other

/-- Two runs have made the same program of some statements, one at the base address `base` and the
other at `moved`. -/
structure Assembly.Relocated (base moved : Address) (statements : List Statement)
    (assembly other : Assembly) : Prop where
  /-- The names are the same, in the same order of first mention. -/
  names : other.symbols.names = assembly.symbols.names
  /-- Every label has moved with the base address. -/
  labels : ∀ name ∈ assembly.symbols.names, ∃ address address',
    assembly.symbols.addressOf? name = some address ∧
      other.symbols.addressOf? name = some address' ∧
      (address'.toNat : Int) - address.toNat = (moved.toNat : Int) - base.toNat
  /-- There is one word for each statement, and only jumps to labels have moved. -/
  words : ∃ words words', assembly.finalWords = .ok words ∧ other.finalWords = .ok words' ∧
    words.length = statements.length ∧ words'.length = statements.length ∧
    ∀ (place : Nat) (statement : Statement), statements[place]? = some statement →
      ∃ word word', words[place]? = some word ∧ words'[place]? = some word' ∧
        statement.Moves (wordShift base moved) word word'

/-! ## Programs that are sound at both addresses -/

/-- A jump that is read from a text has an empty target field. -/
theorem exists_encodeJump {source : String} {value : Word} {name : String}
    (h : .reference value name ∈ SourceLine.statements (sourceLines source))
    (hkind : value.fixupKind? = some .jump) :
    ∃ opcode, opcode.isJump = true ∧ value = encodeJump opcode := by
  obtain ⟨⟨labels, statement⟩, hline, hstatement⟩ := List.mem_filterMap.mp h
  obtain rfl : statement = some (.reference value name) := hstatement
  obtain ⟨line, hparse⟩ := exists_parse_of_mem hline
  rcases SourceLine.reference_of_parse hparse with
    ⟨opcode, hjump, rfl⟩ | ⟨opcode, rs, rt, hbranch, rfl⟩
  · exact ⟨opcode, hjump.1, rfl⟩
  · rw [fixupKind?_of_isBranch (opcode?_encodeImmediate opcode rs rt 0) hbranch.isBranch] at hkind
    cases hkind

/-- A word with the target field of a branch is no jump. -/
theorem Statement.not_isJump_of_branch {value : Word} {name : String}
    (hkind : value.fixupKind? = some .branch) : ¬Statement.IsJump (.reference value name) := by
  rintro ⟨word, label, opcode, heq, hopcode, hjump⟩
  obtain ⟨rfl, -⟩ := Statement.reference.inj heq
  rw [fixupKind?_of_isJump hopcode hjump] at hkind
  cases hkind

/-- The word of a jump to a label, at two base addresses. -/
theorem moves_encodeJump {base moved : Address} {first : Nat} (hbase : IsAligned base)
    (hmoved : IsAligned moved) (hfirst : first < capacity base) (hfirst' : first < capacity moved)
    {opcode : Opcode} (hjump : opcode.isJump = true) (name : String) :
    Statement.Moves (wordShift base moved) (.reference (encodeJump opcode) name)
      (encodeJump opcode ||| jumpField (placeAddress base first))
      (encodeJump opcode ||| jumpField (placeAddress moved first)) := by
  refine .jump ⟨_, name, opcode, rfl, opcode?_encodeJump opcode, hjump⟩ ?_ ?_
  · rw [jumpField, jumpField, encodeJump_or, encodeJump_or, BitVec.extractLsb'_append_eq_left,
      BitVec.extractLsb'_append_eq_left]
  · rw [jumpField, jumpField, encodeJump_or, encodeJump_or, BitVec.extractLsb'_append_eq_right,
      BitVec.extractLsb'_append_eq_right]
    exact extractLsb'_placeAddress hbase hmoved hfirst hfirst'

section Sound

variable {config config' : Config} {source : String}

/-- The final words of one statement, in two runs that are both sound. -/
theorem Sound.moves (haligned : IsAligned config.baseAddress)
    (haligned' : IsAligned config'.baseAddress)
    (h : Sound config (sourceLines source)) (h' : Sound config' (sourceLines source))
    {report report' : PatchReport}
    (hafter : PatchedInto ((Layout.ofLines (sourceLines source)).image config.baseAddress)
      ((Layout.ofLines (sourceLines source)).table config.baseAddress) report
      (Assembly.resolved config (sourceLines source)).draft)
    (hafter' : PatchedInto ((Layout.ofLines (sourceLines source)).image config'.baseAddress)
      ((Layout.ofLines (sourceLines source)).table config'.baseAddress) report'
      (Assembly.resolved config' (sourceLines source)).draft)
    {place : Nat} {statement : Statement}
    (hstatement : (SourceLine.statements (sourceLines source))[place]? = some statement) :
    ∃ word word',
      (Assembly.resolved config (sourceLines source)).image.words.toList[place]? = some word ∧
        (Assembly.resolved config' (sourceLines source)).image.words.toList[place]? = some word' ∧
        statement.Moves (wordShift config.baseAddress config'.baseAddress) word word' := by
  cases statement with
  | word value =>
      refine ⟨value, value, hafter.word_eq hstatement, hafter'.word_eq hstatement, .fixed ?_ value⟩
      rintro ⟨word, name, opcode, ⟨⟩, -⟩
  | reference value name =>
      have hmem := List.mem_of_getElem? hstatement
      have hplace := (List.getElem?_eq_some_iff.mp hstatement).1
      obtain ⟨first, hfirst, -⟩ := h.exists_target hstatement
      have hroom := h.room _ (Layout.mem_of_definition? hfirst)
      have hroom' := h'.room _ (Layout.mem_of_definition? hfirst)
      obtain ⟨kind, hkind⟩ := Option.isSome_iff_exists.mp (Layout.hasField_of_mem_ofLines
        hasField_of_mem_sourceLines (Layout.mem_ofLines_statement_iff.mpr hstatement))
      refine ⟨_, _, hafter.reference_eq hstatement hkind hfirst,
        hafter'.reference_eq hstatement hkind hfirst, ?_⟩
      cases kind with
      | jump =>
          obtain ⟨opcode, hjump, rfl⟩ := exists_encodeJump hmem hkind
          exact moves_encodeJump haligned haligned' hroom hroom' hjump name
      | branch =>
          simp only [FixupKind.field]
          rw [branchField_placeAddress hroom (h.lt_capacity hplace) hroom' (h'.lt_capacity hplace)]
          exact .fixed (Statement.not_isJump_of_branch hkind) _

/-- Two runs of one text at different base addresses that find nothing wrong. -/
theorem relocated_resolved (haligned : IsAligned config.baseAddress)
    (haligned' : IsAligned config'.baseAddress)
    (herrors : programErrors config (sourceLines source) = [])
    (herrors' : programErrors config' (sourceLines source) = []) :
    Assembly.Relocated config.baseAddress config'.baseAddress
      (SourceLine.statements (sourceLines source))
      (.resolved config (sourceLines source)) (.resolved config' (sourceLines source)) := by
  have h := sound_of_programErrors hasField_of_mem_sourceLines herrors
  have h' := sound_of_programErrors hasField_of_mem_sourceLines herrors'
  obtain ⟨report, hafter⟩ := patchedInto_resolved h herrors
  obtain ⟨report', hafter'⟩ := patchedInto_resolved h' herrors'
  refine ⟨h'.names_eq.trans h.names_eq.symm, ?_, ?_⟩
  · intro name hname
    rw [h.names_eq, ← Layout.names_ofLines] at hname
    obtain ⟨place, hplace⟩ := h.defined name hname
    have hmem := Layout.mem_of_definition? hplace
    refine ⟨_, _, ?_, ?_, placeAddress_sub (h.room _ hmem) (h'.room _ hmem)⟩
    · rw [h.addressOf?_eq, hplace, Option.map_some]
    · rw [h'.addressOf?_eq, hplace, Option.map_some]
  · refine ⟨_, _, rfl, rfl, hafter.length_words, hafter'.length_words, ?_⟩
    intro place statement hstatement
    exact h.moves haligned haligned' h' hafter hafter' hstatement

end Sound

/-! ## Programs that are sound at one address only -/

section Overflow

variable {config : Config} {lines : List SourceLine} {base : Address}

/-- With room for every item, a program that is sound elsewhere has no label in two places. -/
theorem Sound.refused_eq_nil (h : Sound config lines)
    (hroom : ∀ entry ∈ Layout.ofLines lines, entry.1 < capacity base) :
    (Layout.ofLines lines).refused base = [] := by
  unfold Layout.refused
  rw [Layout.recorded_eq_self hroom]
  refine List.filterMap_eq_nil_iff.mpr ?_
  rintro ⟨place, item⟩ hmem
  cases item with
  | label name =>
      rw [Layout.refusal?_label (hroom _ hmem), if_pos (h.agreed place name hmem)]
  | statement statement => exact Layout.refusal?_statement (hroom _ hmem) _ statement

/-- With room for every item, only a jump can miss its label in a program that is sound
elsewhere. -/
theorem Sound.jumpOutOfRegion_of_mem (h : Sound config lines)
    (hroom : ∀ entry ∈ Layout.ofLines lines, entry.1 < capacity base) {error : PatchError}
    (hmem : error ∈ (Layout.ofLines lines).unresolved config.checkRanges base) :
    ∃ name site, error = .jumpOutOfRegion name site := by
  obtain ⟨name, hname, herror⟩ := List.mem_flatMap.mp hmem
  obtain ⟨first, hfirst⟩ := h.defined name hname
  simp only [Layout.unresolvedName, hfirst] at herror
  obtain ⟨fixup, hfixup, hrange⟩ := List.mem_filterMap.mp herror
  unfold Layout.outOfRange? at hrange
  split at hrange
  · next hmissed =>
    obtain rfl := Option.some.inj hrange
    obtain ⟨word, hword, hkind, hsite⟩ := Layout.mem_fixups_iff.mp hfixup
    rcases fixup with ⟨place, site, kind⟩
    simp only at hword hkind hsite
    subst hsite
    cases kind with
    | jump => exact ⟨name, _, rfl⟩
    | branch =>
        -- the same displacement fits at the other base address
        simp only [Bool.and_eq_true, Bool.not_eq_true'] at hmissed
        have hdefinition := Layout.mem_of_definition? hfirst
        have hreach := h.reached hmissed.1 name first _ hfirst
          (Layout.mem_fixups_of_reference hword hkind)
        simp only [FixupKind.reaches, decide_eq_true_eq, decide_eq_false_iff_not] at hreach hmissed
        rw [displacement_placeAddress (h.room _ hdefinition) (h.room _ hword)] at hreach
        rw [displacement_placeAddress (hroom _ hdefinition) (hroom _ hword)] at hmissed
        exact absurd hreach hmissed.2
  · cases hrange

/-- What is wrong with a program that is sound elsewhere: it does not fit into the address space, or
a jump leaves its region. -/
theorem Sound.programErrors_cases (h : Sound config lines)
    (herrors : programErrors { config with baseAddress := base } lines ≠ []) :
    .addressOverflow base (capacity base + 1) ∈
        programErrors { config with baseAddress := base } lines ∨
      ∃ name site, .jumpOutOfRegion name site ∈
        programErrors { config with baseAddress := base } lines := by
  unfold programErrors at herrors ⊢
  simp only at herrors ⊢
  by_cases hroom : ∀ entry ∈ Layout.ofLines lines, entry.1 < capacity base
  · rw [h.refused_eq_nil hroom, List.nil_append, Layout.recorded_eq_self hroom] at herrors ⊢
    obtain ⟨error, hmem⟩ := List.exists_mem_of_ne_nil _ herrors
    obtain ⟨name, site, rfl⟩ := h.jumpOutOfRegion_of_mem hroom hmem
    exact Or.inr ⟨name, site, hmem⟩
  · push Not at hroom
    obtain ⟨⟨place, item⟩, hmem, hfull⟩ := hroom
    refine Or.inl (List.mem_append_left _ ?_)
    exact List.mem_filterMap.mpr ⟨_, hmem, Layout.refusal?_of_full hfull _ item⟩

end Overflow

/-! ## The law -/

/-- A text that is assembled at one base address is assembled at another one to the same program:
the names are the same, every label moves with the base, and of the words only the fields of jumps
to labels change, by the distance in words. If it is refused there, then because the program does
not fit into the address space or a jump would leave its region. -/
theorem assemble_relocated {config : Config} {source : String} {assembly : Assembly}
    (h : assemble config source = .ok assembly) {base : Address} (hbase : IsAligned base) :
    ∃ lines, (textLines source).map SourceLine.parse = lines.map .ok ∧
      (∀ other, assemble { config with baseAddress := base } source = .ok other →
        Assembly.Relocated config.baseAddress base (SourceLine.statements lines) assembly other) ∧
      ∀ error, assemble { config with baseAddress := base } source = .error error →
        ∃ diagnostics, error = .patch diagnostics ∧
          ((∃ count, .addressOverflow base count ∈ diagnostics) ∨
            ∃ name site, .jumpOutOfRegion name site ∈ diagnostics) := by
  obtain ⟨haligned, hrefused, herrors, rfl⟩ := of_assemble_eq_ok h
  refine ⟨sourceLines source, map_parse_textLines hrefused, ?_, ?_⟩
  · intro other hother
    obtain ⟨-, -, herrors', rfl⟩ := of_assemble_eq_ok hother
    exact relocated_resolved haligned hbase herrors herrors'
  · intro error herror
    obtain ⟨diagnostics, rfl⟩ := exists_patch_of_assemble_eq_error hbase hrefused herror
    obtain ⟨herrors', rfl⟩ := of_assemble_eq_patch herror
    have hsound := sound_of_programErrors hasField_of_mem_sourceLines herrors
    refine ⟨_, rfl, (hsound.programErrors_cases herrors').imp ?_ id⟩
    intro hmem
    exact ⟨_, hmem⟩

/-- A jump and a branch to the end of a program, moved by 4 MiB, and moved to where the jump would
cross into the next region. -/
theorem assemble_relocated_jump :
    let source := "j end\n beq $t0, $t1, end\n nop\nend: nop"
    ∃ assembly lines, assemble {} source = .ok assembly ∧ IsAligned 0x00400000 ∧
      (textLines source).map SourceLine.parse = lines.map .ok ∧
      (∃ other, assemble { baseAddress := 0x00400000 } source = .ok other ∧
        Assembly.Relocated 0 0x00400000 (SourceLine.statements lines) assembly other) ∧
      ∃ diagnostics, assemble { baseAddress := 0x0FFFFFF8 } source = .error (.patch diagnostics) ∧
        ((∃ count, .addressOverflow 0x0FFFFFF8 count ∈ diagnostics) ∨
          ∃ name site, .jumpOutOfRegion name site ∈ diagnostics) := by
  intro source
  have hok : (assemble {} source).toOption.isSome := by decide +kernel
  obtain ⟨assembly, hassembly⟩ := Option.isSome_iff_exists.mp hok
  have h := eq_ok_of_toOption hassembly
  have hmoved : (assemble { baseAddress := 0x00400000 } source).toOption.isSome := by
    decide +kernel
  obtain ⟨other, hother⟩ := Option.isSome_iff_exists.mp hmoved
  have hcrossed : assemble { baseAddress := 0x0FFFFFF8 } source =
      .error (.patch [.jumpOutOfRegion "end" 0x0FFFFFF8]) := by
    decide +kernel
  have hnear : IsAligned 0x00400000 := by decide
  have hfar : IsAligned 0x0FFFFFF8 := by decide
  obtain ⟨lines, hlines, hrelocated, -⟩ := assemble_relocated h hnear
  obtain ⟨-, -, -, hfailed⟩ := assemble_relocated h hfar
  obtain ⟨diagnostics, hdiagnostics, hcases⟩ := hfailed _ hcrossed
  exact ⟨assembly, lines, h, hnear, hlines, ⟨other, eq_ok_of_toOption hother,
    hrelocated _ (eq_ok_of_toOption hother)⟩, diagnostics, hdiagnostics ▸ hcrossed, hcases⟩

end Backpatch
