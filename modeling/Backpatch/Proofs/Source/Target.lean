import Backpatch.Proofs.Source.Meaning

/-!
# Jumps and branches go to their labels

The output of a run, read back by a machine. `GoesTo` says of a word at an address that it is the
jump or the branch written on a line, and that it goes to the address of the label: exactly if
ranges are checked, otherwise as far as the field can tell. The words that patching makes do
(`goesTo_of_parse`), and so do the bytes of every jump and branch in the output.

The fields are right for a reason in each stage: addresses are aligned because the base address is,
the reader of lines leaves the field empty, the table records the kind of reference of the opcode,
and patching has checked the range.
-/

namespace Backpatch

/-! ## Words and bytes -/

/-- In a row of pieces of one length, a piece stands at the multiple of the length. -/
theorem take_drop_flatMap {pieces : α → List β} {n : Nat} (hlength : ∀ x, (pieces x).length = n)
    {row : List α} {index : Nat} {x : α} (h : row[index]? = some x) :
    ((row.flatMap pieces).drop (n * index)).take n = pieces x := by
  induction row generalizing index with
  | nil => cases h
  | cons first rest ih =>
      rw [List.flatMap_cons]
      cases index with
      | zero =>
          obtain rfl : first = x := Option.some.inj h
          exact List.take_left' (hlength first)
      | succ index =>
          have hdrop : n * (index + 1) = (pieces first).length + n * index := by
            rw [hlength, Nat.mul_succ, Nat.add_comm]
          rw [hdrop, ← List.drop_drop, List.drop_left]
          exact ih h

theorem ByteOrder.length_bytes (order : ByteOrder) (word : Word) :
    (order.bytes word).length = wordSize := by
  cases order <;> rfl

/-- A word is read back from its four bytes in the output. -/
theorem exists_bytes_of_getElem? (order : ByteOrder) {words : List Word} {index : Nat} {word : Word}
    (h : words[index]? = some word) :
    ∃ a b c d, ((words.flatMap order.bytes).drop (wordSize * index)).take wordSize = [a, b, c, d] ∧
      order.word a b c d = word := by
  obtain ⟨a, b, c, d, hbytes, hword⟩ := order.word_bytes word
  refine ⟨a, b, c, d, ?_, hword⟩
  rw [take_drop_flatMap order.length_bytes h, hbytes]

/-! ## Lines and statements -/

theorem SourceLine.getElem?_statements_place {lines : List SourceLine} {index : Nat}
    {line : SourceLine} (hline : lines[index]? = some line) {statement : Statement}
    (hstatement : line.statement = some statement) :
    (statements lines)[place lines index]? = some statement := by
  have hsplit : statements lines =
      statements (lines.take index) ++ statement :: statements (lines.drop (index + 1)) := by
    obtain ⟨hlt, hget⟩ := List.getElem?_eq_some_iff.mp hline
    unfold statements
    rw [← List.filterMap_cons_some hstatement, ← List.filterMap_append, ← hget,
      List.getElem_cons_drop, List.take_append_drop]
  rw [hsplit, place, List.getElem?_append_right (Nat.le_refl _), Nat.sub_self]
  rfl

/-- A line of the text that can be read has its place among the lines. -/
theorem getElem?_sourceLines {source : String} (hrefused : refusedLines source = []) {index : Nat}
    {line : List Char} {parsed : SourceLine} (hline : (textLines source)[index]? = some line)
    (hparse : SourceLine.parse line = .ok parsed) : (sourceLines source)[index]? = some parsed := by
  have hmap := congrArg (·[index]?) (map_parse_textLines hrefused)
  simp only [List.getElem?_map, hline, Option.map_some, hparse] at hmap
  obtain ⟨other, hother, heq⟩ := Option.map_eq_some_iff.mp hmap.symm
  rw [hother, Except.ok.inj heq]

/-! ## Where words go -/

/-- The word at an address is the jump or branch of a line, and goes to a target. -/
inductive GoesTo (checkRanges : Bool) (line : List Char) (name : String) (site target : Address)
    (word : Word) : Prop
  /-- The opcode is that of the line. In the region of the next instruction, the field designates
  the target. -/
  | jump {opcode : Opcode} (hline : SourceLine.IsJump line opcode name)
      (hopcode : word.opcode? = some opcode)
      (hexact : checkRanges = true → word.jumpTarget site = target)
      (hmod : (word.jumpTarget site).toNat % 2 ^ 28 = target.toNat % 2 ^ 28)
  /-- The opcode and the registers are those of the line. Added to the address of the next
  instruction, the field gives the target. -/
  | branch {opcode : Opcode} {rs rt : Register} (hline : SourceLine.IsBranch line opcode rs rt name)
      (hopcode : word.opcode? = some opcode) (hrs : word.rs = rs) (hrt : word.rt = rt)
      (hexact : checkRanges = true → word.branchTarget site = target.toNat)
      (hmod : word.branchTarget site % 2 ^ 18 = target.toNat % 2 ^ 18)

section GoesTo

variable {checkRanges : Bool} {line : List Char} {name : String} {site target : Address}

theorem goesTo_of_isJump {opcode : Opcode} (hline : SourceLine.IsJump line opcode name)
    (htarget : IsAligned target) (hreach : checkRanges = true → JumpReaches target site) :
    GoesTo checkRanges line name site target (encodeJump opcode ||| jumpField target) :=
  .jump hline (opcode?_encodeJump_or opcode _)
    (fun hcheck => jumpTarget_eq_target opcode htarget (hreach hcheck))
    (jumpTarget_mod opcode htarget)

theorem goesTo_of_isBranch {opcode : Opcode} {rs rt : Register}
    (hline : SourceLine.IsBranch line opcode rs rt name) (htarget : IsAligned target)
    (hsite : IsAligned site)
    (hfits : checkRanges = true → DisplacementFits (displacement target site)) :
    GoesTo checkRanges line name site target
      (encodeImmediate opcode rs rt 0 ||| branchField target site) := by
  refine .branch hline ?_ ?_ ?_ ?_ (branchTarget_emod opcode rs rt htarget hsite)
  · rw [encodeImmediate_or_branchField, opcode?_encodeImmediate]
  · rw [encodeImmediate_or_branchField, rs_encodeImmediate]
  · rw [encodeImmediate_or_branchField, rt_encodeImmediate]
  · intro hcheck
    exact branchTarget_eq opcode rs rt htarget hsite (hfits hcheck)

end GoesTo

/-- The word that patching makes of the reference of a line goes to its target. -/
theorem goesTo_of_parse {checkRanges : Bool} {line : List Char} {labels : List String} {word : Word}
    {name : String} (hparse : SourceLine.parse line = .ok ⟨labels, some (.reference word name)⟩)
    {site target : Address} (hsite : IsAligned site) (htarget : IsAligned target)
    {kind : FixupKind} (hkind : word.fixupKind? = some kind)
    (hreach : checkRanges = true → kind.reaches target site = true) :
    GoesTo checkRanges line name site target (word ||| kind.field target site) := by
  rcases SourceLine.reference_of_parse hparse with
    ⟨opcode, hline, rfl⟩ | ⟨opcode, rs, rt, hline, rfl⟩
  · rw [fixupKind?_of_isJump (opcode?_encodeJump opcode) hline.1] at hkind
    obtain rfl := Option.some.inj hkind
    exact goesTo_of_isJump hline htarget fun hcheck => of_decide_eq_true (hreach hcheck)
  · rw [fixupKind?_of_isBranch (opcode?_encodeImmediate opcode rs rt 0) hline.isBranch] at hkind
    obtain rfl := Option.some.inj hkind
    exact goesTo_of_isBranch hline htarget hsite fun hcheck => of_decide_eq_true (hreach hcheck)

/-- Every jump and branch of a text goes to its label: the four bytes at its place in the output,
read back, are the instruction on the line, and lead from its address to that of the label. -/
theorem assemble_goesTo {config : Config} {source : String} {assembly : Assembly}
    (h : assemble config source = .ok assembly) {index : Nat} {line : List Char}
    (hline : (textLines source)[index]? = some line) {labels : List String} {word : Word}
    {name : String}
    (hparse : SourceLine.parse line = .ok ⟨labels, some (.reference word name)⟩) :
    let place := SourceLine.place (sourceLines source) index
    ∃ (site target : Address) (bytes : List UInt8) (a b c d : UInt8),
      site.toNat = config.baseAddress.toNat + wordSize * place ∧
        assembly.symbols.addressOf? name = some target ∧
        assembly.finalBytes = .ok bytes ∧
        (bytes.drop (wordSize * place)).take wordSize = [a, b, c, d] ∧
        GoesTo config.checkRanges line name site target (config.byteOrder.word a b c d) := by
  intro place
  obtain ⟨haligned, hrefused, herrors, rfl⟩ := of_assemble_eq_ok h
  have hsound := sound_of_programErrors hasField_of_mem_sourceLines herrors
  obtain ⟨report, hafter⟩ := patchedInto_resolved hsound herrors
  have hstatement : (SourceLine.statements (sourceLines source))[place]? =
      some (.reference word name) :=
    SourceLine.getElem?_statements_place (getElem?_sourceLines hrefused hline hparse) rfl
  have hplace := hsound.lt_capacity (List.getElem?_eq_some_iff.mp hstatement).1
  obtain ⟨first, hfirst, haddress⟩ := hsound.exists_target hstatement
  obtain ⟨kind, hkind⟩ := SourceLine.fixupKind?_of_parse hparse
  have htarget := isAligned_placeAddress haligned (hsound.room _ (Layout.mem_of_definition? hfirst))
  have hfixup : ⟨place, placeAddress config.baseAddress place, kind⟩ ∈
      (Layout.ofLines (sourceLines source)).fixups config.baseAddress name :=
    Layout.mem_fixups_of_reference (Layout.mem_ofLines_statement_iff.mpr hstatement) hkind
  obtain ⟨a, b, c, d, hbytes, hword⟩ := exists_bytes_of_getElem? config.byteOrder
    (hafter.reference_eq hstatement hkind hfirst)
  refine ⟨placeAddress config.baseAddress place, placeAddress config.baseAddress first, _, a, b, c,
    d, toNat_placeAddress hplace, haddress, rfl, hbytes, ?_⟩
  rw [hword]
  apply goesTo_of_parse hparse (isAligned_placeAddress haligned hplace) htarget hkind
  intro hcheck
  exact hsound.reached hcheck _ _ _ hfirst hfixup

/-- A branch back to the first line. -/
theorem assemble_goesTo_back :
    let source := "loop: nop\n beq $t0, $t1, loop"
    let line := " beq $t0, $t1, loop".toList
    let place := SourceLine.place (sourceLines source) 1
    ∃ assembly, assemble {} source = .ok assembly ∧ (textLines source)[1]? = some line ∧
      SourceLine.parse line = .ok ⟨[], some (.reference 0x11090000 "loop")⟩ ∧
      ∃ (site target : Address) (bytes : List UInt8) (a b c d : UInt8),
        site.toNat = (0#32).toNat + wordSize * place ∧
          assembly.symbols.addressOf? "loop" = some target ∧
          assembly.finalBytes = .ok bytes ∧
          (bytes.drop (wordSize * place)).take wordSize = [a, b, c, d] ∧
          GoesTo true line "loop" site target (ByteOrder.little.word a b c d) := by
  intro source line place
  have hok : (assemble {} source).toOption.isSome := by decide +kernel
  obtain ⟨assembly, hassembly⟩ := Option.isSome_iff_exists.mp hok
  have h := eq_ok_of_toOption hassembly
  have hline : (textLines source)[1]? = some line := by decide +kernel
  have hparse : SourceLine.parse line = .ok ⟨[], some (.reference 0x11090000 "loop")⟩ := by
    decide +kernel
  exact ⟨assembly, h, hline, hparse, assemble_goesTo h hline hparse⟩

end Backpatch
