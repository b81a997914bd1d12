import Backpatch.Draft

/-!
# Operations on drafts, case by case

Each operation that concerns image and table at once is given by the next address and by what the
table does: one equation for the draft that is full, one for the draft that has room. Callers use
these and do not look into the operations.
-/

namespace Backpatch

/-- A computation succeeds when its first step does and the rest does. -/
theorem bind_eq_ok_iff {first : Except ε α} {next : α → Except ε β} {result : β} :
    (first >>= next) = .ok result ↔ ∃ value, first = .ok value ∧ next value = .ok result := by
  cases first with
  | error error => simp [bind, Except.bind]
  | ok value => simp [bind, Except.bind]

/-! ## Words with a target field -/

/-- The kind of reference that a word makes, if it is a jump or a branch. -/
def Word.fixupKind? (word : Word) : Option FixupKind :=
  word.opcode?.bind FixupKind.ofOpcode?

theorem FixupKind.classify_of_some {word : Word} {kind : FixupKind}
    (h : word.fixupKind? = some kind) (site : Address) : classify word site = .ok kind := by
  unfold Word.fixupKind? at h
  unfold classify
  rw [h]

/-- Exactly a jump or a branch can be classified. -/
theorem FixupKind.classify_eq_ok_iff {word : Word} {site : Address} {kind : FixupKind} :
    classify word site = .ok kind ↔ word.fixupKind? = some kind := by
  refine ⟨?_, fun h => classify_of_some h site⟩
  intro h
  unfold classify at h
  unfold Word.fixupKind?
  split at h
  · next hkind =>
    obtain rfl := Except.ok.inj h
    exact hkind
  · cases h

section Kind

variable {word : Word} {opcode : Opcode}

theorem fixupKind?_of_isJump (h : word.opcode? = some opcode) (hjump : opcode.isJump = true) :
    word.fixupKind? = some .jump := by
  have hkind : opcode.kind = .jump := eq_of_beq hjump
  simp only [Word.fixupKind?, h, Option.bind_some, FixupKind.ofOpcode?, hkind]

theorem fixupKind?_of_isBranch (h : word.opcode? = some opcode)
    (hbranch : opcode.isBranch = true) : word.fixupKind? = some .branch := by
  have hkind : opcode.kind = .branch := eq_of_beq hbranch
  simp only [Word.fixupKind?, h, Option.bind_some, FixupKind.ofOpcode?, hkind]

/-- A word with a target field is a jump or a branch. -/
theorem exists_opcode_of_fixupKind? {kind : FixupKind} (h : word.fixupKind? = some kind) :
    ∃ opcode, word.opcode? = some opcode ∧
      (kind = .jump ∧ opcode.isJump = true ∨ kind = .branch ∧ opcode.isBranch = true) := by
  obtain ⟨opcode, hopcode, hkind⟩ := Option.bind_eq_some_iff.mp h
  refine ⟨opcode, hopcode, ?_⟩
  unfold FixupKind.ofOpcode? at hkind
  split at hkind
  · next hjump => exact Or.inl ⟨(Option.some.inj hkind).symm, beq_iff_eq.mpr hjump⟩
  · next hbranch => exact Or.inr ⟨(Option.some.inj hkind).symm, beq_iff_eq.mpr hbranch⟩
  all_goals cases hkind

end Kind

namespace Draft

variable {draft : Draft} {error : PatchError} {address : Address}

/-! ## A draft that is full -/

theorem append_of_error (h : draft.image.nextAddress = .error error) (word : Word) :
    draft.append word = (.error error, draft) := by
  simp only [append, onImage, Image.append, h]

theorem defineHere_of_error (h : draft.image.nextAddress = .error error) (name : String) :
    draft.defineHere name = (.error error, draft) := by
  simp only [defineHere, h]

theorem appendReference_of_error (h : draft.image.nextAddress = .error error) (word : Word)
    (name : String) : draft.appendReference word name = (.error error, draft) := by
  have hnext : draft.nextFixup word = .error error := by
    unfold nextFixup
    rw [h]
    rfl
  simp only [appendReference, hnext]

/-! ## A draft with room -/

theorem append_of_ok (h : draft.image.nextAddress = .ok address) (word : Word) :
    draft.append word =
      (.ok draft.image.size,
        { draft with image := { draft.image with words := draft.image.words.push word } }) := by
  simp only [append, onImage, Image.append, h]

theorem defineHere_of_ok (h : draft.image.nextAddress = .ok address) (name : String) :
    draft.defineHere name = draft.define name address := by
  simp only [defineHere, h]

/-- A word that is no jump or branch is not appended with a reference. -/
theorem appendReference_of_none (h : draft.image.nextAddress = .ok address) {word : Word}
    (hkind : word.fixupKind? = none) (name : String) :
    draft.appendReference word name = (.error (.notJumpOrBranch address word), draft) := by
  have hclassify : FixupKind.classify word address = .error (.notJumpOrBranch address word) := by
    unfold Word.fixupKind? at hkind
    unfold FixupKind.classify
    rw [hkind]
  have hnext : draft.nextFixup word = .error (.notJumpOrBranch address word) := by
    unfold nextFixup
    rw [h]
    simp only [bind, Except.bind, hclassify]
  simp only [appendReference, hnext]

/-- A jump or a branch is appended, and then the table takes the reference or refuses it. -/
theorem appendReference_of_ok (h : draft.image.nextAddress = .ok address) {word : Word}
    {kind : FixupKind} (hkind : word.fixupKind? = some kind) {name : String} {table : SymbolTable}
    (htable : draft.symbols.addReference
      { handle := draft.image.size, site := address, kind } name = (.ok (), table)) :
    draft.appendReference word name =
      (.ok draft.image.size,
        ⟨{ draft.image with words := draft.image.words.push word }, table⟩) := by
  have hnext : draft.nextFixup word =
      .ok { handle := draft.image.size, site := address, kind } := by
    unfold nextFixup
    rw [h]
    simp only [bind, Except.bind, FixupKind.classify_of_some hkind, pure, Except.pure]
  simp only [appendReference, hnext, append_of_ok h, addReference, onSymbols, htable]

/-- A jump or a branch stays appended when the table refuses the reference. -/
theorem appendReference_of_refused (h : draft.image.nextAddress = .ok address) {word : Word}
    {kind : FixupKind} (hkind : word.fixupKind? = some kind) {name : String} {table : SymbolTable}
    (htable : draft.symbols.addReference
      { handle := draft.image.size, site := address, kind } name = (.error error, table)) :
    draft.appendReference word name =
      (.error error, ⟨{ draft.image with words := draft.image.words.push word }, table⟩) := by
  have hnext : draft.nextFixup word =
      .ok { handle := draft.image.size, site := address, kind } := by
    unfold nextFixup
    rw [h]
    simp only [bind, Except.bind, FixupKind.classify_of_some hkind, pure, Except.pure]
  simp only [appendReference, hnext, append_of_ok h, addReference, onSymbols, htable]

/-! ## References to words already there -/

/-- A reference is taken from a jump or a branch of the image, at the address that it has. -/
theorem of_fixupAt_ok {handle : Handle} {site : Address} {fixup : Fixup}
    (h : draft.fixupAt handle site = .ok fixup) :
    ∃ word, draft.image.words[handle]? = some word ∧ draft.image.addressOf handle = .ok site ∧
      word.fixupKind? = some fixup.kind ∧ fixup.handle = handle ∧ fixup.site = site := by
  unfold fixupAt at h
  obtain ⟨word, hget, h⟩ := bind_eq_ok_iff.mp h
  obtain ⟨actual, hactual, h⟩ := bind_eq_ok_iff.mp h
  have hword : draft.image.words[handle]? = some word := by
    unfold Image.get at hget
    split at hget
    · next found hfound => rw [hfound, Except.ok.inj hget]
    · cases hget
  by_cases hsite : site = actual
  · simp only [hsite, ne_eq, not_true_eq_false, if_false] at h
    obtain ⟨kind, hkind, h⟩ := bind_eq_ok_iff.mp h
    obtain rfl := Except.ok.inj h
    exact ⟨word, hword, hsite ▸ hactual, FixupKind.classify_eq_ok_iff.mp hkind, rfl, hsite.symm⟩
  · simp only [ne_eq, hsite, not_false_eq_true, if_true] at h
    obtain ⟨_, hthrow, -⟩ := bind_eq_ok_iff.mp h
    cases hthrow

end Draft

end Backpatch
