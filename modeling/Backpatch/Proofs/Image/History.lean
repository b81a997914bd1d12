import Backpatch.Proofs.Image
import Mathlib.Data.List.Induction

/-!
# An image as a log of its calls

An image is called to append a word, to change one, and to be read. Whatever the calls, and whatever
of them fails, it holds what the log of its calls says: the word behind a handle is the one written
there last, be it by the call that appended it or by a later change.

* `Log.appendCount`, `Log.lastWritten`: what a log says of the number of words and of each of them.
* `Describes`: the invariant. One more call keeps it (`Describes.perform`).
* `Mirrors`: what this means for everything that an image can be asked, the addresses that it
  computes without a check among it (`run_mirrors`).
-/

namespace Backpatch

/-- The words whose bytes stand in a row, four to a word. -/
def ByteOrder.words (order : ByteOrder) : List UInt8 → List Word
  | a :: b :: c :: d :: rest => order.word a b c d :: order.words rest
  | _ => []

/-- Words are read back from their bytes. -/
theorem ByteOrder.words_flatMap_bytes (order : ByteOrder) (words : List Word) :
    order.words (words.flatMap order.bytes) = words := by
  induction words with
  | nil => rfl
  | cons word rest ih =>
      obtain ⟨a, b, c, d, hbytes, hword⟩ := order.word_bytes word
      rw [List.flatMap_cons, hbytes]
      simp only [List.cons_append, List.nil_append, ByteOrder.words]
      rw [hword, ih]

theorem ByteOrder.length_flatMap_bytes (order : ByteOrder) (words : List Word) :
    (words.flatMap order.bytes).length = wordSize * words.length := by
  induction words with
  | nil => rfl
  | cons word rest ih =>
      obtain ⟨a, b, c, d, hbytes, -⟩ := order.word_bytes word
      rw [List.flatMap_cons, hbytes, List.length_append, ih]
      simp only [List.length_cons, List.length_nil, wordSize]
      omega

namespace Image

/-! ## Calls and logs -/

/-- A call of an image, with its arguments. -/
inductive Call where
  | append (word : Word)
  | set (handle : Handle) (word : Word)
  | get (handle : Handle)
  | addressOf (handle : Handle)
  | nextAddress
  | entries
  | bytes (order : ByteOrder)
  deriving DecidableEq, Repr

/-- What a call returns. -/
inductive Outcome where
  | appended (result : Except PatchError Handle)
  | changed (result : Except PatchError Unit)
  | word (result : Except PatchError Word)
  | address (result : Except PatchError Address)
  | entries (entries : List (Address × Word))
  | bytes (bytes : List UInt8)
  deriving DecidableEq, Repr

/-- Carries out a call. -/
def Call.perform : Call → Image → Outcome × Image
  | .append word, image => (image.append word).map .appended id
  | .set handle word, image => (image.set handle word).map .changed id
  | .get handle, image => (.word (image.get handle), image)
  | .addressOf handle, image => (.address (image.addressOf handle), image)
  | .nextAddress, image => (.address image.nextAddress, image)
  | .entries, image => (.entries image.entries, image)
  | .bytes order, image => (.bytes (image.bytes order), image)

/-- The calls of an image with what they returned, oldest first. -/
abbrev Log := List (Call × Outcome)

/-- Carries out a call and logs it. -/
def proceed : Log × Image → Call → Log × Image
  | (log, image), call => (log ++ [(call, (call.perform image).1)], (call.perform image).2)

/-- Carries out calls of an empty image, one after the other, and returns the log with the image
reached. -/
def run (base : Address) (calls : List Call) : Log × Image :=
  calls.foldl proceed ([], { base })

namespace Log

/-- The handle that an entry has written to, and the word. -/
def write? : Call × Outcome → Option (Handle × Word)
  | (.append word, .appended (.ok handle)) => some (handle, word)
  | (.set handle word, .changed (.ok ())) => some (handle, word)
  | _ => none

/-- Whether an entry has appended a word. -/
def isAppend : Call × Outcome → Bool
  | (.append _, .appended (.ok _)) => true
  | _ => false

/-- The number of words appended. -/
def appendCount (log : Log) : Nat :=
  (log.filter isAppend).length

/-- The word that an entry has written to a handle. -/
def wordFor? (handle : Handle) (entry : Call × Outcome) : Option Word :=
  (write? entry).bind fun write => if write.1 = handle then some write.2 else none

/-- The word written last to a handle. -/
def lastWritten (log : Log) (handle : Handle) : Option Word :=
  log.reverse.findSome? (wordFor? handle)

theorem appendCount_concat (log : Log) (entry : Call × Outcome) :
    appendCount (log ++ [entry]) = log.appendCount + if isAppend entry then 1 else 0 := by
  unfold appendCount
  rw [List.filter_append, List.length_append]
  cases h : isAppend entry <;> simp [h]

theorem lastWritten_concat (log : Log) (entry : Call × Outcome) (handle : Handle) :
    lastWritten (log ++ [entry]) handle = (wordFor? handle entry).or (log.lastWritten handle) := by
  unfold lastWritten
  rw [List.reverse_append, List.reverse_singleton, List.singleton_append, List.findSome?_cons]
  cases wordFor? handle entry <;> rfl

end Log

/-! ## One more call -/

/-- An image holds what a log says. -/
structure Describes (base : Address) (log : Log) (image : Image) : Prop where
  start : image.base = base
  fits : image.Fits
  size : image.size = log.appendCount
  word : ∀ handle, image.words[handle]? = log.lastWritten handle

theorem describes_start (base : Address) : Describes base [] { base } where
  start := rfl
  fits := fits_of_empty base
  size := rfl
  word := fun _ => rfl

section Step

variable {base : Address} {log : Log} {image : Image}

/-- A call that appends and writes nothing says nothing new. -/
theorem Describes.silent (h : Describes base log image) {entry : Call × Outcome}
    (happend : Log.isAppend entry = false) (hwrite : Log.write? entry = none) :
    Describes base (log ++ [entry]) image := by
  refine ⟨h.start, h.fits, ?_, ?_⟩
  · rw [Log.appendCount_concat, happend, h.size]
    rfl
  · intro handle
    rw [Log.lastWritten_concat, Log.wordFor?, hwrite, h.word]
    rfl

/-- Appending adds the word behind the next handle, if there is room. -/
theorem Describes.append (h : Describes base log image) (word : Word) :
    Describes base (log ++ [(.append word, .appended (image.append word).1)])
      (image.append word).2 := by
  rw [append_eq]
  by_cases hroom : image.base.toNat + wordSize * image.size < 0x1_0000_0000
  · rw [if_pos hroom]
    refine ⟨h.start, fits_push hroom word, ?_, ?_⟩
    · rw [Log.appendCount_concat, ← h.size]
      exact size_push word image
    · intro handle
      have hwritten : Log.wordFor? handle (.append word, .appended (.ok image.size)) =
          if image.words.size = handle then some word else none := rfl
      rw [Log.lastWritten_concat, ← h.word, Array.getElem?_push, hwritten]
      by_cases heq : handle = image.words.size
      · rw [if_pos heq, if_pos heq.symm, Option.some_or]
      · rw [if_neg heq, if_neg (Ne.symm heq), Option.none_or]
  · rw [if_neg hroom]
    exact h.silent rfl rfl

/-- A change replaces the word behind its handle, if there is one. -/
theorem Describes.set (h : Describes base log image) (handle : Handle) (word : Word) :
    Describes base (log ++ [(.set handle word, .changed (image.set handle word).1)])
      (image.set handle word).2 := by
  unfold Image.set
  by_cases hlt : handle < image.size
  · have hinside : handle < image.words.size := hlt
    rw [if_pos hlt]
    have hsize : Image.size { image with words := image.words.setIfInBounds handle word } =
        image.size :=
      Array.size_setIfInBounds
    refine ⟨h.start, h.fits.congr rfl hsize, ?_, ?_⟩
    · rw [Log.appendCount_concat, ← h.size]
      exact hsize
    · intro other
      rw [Log.lastWritten_concat, ← h.word]
      by_cases heq : handle = other
      · subst heq
        simp [Log.wordFor?, Log.write?, hinside]
      · simp [Log.wordFor?, Log.write?, heq, Array.getElem?_setIfInBounds_ne heq]
  · rw [if_neg hlt]
    exact h.silent rfl rfl

/-- Whatever is called, the image holds what the longer log says. -/
theorem Describes.perform (h : Describes base log image) (call : Call) :
    Describes base (log ++ [(call, (call.perform image).1)]) (call.perform image).2 := by
  cases call with
  | append word => exact h.append word
  | set handle word => exact h.set handle word
  | get handle | addressOf handle | nextAddress | entries | bytes order => exact h.silent rfl rfl

end Step

theorem describes_of_run (base : Address) (calls : List Call) :
    Describes base (run base calls).1 (run base calls).2 := by
  induction calls using List.reverseRec with
  | nil => exact describes_start base
  | append_singleton calls call ih =>
      unfold run
      rw [List.foldl_append, List.foldl_cons, List.foldl_nil]
      exact ih.perform call

/-! ## Entries -/

section Entries

variable {image : Image}

/-- The entry of a handle: the address of its place, and its word. -/
theorem getElem?_entries (image : Image) (handle : Handle) :
    image.entries[handle]? =
      image.words[handle]?.map fun word => (placeAddress image.base handle, word) := by
  unfold entries
  rw [List.getElem?_map, List.getElem?_zipIdx, Nat.zero_add, Array.getElem?_toList, Option.map_map]
  rfl

theorem length_entries (image : Image) : image.entries.length = image.size := by
  simp [entries, size]

/-- The address of a word of the image, as a number. -/
theorem Fits.toNat_placeAddress (h : image.Fits) {handle : Handle} (hlt : handle < image.size) :
    (placeAddress image.base handle).toNat = image.base.toNat + wordSize * handle :=
  toNat_place (h handle hlt)

/-- Entries are what can be asked of each handle in turn. -/
theorem Fits.entries_eq (h : image.Fits) :
    image.entries.map (fun entry => (Except.ok entry.1, Except.ok entry.2)) =
      (List.range image.size).map fun handle => (image.addressOf handle, image.get handle) := by
  apply List.ext_getElem?
  intro handle
  rw [List.getElem?_map, getElem?_entries, List.getElem?_map]
  by_cases hlt : handle < image.size
  · have hinside : handle < image.words.size := hlt
    have haddress : image.addressOf handle = .ok (placeAddress image.base handle) :=
      (addressOf_eq_ok_iff h).mpr ⟨hlt, h.toNat_placeAddress hlt⟩
    rw [List.getElem?_range hlt, Array.getElem?_eq_getElem hinside]
    simp [haddress, get, hinside]
  · have houtside : ¬handle < image.words.size := hlt
    rw [List.getElem?_eq_none (by simpa using hlt), Array.getElem?_eq_none (Nat.le_of_not_lt houtside)]
    rfl

/-- Entries stand at increasing addresses. -/
theorem Fits.pairwise_entries (h : image.Fits) :
    image.entries.Pairwise fun entry next => entry.1.toNat < next.1.toNat := by
  have hentry : ∀ (handle : Nat) (hlt : handle < image.entries.length),
      image.entries[handle].1.toNat = image.base.toNat + wordSize * handle := by
    intro handle hlt
    have hget := getElem?_entries image handle
    rw [List.getElem?_eq_getElem hlt] at hget
    obtain ⟨word, -, hword⟩ := Option.map_eq_some_iff.mp hget.symm
    rw [← hword]
    exact h.toNat_placeAddress (image.length_entries ▸ hlt)
  refine List.pairwise_iff_getElem.mpr fun handle next hlt hnext hless => ?_
  rw [hentry handle hlt, hentry next hnext]
  simp only [wordSize]
  omega

/-- The address of an entry computed in 32 bits, by narrowing the handle, a product and a sum, none
of which is checked. -/
structure Unwrapped (base : Address) (handle : Handle) (address : Address) : Prop where
  computed : address = base + BitVec.ofNat 32 handle * 4#32
  /-- The handle is not cut off. -/
  narrowed : (BitVec.ofNat 32 handle).toNat = handle
  /-- The product does not wrap. -/
  product : (BitVec.ofNat 32 handle * 4#32).toNat = handle * 4
  /-- The sum does not wrap. -/
  sum : (base + BitVec.ofNat 32 handle * 4#32).toNat = base.toNat + handle * 4

/-- The address of every entry is computed without a wrap. -/
theorem Fits.unwrapped (h : image.Fits) {handle : Handle} (hlt : handle < image.size) :
    Unwrapped image.base handle (placeAddress image.base handle) := by
  have hroom := h handle hlt
  have haddress := h.toNat_placeAddress hlt
  simp only [wordSize] at hroom haddress
  have hnarrowed : (BitVec.ofNat 32 handle).toNat = handle := by
    rw [BitVec.toNat_ofNat]
    omega
  have hproduct : (BitVec.ofNat 32 handle * 4#32).toNat = handle * 4 := by
    rw [BitVec.toNat_mul, hnarrowed]
    simp only [BitVec.toNat_ofNat]
    omega
  have hsum : (image.base + BitVec.ofNat 32 handle * 4#32).toNat =
      image.base.toNat + handle * 4 := by
    rw [BitVec.toNat_add, hproduct]
    omega
  refine ⟨?_, hnarrowed, hproduct, hsum⟩
  apply BitVec.eq_of_toNat_eq
  rw [hsum, haddress, Nat.mul_comm]

end Entries

/-! ## Everything that can be asked -/

/-- What an image with a log says. -/
structure Mirrors (base : Address) (log : Log) (image : Image) : Prop where
  start : image.base = base
  size : image.size = log.appendCount
  /-- A word is appended if it has an address. -/
  append : ∀ word, (Call.append word).perform image =
    if base.toNat + 4 * image.size ≤ 0xFFFF_FFFF then
      (.appended (.ok image.size), image.push word)
    else (.appended (.error (.addressOverflow base (image.size + 1))), image)
  addresses : ∀ handle < image.size, ∃ address, image.addressOf handle = .ok address ∧
    address.toNat = base.toNat + 4 * handle
  /-- The word behind a handle is the one written there last. -/
  words : ∀ handle < image.size, ∃ word, log.lastWritten handle = some word ∧
    image.get handle = .ok word
  set : ∀ handle < image.size, ∀ word, ((Call.set handle word).perform image).1 = .changed (.ok ())
  /-- A handle of no word is refused. -/
  unknown : ∀ handle, image.size ≤ handle →
    (Call.get handle).perform image = (.word (.error (.unknownHandle handle)), image) ∧
      (Call.addressOf handle).perform image =
        (.address (.error (.unknownHandle handle)), image) ∧
      ∀ word, (Call.set handle word).perform image =
        (.changed (.error (.unknownHandle handle)), image)
  /-- The entries are the addresses and the words of all handles in turn. -/
  entries : image.entries.map (fun entry => (Except.ok entry.1, Except.ok entry.2)) =
    (List.range image.size).map fun handle => (image.addressOf handle, image.get handle)
  increasing : image.entries.Pairwise fun entry next => entry.1.toNat < next.1.toNat
  unwrapped : ∀ (handle : Nat) (entry : Address × Word), image.entries[handle]? = some entry →
    Unwrapped base handle entry.1
  /-- There are four bytes to a word, and the words are read back from them. -/
  bytes : ∀ order, (image.bytes order).length = 4 * image.size ∧
    order.words (image.bytes order) = image.words.toList

variable {base : Address} {log : Log} {image : Image}

/-- A handle of no word is refused, and nothing changes. -/
theorem unknownHandle_perform {handle : Handle} (h : image.size ≤ handle) :
    (Call.get handle).perform image = (.word (.error (.unknownHandle handle)), image) ∧
      (Call.addressOf handle).perform image = (.address (.error (.unknownHandle handle)), image) ∧
      ∀ word, (Call.set handle word).perform image =
        (.changed (.error (.unknownHandle handle)), image) := by
  have hout : ¬handle < image.size := Nat.not_lt_of_le h
  have hnone : image.words[handle]? = none := Array.getElem?_eq_none h
  refine ⟨?_, ?_, ?_⟩
  · simp only [Call.perform, get, hnone]
  · simp only [Call.perform, addressOf_of_not_lt hout]
  · intro word
    simp only [Call.perform, set, if_neg hout]
    rfl

/-- An image that holds what a log says answers everything as the log says. -/
theorem Describes.mirrors (h : Describes base log image) : Mirrors base log image where
  start := h.start
  size := h.size
  append := by
    intro word
    obtain rfl := h.start
    have hroom : image.base.toNat + wordSize * image.size < 0x1_0000_0000 ↔
        image.base.toNat + 4 * image.size ≤ 0xFFFF_FFFF := by
      simp only [wordSize]
      omega
    simp only [Call.perform, append_eq, hroom]
    split <;> rfl
  addresses := by
    intro handle hlt
    refine ⟨placeAddress image.base handle, ?_, ?_⟩
    · exact (addressOf_eq_ok_iff h.fits).mpr ⟨hlt, h.fits.toNat_placeAddress hlt⟩
    · rw [← h.start]
      exact h.fits.toNat_placeAddress hlt
  words := by
    intro handle hlt
    have hword : image.words[handle]? = some image.words[handle] := Array.getElem?_eq_getElem hlt
    refine ⟨_, (h.word handle).symm.trans hword, ?_⟩
    simp only [get, hword]
  set := by
    intro handle hlt word
    simp only [Call.perform, Image.set, if_pos hlt]
    rfl
  unknown := fun handle hout => unknownHandle_perform hout
  entries := h.fits.entries_eq
  increasing := h.fits.pairwise_entries
  unwrapped := by
    intro handle entry hentry
    rw [getElem?_entries] at hentry
    obtain ⟨word, hword, rfl⟩ := Option.map_eq_some_iff.mp hentry
    rw [← h.start]
    exact h.fits.unwrapped (Array.getElem?_eq_some_iff.mp hword).1
  bytes := by
    intro order
    exact ⟨order.length_flatMap_bytes _, order.words_flatMap_bytes _⟩

/-- After any calls, of which any may fail, an image answers everything as the log of its calls
says, wherever it starts and also when it fills the address space. -/
theorem run_mirrors (base : Address) (calls : List Call) :
    Mirrors base (run base calls).1 (run base calls).2 :=
  (describes_of_run base calls).mirrors

/-- Where there is room for two words, the third is refused and a change to it too. -/
example : (run 0xFFFFFFF8 [.append 1, .append 2, .append 3, .set 0 7, .set 2 9, .get 0]).1.map
    Prod.snd = [.appended (.ok 0), .appended (.ok 1),
      .appended (.error (.addressOverflow 0xFFFFFFF8 3)), .changed (.ok ()),
      .changed (.error (.unknownHandle 2)), .word (.ok 7)] := by
  decide

end Image

end Backpatch
