import Backpatch.Image

/-!
# Addresses and field writes of an image

`Image.Fits` says that the address space has room for every word of an image. Every operation keeps
it, and under it the address of a word is its base plus four times its handle, as a number and not
only modulo the size of the address space (`addressOf_eq_ok_iff`).

`writeFields_ok` is the effect of a row of field writes to different words of the image: none of
them fails, each word named gets its bits, and nothing else changes.
-/

namespace Backpatch

/-- The address of a place. -/
def placeAddress (base : Address) (place : Nat) : Address :=
  base + BitVec.ofNat 32 (wordSize * place)

namespace Image

/-! ## Addresses -/

/-- The image with one more word. -/
def push (word : Word) (image : Image) : Image :=
  { image with words := image.words.push word }

@[simp] theorem base_push (word : Word) (image : Image) : (image.push word).base = image.base :=
  rfl

@[simp] theorem size_push (word : Word) (image : Image) :
    (image.push word).size = image.size + 1 :=
  Array.size_push word

/-- Every word of the image has an address. -/
def Fits (image : Image) : Prop :=
  ∀ handle < image.size, image.base.toNat + wordSize * handle < 0x1_0000_0000

/-- The address of a place that the address space reaches, as a number. -/
theorem toNat_place {base : Address} {index : Nat} (h : base.toNat + wordSize * index < 0x1_0000_0000) :
    (base + BitVec.ofNat 32 (wordSize * index)).toNat = base.toNat + wordSize * index := by
  rw [BitVec.toNat_add, BitVec.toNat_ofNat]
  omega

/-- From an aligned base on, words stand at aligned addresses. -/
theorem isAligned_place {base : Address} {index : Nat} (haligned : IsAligned base)
    (h : base.toNat + wordSize * index < 0x1_0000_0000) : IsAligned (placeAddress base index) := by
  unfold IsAligned placeAddress at *
  rw [toNat_place h]
  simp only [wordSize] at haligned ⊢
  omega

theorem addressAt_of_lt {image : Image} {index : Nat}
    (h : image.base.toNat + wordSize * index < 0x1_0000_0000) :
    image.addressAt index = .ok (image.base + BitVec.ofNat 32 (wordSize * index)) :=
  if_pos h

theorem addressAt_of_not_lt {image : Image} {index : Nat}
    (h : ¬image.base.toNat + wordSize * index < 0x1_0000_0000) :
    image.addressAt index = .error (.addressOverflow image.base (index + 1)) :=
  if_neg h

/-- A place has an address exactly when the address space reaches that far. -/
theorem addressAt_eq_ok_iff {image : Image} {index : Nat} {address : Address} :
    image.addressAt index = .ok address ↔
      image.base.toNat + wordSize * index < 0x1_0000_0000 ∧
        address = placeAddress image.base index := by
  by_cases hroom : image.base.toNat + wordSize * index < 0x1_0000_0000
  · rw [addressAt_of_lt hroom, Except.ok.injEq]
    exact ⟨fun h => ⟨hroom, h.symm⟩, fun h => h.2.symm⟩
  · rw [addressAt_of_not_lt hroom]
    exact ⟨nofun, fun h => absurd h.1 hroom⟩

/-- The next word stands at an aligned address exactly when the first one does. -/
theorem isAligned_nextAddress_iff {image : Image} {site : Address}
    (h : image.nextAddress = .ok site) : IsAligned site ↔ IsAligned image.base := by
  obtain ⟨hroom, rfl⟩ := addressAt_eq_ok_iff.mp h
  unfold IsAligned placeAddress
  rw [toNat_place hroom]
  simp only [wordSize]
  omega

/-- A handle has an address exactly when it is one of the image's, and then the address is that of
its place. -/
theorem addressOf_eq_ok_iff {image : Image} (hfits : image.Fits) {handle : Handle}
    {address : Address} :
    image.addressOf handle = .ok address ↔
      handle < image.size ∧ address.toNat = image.base.toNat + wordSize * handle := by
  unfold addressOf
  by_cases hlt : handle < image.size
  · have hroom := hfits handle hlt
    rw [if_pos hlt, addressAt_of_lt hroom]
    constructor
    · intro h
      cases h
      exact ⟨hlt, toNat_place hroom⟩
    · rintro ⟨-, haddress⟩
      congr 1
      apply BitVec.eq_of_toNat_eq
      rw [toNat_place hroom, haddress]
  · rw [if_neg hlt]
    constructor
    · intro h
      cases h
    · rintro ⟨h, -⟩
      exact absurd h hlt

/-- A handle outside the image has no address. -/
theorem addressOf_of_not_lt {image : Image} {handle : Handle} (h : ¬handle < image.size) :
    image.addressOf handle = .error (.unknownHandle handle) :=
  if_neg h

/-- Only a handle of the image has an address. -/
theorem lt_size_of_addressOf {image : Image} {handle : Handle} {address : Address}
    (h : image.addressOf handle = .ok address) : handle < image.size := by
  by_cases hlt : handle < image.size
  · exact hlt
  · rw [addressOf_of_not_lt hlt] at h
    cases h

/-! ## What keeps an image within the address space -/

/-- An image without words fits anywhere. -/
theorem fits_of_empty (base : Address) : Fits { base } := by
  intro handle h
  exact absurd h (Nat.not_lt_zero handle)

/-- Only the base and the number of words matter. -/
theorem Fits.congr {image image' : Image} (h : image.Fits) (hbase : image'.base = image.base)
    (hsize : image'.size = image.size) : image'.Fits := by
  intro handle hlt
  rw [hbase]
  exact h handle (hsize ▸ hlt)

/-- A word can be added where the address space has room for it. -/
theorem fits_push {image : Image}
    (hroom : image.base.toNat + wordSize * image.size < 0x1_0000_0000) (word : Word) :
    (image.push word).Fits := by
  intro handle hlt
  rw [size_push] at hlt
  have hmul : wordSize * handle ≤ wordSize * image.size :=
    Nat.mul_le_mul_left _ (Nat.le_of_lt_succ hlt)
  exact Nat.lt_of_le_of_lt (Nat.add_le_add_left hmul _) hroom

theorem Fits.append {image : Image} (h : image.Fits) (word : Word) :
    (image.append word).2.Fits := by
  rw [append_eq]
  split
  · next hroom => exact fits_push hroom word
  · exact h

theorem base_set (image : Image) (handle : Handle) (word : Word) :
    (image.set handle word).2.base = image.base := by
  unfold set
  split <;> rfl

theorem Fits.set {image : Image} (h : image.Fits) (handle : Handle) (word : Word) :
    (image.set handle word).2.Fits :=
  h.congr (base_set image handle word) (size_set image handle word)

/-! ## Writing fields -/

/-- A field is written into a word of the image by setting its bits there. -/
theorem writeField_of_lt {image : Image} {handle : Handle} (h : handle < image.size)
    (field : Word) :
    image.writeField handle field =
      (.ok (), { image with words := image.words.modify handle (· ||| field) }) := by
  have hlt : handle < image.words.size := h
  have hwords : image.words.setIfInBounds handle (image.words[handle] ||| field) =
      image.words.modify handle (· ||| field) := by
    apply Array.ext_getElem?
    intro other
    rw [Array.getElem?_setIfInBounds, Array.getElem?_modify]
    by_cases heq : handle = other
    · subst heq
      simp [hlt]
    · simp [heq]
  unfold writeField get set
  rw [Array.getElem?_eq_getElem hlt]
  simp only [if_pos h, hwords]

@[simp] theorem writeField_base (image : Image) (handle : Handle) (field : Word) :
    (image.writeField handle field).2.base = image.base := by
  unfold writeField
  split
  · exact base_set image handle _
  · rfl

@[simp] theorem writeField_size (image : Image) (handle : Handle) (field : Word) :
    (image.writeField handle field).2.size = image.size := by
  unfold writeField
  split
  · exact size_set image handle _
  · rfl

/-- A row of field writes keeps the base and the number of words, also when it stops half-way. -/
theorem writeFields_frame (writes : List (Handle × Word)) (image : Image) :
    (image.writeFields writes).2.base = image.base ∧
      (image.writeFields writes).2.size = image.size := by
  induction writes generalizing image with
  | nil => exact ⟨rfl, rfl⟩
  | cons write rest ih =>
      obtain ⟨handle, field⟩ := write
      have hbase := writeField_base image handle field
      have hsize := writeField_size image handle field
      unfold writeFields
      split
      · next image' h =>
        rw [h] at hbase hsize
        rw [(ih image').1, (ih image').2]
        exact ⟨hbase, hsize⟩
      · next error image' h =>
        rw [h] at hbase hsize
        exact ⟨hbase, hsize⟩

/-- Writes to different words of the image all succeed. Each word written to gets the bits of its
field, and every other word stays. -/
theorem writeFields_ok {writes : List (Handle × Word)} {image : Image}
    (hrange : ∀ write ∈ writes, write.1 < image.size) (hdistinct : (writes.map Prod.fst).Nodup) :
    (image.writeFields writes).1 = .ok () ∧
      ∀ handle,
        (∀ field, (handle, field) ∈ writes →
          (image.writeFields writes).2.words[handle]? =
            image.words[handle]?.map (· ||| field)) ∧
        (handle ∉ writes.map Prod.fst →
          (image.writeFields writes).2.words[handle]? = image.words[handle]?) := by
  induction writes generalizing image with
  | nil => exact ⟨rfl, fun handle => ⟨fun _ h => absurd h List.not_mem_nil, fun _ => rfl⟩⟩
  | cons write rest ih =>
      obtain ⟨first, bits⟩ := write
      have hfirst : first < image.size := hrange (first, bits) List.mem_cons_self
      obtain ⟨hnew, hrest⟩ := List.nodup_cons.mp hdistinct
      rw [writeFields, writeField_of_lt hfirst]
      have hwords : ∀ handle, (image.words.modify first (· ||| bits))[handle]? =
          if first = handle then image.words[handle]?.map (· ||| bits)
          else image.words[handle]? := by
        intro handle
        exact Array.getElem?_modify
      have hin : ∀ write ∈ rest,
          write.1 < size { image with words := image.words.modify first (· ||| bits) } := by
        intro write h
        simpa [size] using hrange write (List.mem_cons_of_mem _ h)
      obtain ⟨hok, heffect⟩ := ih hin hrest
      refine ⟨hok, ?_⟩
      intro handle
      refine ⟨?_, ?_⟩
      · intro field hmem
        rcases List.mem_cons.mp hmem with heq | hmem
        · cases heq
          rw [(heffect first).2 hnew, hwords, if_pos rfl]
        · have hne : first ≠ handle := by
            rintro rfl
            exact hnew (List.mem_map.mpr ⟨_, hmem, rfl⟩)
          rw [(heffect handle).1 field hmem, hwords, if_neg hne]
      · intro hmem
        obtain ⟨hne, hmem⟩ := not_or.mp (mt List.mem_cons.mpr hmem)
        rw [(heffect handle).2 hmem, hwords, if_neg (Ne.symm hne)]

end Image

end Backpatch
