import Backpatch.PatchError

/-!
# Images

An image is the row of words that a program consists of, with the address of the first one. Words
are appended at the end and named by their position, the handle, so that a word can be changed
after others have been appended. The address of a word is its base address plus four times its
handle, and an image never grows past the last 32-bit address. Fields of words already there are
filled in by setting their bits.

An operation that may fail returns its result together with the image, also when it fails. The
main statements give the effect of the operations on the words: `append_eq`, `size_set` and
`get_set`.
-/

namespace Backpatch

/-- A row of words, the first of which stands at the base address. -/
structure Image where
  base : Address := 0
  words : Array Word := #[]
  deriving DecidableEq, Repr

namespace Image

/-- The number of words. -/
def size (image : Image) : Nat :=
  image.words.size

/-- The address of the word at a position, if the address space reaches that far. -/
def addressAt (image : Image) (index : Nat) : Except PatchError Address :=
  if image.base.toNat + wordSize * index < 0x1_0000_0000 then
    .ok (image.base + BitVec.ofNat 32 (wordSize * index))
  else .error (.addressOverflow image.base (index + 1))

/-- The address that the next word will have. -/
def nextAddress (image : Image) : Except PatchError Address :=
  image.addressAt image.size

/-- Appends a word and returns its handle. -/
def append (word : Word) (image : Image) : Except PatchError Handle × Image :=
  match image.nextAddress with
  | .ok _ => (.ok image.size, { image with words := image.words.push word })
  | .error error => (.error error, image)

/-- The word behind a handle. -/
def get (image : Image) (handle : Handle) : Except PatchError Word :=
  match image.words[handle]? with
  | some word => .ok word
  | none => .error (.unknownHandle handle)

/-- Changes the word behind a handle. -/
def set (handle : Handle) (word : Word) (image : Image) : Except PatchError Unit × Image :=
  if handle < image.size then
    (.ok (), { image with words := image.words.setIfInBounds handle word })
  else (.error (.unknownHandle handle), image)

/-- The address of the word behind a handle. -/
def addressOf (image : Image) (handle : Handle) : Except PatchError Address :=
  if handle < image.size then image.addressAt handle else .error (.unknownHandle handle)

/-- Sets the bits of a field in the word behind a handle. -/
def writeField (handle : Handle) (field : Word) (image : Image) : Except PatchError Unit × Image :=
  match image.get handle with
  | .ok word => image.set handle (word ||| field)
  | .error error => (.error error, image)

/-- Sets the bits of several fields and stops at the first failure. -/
def writeFields : List (Handle × Word) → Image → Except PatchError Unit × Image
  | [], image => (.ok (), image)
  | (handle, field) :: rest, image =>
    match image.writeField handle field with
    | (.ok (), image) => writeFields rest image
    | (.error error, image) => (.error error, image)

/-- The words with their addresses, in order. -/
def entries (image : Image) : List (Address × Word) :=
  image.words.toList.zipIdx.map fun (word, index) =>
    (image.base + BitVec.ofNat 32 (wordSize * index), word)

/-- The bytes of the words, in order. -/
def bytes (image : Image) (order : ByteOrder) : List UInt8 :=
  image.words.toList.flatMap order.bytes

/-! ## What the operations do -/

/-- An image grows exactly when the address space has room for one more word. -/
theorem append_eq (word : Word) (image : Image) :
    image.append word =
      if image.base.toNat + wordSize * image.size < 0x1_0000_0000 then
        (.ok image.size, { image with words := image.words.push word })
      else (.error (.addressOverflow image.base (image.size + 1)), image) := by
  unfold append nextAddress addressAt
  by_cases h : image.base.toNat + wordSize * image.size < 0x1_0000_0000
  · rw [if_pos h, if_pos h]
  · rw [if_neg h, if_neg h]

/-- Changing a word keeps the number of words. -/
@[simp] theorem size_set (image : Image) (handle : Handle) (word : Word) :
    (image.set handle word).2.size = image.size := by
  unfold set
  split <;> simp [size]

/-- After changing a word, that word is the new one and all others are as before. -/
theorem get_set {image : Image} {handle : Handle} (h : handle < image.size) (word : Word)
    (other : Handle) :
    (image.set handle word).2.get other = if other = handle then .ok word else image.get other := by
  have hlt : handle < image.words.size := h
  unfold set get
  rw [if_pos h]
  by_cases heq : other = handle
  · simp [heq, hlt]
  · simp [heq, Array.getElem?_setIfInBounds_ne (Ne.symm heq)]

end Image

end Backpatch
