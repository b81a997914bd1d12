import Backpatch.Proofs.Patch.Outcome
import Backpatch.Proofs.SymbolTable

/-!
# Images and tables that calls lead to

An image is reachable if appending, changing words and patching lead to it from an empty one, at
any base address. A table is reachable if definitions, references and patching lead to it from the
empty one. Nothing is asked of the arguments: a table may name handles of another image, and may be
patched into several. Since a patching changes an image and a table at once, the two notions are
defined together.

`Image.Reachable.fits` is the invariant of the images, `SymbolTable.Reachable.aligned` that of the
tables.
-/

namespace Backpatch

mutual

/-- The images that calls lead to, whether the calls succeed or not. -/
inductive Image.Reachable : Image → Prop
  | start (base : Address) : Image.Reachable { base }
  | append {image : Image} (word : Word) :
      Image.Reachable image → Image.Reachable (image.append word).2
  | set {image : Image} (handle : Handle) (word : Word) :
      Image.Reachable image → Image.Reachable (image.set handle word).2
  | patch {image : Image} {table : SymbolTable} (checkRanges : Bool) :
      Image.Reachable image → SymbolTable.Reachable table →
        Image.Reachable (Draft.patch checkRanges ⟨image, table⟩).2.image

/-- The tables that calls lead to, whether the calls succeed or not. -/
inductive SymbolTable.Reachable : SymbolTable → Prop
  | start : SymbolTable.Reachable {}
  | define {table : SymbolTable} (name : String) (address : Address) :
      SymbolTable.Reachable table → SymbolTable.Reachable (table.define name address).2
  | addReference {table : SymbolTable} (fixup : Fixup) (name : String) :
      SymbolTable.Reachable table → SymbolTable.Reachable (table.addReference fixup name).2
  | patch {image : Image} {table : SymbolTable} (checkRanges : Bool) :
      Image.Reachable image → SymbolTable.Reachable table →
        SymbolTable.Reachable (Draft.patch checkRanges ⟨image, table⟩).2.symbols

end

/-- Patching keeps every word within the address space. -/
theorem Image.Fits.patch {draft : Draft} (h : draft.image.Fits) (checkRanges : Bool) :
    (draft.patch checkRanges).2.image.Fits := by
  rw [Draft.patch_eq]
  split
  · exact h.congr rfl (by simp [Draft.patched, Plan.patched, Image.size])
  · exact h

/-- Every word of a reachable image has an address. -/
theorem Image.Reachable.fits : ∀ {image : Image}, image.Reachable → image.Fits
  | _, .start base => Image.fits_of_empty base
  | _, .append word h => h.fits.append word
  | _, .set handle word h => h.fits.set handle word
  | _, .patch checkRanges h _ => Image.Fits.patch h.fits checkRanges

/-- The address of a label and those of the references to it are those of words. -/
structure Label.Aligned (label : Label) : Prop where
  address : ∀ address, label.address = some address → IsAligned address
  sites : ∀ fixup ∈ label.fixups, IsAligned fixup.site

/-- Nothing is known of a label that is new. -/
theorem Label.aligned_new (name : String) : Label.Aligned { name } where
  address := nofun
  sites := fun fixup hmem => absurd hmem (Array.not_mem_empty fixup)

theorem SymbolTable.aligned_define {table : SymbolTable}
    (h : ∀ label ∈ table.labels, label.Aligned) (name : String) (address : Address) :
    ∀ label ∈ (table.define name address).2.labels, label.Aligned := by
  rcases hdefine : table.define name address with ⟨error | ⟨⟩, after⟩
  · obtain rfl := of_define_error hdefine
    exact h
  · obtain ⟨haligned, ⟨-, rfl⟩ | ⟨-, rfl⟩⟩ := of_define_ok hdefine
    · exact h
    · refine forall_update h (Label.aligned_new name) fun label hlabel => ⟨?_, hlabel.sites⟩
      rintro known ⟨⟩
      exact haligned

theorem SymbolTable.aligned_addReference {table : SymbolTable}
    (h : ∀ label ∈ table.labels, label.Aligned) (fixup : Fixup) (name : String) :
    ∀ label ∈ (table.addReference fixup name).2.labels, label.Aligned := by
  rcases hadd : table.addReference fixup name with ⟨error | ⟨⟩, after⟩
  · obtain ⟨-, -, rfl⟩ := of_addReference_error hadd
    exact h
  · obtain ⟨haligned, rfl⟩ := of_addReference_ok hadd
    refine forall_update h (Label.aligned_new name) fun label hlabel => ⟨hlabel.address, ?_⟩
    intro other hother
    rcases Array.mem_push.mp hother with hold | rfl
    · exact hlabel.sites other hold
    · exact haligned

/-- Patching keeps the addresses of labels, and drops references at most. -/
theorem SymbolTable.aligned_patch {draft : Draft}
    (h : ∀ label ∈ draft.symbols.labels, label.Aligned) (checkRanges : Bool) :
    ∀ label ∈ (draft.patch checkRanges).2.symbols.labels, label.Aligned := by
  rw [Draft.patch_eq]
  split
  · intro label hlabel
    obtain ⟨before, hbefore, rfl⟩ := List.mem_map.mp hlabel
    exact ⟨(h before hbefore).address, fun fixup hmem => absurd hmem (Array.not_mem_empty fixup)⟩
  · exact h

/-- In a reachable table every address is that of a word. -/
theorem SymbolTable.Reachable.aligned :
    ∀ {table : SymbolTable}, table.Reachable → ∀ label ∈ table.labels, label.Aligned
  | _, .start => fun _ hlabel => absurd hlabel List.not_mem_nil
  | _, .define name address h => SymbolTable.aligned_define h.aligned name address
  | _, .addReference fixup name h => SymbolTable.aligned_addReference h.aligned fixup name
  | _, .patch checkRanges _ h => SymbolTable.aligned_patch h.aligned checkRanges

end Backpatch
