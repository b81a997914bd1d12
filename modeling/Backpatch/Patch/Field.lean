import Backpatch.SymbolTable

/-!
# Target fields

The bits that make a jump or a branch go to a label. A jump holds the index of a word within the
256 MiB region of the instruction after it. A branch holds the distance in words from the
instruction after it, as a signed number of 16 bits. Both fields are computed by truncation, so
they are right only where `FixupKind.reaches` holds.
-/

namespace Backpatch

/-- The field of a jump to an address: the index of its word, in 26 bits. -/
def jumpField (target : Address) : Word :=
  (target.extractLsb' 2 26).setWidth 32

/-- The distance in words from the instruction after `site`, rounded down. -/
def displacement (target site : Address) : Int :=
  ((target.toNat : Int) - site.toNat - wordSize) / wordSize

/-- The field of a branch: the low 16 bits of the distance. -/
def branchField (target site : Address) : Word :=
  (BitVec.ofInt 16 (displacement target site)).setWidth 32

/-- Whether a distance is a signed number of 16 bits. -/
def DisplacementFits (distance : Int) : Prop :=
  -0x8000 ≤ distance ∧ distance < 0x8000

instance : DecidablePred DisplacementFits := fun distance =>
  inferInstanceAs (Decidable (-0x8000 ≤ distance ∧ distance < 0x8000))

/-- Whether an address lies in the region of the instruction after `site`. -/
def JumpReaches (target site : Address) : Prop :=
  (site + BitVec.ofNat 32 wordSize).extractLsb' 28 4 = target.extractLsb' 28 4

instance (target site : Address) : Decidable (JumpReaches target site) :=
  inferInstanceAs (Decidable (_ = _))

namespace FixupKind

/-- The field for a target, as seen from an instruction. -/
def field (kind : FixupKind) (target site : Address) : Word :=
  match kind with
  | .jump => jumpField target
  | .branch => branchField target site

/-- Whether the field designates the target. -/
def reaches (kind : FixupKind) (target site : Address) : Bool :=
  match kind with
  | .jump => decide (JumpReaches target site)
  | .branch => decide (DisplacementFits (displacement target site))

/-- The failure to reach a label. -/
def outOfRange (kind : FixupKind) (name : String) (site : Address) : PatchError :=
  match kind with
  | .jump => .jumpOutOfRegion name site
  | .branch => .displacementOverflow name site

end FixupKind

end Backpatch
