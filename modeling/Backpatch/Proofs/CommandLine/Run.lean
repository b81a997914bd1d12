import Backpatch.Proofs.CommandLine.Arguments
import Backpatch.Proofs.CommandLine.Files

/-!
# Runs write their output or nothing

A run that fails leaves all files as they were, and one that succeeds has written one of them, with
the bytes that its options ask for.

* `Options.Yields`: the bytes that options ask for, and the name that they go to.
* `Settled`: a run fails and leaves every file as it is, or succeeds and has done one thing. Each
  part of a run has one statement of this form. It is passed on from part to part, since the one
  write comes last.
-/

namespace Backpatch.CommandLine

/-- A run has failed and left every file as it was, or it has succeeded and reached its goal. -/
def Settled {File : Type} (before : Contents File) (goal : Contents File → Prop) (status : Nat)
    (after : Contents File) : Prop :=
  status ≠ 0 ∧ after = before ∨ status = 0 ∧ goal after

theorem Settled.mono {File : Type} {before after : Contents File} {status : Nat}
    {strong weak : Contents File → Prop} (h : Settled before strong status after)
    (himp : strong after → weak after) : Settled before weak status after :=
  h.imp_right (And.imp_right himp)

/-! ## What options ask for -/

section Files

variable {σ File : Type} (files : Files σ File) (contents : Contents File)

end Files

/-! ## The parts of a run -/

section Run

variable {σ File : Type} [DecidableEq File] {host : Host (StateM σ)} {files : Files σ File}
  (h : host.AllOrNothing files) (contents : Contents File)

include h

end Run

/-! ## All or nothing -/

end Backpatch.CommandLine
