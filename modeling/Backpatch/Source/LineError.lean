/-!
# Refused lines

The reasons for which a source line is refused, each with the piece of the line that caused it, and
the sentence that reports it. Pieces are quoted as they were written, except for the mnemonic,
which is reported in lower case.
-/

namespace Backpatch

/-- Why a source line is refused. -/
inductive LineError where
  /-- No operation has this name. -/
  | unknownOperation (mnemonic : String)
  /-- The operation takes another number of operands. -/
  | operandCount (mnemonic : String) (expected found : Nat)
  /-- The operand is no register. -/
  | invalidRegister (text : String)
  /-- The operand is no integer literal. -/
  | invalidImmediate (text : String)
  /-- The literal needs more than a sign-extended 16-bit field. -/
  | signedRange (value : Int)
  /-- The literal needs more than a zero-extended 16-bit field. -/
  | unsignedRange (value : Int)
  /-- The operand is no label name. -/
  | invalidLabel (text : String)
  /-- The operand is no integer literal, or not of 32 bits. -/
  | invalidWord (text : String)
  /-- The operand has no parenthesis that opens the base register. -/
  | noBaseRegister (text : String)
  /-- The operand does not end with the parenthesis that closes the base register. -/
  | unclosedBaseRegister (text : String)
  deriving DecidableEq, Repr

/-- The sentence that reports a refused line. -/
def LineError.message : LineError → String
  | .unknownOperation mnemonic => s!"Unknown operation '{mnemonic}'"
  | .operandCount mnemonic expected found =>
    s!"'{mnemonic}' expects {expected} operands, found {found}"
  | .invalidRegister text => s!"Invalid register '{text}'"
  | .invalidImmediate text => s!"Invalid immediate '{text}'"
  | .signedRange value => s!"Immediate {value} does not fit in a signed 16-bit field"
  | .unsignedRange value => s!"Immediate {value} does not fit in an unsigned 16-bit field"
  | .invalidLabel text => s!"Invalid label '{text}'"
  | .invalidWord text => s!"Invalid word '{text}'"
  | .noBaseRegister text => s!"Expected offset($reg), found '{text}'"
  | .unclosedBaseRegister text => s!"Missing ')' in '{text}'"

end Backpatch
