import Backpatch.Text.Numeral
import Backpatch.Text.Split
import Backpatch.Toml.Reader
import Backpatch.Toml.Value

/-!
# Space, strings and numbers

The smallest parts of a TOML text. Space on a line is blanks and tabs; a line ends with a line feed
or with a carriage return and a line feed, and nowhere else. Strings are written in one of four
ways: basic, with escapes, or literal, without, each on one line or between tripled quotes on
several. Integers may have an underscore between two digits and no superfluous zero in front.
-/

namespace Backpatch.Toml

open Reader

/-! ## Space and comments -/

/-- The space that may stand between the parts of one line. -/
def isSpace (c : Char) : Bool :=
  c == ' ' || c == '\t'

/-- The characters that may stand in a comment or, quotes apart, in a string. -/
def isPrintable (c : Char) : Bool :=
  c == '\t' || (' ' ≤ c && c ≤ '~') || 0x80 ≤ c.toNat

/-- Skips space. -/
def space : Reader Unit := do
  discard <| takeWhile isSpace

/-- The end of a line that another one follows. -/
def lineEnd : Reader Unit :=
  char '\n' <|> exactly "\r\n"

/-- Skips a comment, if there is one. -/
def comment : Reader Unit := do
  if ← skip? "#" then discard <| takeWhile isPrintable

/-- Skips the rest of a line that holds nothing more but a comment, and the end of the line. -/
def lineRest : Reader Unit := do
  space
  comment
  lineEnd <|> atEnd

/-- Skips space, comments and line ends. -/
def layout : Reader Unit := do
  space
  discard <| repeated do
    comment
    if ← optionally lineEnd then
      space
      return some ()
    else return none

/-! ## Strings -/

/-- The character that a code point in hexadecimal digits stands for. -/
def codePoint (digits : List Char) : Reader Char :=
  match Text.digitsValue? 16 digits with
  | some code => if code.isValidChar then return Char.ofNat code else failure
  | none => failure

/-- Whether a character is a hexadecimal digit. -/
def isHexDigit (c : Char) : Bool :=
  (Text.digitOf? 16 c).isSome

/-- The character that an escape stands for, read from behind the backslash. -/
def escaped : Reader Char := do
  match ← satisfying fun _ => true with
  | 'b' => return '\x08'
  | 't' => return '\t'
  | 'n' => return '\n'
  | 'f' => return '\x0c'
  | 'r' => return '\r'
  | '"' => return '"'
  | '\\' => return '\\'
  | 'u' => codePoint (← times 4 isHexDigit)
  | 'U' => codePoint (← times 8 isHexDigit)
  | _ => failure

/-- The next character of a basic string on one line; nothing where the string ends. -/
def basicStep : Reader (Option Char) := do
  match ← satisfying isPrintable with
  | '"' => return none
  | '\\' => return some (← escaped)
  | c => return some c

/-- The next character of a literal string on one line; nothing where the string ends. -/
def literalStep : Reader (Option Char) := do
  match ← satisfying isPrintable with
  | '\'' => return none
  | c => return some c

/-- A string on one line, as it may also stand for a key. -/
def lineString : Reader String := do
  match ← satisfying fun c => c == '"' || c == '\'' with
  | '"' => return String.ofList (← repeated basicStep)
  | _ => return String.ofList (← repeated literalStep)

/-- Skips the line end behind a backslash, with all space and line ends that follow. -/
def continuation : Reader Unit := do
  space
  lineEnd
  discard <| repeated do
    if ← optionally (lineEnd <|> discard (satisfying isSpace)) then return some ()
    else return none

/-- One piece of a string on several lines: a line end, an escape, or a character. -/
def longPiece (escapes : Bool) : Reader (List Char) := do
  match ← peek?, escapes with
  | some '\n', _ | some '\r', _ =>
    lineEnd
    return ['\n']
  | some '\\', true =>
    char '\\'
    (do continuation; return []) <|> (do return [← escaped])
  | _, _ => return [← satisfying isPrintable]

/-- A string on several lines up to the three quotes that end it. One or two quotes right before
these belong to the string. -/
def longBody (quote : Char) (escapes : Bool) : (limit : Nat) → Reader (List Char)
  | 0 => failure
  | limit + 1 => do
    let row ← takeWhile (· == quote)
    if row.length < 3 then
      let piece ← longPiece escapes
      return row ++ piece ++ (← longBody quote escapes limit)
    else if row.length ≤ 5 then return row.drop 3
    else failure

/-- A string on several lines, from behind the quotes that open it. A line end there is dropped. -/
def longString (quote : Char) (escapes : Bool) : Reader String := do
  lineEnd <|> return ()
  return String.ofList (← longBody quote escapes ((← get).length + 1))

/-- A string in any of the four ways of writing. -/
def anyString : Reader String := do
  if ← skip? "\"\"\"" then longString '"' true
  else if ← skip? "'''" then longString '\'' false
  else lineString

/-! ## Numbers and truth values -/

/-- Digits of a base with single underscores between them. -/
def groupedDigits? (base : Nat) (text : List Char) : Option Nat :=
  let groups := Text.splitOn '_' text
  if groups.any List.isEmpty then none else Text.digitsValue? base groups.flatten

/-- A decimal number without superfluous zeros in front. -/
def decimal? : List Char → Option Nat
  | '0' :: _ :: _ => none
  | text => groupedDigits? 10 text

/-- An integer, before its range is looked at. Only decimal ones have a sign. -/
def unboundedInteger? : List Char → Option Int
  | '+' :: text => (decimal? text).map fun n => (n : Int)
  | '-' :: text => (decimal? text).map fun n => -(n : Int)
  | '0' :: 'x' :: text => (groupedDigits? 16 text).map fun n => (n : Int)
  | '0' :: 'o' :: text => (groupedDigits? 8 text).map fun n => (n : Int)
  | '0' :: 'b' :: text => (groupedDigits? 2 text).map fun n => (n : Int)
  | text => (decimal? text).map fun n => (n : Int)

/-- An integer of 64 bits. -/
def integer? (text : List Char) : Option Int :=
  (unboundedInteger? text).filter fun n =>
    -0x8000_0000_0000_0000 ≤ n ∧ n < 0x8000_0000_0000_0000

/-- The characters of words and numbers. -/
def isBareChar (c : Char) : Bool :=
  c.isAlphanum || c == '_' || c == '-' || c == '+' || c == '.' || c == ':'

/-- A truth value or an integer. -/
def bareValue : Reader Value := do
  let text ← takeWhile isBareChar
  if text = "true".toList then return .boolean true
  else if text = "false".toList then return .boolean false
  else
    match integer? text with
    | some value => return .integer value
    | none => failure

end Backpatch.Toml
