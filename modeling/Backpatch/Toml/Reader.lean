/-!
# Readers

A reader takes characters off the front of a text, or refuses it. Readers are combined with the
operations of the state monad; `first <|> second` tries the second one on the same text when the
first refuses it. `Reader.repeated` is the only loop: its length is bounded by the text that is
left, because each round takes at least one character.
-/

namespace Backpatch.Toml

/-- Reads a value off the front of a text. -/
abbrev Reader := StateT (List Char) Option

namespace Reader

/-- The next character, which stays in the text. -/
def peek? : Reader (Option Char) := do
  return (← get).head?

/-- The next character, if it is of the given kind. -/
def satisfying (kind : Char → Bool) : Reader Char := do
  match ← get with
  | c :: rest =>
    if kind c then
      set rest
      return c
    else failure
  | [] => failure

/-- One given character. -/
def char (c : Char) : Reader Unit := do
  discard <| satisfying (· == c)

/-- A given row of characters. -/
def exactly (text : String) : Reader Unit :=
  text.toList.forM char

/-- The longest row of characters of the given kind, which may be empty. -/
def takeWhile (kind : Char → Bool) : Reader (List Char) := do
  let (taken, rest) := (← get).span kind
  set rest
  return taken

/-- Exactly `count` characters of the given kind. -/
def times (count : Nat) (kind : Char → Bool) : Reader (List Char) :=
  (List.replicate count kind).mapM satisfying

/-- Takes what a reader takes, if it takes anything, and tells whether it did. -/
def optionally (reader : Reader Unit) : Reader Bool :=
  (do reader; return true) <|> return false

/-- Takes a given row of characters if it comes next, and tells whether it did. -/
def skip? (text : String) : Reader Bool :=
  optionally (exactly text)

/-- Repeats a step while it yields something, at most `limit` times. -/
def repeatedAtMost (step : Reader (Option α)) : (limit : Nat) → Reader (List α)
  | 0 => failure
  | limit + 1 => do
    match ← step with
    | none => return []
    | some item => return item :: (← repeatedAtMost step limit)

/-- Repeats a step while it yields something. A step that does takes at least one character. -/
def repeated (step : Reader (Option α)) : Reader (List α) := do
  repeatedAtMost step ((← get).length + 1)

/-- Succeeds where the text is over. -/
def atEnd : Reader Unit := do
  if (← get).isEmpty then return () else failure

end Reader

end Backpatch.Toml
