import Backpatch.Toml.Scalar

/-!
# TOML documents

A document is a row of lines: entries `key = value`, headers `[key]`, comments and empty lines. It
is read in two steps: the text into `Line`s, which knows nothing of tables, and the lines into one
table, which knows nothing of text. Of TOML's headers only those of single tables are read; arrays
of tables, like dates and numbers with a fraction, are refused.
-/

namespace Backpatch.Toml

open Reader

/-! ## Values -/

/-- The characters of a key without quotes. -/
def isKeyChar (c : Char) : Bool :=
  c.isAlphanum || c == '_' || c == '-'

/-- A key without quotes, which is not empty. -/
def bareKey : Reader String := do
  let name ← takeWhile isKeyChar
  if name.isEmpty then failure else return String.ofList name

/-- One part of a key: a string on one line, or a bare key. -/
def keyName : Reader String := do
  match ← peek? with
  | some '"' | some '\'' => lineString
  | _ => bareKey

/-- One part of a key, with the space around it. -/
def keyPart : Reader String := do
  space
  let name ← keyName
  space
  return name

/-- A key: parts with dots between them. -/
def key : Reader (List String) := do
  let first ← keyPart
  let others ← repeated do
    if ← skip? "." then return some (← keyPart) else return none
  return first :: others

/-- The items of an array. They may stand on several lines, and a comma may follow the last. -/
def arrayItems (item : Reader Value) : Reader (List Value) := do
  char '['
  let items ← repeated do
    layout
    if (← peek?) = some ']' then return none
    else
      let item ← item
      layout
      if ← skip? "," then return some item
      else if (← peek?) = some ']' then return some item
      else failure
  char ']'
  return items

/-- An entry of an inline table, with the space around it. -/
def inlineEntry (item : Reader Value) : Reader (List String × Value) := do
  let path ← key
  char '='
  space
  let value ← item
  space
  return (path, value)

/-- The entries of an inline table, all on one line. No comma follows the last. -/
def inlineEntries (item : Reader Value) : Reader Table := do
  char '\x7b'
  space
  if ← skip? "\x7d" then return []
  else
    let first ← inlineEntry item
    let others ← repeated do
      if ← skip? "," then return some (← inlineEntry item) else return none
    char '\x7d'
    match (first :: others).foldlM (fun table (path, value) => Table.setDotted value path table) []
      with
    | some table => return table
    | none => failure

/-- A value. The limit bounds how deep values are nested. -/
def value : (limit : Nat) → Reader Value
  | 0 => failure
  | limit + 1 => do
    match ← peek? with
    | some '"' | some '\'' => return .string (← anyString)
    | some '[' => return .array (← arrayItems (value limit))
    | some '\x7b' => return .table .inline (← inlineEntries (value limit))
    | _ => bareValue

/-! ## Lines -/

/-- A line that says something. -/
inductive Line where
  /-- The value of a dotted key in the current table. -/
  | entry (path : List String) (value : Value)
  /-- From here on entries go into another table. -/
  | header (path : List String)

/-- A header. -/
def header : Reader Line := do
  char '['
  let path ← key
  char ']'
  return .header path

/-- An entry. Its value is nested no deeper than the text is long. -/
def entry : Reader Line := do
  let path ← key
  char '='
  space
  let value ← value ((← get).length + 1)
  return .entry path value

/-- The next line of a document, which may say nothing; nothing at the end of the text. -/
def line : Reader (Option (Option Line)) := do
  space
  match ← peek? with
  | none => return none
  | some '#' | some '\r' | some '\n' =>
    lineRest
    return some none
  | some '[' =>
    let line ← header
    lineRest
    return some line
  | some _ =>
    let line ← entry
    lineRest
    return some line

/-- The lines of a document that say something. A byte order mark in front is dropped. -/
def lines : Reader (List Line) := do
  discard <| skip? "\uFEFF"
  return (← repeated line).filterMap id

/-! ## Documents -/

/-- Takes the next line into a table: the header in force, and the table so far. -/
def takeLine : List String × Table → Line → Option (List String × Table)
  | (current, table), .entry path value => do
    let table ← table.changeAt (Table.setDotted value path) current
    return (current, table)
  | (_, table), .header path => do
    let table ← table.openHeader path
    return (path, table)

/-- The table that a text describes. -/
def parse? (text : String) : Option Table := do
  let (lines, _) ← lines.run text.toList
  let (_, table) ← lines.foldlM takeLine ([], [])
  return table

end Backpatch.Toml
