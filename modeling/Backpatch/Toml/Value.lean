/-!
# Configuration values and tables

The values that a TOML text can hold, as far as a configuration needs them: numbers with a fraction
and dates are left out. A table remembers how it came about, because that decides whether a later
line may add to it:

* a header `[a.b]` opens a new table `b`, or one that so far was only implied by a longer header;
* a dotted key `a.b = 1` adds to a table that dotted keys have made, never to one with a header;
* an inline table is closed.

No key is set twice.
-/

namespace Backpatch.Toml

/-- How a table came about. -/
inductive Origin where
  /-- Written in braces. -/
  | inline
  /-- Opened by its own header. -/
  | header
  /-- Mentioned on the way in a longer header. -/
  | implied
  /-- Mentioned on the way in a dotted key. -/
  | dotted
  deriving DecidableEq, Repr

/-- A value. -/
inductive Value where
  | integer (value : Int)
  | boolean (value : Bool)
  | string (text : String)
  | array (items : List Value)
  | table (origin : Origin) (entries : List (String × Value))

/-- The entries of a table, in the order in which their keys were first set. -/
abbrev Table := List (String × Value)

namespace Table

/-- Gives a key a new value and keeps its place. -/
def replace (key : String) (value : Value) (table : Table) : Table :=
  table.map fun entry => if entry.1 = key then (key, value) else entry

/-- Adds a new key. -/
def add (key : String) (value : Value) (table : Table) : Option Table :=
  if (table.lookup key).isSome then none else some (table ++ [(key, value)])

/-- Sets the value of a dotted key, the last part of which must be new. Tables on the way are made
where they are missing. The table that takes the value has to be one made by a dotted key. -/
def setDotted (value : Value) : List String → Table → Option Table
  | [], _ => none
  | [key], table => table.add key value
  | key :: path, table =>
    match table.lookup key with
    | none => do
      let inner ← setDotted value path []
      table.add key (.table .dotted inner)
    | some (.table origin inner) =>
      if origin = .dotted ∨ (origin = .implied ∧ 1 < path.length) then do
        let inner ← setDotted value path inner
        return table.replace key (.table origin inner)
      else none
    | some _ => none

/-- Opens the table that a header names. -/
def openHeader : List String → Table → Option Table
  | [], _ => none
  | [key], table =>
    match table.lookup key with
    | none => table.add key (.table .header [])
    | some (.table .implied inner) => some (table.replace key (.table .header inner))
    | some _ => none
  | key :: path, table =>
    match table.lookup key with
    | none => do
      let inner ← openHeader path []
      table.add key (.table .implied inner)
    | some (.table .inline _) => none
    | some (.table origin inner) => do
      let inner ← openHeader path inner
      return table.replace key (.table origin inner)
    | some _ => none

/-- Changes the table at the end of a path, which has to be there. -/
def changeAt (change : Table → Option Table) : List String → Table → Option Table
  | [], table => change table
  | key :: path, table =>
    match table.lookup key with
    | some (.table origin inner) => do
      let inner ← changeAt change path inner
      return table.replace key (.table origin inner)
    | _ => none

end Table

end Backpatch.Toml
