import Handoff.Toml.Scalar

/-!
# TOML texts

A text consists of lines: headers, which open tables, and keys with values, which belong to the
table that was opened last.
-/

namespace Handoff.Toml

open Text (Reader)
open Text.Reader

/-- The characters of a name that is not quoted. -/
def isNameChar (c : Char) : Bool :=
  ('a' ≤ c && c ≤ 'z') || ('A' ≤ c && c ≤ 'Z') || c.isDigit || c == '-' || c == '_'

/-- A name. -/
def name : Reader String := String.ofList <$>
  either basicText (either literalText (takeSome isNameChar))

/-- How deep arrays and tables may be nested, and how many names a key may have, less one. -/
def depthLimit : Nat := 80

/-- A key: the names before the last one, and the last one. -/
def key : Reader (List String × String) := do
  let one : Reader String := do
    space
    let name ← name
    space
    return name
  let first ← one
  let rest ← many (do exactly "."; one) (← remaining)
  ensure (rest.length + 1 < depthLimit)
  return ((first :: rest).dropLast, (first :: rest).getLast (by simp))

mutual

/-- A value, in which containers may be nested `depth` deep. -/
def item (depth : Nat) : Nat → Reader Item
  | 0 => failure
  | bound + 1 => do
    match ← peek? with
    | some '"' | some '\'' => Item.text <$> text
    | some '[' =>
      ensure (1 < depth)
      exactly "["
      let items ← arrayItems (depth - 1) bound
      blank
      exactly "]"
      return .array items
    | some '{' =>
      ensure (1 < depth)
      exactly "\x7b"
      let pairs ← either (inlinePairs (depth - 1) bound) (pure [])
      space
      exactly "\x7d"
      match inlineTable pairs with
      | some table => return table
      | none => failure
    | _ => scalarItem

/-- The items of an array.  A comma may follow the last one. -/
def arrayItems (depth : Nat) : Nat → Reader (List Item)
  | 0 => failure
  | bound + 1 => do
    blank
    match ← peek? with
    | some ']' => return []
    | _ =>
      let first ← item depth bound
      blank
      match ← peek? with
      | some ',' =>
        exactly ","
        return first :: (← arrayItems depth bound)
      | _ => return [first]

/-- The keys and values of a table written in line. -/
def inlinePairs (depth : Nat) : Nat → Reader (List (List String × String × Item))
  | 0 => failure
  | bound + 1 => do
    let (path, last) ← key
    exactly "="
    space
    let value ← item depth bound
    space
    match ← peek? with
    | some ',' =>
      exactly ","
      return (path, last, value) :: (← inlinePairs depth bound)
    | _ => return [(path, last, value)]

end

/-- A line of a text. -/
inductive Line
  | nothing
  /-- A header that opens a table. -/
  | table (path : List String) (name : String)
  /-- A header that opens a further table of an array of tables. -/
  | element (path : List String) (name : String)
  /-- A key with its value. -/
  | pair (path : List String) (name : String) (item : Item)

/-- A line. -/
def line : Reader Line := do
  space
  match ← peek? with
  | none => return .nothing
  | some '#' | some '\n' | some '\r' =>
    restOfLine
    return .nothing
  | some '[' =>
    let found ← either
      (do
        exactly "[["
        let (path, last) ← key
        exactly "]]"
        return Line.element path last)
      (do
        exactly "["
        let (path, last) ← key
        exactly "]"
        return Line.table path last)
    restOfLine
    return found
  | _ =>
    let (path, last) ← key
    exactly "="
    space
    let value ← item depthLimit ((← remaining) + 1)
    restOfLine
    return .pair path last value

/-- All lines of a text. -/
def lines : Nat → Reader (List Line)
  | 0 => pure []
  | bound + 1 => do
    match ← peek? with
    | none => return []
    | _ =>
      let first ← line
      return first :: (← lines bound)

/-- The members of the table that a text describes, and the path of the table that was opened
last. -/
structure Document where
  members : Members
  opened : List String

/-- Takes one more line into account. -/
def Document.add (document : Document) : Line → Option Document
  | .nothing => some document
  | .table path name => do
    return ⟨← Members.openTable path name document.members, path ++ [name]⟩
  | .element path name => do
    return ⟨← Members.openElement path name document.members, path ++ [name]⟩
  | .pair path name item => do
    return ⟨← Members.alter false (Members.addKey path name item) document.opened .explicit
      document.members, document.opened⟩

/-- Reads a text.  A byte order mark at its start is passed over. -/
def parse? (text : String) : Option Members := do
  let chars := match text.toList with
    | '\ufeff' :: rest => rest
    | chars => chars
  let (lines, rest) ← lines (chars.length + 1) chars
  if rest.isEmpty then
    return (← lines.foldlM Document.add ⟨[], []⟩).members
  else none

end Handoff.Toml
