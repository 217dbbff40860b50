/-!
# Tables of a TOML text

A TOML text describes one table.  Tables can be opened by a header, by being on the path of a
header, by a dotted key, or written in line; what may still be added to a table depends on that.
-/

namespace Handoff.Toml

/-- How a table came about. -/
inductive TableKind
  /-- By its own header, or as the whole text. -/
  | explicit
  /-- By being on the path of a header. -/
  | implied
  /-- By being on the path of a dotted key. -/
  | dotted
  /-- By being written in line. -/
  | inline
deriving DecidableEq, Repr

/-- A value of a TOML text. -/
inductive Item
  | text (s : String)
  | integer (i : Int)
  | real
  | bool (b : Bool)
  | moment
  | array (items : List Item)
  | table (kind : TableKind) (members : List (String × Item))
  /-- An array of tables, each of which was opened by a header; the latest comes first. -/
  | tables (elements : List (List (String × Item)))

/-- The members of a table in the order of the text. -/
abbrev Members := List (String × Item)

namespace Members

/-- The members with another item for a name that they have. -/
def replace (name : String) (item : Item) (members : Members) : Members :=
  members.map fun member => if member.1 = name then (name, item) else member

/-- Changes the table at the end of a path.  Missing tables on the path are made, as `dotted` ones
or as `implied` ones.  A dotted path does not lead through tables with a header of their own, and
no path leads through tables written in line. -/
def alter (dotted : Bool) (change : TableKind → Members → Option Members) :
    List String → TableKind → Members → Option Members
  | [], kind, members => change kind members
  | name :: path, _, members =>
    match members.lookup name with
    | none => do
      let fresh := if dotted then TableKind.dotted else TableKind.implied
      let child ← alter dotted change path fresh []
      return members ++ [(name, .table fresh child)]
    | some (.table kind child) =>
      if kind = .inline ∨ (dotted ∧ kind = .explicit) then none
      else do
        let child ← alter dotted change path kind child
        return replace name (.table kind child) members
    | some (.tables (latest :: earlier)) => do
      let latest ← alter dotted change path .explicit latest
      return replace name (.tables (latest :: earlier)) members
    | some _ => none

/-- Adds an item under a key of one or more names to a table. -/
def addKey (path : List String) (name : String) (item : Item) :
    TableKind → Members → Option Members :=
  alter true (fun kind members =>
    if (kind = .dotted) = (path = []) then none
    else if (members.lookup name).isSome then none
    else some (members ++ [(name, item)])) path

/-- Opens the table of a header. -/
def openTable (path : List String) (name : String) : Members → Option Members :=
  alter false (fun _ members =>
    match members.lookup name with
    | none => some (members ++ [(name, .table .explicit [])])
    | some (.table .implied child) => some (replace name (.table .explicit child) members)
    | some _ => none) path .explicit

/-- Opens a further table of an array of tables. -/
def openElement (path : List String) (name : String) : Members → Option Members :=
  alter false (fun _ members =>
    match members.lookup name with
    | none => some (members ++ [(name, .tables [[]])])
    | some (.tables elements) => some (replace name (.tables ([] :: elements)) members)
    | some _ => none) path .explicit

end Members

/-- The table written in line with these members, each under a key of one or more names. -/
def inlineTable (pairs : List (List String × String × Item)) : Option Item := do
  let members ← pairs.foldlM
    (fun members (path, name, item) => Members.addKey path name item .inline members) []
  return .table .inline members

end Handoff.Toml
