import Handoff.Text.Blank
import Handoff.Text.Letter
import Handoff.Text.Reader

/-!
# Patterns

A pattern describes texts: a character stands for itself, and signs build sequences, choices,
repetitions, groups and classes.  Whether a text is a pattern is decided by its form alone.  No part
of a pattern may be nested too deeply.

No properties of characters beyond ASCII are known.  Signs whose meaning would rest on them, as a
letter in either case or the digits of all alphabets, are refused unless a group is limited to
ASCII, and such a group may not stand for anything beyond ASCII.
-/

namespace Handoff.Log.Pattern

open Text (Reader hexDigit?)
open Text.Reader

structure Mode where
  /-- Whether a letter stands for itself in both cases. -/
  caseless : Bool
  /-- Whether blanks and comments are passed over. -/
  spaced : Bool
  /-- Whether it is limited to ASCII. -/
  ascii : Bool
deriving DecidableEq, Repr

def Mode.plain : Mode := ⟨false, false, false⟩

/-- Whether it is known which characters a letter stands for. -/
def Mode.knowsLetters (mode : Mode) : Bool := mode.ascii || !mode.caseless

/-- The text after blanks and comments, when it starts inside a comment or not.  A comment reaches
up to the end of its line. -/
def afterSpace : Bool → List Char → List Char
  | _, [] => []
  | true, c :: text => afterSpace (c != '\n') text
  | false, c :: text =>
    if c == '#' then afterSpace true text
    else if Text.isBlank c then afterSpace false text
    else c :: text

/-- Passes over blanks and comments if they do not count. -/
def skip (mode : Mode) : Reader Unit := fun text =>
  some ((), if mode.spaced then afterSpace false text else text)

/-! ## Escapes -/

/-- What an escape stands for. -/
inductive Escape
  | character (c : Char)
  | kind
  | place
deriving DecidableEq, Repr

/-- Reads some more digits of a hexadecimal number. -/
def hexCode (mode : Mode) : Nat → Nat → Reader Nat
  | 0, code => pure code
  | places + 1, code => do
    skip mode
    let d ← oneDigit hexDigit?
    hexCode mode places (16 * code + d)

def coded (mode : Mode) (places : Nat) : Reader Char := do
  let code ← hexCode mode places 0
  ensure code.isValidChar
  return Char.ofNat code

/-- What the characters after a backslash stand for.  Apart from letters, digits and angle brackets,
the characters of ASCII stand for themselves there. -/
def escape (mode : Mode) : Reader Escape := do
  match ← next with
  | 'x' =>
    let c ← coded mode 2
    ensure (!mode.ascii || c.toNat < 128)
    return .character c
  | 'u' => .character <$> coded mode 4
  | 'U' => .character <$> coded mode 8
  | 'a' => return .character '\x07'
  | 't' => return .character '\t'
  | 'n' => return .character '\n'
  | 'v' => return .character '\x0b'
  | 'f' => return .character '\x0c'
  | 'r' => return .character '\r'
  | 'A' | 'z' => return .place
  | 'b' | 'B' | '<' | '>' =>
    ensure mode.ascii
    return .place
  | 'd' | 's' | 'w' =>
    ensure mode.ascii
    return .kind
  | c =>
    ensure (c.toNat < 128 && !c.isAlphanum)
    return .character c

/-! ## Classes -/

/-- The kinds of characters that have a name. -/
def kindNames : List String :=
  ["alnum", "alpha", "ascii", "blank", "cntrl", "digit", "graph", "lower", "print", "punct",
  "space", "upper", "word", "xdigit"]

/-- The name of a kind of characters between colons, after an opening bracket, and whether it means
the other characters. -/
def namedKind : Reader Bool := do
  exactly ":"
  let others ← maybe (exactly "^")
  let name ← takeWhile (· != ':')
  exactly ":]"
  ensure (kindNames.contains (String.ofList name))
  return others.isSome

/-- How deeply the members of a class are nested that have been read. -/
structure Members where
  /-- How many there are since the last sign between sets. -/
  count : Nat
  /-- The depth of the deepest one of them. -/
  deepest : Nat
  /-- The depth of the set before the last sign between sets. -/
  before : Option Nat
deriving DecidableEq, Repr

namespace Members

/-- A number of members that are characters. -/
def plain (count : Nat) : Members := ⟨count, 0, none⟩

def add (members : Members) (depth : Nat) : Members :=
  { members with count := members.count + 1, deepest := max members.deepest depth }

def depth (members : Members) : Nat :=
  let union := if members.count ≤ 1 then members.deepest else members.deepest + 1
  match members.before with
  | none => union
  | some before => max before union + 1

/-- After a sign between sets. -/
def combine (members : Members) : Members := ⟨0, 0, some members.depth⟩

end Members

/-- The start of a class after its opening bracket.  A hyphen or a closing bracket stands for itself
there. -/
def classStart (mode : Mode) : Reader Members := do
  skip mode
  if (← maybe (exactly "^")).isSome then
    ensure (!mode.ascii)
    skip mode
  let hyphen : Reader Unit := do
    exactly "-"
    skip mode
  let hyphens ← many hyphen (← remaining)
  let bracket ← if hyphens.isEmpty then maybe (exactly "]") else pure none
  let members := Members.plain (hyphens.length + bracket.toList.length)
  ensure (members.count = 0 || mode.knowsLetters)
  return members

/-- What a member of a class stands for that starts with a given character. -/
def classMember (mode : Mode) (first : Char) : Reader Escape := do
  ensure mode.knowsLetters
  let member ← if first = '\\' then escape mode else pure (.character first)
  match member with
  | .character c =>
    ensure (!mode.ascii || c.toNat < 128)
    return member
  | .kind => return member
  | .place => failure

/-- The hyphen between the two ends of a range, unless it stands for itself or is doubled. -/
def rangeMark (mode : Mode) : Reader Unit := do
  skip mode
  exactly "-"
  skip mode
  ensure (!(← peek?) matches none | some ']' | some '-')

/-- Reads a class to its end after some members, when further classes are open around it, and tells
how deeply it is nested. -/
def classRest (mode : Mode) : List Members → Members → Nat → Reader Nat
  | _, _, 0 => failure
  | around, members, bound + 1 => do
    skip mode
    match ← next with
    | ']' =>
      match around with
      | [] => return members.depth + 1
      | outer :: around => classRest mode around (outer.add (members.depth + 1)) bound
    | '[' =>
      match ← maybe namedKind with
      | some others =>
        ensure (mode.knowsLetters && !(mode.ascii && others))
        classRest mode around (members.add 0) bound
      | none => classRest mode (members :: around) (← classStart mode) bound
    | c =>
      let doubled := (c == '&' || c == '-' || c == '~') && (← peek?) == some c
      if doubled then
        let _ ← next
        classRest mode around members.combine bound
      else
        let low ← classMember mode c
        if (← maybe (rangeMark mode)).isSome then
          match low, ← classMember mode (← next) with
          | .character low, .character high =>
            ensure (low ≤ high)
            classRest mode around (members.add 0) bound
          | _, _ => failure
        else classRest mode around (members.add 0) bound

/-- A class after its opening bracket. -/
def bracketed (mode : Mode) : Reader Nat := do
  classRest mode [] (← classStart mode) (← remaining)

/-! ## Groups -/

/-- The name of a group before its closing angle bracket. -/
def groupName : Reader (List Char) := do
  let name ← takeWhile (· != '>')
  exactly ">"
  match name with
  | [] => failure
  | c :: rest =>
    ensure (c == '_' || Text.isAlphabetic c)
    ensure (rest.all fun c => "_.[]".contains c || Text.isAlphanumeric c)
    return name

/-- Whether a sign among those of a group is switched on or off, if it is there. -/
def switched (signs : List Char) (sign : Char) (before : Bool) : Bool :=
  if signs.contains sign then !(signs.takeWhile (· != sign)).contains '-' else before

/-- What signs make of a mode.  Those after a hyphen are switched off, and none stands twice. -/
def Mode.alter (mode : Mode) (signs : List Char) : Option Mode :=
  if (signs.all fun c => "imsUuRx-".contains c) ∧ signs.Nodup ∧ signs.getLast? ≠ some '-' then
    some ⟨switched signs 'i' mode.caseless, switched signs 'x' mode.spaced,
      !switched signs 'u' (!mode.ascii)⟩
  else none

/-- What an opening parenthesis starts. -/
inductive Opening
  /-- A group that is read in a mode and may have a name. -/
  | group (mode : Mode) (name : Option (List Char))
  /-- Nothing, but the rest of the group around it is read in a mode. -/
  | change (mode : Mode)
deriving DecidableEq, Repr

/-- The characters after an opening parenthesis that do not belong to the group. -/
def opening (mode : Mode) : Reader Opening := do
  skip mode
  if (← maybe (either (exactly "?P<") (exactly "?<"))).isSome then
    return .group mode (← groupName)
  else if (← maybe (exactly "?")).isSome then
    let signs ← takeWhile fun c => c != ':' && c != ')'
    let closing ← next
    match mode.alter signs with
    | none => failure
    | some altered =>
      if closing = ':' then return .group altered none
      else
        ensure !signs.isEmpty
        return .change altered
  else return .group mode none

/-! ## Whole patterns -/

/-- How deeply the parts of a group are nested that have been read. -/
structure Parts where
  /-- How many there are in the current choice. -/
  count : Nat
  /-- The depth of the deepest one of them before the last one. -/
  earlier : Nat
  /-- The depth of the last one. -/
  last : Nat
  /-- The depth of the deepest one of the earlier choices. -/
  choices : Option Nat
deriving DecidableEq, Repr

namespace Parts

def empty : Parts := ⟨0, 0, 0, none⟩

def add (parts : Parts) (depth : Nat) : Parts :=
  { parts with
    count := parts.count + 1
    earlier := max parts.earlier parts.last
    last := depth }

/-- The last part is repeated. -/
def again (parts : Parts) : Parts := { parts with last := parts.last + 1 }

def choice (parts : Parts) : Nat :=
  let deepest := max parts.earlier parts.last
  if parts.count ≤ 1 then deepest else deepest + 1

/-- Before the next choice. -/
def choose (parts : Parts) : Parts :=
  { empty with choices := some (max (parts.choices.getD 0) parts.choice) }

def depth (parts : Parts) : Nat :=
  match parts.choices with
  | none => parts.choice
  | some deepest => max deepest parts.choice + 1

end Parts

/-- How deeply the parts of a pattern may be nested. -/
def maxDepth : Nat := 250

/-- Reads a pattern to its end.  Around the current place groups are open, and their surroundings
are read in the modes `around` and have some parts; groups with the given names came before; and
what stands right before may be repeated or not. -/
def sequence (around : List (Mode × Parts)) (names : List (List Char)) (mode : Mode)
    (parts : Parts) (repeatable : Bool) : Nat → Reader Unit
  | 0 => failure
  | bound + 1 => do
    skip mode
    match ← maybe next with
    | none => ensure (around.isEmpty && parts.depth ≤ maxDepth)
    | some '(' =>
      match ← opening mode with
      | .change mode => sequence around names mode (parts.add 0) false bound
      | .group inner none => sequence ((mode, parts) :: around) names inner .empty false bound
      | .group inner (some name) =>
        ensure !names.contains name
        sequence ((mode, parts) :: around) (name :: names) inner .empty false bound
    | some ')' =>
      match around with
      | [] => failure
      | (mode, outer) :: around =>
        sequence around names mode (outer.add (parts.depth + 1)) true bound
    | some '|' => sequence around names mode parts.choose false bound
    | some '*' | some '+' | some '?' =>
      ensure repeatable
      -- A question mark right after the sign belongs to it.
      let _ ← maybe (exactly "?")
      sequence around names mode parts.again true bound
    | some '[' =>
      let depth ← bracketed mode
      sequence around names mode (parts.add depth) true bound
    | some '^' | some '$' => sequence around names mode (parts.add 0) true bound
    | some '.' =>
      ensure !mode.ascii
      sequence around names mode (parts.add 0) true bound
    | some '\\' =>
      if (← escape mode) matches .character _ then ensure mode.knowsLetters
      sequence around names mode (parts.add 0) true bound
    | some c =>
      ensure (c != '\x7b' && mode.knowsLetters)
      sequence around names mode (parts.add 0) true bound

end Pattern

/-- Whether a text without closing braces is a pattern.  An opening brace would start the number of
a repetition, which needs a closing one. -/
def isPattern (text : List Char) : Bool :=
  (Pattern.sequence [] [] .plain .empty false (text.length + 1) text).isSome

end Handoff.Log
