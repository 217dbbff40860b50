import Handoff.Decimal.Text
import Handoff.Event
import Handoff.Log.Pattern
import Handoff.Text.Blank
import Handoff.Text.Utf8

/-!
# Directives of log filters

A directive says up to which level something is logged.  It may be limited to targets, to spans and
to fields: `target[span{field=value}]=level`.
-/

namespace Handoff.Log

/-- The level of a word: a name in letters of either case, or a number. -/
def level? (word : String) : Option (Option Level) :=
  if word.toLower = "off" then some none
  else
    match Level.all.find? fun level => level.name == word.toUpper with
    | some level => some (some level)
    | none =>
      match Decimal.natural? word.toList with
      | some 0 => some none
      | some rank => (Level.all.find? fun level => level.rank == rank).map some
      | none => none

/-- What is said about a field: that it is there, or which value it has. -/
structure FieldCondition where
  name : String
  /-- The value of the field, or a pattern for it. -/
  value : Option String
deriving DecidableEq, Repr

/-- An instruction on what is logged. -/
structure Directive where
  /-- How the targets start that it concerns, unless it concerns them all. -/
  target : Option String
  /-- The span inside of which it holds. -/
  span : Option String
  /-- What it says about a field. -/
  field : Option FieldCondition
  /-- Up to which level something is logged, unless nothing is. -/
  level : Option Level
deriving DecidableEq, Repr

/-! ## Fields -/

/-- Whether a text is a number after a plus sign. -/
def isSignedNumber : List Char → Bool
  | '+' :: text =>
    ["inf", "infinity", "nan"].contains (String.ofList text).toLower ||
      let (whole, rest) := text.span Char.isDigit
      let (part, rest) :=
        match rest with
        | '.' :: rest => rest.span Char.isDigit
        | _ => ([], rest)
      !(whole ++ part).isEmpty &&
        match rest with
        | [] => true
        | mark :: exponent =>
          let digits :=
            match exponent with
            | '+' :: digits | '-' :: digits => digits
            | digits => digits
          (mark == 'e' || mark == 'E') && !digits.isEmpty && digits.all Char.isDigit
  | _ => false

/-- Whether a text may stand for the value of a field.  All truth values and numbers are patterns,
apart from numbers after a plus sign. -/
def isValue (text : List Char) : Bool := isSignedNumber text || isPattern text

/-- What a text between braces says about a field.  A second equals sign and what follows it are
passed over. -/
def FieldCondition.ofText? (text : String) : Option FieldCondition :=
  match text.splitOn "=" with
  | name :: value :: _ => if isValue value.toList then some ⟨name, some value⟩ else none
  | _ => if text.isEmpty then none else some ⟨text, none⟩

/-! ## Words -/

/-- A place in a word: the characters from there on, and the number of bytes before it. -/
structure Place where
  /-- The characters from there on. -/
  ahead : List Char
  /-- The number of bytes before it. -/
  distance : Nat
deriving DecidableEq, Repr

/-- The next place where one of some marks stands, or the end. -/
def Place.next (place : Place) (marks : List Char) : Place :=
  let (front, ahead) := place.ahead.span fun c => !marks.contains c
  ⟨ahead, front.foldl (fun distance c => distance + c.utf8Size) place.distance⟩

/-- The place after a character of one byte. -/
def Place.pass (place : Place) : Place := ⟨place.ahead.tail, place.distance + 1⟩

/-- The part of a word between two distances from its start in bytes. -/
def part? (word : String) (first last : Nat) : Option String :=
  Utf8.decode? (((Utf8.encode word).take last).drop first)

/-- The level that stands at the end of a word.  None is the same as the highest one. -/
def lastLevel? (word : String) (start : Nat) : Option (Option Level) := do
  let text ← part? word start word.utf8ByteSize
  if text.isEmpty then return some .trace else level? text

/-- The level after a closing bracket. -/
def levelAfter? (word : String) (place : Place) : Option (Option Level) :=
  match place.ahead with
  | [] => some (some .trace)
  | '=' :: _ => lastLevel? word place.pass.distance
  | _ => none

namespace Directive

def upTo (level : Option Level) : Directive := ⟨none, none, none, level⟩

/-- The directive of a word from the place after its opening bracket on. -/
def ofBracket? (word : String) (target : Option String) (place : Place) : Option Directive := do
  let stop := place.next [']', '\x7b']
  let span ← part? word place.distance stop.distance
  match stop.ahead with
  | ']' :: _ => return ⟨target, some span, none, ← levelAfter? word stop.pass⟩
  | _ :: _ =>
    let span := if span.isEmpty then none else some span
    let start := stop.pass
    let stop := start.next ['\x7d']
    let field ← FieldCondition.ofText? (← part? word start.distance stop.distance)
    match stop.ahead with
    | _ :: ']' :: _ => return ⟨target, span, some field, ← levelAfter? word stop.pass.pass⟩
    | _ => none
  | [] => none

/-- Whether a target may start with a character. -/
def startsTarget (c : Char) : Bool :=
  c == '-' || c == ':' || c == '_' || Text.isAlphanumeric c

/-- The directive that a word is.  Marks are looked for in the word without the blanks around it,
but what stands between them is taken at the same distances from the start of the whole word. -/
def ofWord? (word : String) : Option Directive := do
  let start : Place := ⟨Text.trim word.toList, 0⟩
  match start.ahead with
  | [] => none
  | '[' :: _ => ofBracket? word none start.pass
  | c :: _ =>
    if startsTarget c then
      let stop := start.next ['=', '[']
      match stop.ahead with
      | [] =>
        match level? word with
        | some level => return upTo level
        | none => return ⟨some word, none, none, some .trace⟩
      | mark :: _ =>
        let target ← part? word 0 stop.distance
        if mark = '=' then
          return ⟨some target, none, none, ← lastLevel? word stop.pass.distance⟩
        else ofBracket? word (some target) stop.pass
    else none

end Directive

/-! ## Subjects -/

/-- What a directive may concern. -/
structure Subject where
  /-- Where it comes from. -/
  target : String
  /-- The names of its fields, if it is an event and not the question for a level alone. -/
  fields : Option (List String)
deriving DecidableEq, Repr

/-- The question whether anything is logged at a level. -/
def Subject.anything : Subject := ⟨"", none⟩

/-- An event that has a message and no other field. -/
def Subject.message : Subject := ⟨"", some ["message"]⟩

namespace Directive

/-- Whether a directive concerns a subject outside of all spans.  One that names a span or the value
of a field holds inside of spans only. -/
def concerns (directive : Directive) (subject : Subject) : Bool :=
  directive.span.isNone
    && directive.target.all (fun target => target.toList.isPrefixOf subject.target.toList)
    && directive.field.all fun field =>
      field.value.isNone && subject.fields.all (·.contains field.name)

/-- Whether a directive is at most as specific as another one.  The longer target is more specific;
then a field is more than none, and the later name in the order of characters counts more. -/
def isAtMostAsSpecific (left right : Directive) : Bool :=
  let length (directive : Directive) := directive.target.elim 0 String.utf8ByteSize
  if length left = length right then
    match left.field, right.field with
    | none, _ => true
    | some _, none => false
    | some left, some right => left.name ≤ right.name
  else length left < length right

end Directive

end Handoff.Log
