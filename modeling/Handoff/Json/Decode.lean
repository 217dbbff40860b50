import Handoff.Json.Error
import Handoff.Json.Outline

/-!
# Reading values from outlines

Each reader goes through an outline from left to right and reports the first thing that is wrong.
-/

namespace Handoff.Json

namespace Outline

/-- What is found, or `malformed` where the text is broken or cannot be represented. -/
def found : Outline → Except Error Found
  | .null => .ok .null
  | .bool b => .ok (.bool b)
  | .number n => match n.value? with
    | some value => .ok (.number value)
    | none => .error .malformed
  | .text (some s) => .ok (.text s)
  | .text none => .error .malformed
  | .array _ => .ok .sequence
  | .object _ => .ok .map
  | .broken => .error .malformed

/-- The error for a value in place of the expected one. -/
def mismatch (expected : String) (value : Outline) : Error :=
  match value.found with
  | .ok found => .mismatch found expected
  | .error e => e

def readText : Outline → Except Error String
  | .text (some s) => .ok s
  | value => .error (value.mismatch "a string")

/-- An integer from 0 up to `2 ^ 64 - 1`. -/
def readNatural (expected : String) : Outline → Except Error Nat
  | .number n =>
    match n.value? with
    | some (.integer i) => if 0 ≤ i then .ok i.toNat else .error (.outOfRange i expected)
    | some value => .error (.mismatch (.number value) expected)
    | none => .error .malformed
  | value => .error (value.mismatch expected)

/-- Nothing if the value is null. -/
def readOptional {α : Type} (read : Outline → Except Error α) : Outline → Except Error (Option α)
  | .null => .ok none
  | value => (read value).map some

def readKey : Outline → Except Error String
  | .text (some s) => .ok s
  | _ => .error .malformed

/-- Null, where a value is required to carry nothing. -/
def readUnit : Outline → Except Error Unit
  | .null => .ok ()
  | value => .error (value.mismatch "unit")

mutual

/-- Whether a value is whole, looking no further than its form. -/
def isWhole : Outline → Bool
  | .array items => areWhole items
  | .object members => membersWhole members
  | .broken => false
  | .null | .bool _ | .number _ | .text _ => true

def areWhole : List Outline → Bool
  | [] => true
  | item :: items => item.isWhole && areWhole items

def membersWhole : List (Outline × Outline) → Bool
  | [] => true
  | (_, value) :: members => value.isWhole && membersWhole members

end

mutual

/-- Whether a value is whole, all its texts and numbers can be represented, and its containers are
nested at most `depth` deep. -/
def isSound (depth : Nat) : Outline → Bool
  | .array items => decide (0 < depth) && areSound (depth - 1) items
  | .object members => decide (0 < depth) && membersSound (depth - 1) members
  | .broken => false
  | .null | .bool _ => true
  | .number n => n.value?.isSome
  | .text contents => contents.isSome

def areSound (depth : Nat) : List Outline → Bool
  | [] => true
  | item :: items => item.isSound depth && areSound depth items

def membersSound (depth : Nat) : List (Outline × Outline) → Bool
  | [] => true
  | (key, value) :: members =>
    key.isSound depth && value.isSound depth && membersSound depth members

end

/-- The value is passed over, if it is whole. -/
def skip (value : Outline) : Except Error Unit :=
  if value.isWhole then .ok () else .error .malformed

end Outline

/-- A field that has been read already must not come again. -/
def once {α : Type} (name : String) (field : Option α) : Except Error Unit :=
  if field.isSome then .error (.duplicateField name) else .ok ()

/-- A field that has no default. -/
def required {α : Type} (name : String) (field : Option α) : Except Error α :=
  match field with
  | some value => .ok value
  | none => .error (.missingField name)

/-- The element at a position of a record written as an array. -/
def element {α : Type} (expected : String) (items : List Outline) (position : Nat)
    (read : Outline → Except Error α) : Except Error α :=
  match items[position]? with
  | some item => read item
  | none => .error (.tooShort position expected)

/-- The element at a position of a record written as an array, or a default after the end. -/
def elementOr {α : Type} (default : α) (items : List Outline) (position : Nat)
    (read : Outline → Except Error α) : Except Error α :=
  match items[position]? with
  | some item => read item
  | none => .ok default

/-- A record written as an array has at most `size` elements. -/
def noMoreThan (size : Nat) (items : List Outline) : Except Error Unit :=
  if items.length ≤ size then .ok () else .error .malformed

/-- Reads a whole text: one value, and only space around it. -/
def decode {α : Type} (read : Outline → Except Error α) (bytes : Bytes) : Except Error α :=
  match outline bytes with
  | (value, excess) => do
    let result ← read value
    if excess then .error .malformed else .ok result

end Handoff.Json
