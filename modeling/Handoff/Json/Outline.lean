import Handoff.Json.Token

/-!
# Outlines of JSON texts

An outline is what a reader has seen of a value when it reaches the end of the value or the first
place where the text stops being JSON.  That place is marked `broken`, and nothing comes after it,
so a reader that goes through an outline from left to right meets the faults of the text in order.
-/

namespace Handoff.Json

/-- A JSON value, possibly cut off. -/
inductive Outline
  | null
  | bool (b : Bool)
  | number (n : Numeral)
  /-- A quoted text, `none` if it spells no text. -/
  | text (contents : Option String)
  | array (items : List Outline)
  /-- The members in order.  A member whose key is no text, or that is cut off before its value,
  has a broken value. -/
  | object (members : List (Outline × Outline))
  /-- The place where the text stops being JSON. -/
  | broken

/-- A container that has been opened. -/
inductive Frame
  /-- An array with these items, latest first. -/
  | array (items : List Outline)
  /-- An object with these members, latest first, and a key that waits for its value. -/
  | object (members : List (Outline × Outline)) (key : Outline)

/-- A value inside opened containers, which end with it. -/
def plug (value : Outline) : List Frame → Outline
  | [] => value
  | .array items :: within => plug (.array (value :: items).reverse) within
  | .object members key :: within => plug (.object ((key, value) :: members).reverse) within

/-- What must come next. -/
inductive Stage
  /-- A value; or, if `mayClose`, the end of the array on top, which is empty. -/
  | atValue (within : List Frame) (mayClose : Bool)
  /-- A key of an object with these members, latest first; or, if `mayClose`, its end. -/
  | atKey (members : List (Outline × Outline)) (within : List Frame) (mayClose : Bool)
  /-- The colon after a key. -/
  | atColon (members : List (Outline × Outline)) (key : Outline) (within : List Frame)
  /-- A comma or the end of the innermost container, after one of its values. -/
  | atNext (value : Outline) (within : List Frame)
  /-- Nothing: the value is complete or broken.  Something else follows it if `excess`. -/
  | done (value : Outline) (excess : Bool)

namespace Stage

/-- A value is complete. -/
def complete (value : Outline) : List Frame → Stage
  | [] => .done value false
  | frame :: within => .atNext value (frame :: within)

/-- The text stops being JSON at a value. -/
def fail (value : Outline) (within : List Frame) : Stage := .done (plug value within) true

/-- The text stops being JSON inside an object, after the given members and the given key. -/
def failObject (members : List (Outline × Outline)) (key : Outline) (within : List Frame) :
    Stage :=
  fail (.object ((key, .broken) :: members).reverse) within

/-- What can be told of a key that is no text: its type, and its value if it is a scalar. -/
def keyOutline : Token → Outline
  | .null => .null
  | .bool b => .bool b
  | .number n => .number n
  | .text contents => .text contents
  | .openArray => .array [.broken]
  | .openObject => .object [(.broken, .broken)]
  | .closeArray | .closeObject | .comma | .colon | .stray => .broken

def feed : Stage → Token → Stage
  | .atValue within mayClose, token =>
    match token with
    | .null => complete .null within
    | .bool b => complete (.bool b) within
    | .number n => complete (.number n) within
    | .text contents => complete (.text contents) within
    | .openArray => .atValue (.array [] :: within) true
    | .openObject => .atKey [] within true
    | .closeArray => if mayClose then complete (.array []) within.tail else fail .broken within
    | .closeObject | .comma | .colon | .stray => fail .broken within
  | .atKey members within mayClose, token =>
    match token with
    | .text contents => .atColon members (.text contents) within
    | .closeObject =>
      if mayClose then complete (.object members.reverse) within
      else failObject members .broken within
    | token => failObject members (keyOutline token) within
  | .atColon members key within, token =>
    if token = .colon then .atValue (.object members key :: within) false
    else failObject members key within
  | .atNext value within, token =>
    match within, token with
    | .array items :: within, .comma => .atValue (.array (value :: items) :: within) false
    | .array items :: within, .closeArray => complete (.array (value :: items).reverse) within
    | .object members key :: within, .comma => .atKey ((key, value) :: members) within false
    | .object members key :: within, .closeObject =>
      complete (.object ((key, value) :: members).reverse) within
    | .array items :: within, _ => fail .broken (.array (value :: items) :: within)
    | .object members key :: within, _ => failObject ((key, value) :: members) .broken within
    | [], _ => .done value true
  | .done value _, _ => .done value true

/-- The outline of a text that ends here, and whether something follows the value. -/
def finish (stage : Stage) : Outline × Bool :=
  match stage with
  | .done value excess => (value, excess)
  | stage =>
    match stage.feed .stray with
    | .done value excess => (value, excess)
    | _ => (.broken, true)

end Stage

/-- The outline of a text, and whether something other than space follows the value. -/
def outline (bytes : Bytes) : Outline × Bool :=
  ((tokens bytes).foldl Stage.feed (.atValue [] false)).finish

end Handoff.Json
