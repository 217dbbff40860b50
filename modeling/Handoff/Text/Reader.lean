/-!
# Reading texts piece by piece

A reader takes characters from the front of a text, or fails.
-/

namespace Handoff.Text

/-- Reads something from the front of a text. -/
abbrev Reader (α : Type) := StateT (List Char) Option α

namespace Reader

/-- The next character, which stays in the text. -/
def peek? : Reader (Option Char) := fun text => some (text.head?, text)

/-- The next character. -/
def next : Reader Char
  | [] => none
  | c :: text => some (c, text)

/-- Exactly the given characters. -/
def exactly (expected : String) : Reader Unit := fun text =>
  if expected.toList.isPrefixOf text then some ((), text.drop expected.length) else none

/-- All characters up to the first that does not fit. -/
def takeWhile (fits : Char → Bool) : Reader (List Char) := fun text =>
  some (text.span fits)

/-- At least one character that fits. -/
def takeSome (fits : Char → Bool) : Reader (List Char) := do
  let found ← takeWhile fits
  if found.isEmpty then failure else return found

/-- What the first reader reads, or else the second one. -/
def either {α : Type} (first second : Reader α) : Reader α := fun text =>
  match first text with
  | some result => some result
  | none => second text

/-- What a reader reads, or nothing. -/
def maybe {α : Type} (reader : Reader α) : Reader (Option α) :=
  either (some <$> reader) (pure none)

/-- What a reader reads as often as possible, at most `bound` times. -/
def many {α : Type} (reader : Reader α) : Nat → Reader (List α)
  | 0 => pure []
  | bound + 1 => do
    match ← maybe reader with
    | none => pure []
    | some a => return a :: (← many reader bound)

/-- Something read between separators, at least once. -/
def separatedBy {α : Type} (separator : String) (reader : Reader α) (bound : Nat) :
    Reader (List α) := do
  let first ← reader
  let rest ← many (do exactly separator; reader) bound
  return first :: rest

/-- How many characters are left. -/
def remaining : Reader Nat := fun text => some (text.length, text)

/-- Goes on if a condition holds. -/
def ensure (condition : Bool) : Reader Unit := if condition then pure () else failure

/-- A digit. -/
def oneDigit (digit? : Char → Option Nat) : Reader Nat := do
  match digit? (← next) with
  | some d => return d
  | none => failure

end Reader

/-- The value of a hexadecimal digit. -/
def hexDigit? (c : Char) : Option Nat :=
  if c.isDigit then some (c.toNat - 48)
  else if 'a' ≤ c ∧ c ≤ 'f' then some (c.toNat - 87)
  else if 'A' ≤ c ∧ c ≤ 'F' then some (c.toNat - 55)
  else none

/-- The value of digits in a base. -/
def valueIn (base : Nat) (digits : List Nat) : Nat :=
  digits.foldl (fun n d => base * n + d) 0

end Handoff.Text
