import Handoff.Decimal.Text
import Handoff.Toml.Space
import Handoff.Toml.Table

/-!
# Texts, numbers and moments in TOML
-/

namespace Handoff.Toml

open Text (Reader hexDigit? valueIn)
open Text.Reader

/-! ## Texts -/

/-- A character given by a number of hexadecimal digits. -/
def scalar (places : Nat) : Reader Char := fun text =>
  match (text.take places).mapM hexDigit? with
  | some digits =>
    let code := valueIn 16 digits
    if digits.length = places ∧ code.isValidChar then
      some (Char.ofNat code, text.drop places)
    else none
  | none => none

/-- The character that an escape stands for, after the backslash. -/
def escaped : Reader Char := do
  match ← next with
  | 'b' => return '\x08'
  | 't' => return '\t'
  | 'n' => return '\n'
  | 'f' => return '\x0c'
  | 'r' => return '\r'
  | '"' => return '"'
  | '\\' => return '\\'
  | 'u' => scalar 4
  | 'U' => scalar 8
  | _ => failure

/-- The characters that stand for themselves between single quotes. -/
def isLiteralChar (c : Char) : Bool := isCommentChar c && c != '\''

/-- The characters that stand for themselves between double quotes. -/
def isBasicChar (c : Char) : Bool := isCommentChar c && c != '"' && c != '\\'

/-- One or more characters between double quotes. -/
def basicPiece : Reader (List Char) :=
  either (takeSome isBasicChar) do
    exactly "\\"
    return [← escaped]

/-- A text between double quotes on one line. -/
def basicText : Reader (List Char) := do
  exactly "\""
  let pieces ← many basicPiece (← remaining)
  exactly "\""
  return pieces.flatten

/-- A text between single quotes on one line. -/
def literalText : Reader (List Char) := do
  exactly "'"
  let text ← takeWhile isLiteralChar
  exactly "'"
  return text

/-- A line end inside a text is always a line feed. -/
def lineEndPiece : Reader (List Char) := do
  lineEnd
  return ['\n']

/-- A backslash at the end of a line hides the line end and all blanks after it. -/
def hiddenLineEnd : Reader (List Char) := do
  exactly "\\"
  space
  lineEnd
  let one : Reader Unit := either (do let _ ← takeSome isSpace) lineEnd
  let _ ← many one (← remaining)
  return []

/-- A piece of a text of several lines, apart from quotes. -/
def longBasicPiece : Reader (List Char) :=
  either (takeSome isBasicChar) <| either hiddenLineEnd <| either lineEndPiece do
    exactly "\\"
    return [← escaped]

/-- A piece of a literal text of several lines, apart from quotes. -/
def longLiteralPiece : Reader (List Char) := either (takeSome isLiteralChar) lineEndPiece

/-- The rest of a text of several lines.  One or two quotes belong to the text; of three to five
quotes the last three end it. -/
def longRest (quote : Char) (piece : Reader (List Char)) : Nat → Reader (List Char)
  | 0 => failure
  | bound + 1 => do
    let quotes ← takeWhile (· == quote)
    if 5 < quotes.length then failure
    else if 3 ≤ quotes.length then return quotes.drop 3
    else
      let part ← piece
      return quotes ++ part ++ (← longRest quote piece bound)

/-- A text of several lines.  A line end right after the opening quotes is not part of it. -/
def longText (quote : Char) (piece : Reader (List Char)) : Reader (List Char) := do
  exactly (String.ofList [quote, quote, quote])
  let _ ← maybe lineEnd
  longRest quote piece ((← remaining) + 1)

/-- A text in any of its four forms. -/
def text : Reader String := String.ofList <$>
  either (longText '"' longBasicPiece) (either basicText
    (either (longText '\'' longLiteralPiece) literalText))

/-! ## Numbers -/

/-- Digits, with single underscores between them. -/
def spacedDigits (digit? : Char → Option Nat) : Reader (List Nat) := do
  let first ← oneDigit digit?
  let further : Reader Nat :=
    either (oneDigit digit?) do
      exactly "_"
      oneDigit digit?
  return first :: (← many further (← remaining))

/-- An optional sign, and whether it is a minus sign. -/
def sign : Reader Bool := do
  match ← peek? with
  | some '-' =>
    let _ ← next
    return true
  | some '+' =>
    let _ ← next
    return false
  | _ => return false

/-- The digits of a decimal number, which has no leading zero. -/
def decimalDigits : Reader (List Nat) :=
  either
    (do
      exactly "0"
      return [0])
    (spacedDigits Decimal.digit?)

/-- A decimal integer of 64 bits. -/
def decimalInteger : Reader Int := do
  let negative ← sign
  let size := Decimal.ofDigits (← decimalDigits)
  ensure (if negative then size ≤ Nat.pow 2 63 else size < Nat.pow 2 63)
  return if negative then -size else size

/-- An integer of 64 bits in another base, with the mark of the base before it. -/
def markedInteger (mark : String) (base : Nat) : Reader Int := do
  exactly mark
  let size := valueIn base
    (← spacedDigits fun c => (hexDigit? c).filter fun d => d < base)
  ensure (size < Nat.pow 2 63)
  return size

/-- An integer. -/
def integer : Reader Int :=
  either (markedInteger "0x" 16) <| either (markedInteger "0o" 8) <|
    either (markedInteger "0b" 2) decimalInteger

/-- Whether `significand * 10 ^ exponent` is too large for a double. -/
def overflows (significand : Nat) (exponent : Int) : Bool :=
  let size := (Decimal.digits significand).length + exponent
  significand ≠ 0 ∧ 300 < size ∧ (310 < size ∨
    (Nat.pow 2 1024 - Nat.pow 2 970) * Nat.pow 10 (-exponent).toNat ≤
      significand * Nat.pow 10 exponent.toNat)

/-- The fraction of a number. -/
def fraction : Reader (List Nat) := do
  exactly "."
  spacedDigits Decimal.digit?

/-- The exponent of a number. -/
def exponent : Reader Int := do
  either (exactly "e") (exactly "E")
  let negative ← sign
  let size := Decimal.ofDigits (← spacedDigits Decimal.digit?)
  return if negative then -size else size

/-- A number with a fraction or an exponent.  Only too large positive numbers are refused. -/
def decimalReal : Reader Unit := do
  let negative ← sign
  let whole ← decimalDigits
  let after ← maybe fraction
  let power ← maybe exponent
  ensure (after.isSome || power.isSome)
  let after := after.getD []
  ensure (negative || !overflows (Decimal.ofDigits (whole ++ after)) (power.getD 0 - after.length))

/-- Infinity, or what is no number. -/
def specialReal : Reader Unit := do
  let _ ← sign
  either (exactly "inf") (exactly "nan")

/-! ## Moments -/

/-- A number of a fixed count of digits within bounds. -/
def fixed (places low high : Nat) : Reader Nat := fun text =>
  match (text.take places).mapM Decimal.digit? with
  | some digits =>
    let value := Decimal.ofDigits digits
    if digits.length = places ∧ low ≤ value ∧ value ≤ high then some (value, text.drop places)
    else none
  | none => none

/-- The number of days of a month. -/
def monthLength (year month : Nat) : Nat :=
  if month = 2 then
    if year % 4 = 0 ∧ (year % 100 ≠ 0 ∨ year % 400 = 0) then 29 else 28
  else if month = 4 ∨ month = 6 ∨ month = 9 ∨ month = 11 then 30
  else 31

/-- A date. -/
def date : Reader Unit := do
  let year ← fixed 4 0 9999
  exactly "-"
  let month ← fixed 2 1 12
  exactly "-"
  let _ ← fixed 2 1 (monthLength year month)

/-- A time of day. -/
def time : Reader Unit := do
  let _ ← fixed 2 0 23
  exactly ":"
  let _ ← fixed 2 0 59
  exactly ":"
  let _ ← fixed 2 0 60
  let _ ← maybe do
    exactly "."
    let _ ← takeSome Char.isDigit

/-- How far a time is ahead of UTC. -/
def timeOffset : Reader Unit :=
  either (either (exactly "Z") (exactly "z")) do
    either (exactly "+") (exactly "-")
    let _ ← fixed 2 0 23
    exactly ":"
    let _ ← fixed 2 0 59

/-- A time of day after a date. -/
def timeAfterDate : Reader Unit := do
  either (exactly "T") (either (exactly "t") (exactly " "))
  time
  let _ ← maybe timeOffset

/-- A date, a date with a time, or a time. -/
def moment : Reader Unit :=
  either
    (do
      date
      let _ ← maybe timeAfterDate)
    time

/-- Anything that is neither a text nor a container. -/
def scalarItem : Reader Item :=
  either (do moment; return .moment) <| either (do decimalReal; return .real) <|
    either (do specialReal; return .real) <| either (Item.integer <$> integer) <|
    either (do exactly "true"; return .bool true) (do exactly "false"; return .bool false)

end Handoff.Toml
