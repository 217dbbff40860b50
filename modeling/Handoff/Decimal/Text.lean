import Handoff.Decimal.Digits
import Handoff.Text.Utf8

/-!
# Numbers in decimal text

`ascii` writes a natural number, and `natural?` reads one back.
-/

namespace Handoff.Decimal

def ascii (n : Nat) : Bytes :=
  (digits n).map fun d => (0x30 + d).toUInt8

def digit? (c : Char) : Option Nat :=
  if c.isDigit then some (c.toNat - 48) else none

/-- The number of a text of at least one digit. -/
def unsigned? (text : List Char) : Option Nat :=
  match text.mapM digit? with
  | none | some [] => none
  | some ds => some (ofDigits ds)

/-- The number of a text of at least one digit, possibly after a plus sign. -/
def natural? : List Char → Option Nat
  | '+' :: text => unsigned? text
  | text => unsigned? text

end Handoff.Decimal
