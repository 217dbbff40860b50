import Handoff.Decimal.Text

/-!
# Writing JSON texts

Texts are written without space.  Only the quote, the backslash and the control characters below
U+0020 are escaped.
-/

namespace Handoff.Json

def hexByte (n : Nat) : UInt8 := (if n < 10 then 0x30 + n else 0x57 + n).toUInt8

/-- One byte of a quoted text. -/
def escapeByte (b : UInt8) : Bytes :=
  if b = 0x22 then [0x5c, 0x22]
  else if b = 0x5c then [0x5c, 0x5c]
  else if b = 0x08 then [0x5c, 0x62]
  else if b = 0x09 then [0x5c, 0x74]
  else if b = 0x0a then [0x5c, 0x6e]
  else if b = 0x0c then [0x5c, 0x66]
  else if b = 0x0d then [0x5c, 0x72]
  else if b < 0x20 then
    [0x5c, 0x75, 0x30, 0x30, hexByte (b.toNat / 16), hexByte (b.toNat % 16)]
  else [b]

/-- A text between quotes. -/
def quote (text : String) : Bytes :=
  0x22 :: (Utf8.encode text).flatMap escapeByte ++ [0x22]

def natural (n : Nat) : Bytes := Decimal.ascii n

/-- Items with commas between them. -/
def separated : List Bytes → Bytes
  | [] => []
  | [item] => item
  | item :: items => item ++ 0x2c :: separated items

def array (items : List Bytes) : Bytes := 0x5b :: separated items ++ [0x5d]

def object (members : List (String × Bytes)) : Bytes :=
  0x7b :: separated (members.map fun member => quote member.1 ++ 0x3a :: member.2) ++ [0x7d]

end Handoff.Json
