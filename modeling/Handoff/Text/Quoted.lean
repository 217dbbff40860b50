import Handoff.Text.Printable

/-!
# Quoted texts in messages

A text is shown between double quotes.  A quote and a backslash follow a backslash, the tab, the
line ends and the null character have short forms, and any other hidden character is shown by its
code point.
-/

namespace Handoff.Text

/-- The lower-case hexadecimal digits of a number, without leading zeros. -/
def hexadecimal (n : Nat) : List Char :=
  Nat.toDigits 16 n

/-- One character of a quoted text. -/
def quotedChar (c : Char) : List Char :=
  match c with
  | '\x00' => ['\\', '0']
  | '\t' => ['\\', 't']
  | '\r' => ['\\', 'r']
  | '\n' => ['\\', 'n']
  | '"' => ['\\', '"']
  | '\\' => ['\\', '\\']
  | c =>
    if isPrintable c then [c] else ['\\', 'u', '\x7b'] ++ hexadecimal c.toNat ++ ['\x7d']

/-- A text between double quotes, with everything escaped that would not show. -/
def quoted (text : String) : String :=
  String.ofList ('"' :: text.toList.flatMap quotedChar ++ ['"'])

end Handoff.Text
