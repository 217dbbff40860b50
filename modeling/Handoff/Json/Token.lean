import Handoff.Text.Utf8
import Handoff.Json.Number

/-!
# Tokens of JSON texts

A text is cut into tokens by a machine that takes one byte at a time.  The first byte at which the
text stops being a sequence of tokens becomes the token `stray`, and nothing after it is read.
-/

namespace Handoff.Json

/-- One unit inside a quoted text. -/
inductive Piece
  /-- A byte, written as it is or by a short escape. -/
  | byte (b : UInt8)
  /-- A 16-bit unit, written as `\u` and four hexadecimal digits. -/
  | unit (code : Nat)
deriving DecidableEq, Repr

def isHighSurrogate (code : Nat) : Bool := 0xd800 ≤ code && code < 0xdc00

def isLowSurrogate (code : Nat) : Bool := 0xdc00 ≤ code && code < 0xe000

/-- The UTF-8 form of the character with this code point. -/
def unitBytes (code : Nat) : Bytes := Utf8.encode (String.singleton (Char.ofNat code))

def pairCode (high low : Nat) : Nat := 0x10000 + (high - 0xd800) * 0x400 + (low - 0xdc00)

/-- The bytes of a quoted text; units must form characters, if need be in pairs. -/
def contents? : List Piece → Option Bytes
  | [] => some []
  | .byte b :: rest => (contents? rest).map (b :: ·)
  | .unit code :: rest =>
    if isHighSurrogate code then
      match rest with
      | .unit low :: rest =>
        if isLowSurrogate low then (contents? rest).map (unitBytes (pairCode code low) ++ ·)
        else none
      | _ => none
    else if isLowSurrogate code then none
    else (contents? rest).map (unitBytes code ++ ·)

/-- The text of a sequence of pieces, `none` if the pieces spell no text. -/
def text? (pieces : List Piece) : Option String :=
  (contents? pieces).bind Utf8.decode?

/-- A token of a JSON text. -/
inductive Token
  | null
  | bool (b : Bool)
  | number (n : Numeral)
  /-- A quoted text, `none` if its quotes and escapes are in order but it spells no text. -/
  | text (contents : Option String)
  | openArray
  | closeArray
  | openObject
  | closeObject
  | comma
  | colon
  /-- The place where the text stops being a sequence of tokens. -/
  | stray
deriving DecidableEq, Repr

/-- How far a numeral has been read. -/
inductive Phase
  /-- After the minus sign: a digit must come. -/
  | sign
  /-- The whole part is a single zero. -/
  | zero
  | whole
  /-- After the point: a digit must come. -/
  | point
  | fraction
  /-- After the exponent mark: a sign or a digit must come. -/
  | mark
  /-- After the sign of the exponent: a digit must come. -/
  | markSign
  | exponent
deriving DecidableEq, Repr

/-- Whether a numeral may end in this phase. -/
def Phase.mayEnd : Phase → Bool
  | .zero | .whole | .fraction | .exponent => true
  | .sign | .point | .mark | .markSign => false

/-- What a byte does to a numeral that is being read. -/
inductive NumeralStep
  /-- It belongs to the numeral. -/
  | extend (phase : Phase) (numeral : Numeral)
  /-- It comes after the numeral. -/
  | finish
  /-- It cannot stand here. -/
  | refuse
deriving DecidableEq, Repr

def digit? (b : UInt8) : Option Nat :=
  if 0x30 ≤ b ∧ b ≤ 0x39 then some (b.toNat - 0x30) else none

/-- The value of an ASCII hexadecimal digit of either case. -/
def hexDigit? (b : UInt8) : Option Nat :=
  if 0x30 ≤ b ∧ b ≤ 0x39 then some (b.toNat - 0x30)
  else if 0x61 ≤ b ∧ b ≤ 0x66 then some (b.toNat - 0x61 + 10)
  else if 0x41 ≤ b ∧ b ≤ 0x46 then some (b.toNat - 0x41 + 10)
  else none

/-- A digit is added to the part that the phase names.  While it is read, a numeral holds the
digits of each part latest first. -/
def Phase.addDigit (d : Nat) (n : Numeral) : Phase → NumeralStep
  | .sign => .extend (if d = 0 then .zero else .whole) { n with whole := [d] }
  | .zero => .refuse
  | .whole => .extend .whole { n with whole := d :: n.whole }
  | .point | .fraction => .extend .fraction { n with fraction := d :: n.fraction }
  | .mark => .extend .exponent { n with exponent := some (false, [d]) }
  | .markSign | .exponent =>
    .extend .exponent { n with exponent := n.exponent.map fun e => (e.1, d :: e.2) }

/-- What the next byte does to the numeral `n`. -/
def Phase.step (phase : Phase) (n : Numeral) (b : UInt8) : NumeralStep :=
  match digit? b with
  | some d => phase.addDigit d n
  | none =>
    if b = 0x2e ∧ (phase = .zero ∨ phase = .whole) then .extend .point n
    else if (b = 0x65 ∨ b = 0x45) ∧ (phase = .zero ∨ phase = .whole ∨ phase = .fraction) then
      .extend .mark n
    else if (b = 0x2b ∨ b = 0x2d) ∧ phase = .mark then
      .extend .markSign { n with exponent := some (b = 0x2d, []) }
    else if phase.mayEnd then .finish
    else .refuse

/-- The numeral with the digits of each part in reading order. -/
def Numeral.inOrder (n : Numeral) : Numeral :=
  { n with
    whole := n.whole.reverse
    fraction := n.fraction.reverse
    exponent := n.exponent.map fun e => (e.1, e.2.reverse) }

/-- What the machine is in the middle of. -/
inductive Scan
  | between
  /-- In a word, of which the bytes `rest` are still to come. -/
  | word (rest : Bytes) (token : Token)
  | number (phase : Phase) (numeral : Numeral)
  /-- In a quoted text with these pieces, latest first. -/
  | text (pieces : List Piece)
  /-- After a backslash in a quoted text. -/
  | escape (pieces : List Piece)
  /-- In a unit, of which `left` hexadecimal digits are still to come. -/
  | unit (pieces : List Piece) (code left : Nat)
  | stuck
deriving DecidableEq, Repr

/-- The machine that cuts a text into tokens: the tokens found, latest first, and its state. -/
structure Lexer where
  /-- The tokens found, latest first. -/
  found : List Token
  /-- What the machine is in the middle of. -/
  scan : Scan
deriving DecidableEq, Repr

namespace Lexer

/-- The machine before the first byte. -/
def start : Lexer := ⟨[], .between⟩

def emit (lexer : Lexer) (token : Token) : Lexer := ⟨token :: lexer.found, .between⟩

/-- The text stops being a sequence of tokens. -/
def fail (lexer : Lexer) : Lexer := ⟨.stray :: lexer.found, .stuck⟩

/-- The machine goes on to another state. -/
def enter (lexer : Lexer) (scan : Scan) : Lexer := ⟨lexer.found, scan⟩

/-- Space, tab, line feed and carriage return stand between tokens. -/
def isSpace (b : UInt8) : Bool := b == 0x20 || b == 0x09 || b == 0x0a || b == 0x0d

/-- A byte between two tokens. -/
def begin (lexer : Lexer) (b : UInt8) : Lexer :=
  if isSpace b then lexer.enter .between
  else if b = 0x22 then lexer.enter (.text [])
  else if b = 0x5b then lexer.emit .openArray
  else if b = 0x5d then lexer.emit .closeArray
  else if b = 0x7b then lexer.emit .openObject
  else if b = 0x7d then lexer.emit .closeObject
  else if b = 0x2c then lexer.emit .comma
  else if b = 0x3a then lexer.emit .colon
  else if b = 0x6e then lexer.enter (.word [0x75, 0x6c, 0x6c] .null)
  else if b = 0x74 then lexer.enter (.word [0x72, 0x75, 0x65] (.bool true))
  else if b = 0x66 then lexer.enter (.word [0x61, 0x6c, 0x73, 0x65] (.bool false))
  else if b = 0x2d then lexer.enter (.number .sign ⟨true, [], [], none⟩)
  else
    match digit? b with
    | some 0 => lexer.enter (.number .zero ⟨false, [0], [], none⟩)
    | some d => lexer.enter (.number .whole ⟨false, [d], [], none⟩)
    | none => lexer.fail

/-- The byte that a short escape stands for, given the byte after the backslash. -/
def shortEscape? (b : UInt8) : Option UInt8 :=
  if b = 0x22 ∨ b = 0x5c ∨ b = 0x2f then some b
  else if b = 0x62 then some 0x08
  else if b = 0x66 then some 0x0c
  else if b = 0x6e then some 0x0a
  else if b = 0x72 then some 0x0d
  else if b = 0x74 then some 0x09
  else none

/-- The machine takes one byte. -/
def feed (lexer : Lexer) (b : UInt8) : Lexer :=
  match lexer.scan with
  | .between => lexer.begin b
  | .word [] _ => lexer.fail
  | .word (expected :: rest) token =>
    if b ≠ expected then lexer.fail
    else if rest = [] then lexer.emit token
    else lexer.enter (.word rest token)
  | .number phase numeral =>
    match phase.step numeral b with
    | .extend phase numeral => lexer.enter (.number phase numeral)
    | .finish => (lexer.emit (.number numeral.inOrder)).begin b
    | .refuse => lexer.fail
  | .text pieces =>
    if b = 0x22 then lexer.emit (.text (text? pieces.reverse))
    else if b = 0x5c then lexer.enter (.escape pieces)
    else if b < 0x20 then lexer.fail
    else lexer.enter (.text (.byte b :: pieces))
  | .escape pieces =>
    if b = 0x75 then lexer.enter (.unit pieces 0 4)
    else
      match shortEscape? b with
      | some c => lexer.enter (.text (.byte c :: pieces))
      | none => lexer.fail
  | .unit pieces code left =>
    match hexDigit? b with
    | none => lexer.fail
    | some d =>
      if left ≤ 1 then lexer.enter (.text (.unit (16 * code + d) :: pieces))
      else lexer.enter (.unit pieces (16 * code + d) (left - 1))
  | .stuck => lexer

/-- The tokens of a text that ends here. -/
def finish (lexer : Lexer) : List Token :=
  match lexer.scan with
  | .between | .stuck => lexer.found.reverse
  | .number phase numeral =>
    if phase.mayEnd then (lexer.emit (.number numeral.inOrder)).found.reverse
    else lexer.fail.found.reverse
  | .word .. | .text _ | .escape _ | .unit .. => lexer.fail.found.reverse

end Lexer

def tokens (bytes : Bytes) : List Token :=
  (bytes.foldl Lexer.feed Lexer.start).finish

end Handoff.Json
