import Handoff.Json.Encode
import Handoff.Json.Outline
import Mathlib.Data.List.Chain
import Mathlib.Data.List.Forall2

/-!
# The grammar of JSON texts

`Renders value bytes` says that the bytes are a JSON text of a value.  A value has many texts: space
may stand around every value and every name, a character may be written as it is or be escaped in
several ways, and objects may repeat names.  An escape may also name a surrogate.  Two of them in a
row can make up a character; a text with a surrogate that does not is well formed, but the value
has no text in this place.
-/

namespace Handoff.Json

/-- Any amount of space. -/
def IsSpace (bytes : Bytes) : Prop := ∀ b ∈ bytes, b = 0x20 ∨ b = 0x09 ∨ b = 0x0a ∨ b = 0x0d

/-! ## Quoted texts -/

/-- The byte is a hexadecimal digit of either case. -/
def IsHexDigit (d : Nat) (b : UInt8) : Prop :=
  d < 16 ∧ (b = hexByte d ∨ 10 ≤ d ∧ b = (0x37 + d).toUInt8)

/-- A 16-bit unit is written with four digits. -/
inductive RendersUnit : Nat → Bytes → Prop
  | intro {a b c d : Nat} {p q r s : UInt8} (first : IsHexDigit a p) (second : IsHexDigit b q)
      (third : IsHexDigit c r) (fourth : IsHexDigit d s) :
      RendersUnit (16 * (16 * (16 * a + b) + c) + d) [0x5c, 0x75, p, q, r, s]

/-- The characters with a short escape, each with the byte that follows the backslash. -/
def shortEscapes : List (Char × UInt8) :=
  [('"', 0x22), ('\\', 0x5c), ('/', 0x2f), ('\x08', 0x62), ('\x0c', 0x66), ('\n', 0x6e),
    ('\r', 0x72), ('\t', 0x74)]

/-- One of the ways to write a character in a quoted text. -/
inductive RendersChar : Char → Bytes → Prop
  | plain {c : Char} (visible : 0x20 ≤ c.toNat) (not_quote : c ≠ '"') (not_backslash : c ≠ '\\') :
      RendersChar c (Utf8.encode (String.singleton c))
  | short {c : Char} {b : UInt8} (listed : (c, b) ∈ shortEscapes) : RendersChar c [0x5c, b]
  | unit {c : Char} {bytes : Bytes} (written : RendersUnit c.toNat bytes) : RendersChar c bytes
  | pair {c : Char} {left right : Bytes} (large : 0x10000 ≤ c.toNat)
      (high : RendersUnit (0xd800 + (c.toNat - 0x10000) / 0x400) left)
      (low : RendersUnit (0xdc00 + (c.toNat - 0x10000) % 0x400) right) :
      RendersChar c (left ++ right)

/-- What a quoted text consists of: characters, and surrogates by themselves. -/
inductive Symbol
  | char (c : Char)
  | surrogate (code : Nat)

inductive RendersSymbol : Symbol → Bytes → Prop
  | char {c : Char} {bytes : Bytes} (written : RendersChar c bytes) : RendersSymbol (.char c) bytes
  | surrogate {code : Nat} {bytes : Bytes} (large : 0xd800 ≤ code) (small : code < 0xe000)
      (written : RendersUnit code bytes) : RendersSymbol (.surrogate code) bytes

/-- Two surrogates that make up a character when one follows the other. -/
def Symbol.Pairs : Symbol → Symbol → Prop
  | .surrogate high, .surrogate low => high < 0xdc00 ∧ 0xdc00 ≤ low
  | _, _ => False

/-- Characters or symbols between quotes. -/
def quoted (parts : List Bytes) : Bytes := 0x22 :: parts.flatten ++ [0x22]

/-! ## Numbers -/

def digitBytes (ds : List Nat) : Bytes := ds.map fun d => (0x30 + d).toUInt8

/-- A sequence of at least one decimal digit. -/
def AreDigits (ds : List Nat) : Prop := ds ≠ [] ∧ ∀ d ∈ ds, d < 10

inductive RendersFraction : List Nat → Bytes → Prop
  | absent : RendersFraction [] []
  | present {ds : List Nat} (digits : AreDigits ds) : RendersFraction ds (0x2e :: digitBytes ds)

/-- An exponent, with the sign of the exponent as `true` if it is negative. -/
inductive RendersExponent : Option (Bool × List Nat) → Bytes → Prop
  | absent : RendersExponent none []
  | unsigned {ds : List Nat} {mark : UInt8} (marked : mark = 0x65 ∨ mark = 0x45)
      (digits : AreDigits ds) : RendersExponent (some (false, ds)) (mark :: digitBytes ds)
  | signed {down : Bool} {ds : List Nat} {mark : UInt8} (marked : mark = 0x65 ∨ mark = 0x45)
      (digits : AreDigits ds) :
      RendersExponent (some (down, ds)) (mark :: (if down then 0x2d else 0x2b) :: digitBytes ds)

/-- A number: its whole part does not start with a zero unless it is zero. -/
inductive RendersNumeral : Numeral → Bytes → Prop
  | intro {negative : Bool} {whole fraction : List Nat} {exponent : Option (Bool × List Nat)}
      {point mark : Bytes} (digits : AreDigits whole) (leading : whole.head? = some 0 → whole = [0])
      (fractional : RendersFraction fraction point) (scaled : RendersExponent exponent mark) :
      RendersNumeral ⟨negative, whole, fraction, exponent⟩
        ((if negative then [0x2d] else []) ++ digitBytes whole ++ point ++ mark)

/-! ## Values -/

/-- A member of an object, together with the bytes of its name and of its value. -/
structure MemberText where
  /-- The name, `none` if it has a surrogate by itself. -/
  name : Option String
  value : Outline
  nameBytes : Bytes
  valueBytes : Bytes

namespace MemberText

def outline (member : MemberText) : Outline × Outline := (.text member.name, member.value)

def bytes (member : MemberText) : Bytes := member.nameBytes ++ 0x3a :: member.valueBytes

end MemberText

/-- The bytes are a JSON text of the value. -/
inductive Renders : Outline → Bytes → Prop
  | null : Renders .null [0x6e, 0x75, 0x6c, 0x6c]
  | bool (b : Bool) :
      Renders (.bool b) (if b then [0x74, 0x72, 0x75, 0x65] else [0x66, 0x61, 0x6c, 0x73, 0x65])
  | number {n : Numeral} {bytes : Bytes} (written : RendersNumeral n bytes) :
      Renders (.number n) bytes
  | text {s : String} {parts : List Bytes} (written : List.Forall₂ RendersChar s.toList parts) :
      Renders (.text (some s)) (quoted parts)
  /-- A text with a surrogate that is in no pair. -/
  | unpaired {symbols : List Symbol} {parts : List Bytes} {code : Nat}
      (written : List.Forall₂ RendersSymbol symbols parts) (mem : .surrogate code ∈ symbols)
      (apart : symbols.IsChain fun left right => ¬left.Pairs right) :
      Renders (.text none) (quoted parts)
  | emptyArray {space : Bytes} (blank : IsSpace space) :
      Renders (.array []) (0x5b :: space ++ [0x5d])
  | array {items : List (Outline × Bytes)} (nonempty : items ≠ [])
      (written : ∀ item ∈ items, Renders item.1 item.2) :
      Renders (.array (items.map Prod.fst)) (0x5b :: separated (items.map Prod.snd) ++ [0x5d])
  | emptyObject {space : Bytes} (blank : IsSpace space) :
      Renders (.object []) (0x7b :: space ++ [0x7d])
  | object {members : List MemberText} (nonempty : members ≠ [])
      (named : ∀ member ∈ members, Renders (.text member.name) member.nameBytes)
      (written : ∀ member ∈ members, Renders member.value member.valueBytes) :
      Renders (.object (members.map MemberText.outline))
        (0x7b :: separated (members.map MemberText.bytes) ++ [0x7d])
  /-- Space may stand around any value. -/
  | spaced {value : Outline} {before bytes after : Bytes} (blank_before : IsSpace before)
      (written : Renders value bytes) (blank_after : IsSpace after) :
      Renders value (before ++ bytes ++ after)

end Handoff.Json
