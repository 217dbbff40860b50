import Handoff.Decimal.Shortest

/-!
# Numbers in JSON texts

A `Numeral` is a number as it is written; `Numeral.value?` is what it denotes.  A numeral without
fraction and exponent denotes an integer if that fits 64 bits with or without sign, and every other
numeral a double.  The double is computed from the leading digits that fit 64 bits, scaled by one
power of ten, so it is not always the nearest one.  A numeral beyond the doubles denotes nothing.
-/

namespace Handoff.Json

/-- A number as it is written: all digits in order. -/
structure Numeral where
  /-- Whether a minus sign comes first. -/
  negative : Bool
  /-- The digits before the point. -/
  whole : List Nat
  /-- The digits after the point, none if there is no point. -/
  fraction : List Nat
  /-- The sign and the digits of the exponent. -/
  exponent : Option (Bool × List Nat)
deriving DecidableEq, Repr

/-- What a numeral denotes. -/
inductive Number
  /-- An integer from `-2 ^ 63` up to `2 ^ 64 - 1`. -/
  | integer (i : Int)
  /-- A double, given by its sign and the shortest decimal of its absolute value. -/
  | real (negative : Bool) (magnitude : Decimal.Scaled)
deriving DecidableEq, Repr

/-- The largest significand that is kept exactly. -/
def maxSignificand : Nat := UInt64.size - 1

/-- Extends a significand by digits as long as it fits, and returns the digits left over. -/
def gather (significand : Nat) : List Nat → Nat × List Nat
  | [] => (significand, [])
  | d :: ds =>
    if significand * 10 + d ≤ maxSignificand then gather (significand * 10 + d) ds
    else (significand, d :: ds)

/-- Divides by `10 ^ exponent`, in steps of at most `10 ^ 308`. -/
def divideByPower (x : Float) (exponent : Nat) : Float :=
  if exponent ≤ 308 then x / Float.ofScientific 1 false exponent
  else if x == 0 then x
  else divideByPower (x / Float.ofScientific 1 false 308) (exponent - 308)
termination_by exponent

/-- The double for `significand * 10 ^ exponent`, `none` if it would be infinite. -/
def scale? (significand : Nat) (exponent : Int) : Option Float :=
  let x := significand.toUInt64.toFloat
  if exponent < 0 then some (divideByPower x exponent.natAbs)
  else if exponent ≤ 308 then
    let y := x * Float.ofScientific 1 false exponent.toNat
    if y.isInf then none else some y
  else if x == 0 then some x
  else none

/-- The number for a double of the given sign. -/
def Number.ofFloat (negative : Bool) (x : Float) : Number :=
  .real negative (((Decimal.Dyadic.ofFloat x).map Decimal.Dyadic.shortest).getD ⟨0, 0⟩)

/-- The double that a numeral with a fraction, an exponent or too many digits denotes. -/
def Numeral.real? (n : Numeral) : Option Number :=
  let (significand, dropped) := gather 0 n.whole
  let (significand, unused) := gather significand n.fraction
  let shift : Int := (dropped.length : Int) - ((n.fraction.length - unused.length : Nat) : Int)
  match n.exponent with
  | none => (scale? significand shift).map (Number.ofFloat n.negative)
  | some (down, ds) =>
    let exponent := Decimal.ofDigits ds
    if exponent < Nat.pow 2 31 then
      (scale? significand (if down then shift - exponent else shift + exponent)).map
        (Number.ofFloat n.negative)
    else if significand ≠ 0 ∧ ¬down then none
    else some (Number.ofFloat n.negative 0)

/-- What a numeral denotes, `none` if it lies beyond the doubles. -/
def Numeral.value? (n : Numeral) : Option Number :=
  let size := Decimal.ofDigits n.whole
  if n.fraction ≠ [] ∨ n.exponent.isSome ∨ maxSignificand < size then n.real?
  else if ¬n.negative then some (.integer size)
  else if 0 < size ∧ size ≤ Nat.pow 2 63 then some (.integer (-size))
  else some (Number.ofFloat true size.toUInt64.toFloat)

def digitText (ds : List Nat) : String :=
  String.ofList (ds.map Nat.digitChar)

/-- A double in messages: positional from `10 ^ -5` up to `10 ^ 16`, with at least one digit on
either side of the point, and otherwise with a signed exponent. -/
def realText (negative : Bool) (magnitude : Decimal.Scaled) : String :=
  let ds := Decimal.digits magnitude.significand
  let top : Int := magnitude.exponent + ds.length - 1
  let sign := if negative then "-" else ""
  let body :=
    if magnitude.significand = 0 then "0.0"
    else if top < -5 ∨ 16 ≤ top then
      digitText (ds.take 1) ++ (if ds.length = 1 then "" else "." ++ digitText (ds.drop 1))
        ++ "e" ++ (if top < 0 then "-" else "+") ++ digitText (Decimal.digits top.natAbs)
    else if top < 0 then
      "0." ++ digitText (List.replicate (top.natAbs - 1) 0 ++ ds)
    else
      let whole := top.toNat + 1
      let ds := ds ++ List.replicate (whole - ds.length) 0
      let after := if ds.length = whole then [0] else ds.drop whole
      digitText (ds.take whole) ++ "." ++ digitText after
  sign ++ body

end Handoff.Json
