import Handoff.Decimal.Digits

/-!
# The shortest decimal of a floating-point number

A finite positive double is `m * 2 ^ q`.  The reals that round to it form an interval, whose ends
belong to it when `m` is even.  `shortest` goes through the decimal grids of one digit, two digits
and so on, and takes the first grid with a point in that interval; of two such points the one nearer
to the number, and of two equally near ones the one with an even last digit.
-/

namespace Handoff.Decimal

/-- The positive number `mantissa * 2 ^ exponent`. -/
structure Dyadic where
  mantissa : Nat
  exponent : Int
  /-- The next smaller double is only half as far away as the next larger one. -/
  narrowBelow : Bool
deriving DecidableEq, Repr

/-- The number `significand * 10 ^ exponent`. -/
structure Scaled where
  significand : Nat
  exponent : Int
deriving DecidableEq, Repr

/-- The absolute value of a finite double, `none` for zero. -/
def Dyadic.ofFloat (x : Float) : Option Dyadic :=
  let bits := x.toBits.toNat % Nat.pow 2 63
  let biased : Nat := bits / Nat.pow 2 52
  let fraction : Nat := bits % Nat.pow 2 52
  if bits = 0 then none
  else if biased = 0 then some ⟨fraction, -1074, false⟩
  else some ⟨Nat.pow 2 52 + fraction, (biased : Int) - 1075, fraction == 0 && 1 < biased⟩

/-- The exponent of the leading decimal digit of a number. -/
def Dyadic.magnitude (x : Dyadic) : Int :=
  let scaled : Nat :=
    x.mantissa * Nat.pow 10 400 * Nat.pow 2 x.exponent.toNat / Nat.pow 2 (-x.exponent).toNat
  ((digits scaled).length : Int) - 401

/-- The point of the grid of multiples of `10 ^ place` that stands for `x`, if one does. -/
def Dyadic.onGrid (x : Dyadic) (place : Int) : Option Scaled :=
  -- in quarters of `2 ^ x.exponent`, over the common denominator `unit`
  let scale := Nat.pow 2 (x.exponent - 2).toNat * Nat.pow 10 (-place).toNat
  let unit := Nat.pow 2 (2 - x.exponent).toNat * Nat.pow 10 place.toNat
  let value := 4 * x.mantissa * scale
  let low := (4 * x.mantissa - if x.narrowBelow then 1 else 2) * scale
  let high := (4 * x.mantissa + 2) * scale
  let inside (point : Nat) : Bool :=
    if x.mantissa % 2 = 0 then low ≤ point * unit && point * unit ≤ high
    else low < point * unit && point * unit < high
  let below := value / unit
  let above := below + 1
  let toBelow := value - below * unit
  let toAbove := above * unit - value
  let preferBelow := toBelow < toAbove || (toBelow == toAbove && below % 2 == 0)
  if inside below && (preferBelow || !inside above) then some ⟨below, place⟩
  else if inside above then some ⟨above, place⟩
  else none

/-- The same number with no zero at the end of its significand. -/
def Scaled.stripped (d : Scaled) : Nat → Scaled
  | 0 => d
  | bound + 1 =>
    if d.significand ≠ 0 ∧ d.significand % 10 = 0 then
      Scaled.stripped ⟨d.significand / 10, d.exponent + 1⟩ bound
    else d

/-- The shortest decimal that reads back as `x`.  Seventeen digits always do. -/
def Dyadic.shortest (x : Dyadic) : Scaled :=
  let top := x.magnitude
  let found := (List.range 17).findSome? fun (place : Nat) => x.onGrid (top - place)
  (found.getD ⟨0, 0⟩).stripped 20

end Handoff.Decimal
