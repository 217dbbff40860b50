import Handoff.Proofs.Json.Written

/-!
# Natural numbers that are read

A natural number that fits 64 bits is read as it was written, and no other natural number is read.
-/

namespace Handoff.Json

theorem value?_numeralOf {n : Nat} (fits : n ≤ maxSignificand) :
    (numeralOf n).value? = some (.integer n) := by
  have small : ¬maxSignificand < n := by omega
  simp [Numeral.value?, numeralOf, Decimal.ofDigits_digits, small]

theorem readNatural_numeralOf {n : Nat} (fits : n ≤ maxSignificand) (expected : String) :
    Outline.readNatural expected (.number (numeralOf n)) = .ok n := by
  simp [Outline.readNatural, value?_numeralOf fits]

/-- A numeral with a fraction, an exponent or too many digits denotes no integer. -/
theorem Numeral.real?_ne_integer (n : Numeral) (i : Int) : n.real? ≠ some (.integer i) := by
  simp only [real?]
  split
  · simp [Number.ofFloat]
  · split
    · simp [Number.ofFloat]
    · split <;> simp [Number.ofFloat]

theorem Numeral.le_of_value?_eq_integer {n : Numeral} {i : Int}
    (denotes : n.value? = some (.integer i)) : i ≤ maxSignificand := by
  unfold value? at denotes
  dsimp only at denotes
  split at denotes
  · exact absurd denotes (n.real?_ne_integer i)
  · rename_i whole
    simp only [not_or, Nat.not_lt] at whole
    split at denotes
    · cases denotes
      exact_mod_cast whole.2.2
    · split at denotes
      · cases denotes
        omega
      · cases denotes

theorem le_of_readNatural {expected : String} {value : Outline} {n : Nat}
    (read_eq : value.readNatural expected = .ok n) : n ≤ maxSignificand := by
  unfold Outline.readNatural at read_eq
  split at read_eq
  · split at read_eq
    · rename_i denotes
      split at read_eq
      · cases read_eq
        have := Numeral.le_of_value?_eq_integer denotes
        omega
      · cases read_eq
    · cases read_eq
    · cases read_eq
  · cases read_eq

end Handoff.Json
