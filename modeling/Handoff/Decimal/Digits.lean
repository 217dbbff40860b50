/-!
# Decimal digits of natural numbers

`digits` gives the digits of a number, the leading one first and without leading zeros; `ofDigits`
reads any digits back.  The main statement is `ofDigits_digits`.
-/

namespace Handoff.Decimal

/-- The number that a sequence of digits denotes, the leading digit first. -/
def ofDigits (ds : List Nat) : Nat :=
  ds.foldl (fun n d => 10 * n + d) 0

/-- The digits of `n` in front of `tail`, when `n` has at most `bound` digits. -/
def digitsOnto (bound n : Nat) (tail : List Nat) : List Nat :=
  match bound with
  | 0 => tail
  | bound + 1 => if n < 10 then n :: tail else digitsOnto bound (n / 10) (n % 10 :: tail)

/-- The decimal digits of a number, the leading one first. -/
def digits (n : Nat) : List Nat :=
  digitsOnto (n + 1) n []

/-- A further digit shifts the others by one place. -/
theorem ofDigits_append_singleton (ds : List Nat) (d : Nat) :
    ofDigits (ds ++ [d]) = 10 * ofDigits ds + d := by
  simp [ofDigits]

/-- Digits put in front of a tail are read as if the tail followed their number. -/
theorem foldl_digitsOnto (bound n : Nat) (tail : List Nat) (small : n < bound) :
    (digitsOnto bound n tail).foldl (fun n d => 10 * n + d) 0
      = tail.foldl (fun n d => 10 * n + d) n := by
  induction bound generalizing n tail with
  | zero => omega
  | succ bound ih =>
    unfold digitsOnto
    split
    · simp
    · rw [ih (n / 10) _ (by omega), List.foldl_cons]
      congr 1
      omega

/-- Reading the digits of a number gives the number back. -/
theorem ofDigits_digits (n : Nat) : ofDigits (digits n) = n := by
  simp [ofDigits, digits, foldl_digitsOnto]

theorem lt_ten_of_mem_digitsOnto (bound n : Nat) (tail : List Nat)
    (small : ∀ d ∈ tail, d < 10) : ∀ d ∈ digitsOnto bound n tail, d < 10 := by
  induction bound generalizing n tail with
  | zero => exact small
  | succ bound ih =>
    unfold digitsOnto
    split
    · simpa using ⟨by omega, small⟩
    · refine ih (n / 10) _ ?_
      simpa using ⟨by omega, small⟩

theorem lt_ten_of_mem_digits {n d : Nat} (mem : d ∈ digits n) : d < 10 :=
  lt_ten_of_mem_digitsOnto (n + 1) n [] (by simp) d mem

/-- The digits put in front of a tail do not depend on the tail. -/
theorem digitsOnto_eq_append (bound n : Nat) (tail : List Nat) (small : n < bound) :
    digitsOnto bound n tail = digitsOnto bound n [] ++ tail := by
  induction bound generalizing n tail with
  | zero => omega
  | succ bound ih =>
    unfold digitsOnto
    split
    · simp
    · rw [ih (n / 10) (n % 10 :: tail) (by omega), ih (n / 10) [n % 10] (by omega)]
      simp

theorem digits_ne_nil (n : Nat) : digits n ≠ [] := by
  unfold digits digitsOnto
  split
  · simp
  · rename_i large
    rw [digitsOnto_eq_append _ _ _ (by omega)]
    simp

/-- A larger bound does not change the digits. -/
theorem digitsOnto_of_lt {bound other n : Nat} (tail : List Nat) (small : n < bound)
    (smallOther : n < other) : digitsOnto bound n tail = digitsOnto other n tail := by
  induction bound generalizing other n tail with
  | zero => omega
  | succ bound ih =>
    cases other with
    | zero => omega
    | succ other =>
      unfold digitsOnto
      split
      · rfl
      · exact ih (n % 10 :: tail) (by omega) (by omega)

theorem digits_of_lt {n : Nat} (small : n < 10) : digits n = [n] := by
  simp [digits, digitsOnto, small]

/-- The last digit of a larger number follows the digits of a tenth of it. -/
theorem digits_of_ge {n : Nat} (large : 10 ≤ n) : digits n = digits (n / 10) ++ [n % 10] := by
  have unfolded : digits n = digitsOnto n (n / 10) [n % 10] := by
    rw [digits, digitsOnto, if_neg (by omega)]
  rw [unfolded, digitsOnto_eq_append n (n / 10) [n % 10] (by omega), digits,
    digitsOnto_of_lt [] (show n / 10 < n by omega) (Nat.lt_succ_self _)]

/-- The digits of a positive number do not start with zero. -/
theorem digits_eq_cons {n : Nat} (positive : 0 < n) : ∃ d ds, digits n = d :: ds ∧ 0 < d := by
  induction n using Nat.strongRecOn with
  | ind n ih =>
    by_cases small : n < 10
    · exact ⟨n, [], digits_of_lt small, positive⟩
    · obtain ⟨d, ds, digits_div, leading⟩ := ih (n / 10) (by omega) (by omega)
      exact ⟨d, ds ++ [n % 10], by rw [digits_of_ge (by omega), digits_div]; rfl, leading⟩

end Handoff.Decimal
