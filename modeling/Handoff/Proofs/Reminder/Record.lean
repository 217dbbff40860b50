import Handoff.Proofs.Reminder.Grammar

/-!
# Stored reminders are read back

The moment of a reminder is written as digits, and the text of these digits is read as the same
moment.
-/

namespace Handoff

namespace Decimal

def digitChar (d : Nat) : Char := Char.ofNat (0x30 + d)

theorem digitChar_bounds : ∀ d < 10, '0' ≤ digitChar d ∧ digitChar d ≤ '9' := by decide

theorem toNat_digitChar : ∀ d < 10, (digitChar d).toNat - 48 = d := by decide

theorem utf8EncodeChar_digitChar :
    ∀ d < 10, String.utf8EncodeChar (digitChar d) = [(0x30 + d).toUInt8] := by decide

/-- The digits of a number as a text. -/
def text (n : Nat) : List Char := (digits n).map digitChar

theorem encode_text (n : Nat) : Utf8.encode (String.ofList (text n)) = ascii n := by
  have each (ds : List Nat) (small : ∀ d ∈ ds, d < 10) :
      (ds.map digitChar).flatMap String.utf8EncodeChar = ds.map fun d => (0x30 + d).toUInt8 := by
    induction ds with
    | nil => rfl
    | cons d ds induction =>
        have first := utf8EncodeChar_digitChar d (small d List.mem_cons_self)
        have rest := induction fun e mem => small e (List.mem_cons_of_mem d mem)
        rw [List.map_cons, List.flatMap_cons, first, rest]
        rfl
  rw [Utf8.encode_ofList]
  exact each (digits n) fun d => lt_ten_of_mem_digits

theorem spells_text (n : Nat) : Spells (text n) n := by
  have codes : (text n).map (fun c => c.toNat - 48) = digits n := by
    rw [text, List.map_map]
    refine (List.map_congr_left fun d mem => ?_).trans (List.map_id _)
    exact toNat_digitChar d (lt_ten_of_mem_digits mem)
  refine ⟨[], text n, rfl, .inl rfl, ?_, fun c mem => ?_, ?_⟩
  · simpa [text] using digits_ne_nil n
  · obtain ⟨d, digit, rfl⟩ := List.mem_map.mp mem
    exact digitChar_bounds d (lt_ten_of_mem_digits digit)
  · rw [← ofDigits_map_toNat, codes, ofDigits_digits]

end Decimal

/-- The stored form of a moment is read as the moment. -/
theorem Reminder.decode?_encode (moment : Instant) : decode? (encode moment) = some moment := by
  refine decode?_eq_some_iff.mpr ⟨[], Decimal.text moment.millis.toNat, [], ?_,
    List.forall_mem_nil _, List.forall_mem_nil _, Decimal.spells_text _⟩
  rw [List.nil_append, List.append_nil, Decimal.encode_text]
  rfl

end Handoff
