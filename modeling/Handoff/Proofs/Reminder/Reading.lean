import Handoff.Proofs.Reminder.Record
import Handoff.Proofs.Stored.Records
import Handoff.Reminder.Basic

/-!
# What is read as the last reminder

A stored record is read as a moment if it spells one, and otherwise the reading fails.  What is
recorded is read as the moment that was recorded.
-/

namespace Handoff.Reminder

theorem run_last (around : Surroundings) (world : World) (user : UserId) :
    (last user).run.run around world =
      (parseOptional (Key.reminder user) (world.store.get? (Key.reminder user)), world) := by
  rw [← Conditions.run_calm, last, Conditions.run_bind, Attempt.run_get]
  dsimp only
  cases parseOptional (Key.reminder user) (world.store.get? (Key.reminder user)) <;> rfl

theorem run_record (around : Surroundings) (world : World) (user : UserId) (moment : Instant) :
    (record user moment).run.run around world =
      (.ok (), { world with
        store := world.store.insert (Key.reminder user) (encode moment) }) := rfl

/-- Whatever is stored as the record of a user: it is read as a moment exactly if it spells the
number of the moment, and otherwise the reading fails.  A moment that is recorded, whatever was
stored before, is read back. -/
theorem last_iff_spells (around : Surroundings) (user : UserId) (world : World) :
    (∀ bytes, world.store.get? (Key.reminder user) = some bytes →
      let reading := (last user).run.run around world
      (∀ n : UInt64, reading.1 = .ok (some ⟨n⟩) ↔ Spells bytes n.toNat) ∧
      ((¬∃ n : UInt64, Spells bytes n.toNat) → ∃ failure, reading.1 = .error failure ∧
        failure.kind = .storageFailure)) ∧
    ∀ n : UInt64,
      let recorded := (record user ⟨n⟩).run.run around world
      recorded.1 = .ok () ∧ ((last user).run.run around recorded.2).1 = .ok (some ⟨n⟩) := by
  simp only [run_last, run_record, Store.get?_insert_self]
  refine ⟨fun bytes stored => ?_, fun n => ⟨trivial, ?_⟩⟩
  · have spells_iff (n : UInt64) : Spells bytes n.toNat ↔ decode? bytes = some ⟨n⟩ :=
      decode?_eq_some_iff.symm
    simp only [stored, parseOptional, parse, spells_iff]
    cases decode? bytes with
    | some moment =>
        exact ⟨fun n => by simp [Except.map], fun unread => (unread ⟨moment.millis, rfl⟩).elim⟩
    | none => simp [Except.map, Failure.kind]
  · simp [parseOptional, parse, decode?_encode, Except.map]

/-- A record with blanks, a plus sign and leading zeros is read, and one of the first number that
does not fit 64 bits is not. -/
theorem last_of_signed_and_too_large :
    let signed := Utf8.encode "\u3000+0042\n"
    let large := Utf8.encode "18446744073709551616"
    let world : World :=
      ⟨Store.ofList [(Key.reminder "ann", signed), (Key.reminder "bob", large)], ⟨0⟩, 0⟩
    Spells signed 42 ∧ ((last "ann").run.run .strokes world).1 = .ok (some ⟨42⟩) ∧
      (¬∃ n : UInt64, Spells large n.toNat) ∧
      ∃ failure, ((last "bob").run.run .strokes world).1 = .error failure ∧
        failure.kind = .storageFailure := by
  intro signed large world
  have signed_stored : world.store.get? (Key.reminder "ann") = some signed := by decide +kernel
  have large_stored : world.store.get? (Key.reminder "bob") = some large := by decide +kernel
  have spells : Spells signed 42 :=
    ⟨['\u3000'], ['+', '0', '0', '4', '2'], ['\n'], by decide +kernel, by simp [Text.isBlank],
      by simp [Text.isBlank], ['+'], ['0', '0', '4', '2'], rfl, .inr rfl, by simp,
      by simp [Char.le_def], by decide⟩
  have unread : decode? large = none := by decide +kernel
  have no_spelling : ¬∃ n : UInt64, Spells large n.toNat := by
    rintro ⟨n, spells⟩
    have read : decode? large = some ⟨n⟩ := decode?_eq_some_iff.mpr spells
    cases unread.symm.trans read
  exact ⟨spells, (((last_iff_spells .strokes "ann" world).1 signed signed_stored).1 42).mpr spells,
    no_spelling, ((last_iff_spells .strokes "bob" world).1 large large_stored).2 no_spelling⟩

end Handoff.Reminder
