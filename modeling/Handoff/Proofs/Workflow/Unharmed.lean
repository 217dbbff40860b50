import Handoff.Proofs.Stored.Unharmed
import Handoff.Proofs.Workflow.Contract
import Handoff.Proofs.Workflow.Equivalent

/-!
# Values that cannot be read are left alone

Whatever is asked for, and whatever fails and is undone on the way, a tray or a record that cannot
be read keeps its value, as long as records that can be read lie under their own names and new ones
get names that are not in use.
-/

namespace Handoff

/-- Every request honours the contract: what reads makes no other calls, and every workflow and
every change of a tray is suited. -/
theorem Request.honours_careful (old : Store) (request : Request) :
    Attempt.Honours (.careful old) (fun _ => True) request.attempt := by
  have suits := Contract.suits_careful old
  cases reads : request.isReading with
  | true =>
      refine Program.Honours.weaken (honours_reading reads) (fun action permitted => ?_)
        fun _ _ _ => trivial
      cases action with
      | newTaskId | now | nameOf | note => trivial
      | call call =>
          cases call with
          | get key => exact suits.reads key
          | set | compareAndSet | delete => exact permitted.elim
  | false =>
      cases request with
      | write policy operation => exact operation.honours_reply suits policy fun _ _ => trivial
      | change call => exact (TrayCall.honours_attempt suits fun _ _ => trivial).map _
      | list | count | name | entries | find | locate => cases reads

namespace World

variable {around : Surroundings} {old : Store}

theorem Unharmed.serve {world : World} (unharmed : world.Unharmed around old)
    (turn : Instant × Request) : (world.serve around turn).2.Unharmed around old :=
  have begins : World.Unharmed around old { world with clock := turn.1 } :=
    ⟨unharmed.store, unharmed.unused⟩
  ((turn.2.honours_careful old).runWith Contract.answer_careful begins).2

theorem Unharmed.serveAll {world : World} (unharmed : world.Unharmed around old)
    (turns : List (Instant × Request)) : (world.serveAll around turns).2.Unharmed around old := by
  induction turns generalizing world with
  | nil => exact unharmed
  | cons turn turns induction => exact induction (unharmed.serve turn)

/-- A tray or a record that cannot be read has the same value after any requests, whatever their
replies, if every record that can be read has the name under which it lies and no new record gets
the name of a stored one. -/
theorem get?_serveAll_of_illegible (around : Surroundings) {world : World}
    (own : world.store.OwnNamed)
    (unused : ∀ n, world.issued ≤ n →
      world.store.get? (Key.record (around.newTaskId n)) = none)
    (turns : List (Instant × Request)) {key : String} (illegible : world.store.Illegible key) :
    (world.serveAll around turns).2.store.get? key = world.store.get? key := by
  have begins : world.Unharmed around world.store :=
    ⟨.refl own, fun n later => Store.not_illegible_of_get?_eq_none (unused n later)⟩
  exact (begins.serveAll turns).store.kept key illegible

/-- A task is added to a tray that cannot be read, which is undone, and tasks are completed and
edited whose records cannot be read. -/
theorem get?_serveAll_of_broken_texts :
    let broken := Utf8.encode "?"
    let store := Store.ofList [(Key.tray "ann" .owned, broken), (Key.record "t", broken),
      (Key.tray "bob" .owned, EntryList.encode [.unlinked "t"])]
    let world : World := ⟨store, ⟨0⟩, 0⟩
    let turns : List (Instant × Request) :=
      [(⟨1⟩, .write .standard (.add "ann" "Rest" "" none)),
        (⟨2⟩, .write .standard (.edit "bob" "t" "Rest" "")),
        (⟨3⟩, .write .standard (.complete "bob" "t")), (⟨4⟩, .change (.pop 2 "ann" .owned))]
    (world.serveAll .strokes turns).1.map Except.isOk = [false, false, true, false] ∧
      (world.serveAll .strokes turns).2.store.get? (Key.tray "ann" .owned) = some broken ∧
      (world.serveAll .strokes turns).2.store.get? (Key.record "t") = some broken := by
  intro broken store world turns
  have tray_refused : EntryList.decode broken = .error .malformed := by decide +kernel
  have record_refused : Task.decode broken = .error .malformed := by decide +kernel
  have only_record (task : TaskId) :
      world.store.get? (Key.record task) = if task = "t" then some broken else none := by
    by_cases here : task = "t"
    · subst here
      decide +kernel
    · have others : Key.record task ≠ Key.record "t" := fun same => here (Key.record_injective same)
      have stored : world.store = ((Store.empty.insert (Key.tray "ann" .owned) broken).insert
          (Key.record "t") broken).insert (Key.tray "bob" .owned)
            (EntryList.encode [.unlinked "t"]) := rfl
      rw [stored]
      simp [Store.get?_insert, Key.record_ne_tray, others, here]
  have own : world.store.OwnNamed := by
    intro task bytes content found decoded
    rw [only_record] at found
    split at found
    · cases found
      cases record_refused.symm.trans decoded
    · cases found
  have unused (n : Nat) (_ : world.issued ≤ n) :
      world.store.get? (Key.record (Surroundings.strokes.newTaskId n)) = none := by
    have other : Surroundings.strokes.newTaskId n ≠ "t" := by
      intro same
      have first := congrArg String.toList same
      simp [Surroundings.strokes, List.replicate_succ] at first
    rw [only_record, if_neg other]
  have tray_illegible : world.store.Illegible (Key.tray "ann" .owned) :=
    ⟨broken, .malformed, by decide +kernel, .inl ⟨⟨"ann", .owned, rfl⟩, tray_refused⟩⟩
  have record_illegible : world.store.Illegible (Key.record "t") :=
    ⟨broken, .malformed, by decide +kernel, .inr ⟨⟨"t", rfl⟩, record_refused⟩⟩
  have replies :
      (world.serveAll .strokes turns).1.map Except.isOk = [false, false, true, false] := by
    decide +kernel
  have tray_found : store.get? (Key.tray "ann" .owned) = some broken := by decide +kernel
  have record_found : store.get? (Key.record "t") = some broken := by decide +kernel
  have tray_kept := get?_serveAll_of_illegible .strokes own unused turns tray_illegible
  have record_kept := get?_serveAll_of_illegible .strokes own unused turns record_illegible
  exact ⟨replies, tray_kept.trans tray_found, record_kept.trans record_found⟩

end World
end Handoff
