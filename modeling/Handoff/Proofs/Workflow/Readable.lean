import Handoff.Proofs.Pairing.Runs
import Handoff.Proofs.Stored.Readable
import Handoff.Proofs.Stored.Reading
import Handoff.Proofs.Workflow.Contract
import Handoff.Workflow.Overview

/-!
# Trays can be read back

Whatever operations are carried out, every tray is stored in a form that is read back as it was
written, as long as nobody without a name is put into a link.
-/

namespace Handoff

namespace World

variable {around : Surroundings} {policy : Policy}

theorem readable_step (generated : ∀ n, around.newTaskId n ≠ "") {world : World}
    {turn : Instant × Operation} (named : ∀ user ∈ turn.2.linked, user ≠ "")
    (legible : world.store.Readable) : (world.step around policy turn).store.Readable :=
  Contract.readable_run (turn.2.honours_attempt Contract.suits_readable policy named) generated
    legible

theorem readable_steps (generated : ∀ n, around.newTaskId n ≠ "") {world : World}
    {turns : List (Instant × Operation)}
    (named : ∀ turn ∈ turns, ∀ user ∈ turn.2.linked, user ≠ "") (legible : world.store.Readable) :
    (world.steps around policy turns).store.Readable := by
  induction turns generalizing world with
  | nil => exact legible
  | cons turn turns induction =>
      refine induction (fun other mem => named other (List.mem_cons_of_mem _ mem)) ?_
      exact readable_step generated (named turn List.mem_cons_self) legible

theorem exists_views_of_readable {world : World} (legible : world.store.Readable)
    (around : Surroundings) (policy : Policy) (user : UserId) (tray : Tray) :
    ∃ views, ((Workflow.list policy user tray).run.run around world).1 = .ok views := by
  obtain ⟨list, shown⟩ := legible.exists_entries user tray
  rw [← Conditions.run_calm, Workflow.list, Conditions.run_bind, Trays.run_entries shown]
  dsimp only
  rw [Conditions.run_lift]
  exact ⟨_, rfl⟩

/-- After any operations on an empty store, every tray is read back as it was written and can be
shown, if none of the operations links a user without a name. -/
theorem legible_of_steps (generated : ∀ n, around.newTaskId n ≠ "") (policy shown : Policy)
    (turns : List (Instant × Operation))
    (named : ∀ turn ∈ turns, ∀ user ∈ turn.2.linked, user ≠ "") (clock : Instant) (issued : Nat)
    (user : UserId) (tray : Tray) :
    let reached := steps around policy ⟨.empty, clock, issued⟩ turns
    (∀ bytes, reached.store.get? (Key.tray user tray) = some bytes →
      ∃ list, bytes = EntryList.encode list ∧ EntryList.decode bytes = .ok (list, .entries)) ∧
      ∃ views, ((Workflow.list shown user tray).run.run around reached).1 = .ok views := by
  intro reached
  have legible : reached.store.Readable := readable_steps generated named Store.readable_empty
  refine ⟨fun bytes found => ?_, ?_⟩
  · exact legible.decode_eq found
  · exact exists_views_of_readable legible around shown user tray

/-- What `ann` has sent can be shown, also after a user without a name has added a task. -/
theorem legible_of_sent :
    ∃ views, ((Workflow.list .standard "ann" .sent).run.run .strokes
      (steps .strokes .standard ⟨.empty, ⟨0⟩, 0⟩
        [(⟨1⟩, .add "" "Rest" "" none), (⟨2⟩, .send "ann" "bob" "Call" "" none)])).1 =
          .ok views := by
  refine (legible_of_steps Surroundings.fresh_strokes.named .standard .standard _ ?_ ⟨0⟩ 0 "ann"
    .sent).2
  simp [Operation.linked]

/-- What `ann` has sent to a user without a name is stored in a form that cannot be read. -/
theorem illegible_of_sent_to_nobody :
    let reached := steps .strokes .standard ⟨.empty, ⟨0⟩, 0⟩
      [(⟨1⟩, .send "ann" "" "Call" "" none)]
    ((reached.store.get? (Key.tray "ann" .sent)).any fun bytes =>
        !(EntryList.decode bytes).isOk) = true ∧
      ((Workflow.list .standard "ann" .sent).run.run .strokes reached).1.isOk = false := by
  decide +kernel

end World
end Handoff
