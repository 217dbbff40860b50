import Handoff.Proofs.Workflow.Undo
import Handoff.Workflow.Accept

/-!
# What accepting yields

An accepted entry is for a while in both trays of its user, and then in the owned tray only.
-/

namespace Handoff.Workflow

open Attempt (Yields Fails)
open Undoable

variable {conditions : Conditions} {scene : Scene} {user : UserId} {entry : Entry}

/-- An entry has been moved from the received tray to the owned tray of its user. -/
def Accepted (before : Scene) (user : UserId) (entry : Entry) (after : Scene) : Prop :=
  ∃ middle, before.Appended user .owned entry middle ∧ middle.Removed user .received entry after

/-- The first entry for a task in the received tray stays the first one when the owned tray
grows. -/
theorem removed_eq_of_appended {list : List Entry} {other : Entry} {middle after : Scene}
    (shown : scene.cells (Key.tray user .received) = .entries list)
    (found : EntryList.find? entry.task list = some entry)
    (appended : scene.Appended user .owned entry middle) (same : other.task = entry.task)
    (removed : middle.Removed user .received other after) : other = entry := by
  have differs : Key.tray user .received ≠ Key.tray user .owned := by
    intro keys
    cases Key.tray_injective keys
  exact removed.eq_of_find? ((appended.cells_of_ne differs).trans shown) (same ▸ found)

/-- Moving an entry that was found fails and leaves nothing, or it succeeds. -/
theorem moveToOwned_cases {list : List Entry} (conditions : Conditions) (policy : Policy)
    (well : entry.WellLinked) (shown : scene.cells (Key.tray user .received) = .entries list)
    (found : EntryList.find? entry.task list = some entry) :
    (∃ after, Fails conditions (settle policy.budget (moveToOwned policy user entry)) scene
        after ∧ after = scene) ∨
      ∃ result after, Yields conditions (settle policy.budget (moveToOwned policy user entry))
        scene result after ∧ Accepted scene user entry after := by
  refine Settles.cases (settles_append well (recovers_nil rfl) fun middle _ appended covered => ?_)
  refine settles_step_bind covered ((Trays.remove_cases ..).imp_right ?_)
  rintro ⟨free, other, after, same, _, removed, ends⟩
  obtain rfl := removed_eq_of_appended shown found appended same removed
  exact ⟨other, after, ends, settles_pure ⟨middle, appended, removed⟩⟩

/-- Accepting fails and leaves nothing, or it moves the entry for the task. -/
theorem accept_cases (conditions : Conditions) (scene : Scene) (policy : Policy) (user : UserId)
    (task : TaskId) :
    Fails conditions (accept policy user task) scene scene ∨
      ∃ acceptance after entry, Yields conditions (accept policy user task) scene acceptance
        after ∧ entry.task = task ∧ Accepted scene user entry after := by
  rcases Trays.find?_cases conditions scene user .received task with fails | ⟨list, shown, well⟩
  · exact .inl (fails.bind _)
  have searched := Trays.yields_find? conditions task shown
  cases here : EntryList.locate? task list with
  | none =>
      rw [here] at searched
      exact .inl (searched.bind_fails (Attempt.fails_throw (.notReceived task user)))
  | some pair =>
      obtain ⟨entry, found, rfl⟩ := Option.map_eq_some_iff.mp here
      obtain rfl := EntryList.task_eq_of_find? found
      rw [here] at searched
      rcases Records.load_cases conditions scene entry.task with
        fails | ⟨bytes, content, stored, decoded⟩
      · exact .inl (searched.bind_fails (fails.bind _))
      have loaded := Records.yields_load conditions stored decoded
      rcases moveToOwned_cases conditions policy (well entry (EntryList.mem_of_find? found)) shown
        found with ⟨after, fails, rfl⟩ | ⟨_, after, moved, accepted⟩
      · exact .inl (searched.bind_fails (loaded.bind_fails (fails.bind _)))
      · refine .inr ⟨⟨content.message, entry.partner⟩, after, entry, ?_, rfl, accepted⟩
        exact searched.bind (loaded.bind (moved.bind (Attempt.yields_note_pure _ _)))

end Handoff.Workflow
