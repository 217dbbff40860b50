import Handoff.Proofs.Stored.Trays
import Handoff.Workflow.Bump

/-!
# What bumping yields

Only the receiver's received tray changes.  Reading the message of the task changes nothing, even if
neither copy can be read.
-/

namespace Handoff.Workflow

open Attempt (Yields Fails)

theorem messageOfEither_cases (conditions : Conditions) (scene : Scene)
    (receiverTask senderTask : TaskId) : ∃ message, Program.Yields conditions
      (messageOfEither receiverTask senderTask) scene message scene := by
  rcases Records.load_cases conditions scene receiverTask with
    unread | ⟨bytes, content, shown, decoded⟩
  · rcases Records.load_cases conditions scene senderTask with
      fails | ⟨bytes, content, shown, decoded⟩
    · refine ⟨none, unread.recover fun _ => (Program.yields_note _).bind ?_⟩
      exact fails.recover fun _ => (Program.yields_note _).bind (Program.yields_pure none)
    · refine ⟨some content.message, unread.recover fun _ => (Program.yields_note _).bind ?_⟩
      exact Program.Yields.bind (Records.yields_load _ shown decoded) (Program.yields_pure _)
  · exact ⟨some content.message,
      Program.Yields.bind (Records.yields_load _ shown decoded) (Program.yields_pure _)⟩

/-- Bumping fails and changes nothing, or it brings the entry on the other side to the front. -/
theorem bump_cases (conditions : Conditions) (scene : Scene) (policy : Policy) (user : UserId)
    (task : TaskId) :
    Fails conditions (bump policy user task) scene scene ∨
      ∃ promotion after list entry link promoted,
        Yields conditions (bump policy user task) scene promotion after ∧
          scene.cells (Key.tray user .sent) = .entries list ∧
          EntryList.find? task list = some entry ∧ entry.link = some link ∧
          promoted.task = link.task ∧ scene.Bumped link.user .received promoted after := by
  rcases Trays.find?_cases conditions scene user .sent task with fails | ⟨list, shown, _⟩
  · exact .inl (fails.bind _)
  have searched := Trays.yields_find? conditions task shown
  cases here : EntryList.locate? task list with
  | none =>
      rw [here] at searched
      exact .inl (searched.bind_fails (Attempt.fails_throw (.notSent task user)))
  | some pair =>
      obtain ⟨entry, found, rfl⟩ := Option.map_eq_some_iff.mp here
      rw [here] at searched
      cases linked : entry.link with
      | none =>
          refine .inl (searched.bind_fails ?_)
          simp only [linked]
          exact Attempt.fails_throw _
      | some link =>
          rcases Trays.bump_cases conditions scene policy.budget link.user .received link.task with
            fails | ⟨_, promoted, after, same, bumped, ends⟩
          · refine .inl (searched.bind_fails ?_)
            simp only [linked]
            exact fails.bind _
          · obtain ⟨message, told⟩ := messageOfEither_cases conditions after link.task task
            refine .inr ⟨⟨message, link.user, link.task⟩, after, list, entry, link, promoted,
              searched.bind ?_, shown, found, linked, same, bumped⟩
            simp only [linked]
            exact ends.bind ((Attempt.yields_lift told).bind (Attempt.yields_note_pure _ _))

end Handoff.Workflow
