import Handoff.Proofs.Workflow.Finish
import Handoff.Workflow.Edit

/-!
# What editing yields

Only records change, the user's own and then the other copy, each of which keeps its name.
-/

namespace Handoff.Workflow

open Attempt (Yields Fails)

variable {conditions : Conditions} {scene : Scene}

/-- A record has been read, and saved with other texts. -/
def Revised (before : Scene) (task : TaskId) (message description : String) (after : Scene) :
    Prop :=
  ∃ bytes content, before.cells (Key.record task) = .value (some bytes) ∧
    Task.decode bytes = .ok content ∧ after = before.save (content.withContent message description)

theorem revise_cases (conditions : Conditions) (scene : Scene) (task : TaskId)
    (message description : String) :
    Fails conditions (revise task message description) scene scene ∨
      ∃ previous after, Yields conditions (revise task message description) scene previous after ∧
        Revised scene task message description after := by
  rcases Records.load_cases conditions scene task with fails | ⟨bytes, content, shown, decoded⟩
  · exact .inl (fails.bind _)
  have loaded := Records.yields_load conditions shown decoded
  rcases Records.save_cases conditions scene (content.withContent message description) with
    fails | free
  · exact .inl (loaded.bind_fails (fails.bind _))
  · exact .inr ⟨content.message, _,
      loaded.bind ((Records.yields_save free).bind (Attempt.yields_pure _)),
      bytes, content, shown, decoded, rfl⟩

theorem reviseOther_cases (conditions : Conditions) (scene : Scene) (message description : String)
    (link : Option Link) :
    ∃ after, Program.Yields conditions (reviseOther message description link) scene () after ∧
      (after = scene ∨
        ∃ other, link = some other ∧ Revised scene other.task message description after) := by
  cases link with
  | none => exact ⟨scene, Program.yields_pure (), .inl rfl⟩
  | some other =>
      rcases revise_cases conditions scene other.task message description with
        fails | ⟨previous, after, ends, revised⟩
      · exact ⟨scene, fails.recover fun _ => Program.yields_note _, .inl rfl⟩
      · exact ⟨after, Program.Yields.bind ends (Program.yields_pure ()), .inr ⟨other, rfl, revised⟩⟩

/-- Editing fails and changes nothing, or it revises the user's record, and perhaps the other
copy. -/
theorem edit_cases (conditions : Conditions) (scene : Scene) (user : UserId) (task : TaskId)
    (message description : String) :
    Fails conditions (edit user task message description) scene scene ∨
      ∃ revision middle after located,
        Yields conditions (edit user task message description) scene revision after ∧
          scene.locate? user task = some located ∧
          Revised scene task message description middle ∧
          (after = middle ∨ ∃ other, located.entry.link = some other ∧
            Revised middle other.task message description after) := by
  rcases locate_cases conditions scene user task with fails | ⟨located, found, ends⟩
  · exact .inl (fails.bind _)
  rcases revise_cases conditions scene task message description with
    fails | ⟨previous, middle, revised, own⟩
  · exact .inl (ends.bind_fails (fails.bind _))
  · obtain ⟨after, other_revised, other⟩ :=
      reviseOther_cases conditions middle message description located.entry.link
    exact .inr ⟨_, middle, after, located, ends.bind (revised.bind
      ((Attempt.yields_lift other_revised).bind (Attempt.yields_pure _))), found, own, other⟩

end Handoff.Workflow
