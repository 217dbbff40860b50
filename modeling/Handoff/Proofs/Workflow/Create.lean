import Handoff.Proofs.Workflow.Undo
import Handoff.Workflow.Create

/-!
# What adding and sending yield

New records and their entries come into the store together or not at all.  A workflow that fails
leaves the scene as it was, but for the record names that have been given out.
-/

namespace Handoff.Workflow

open Attempt (Yields Fails)
open Undoable

variable {scene : Scene} {id other : TaskId}

/-- Adding fails and leaves nothing, or it saves a record and appends an entry for it. -/
theorem add_cases (conditions : Conditions) (policy : Policy) (user : UserId)
    (message description : String)
    (origin : Option String) (next : conditions.around.newTaskId scene.issued = id)
    (absent : scene.cells (Key.record id) = .value none) :
    (∃ after, Fails conditions (add policy user message description origin) scene after ∧
      after = scene.issue) ∨
      ∃ task after, Yields conditions (add policy user message description origin) scene task
          after ∧
        task = Task.create id scene.clock message description origin ∧
        (scene.issue.save task).Appended user .owned (.unlinked id) after := by
  subst next
  unfold add
  refine Settles.cases (.after_step (.after_step ?_ Attempt.yields_now) Attempt.yields_newTaskId)
  refine settles_save (recovers_nil rfl) absent fun _ covered => ?_
  refine settles_step_bind covered
    ((Trays.append_cases _ _ _ _ _ (Entry.wellLinked_unlinked _)).imp_right ?_)
  rintro ⟨free, after, appended, ends⟩
  exact ⟨(), after, ends, .after_step (settles_pure ⟨rfl, appended⟩) (Attempt.yields_note _)⟩

/-- Sending fails and leaves nothing, or it saves two records and appends an entry for each of them
that is linked to the other. -/
theorem send_cases (conditions : Conditions) (policy : Policy) {sender receiver : UserId}
    (message description : String)
    (origin : Option String) (sender_ne : sender ≠ "") (receiver_ne : receiver ≠ "")
    (next : conditions.around.newTaskId scene.issued = id)
    (other_next : conditions.around.newTaskId (scene.issued + 1) = other)
    (id_ne : id ≠ "") (other_ne : other ≠ "") (differs : id ≠ other)
    (absent : scene.cells (Key.record id) = .value none)
    (other_absent : scene.cells (Key.record other) = .value none) :
    (∃ after, Fails conditions (send policy sender receiver message description origin) scene
        after ∧ after = scene.issue.issue) ∨
      ∃ dispatch after, Yields conditions
          (send policy sender receiver message description origin) scene dispatch after ∧
        dispatch = ⟨id, other⟩ ∧ ∃ task copy middle,
          task = Task.create id scene.clock message description origin ∧
          copy = Task.create other scene.clock message description origin ∧
          ((scene.issue.issue.save task).save copy).Appended sender .sent
            (.linked id receiver other) middle ∧
          middle.Appended receiver .received (.linked other sender id) after := by
  subst next other_next
  unfold send
  refine Settles.cases (.after_step (.after_step (.after_step (.after_step ?_ Attempt.yields_now)
    Attempt.yields_newTaskId) Attempt.yields_now) Attempt.yields_newTaskId)
  rw [Task.copy_create]
  refine settles_save (recovers_nil rfl) absent fun _ covered => ?_
  refine settles_save covered ?_ fun _ covered => ?_
  · exact (Scene.put_cells_of_ne _ _ fun same => differs (Key.record_injective same).symm).trans
      other_absent
  · refine settles_append (Entry.wellLinked_linked _ receiver_ne other_ne) covered
      fun middle _ sent covered => ?_
    refine settles_step_bind covered
      ((Trays.append_cases _ _ _ _ _ (Entry.wellLinked_linked _ sender_ne id_ne)).imp_right ?_)
    rintro ⟨free, after, received, ends⟩
    refine ⟨(), after, ends, .after_step (settles_pure ?_) (Attempt.yields_note _)⟩
    exact ⟨rfl, _, _, middle, rfl, rfl, sent, received⟩

end Handoff.Workflow
