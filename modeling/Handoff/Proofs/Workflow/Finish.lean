import Handoff.Proofs.Stored.Trays
import Handoff.Workflow.Finish

/-!
# What completing and removing yield

The user's own entry is taken out, or nothing happens.  What is cleaned up afterwards is told for
the case that all of it can be read and written.
-/

namespace Handoff.Workflow

open Attempt (Yields Fails)

variable {conditions : Conditions} {scene : Scene}

theorem locate_cases (conditions : Conditions) (scene : Scene) (user : UserId) (task : TaskId) :
    Fails conditions (locate user task) scene scene ∨
      ∃ located, scene.locate? user task = some located ∧
        Yields conditions (locate user task) scene located scene := by
  rcases Trays.locate?_cases conditions scene user task with fails | ends
  · exact .inl (fails.bind _)
  · cases found : scene.locate? user task with
    | none =>
        rw [found] at ends
        exact .inl (ends.bind_fails (Attempt.fails_throw _))
    | some located =>
        rw [found] at ends
        exact .inr ⟨located, rfl, ends.bind (Attempt.yields_pure located)⟩

theorem yields_dropRecord {task : TaskId} {bytes : Bytes} {content : Task}
    (shown : scene.cells (Key.record task) = .value (some bytes))
    (decoded : Task.decode bytes = .ok content)
    (free : conditions.barred (Key.record task) = false) :
    Program.Yields conditions (dropRecord task) scene (some content) (scene.discard task) :=
  Program.Yields.bind (Records.yields_take shown decoded free) (Program.yields_pure _)

theorem dropRecord_cases (conditions : Conditions) (scene : Scene) (task : TaskId) :
    ∃ dropped after, Program.Yields conditions (dropRecord task) scene dropped after := by
  rcases Records.take_cases conditions scene task with fails | ⟨content, taken⟩
  · refine ⟨none, scene, fails.recover fun failure => ?_⟩
    exact (Program.yields_note _).bind (Program.yields_pure _)
  · exact ⟨some content, _, Program.Yields.bind taken (Program.yields_pure _)⟩

/-- The other side is dropped, if its entry is linked back. -/
theorem yields_cleanUpOther (budget : Nat) {user : UserId} {task : TaskId} (link : Link)
    {located : Located} {left : Scene} {bytes : Bytes} {content : Task}
    (found : scene.locate? link.user link.task = some located)
    (linked : located.entry.linksTo user task = true)
    (removed : scene.Removed link.user located.tray located.entry left)
    (shown : left.cells (Key.record link.task) = .value (some bytes))
    (decoded : Task.decode bytes = .ok content)
    (tray_free : conditions.barred (Key.tray link.user located.tray) = false)
    (free : conditions.barred (Key.record link.task) = false) :
    Program.Yields conditions (cleanUpOther budget user task link) scene
      (some located.tray, some content) (left.discard link.task) := by
  have taken : Yields conditions _ scene located.entry left :=
    Trays.yields_remove budget tray_free removed
  rw [Scene.task_eq_of_locate? found] at taken
  have entry_dropped : Program.Yields conditions (dropEntry budget link located.tray) scene ()
      left := Program.Yields.bind taken (Program.yields_pure _)
  apply Program.Yields.bind (Trays.yields_locate? found)
  simp only [linked, if_true]
  exact entry_dropped.bind ((yields_dropRecord shown decoded free).bind (Program.yields_pure _))

theorem yields_cleanUp_unlinked (budget : Nat) (user : UserId) {entry : Entry} {bytes : Bytes}
    {content : Task} (unlinked : entry.link = none)
    (shown : scene.cells (Key.record entry.task) = .value (some bytes))
    (decoded : Task.decode bytes = .ok content)
    (free : conditions.barred (Key.record entry.task) = false) :
    Program.Yields conditions (cleanUp budget user entry) scene ⟨some content, none, none⟩
      (scene.discard entry.task) := by
  apply (yields_dropRecord shown decoded free).bind
  rw [unlinked]
  exact Program.yields_pure _

/-- After the entry of a task that is shared, its record and the other side are dropped. -/
theorem yields_cleanUp_linked (budget : Nat) {user : UserId} {entry : Entry} {link : Link}
    {bytes : Bytes} {content : Task} {other : Option Tray × Option Task} {after : Scene}
    (linked : entry.link = some link)
    (shown : scene.cells (Key.record entry.task) = .value (some bytes))
    (decoded : Task.decode bytes = .ok content)
    (free : conditions.barred (Key.record entry.task) = false)
    (cleaned : Program.Yields conditions (cleanUpOther budget user entry.task link)
      (scene.discard entry.task) other after) :
    Program.Yields conditions (cleanUp budget user entry) scene
      ⟨(some content).or other.2, some link.user, other.1⟩ after := by
  apply (yields_dropRecord shown decoded free).bind
  rw [linked]
  exact cleaned.bind (Program.yields_pure _)

/-- A task is taken out of the tray where it is found and cleaned up, or nothing happens. -/
theorem takeOut_cases (conditions : Conditions) (scene : Scene) (policy : Policy) (user : UserId)
    (task : TaskId) (event : Event) :
    Fails conditions (takeOut policy user task event) scene scene ∨
      ∃ located left, scene.locate? user task = some located ∧
        scene.Removed user located.tray located.entry left ∧ ∀ cleanup after,
          Program.Yields conditions (cleanUp policy.budget user located.entry) left cleanup after →
          Yields conditions (takeOut policy user task event) scene (located.tray, cleanup)
            after := by
  rcases locate_cases conditions scene user task with fails | ⟨located, found, ends⟩
  · exact .inl (fails.bind _)
  · obtain ⟨list, shown, first⟩ := Scene.find?_of_locateIn found
    rcases Trays.remove_cases conditions scene policy.budget user located.tray task with
      fails | ⟨free, entry, left, same, _, removed, taken⟩
    · exact .inl (ends.bind_fails (fails.bind _))
    · subst same
      obtain rfl := removed.eq_of_find? shown first
      refine .inr ⟨located, left, found, removed, fun cleanup after cleaned => ?_⟩
      exact ends.bind (taken.bind
        ((Attempt.yields_lift cleaned).bind (Attempt.yields_note_pure _ _)))

theorem pop_cases (conditions : Conditions) (scene : Scene) (policy : Policy) (user : UserId) :
    Fails conditions (pop policy user) scene scene ∨
      ∃ entry rest left, scene.cells (Key.tray user .owned) = .entries (entry :: rest) ∧
        scene.Removed user .owned entry left ∧ ∀ cleanup after,
          Program.Yields conditions (cleanUp policy.budget user entry) left cleanup after →
            Yields conditions (pop policy user) scene ⟨cleanup.task, cleanup.partner, .owned⟩
              after := by
  rcases Trays.pop_cases conditions scene policy.budget user .owned with
    fails | ⟨_, entry, rest, left, shown, removed, popped⟩
  · exact .inl (fails.bind _)
  · exact .inr ⟨entry, rest, left, shown, removed, fun cleanup after cleaned =>
      popped.bind ((Attempt.yields_lift cleaned).bind (Attempt.yields_note_pure _ _))⟩

end Handoff.Workflow
