import Handoff.Proofs.Program.Conditions
import Handoff.Proofs.Task.Encoding
import Handoff.Stored.Records

/-!
# What operations on records yield

Each operation on a record either fails and leaves the scene as it was, or does its work on the cell
of the record.  For each there is a law for the case that it succeeds, and a law that there is no
third case.
-/

namespace Handoff

/-- A task has a record with a content. -/
def Store.Records (store : Store) (task : TaskId) (content : Task) : Prop :=
  ∃ bytes, store.get? (Key.record task) = some bytes ∧ Task.decode bytes = .ok content

namespace Attempt

variable {conditions : Conditions}

theorem run_call (request : Call) (world : World) :
    conditions.run (call request).run world =
      match conditions.answer (.call request) world with
      | (.ok answer, after) => (.ok answer, after)
      | (.error outage, after) => (.error (.outage outage.reason), after) := by
  have performed : conditions.run (ExceptT.lift (Program.perform (.call request)) :
      Attempt (Except Outage request.Answer)).run world =
        (.ok (conditions.answer (.call request) world).1,
          (conditions.answer (.call request) world).2) := rfl
  unfold call
  rw [Conditions.run_bind, performed]
  rcases conditions.answer (.call request) world with ⟨_ | _, _⟩ <;> rfl

theorem run_get (key : String) (world : World) :
    conditions.run (get key).run world = (.ok (world.store.get? key), world) :=
  run_call _ _

theorem run_write_of_barred (request : Call) (write : request.isWrite = true)
    (barred : conditions.barred request.key = true) (world : World) :
    conditions.run (call request).run world =
      (.error (.outage (conditions.outage request).reason), world) := by
  rw [run_call]
  simp [Conditions.answer, write, barred]

theorem run_write (request : Call) (free : conditions.barred request.key = false) (world : World) :
    conditions.run (call request).run world =
      (.ok (world.store.perform request).1,
        { world with store := (world.store.perform request).2 }) := by
  rw [run_call]
  simp [Conditions.answer, free, World.answer]

end Attempt

def Scene.save (scene : Scene) (task : Task) : Scene :=
  scene.put (Key.record task.id) (.value (some task.encode))

def Scene.discard (scene : Scene) (task : TaskId) : Scene :=
  scene.put (Key.record task) (.value none)

namespace Records

open Attempt (Yields Fails run_get run_write run_write_of_barred)

variable {conditions : Conditions} {scene : Scene}

theorem yields_save {task : Task} (free : conditions.barred (Key.record task.id) = false) :
    Yields conditions (save task) scene () (scene.save task) := by
  intro world seen
  subst seen
  unfold save Attempt.set
  rw [run_write (.set (Key.record task.id) task.encode) free world]
  refine ⟨rfl, ?_⟩
  simp only [World.scene, Scene.save, Scene.put, Store.perform]
  rw [Store.cell_insert_record]

theorem save_cases (conditions : Conditions) (scene : Scene) (task : Task) :
    Fails conditions (save task) scene scene ∨
      conditions.barred (Key.record task.id) = false := by
  cases barred : conditions.barred (Key.record task.id) with
  | false => exact .inr rfl
  | true =>
      let request : Call := .set (Key.record task.id) task.encode
      refine .inl fun world seen => ⟨.outage (conditions.outage request).reason, ?_⟩
      unfold save Attempt.set
      rw [run_write_of_barred request rfl barred world]
      exact ⟨rfl, seen⟩

theorem yields_delete {task : TaskId} (free : conditions.barred (Key.record task) = false) :
    Yields conditions (delete task) scene () (scene.discard task) := by
  intro world seen
  subst seen
  unfold delete Attempt.delete
  rw [run_write (.delete (Key.record task)) free world]
  refine ⟨rfl, ?_⟩
  simp only [World.scene, Scene.discard, Scene.put, Store.perform]
  rw [Store.cell_erase_record]

theorem delete_cases (conditions : Conditions) (scene : Scene) (task : TaskId) :
    Fails conditions (delete task) scene scene ∨
      conditions.barred (Key.record task) = false := by
  cases barred : conditions.barred (Key.record task) with
  | false => exact .inr rfl
  | true =>
      let request : Call := .delete (Key.record task)
      refine .inl fun world seen => ⟨.outage (conditions.outage request).reason, ?_⟩
      unfold delete Attempt.delete
      rw [run_write_of_barred request rfl barred world]
      exact ⟨rfl, seen⟩

theorem yields_get {task : TaskId} {value : Option Bytes}
    (shown : scene.cells (Key.record task) = .value value) :
    Yields conditions (Attempt.get (Key.record task)) scene value scene := by
  intro world seen
  subst seen
  have found : world.store.get? (Key.record task) = value := Store.get?_eq_of_cell_eq_value shown
  rw [run_get, found]
  exact ⟨rfl, rfl⟩

theorem yields_load (conditions : Conditions) {task : TaskId} {bytes : Bytes} {content : Task}
    (shown : scene.cells (Key.record task) = .value (some bytes))
    (decoded : Task.decode bytes = .ok content) :
    Yields conditions (load task) scene content scene := by
  apply Yields.bind (yields_get shown)
  simp only [decoded]
  exact Attempt.yields_pure content

theorem load_cases (conditions : Conditions) (scene : Scene) (task : TaskId) :
    Fails conditions (load task) scene scene ∨
      ∃ bytes content, scene.cells (Key.record task) = .value (some bytes) ∧
        Task.decode bytes = .ok content := by
  cases shown : scene.cells (Key.record task) with
  | entries list =>
      refine .inl fun world seen => ?_
      subst seen
      have other := world.store.cell_record task
      cases shown.symm.trans other
  | value value =>
      cases value with
      | none =>
          exact .inl ((yields_get shown).bind_fails (Attempt.fails_throw (.taskMissing task)))
      | some bytes =>
          cases decoded : Task.decode bytes with
          | ok content => exact .inr ⟨bytes, content, rfl, decoded⟩
          | error cause =>
              refine .inl ((yields_get shown).bind_fails ?_)
              simp only [decoded]
              exact Attempt.fails_throw _

theorem yields_take {task : TaskId} {bytes : Bytes} {content : Task}
    (shown : scene.cells (Key.record task) = .value (some bytes))
    (decoded : Task.decode bytes = .ok content)
    (free : conditions.barred (Key.record task) = false) :
    Yields conditions (take task) scene content (scene.discard task) :=
  Yields.bind (yields_load conditions shown decoded)
    (Yields.bind (yields_delete free) (Attempt.yields_pure content))

theorem take_cases (conditions : Conditions) (scene : Scene) (task : TaskId) :
    Fails conditions (take task) scene scene ∨
      ∃ content, Yields conditions (take task) scene content (scene.discard task) := by
  rcases load_cases conditions scene task with fails | ⟨bytes, content, shown, decoded⟩
  · exact .inl (fails.bind _)
  · rcases delete_cases conditions scene task with fails | free
    · exact .inl ((yields_load conditions shown decoded).bind_fails (fails.bind _))
    · exact .inr ⟨content, yields_take shown decoded free⟩

end Records
end Handoff
