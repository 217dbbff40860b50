import Handoff.Proofs.Stored.Trays

/-!
# What is read

Reading changes nothing, whatever keys are barred.  A tray that can be read is read as its entries,
and a record that can be read as its content; a search finds what the scene shows.
-/

namespace Handoff

/-- The content of a record, if it can be read. -/
def Store.content? (store : Store) (task : TaskId) : Option Task :=
  (store.get? (Key.record task)).bind fun bytes => (Task.decode bytes).toOption

theorem Store.content?_eq_some_iff {store : Store} {task : TaskId} {content : Task} :
    store.content? task = some content ↔ store.Records task content := by
  simp only [content?, Option.bind_eq_some_iff, Records]
  refine exists_congr fun bytes => and_congr_right fun _ => ?_
  cases Task.decode bytes <;> simp [Except.toOption]

variable {conditions : Conditions} {world : World} {user : UserId} {tray : Tray} {task : TaskId}

theorem Records.run_load (conditions : Conditions) (world : World) (task : TaskId) :
    ∃ outcome, conditions.run (load task).run world = (outcome, world) ∧
      outcome.toOption = world.store.content? task := by
  unfold load Store.content?
  rw [Conditions.run_bind, Attempt.run_get]
  cases world.store.get? (Key.record task) with
  | none => exact ⟨_, rfl, rfl⟩
  | some bytes =>
      simp only [Option.bind_some]
      cases Task.decode bytes with
      | error cause => exact ⟨_, rfl, rfl⟩
      | ok content => exact ⟨_, rfl, rfl⟩

theorem Records.run_load_of_records {content : Task} (recorded : world.store.Records task content) :
    conditions.run (load task).run world = (.ok content, world) := by
  obtain ⟨outcome, run, found⟩ := run_load conditions world task
  rw [Store.content?_eq_some_iff.mpr recorded] at found
  cases outcome with
  | error failure => cases found
  | ok other =>
      cases found
      exact run

namespace Trays

theorem run_entries {list : List Entry}
    (shown : world.store.cell (Key.tray user tray) = .entries list) :
    conditions.run (entries user tray).run world = (.ok list, world) := by
  unfold entries
  rw [Conditions.run_bind, run_load shown]
  rfl

theorem run_entries_of_value (conditions : Conditions) {bytes : Option Bytes}
    (hidden : world.store.cell (Key.tray user tray) = .value bytes) :
    ∃ cause, conditions.run (entries user tray).run world =
      (.error (.unreadableTray cause), world) := by
  obtain ⟨cause, run⟩ := run_load_of_value conditions hidden
  refine ⟨cause, ?_⟩
  unfold entries
  rw [Conditions.run_bind, run]

/-- The entries of a tray are read exactly if the tray can be read. -/
theorem run_entries_iff (conditions : Conditions) (world : World) (user : UserId) (tray : Tray) :
    ∃ outcome, conditions.run (entries user tray).run world = (outcome, world) ∧
      ∀ list, outcome = .ok list ↔ world.store.cell (Key.tray user tray) = .entries list := by
  cases shown : world.store.cell (Key.tray user tray) with
  | value bytes =>
      obtain ⟨cause, run⟩ := run_entries_of_value conditions shown
      exact ⟨_, run, by simp⟩
  | entries list => exact ⟨_, run_entries shown, by simp⟩

theorem run_find? {list : List Entry} (task : TaskId)
    (shown : world.store.cell (Key.tray user tray) = .entries list) :
    conditions.run (find? user tray task).run world =
      (.ok (EntryList.locate? task list), world) := by
  unfold find?
  rw [Conditions.run_bind, run_entries shown]
  rfl

theorem run_find?_of_value (conditions : Conditions) {bytes : Option Bytes} (task : TaskId)
    (hidden : world.store.cell (Key.tray user tray) = .value bytes) :
    ∃ cause, conditions.run (find? user tray task).run world =
      (.error (.unreadableTray cause), world) := by
  obtain ⟨cause, run⟩ := run_entries_of_value conditions hidden
  refine ⟨cause, ?_⟩
  unfold find?
  rw [Conditions.run_bind, run]

/-- A search that meets a tray that cannot be read fails, and no entry is seen beyond it. -/
theorem run_locateIn (conditions : Conditions) (world : World) (user : UserId) (task : TaskId)
    (trays : List Tray) :
    ∃ outcome, conditions.run (locateIn user task trays).run world = (outcome, world) ∧
      outcome.toOption.join = world.scene.locateIn user task trays := by
  induction trays with
  | nil => exact ⟨_, rfl, rfl⟩
  | cons tray trays induction =>
      unfold locateIn Scene.locateIn
      rw [Conditions.run_bind]
      cases shown : world.scene.cells (Key.tray user tray) with
      | value bytes =>
          obtain ⟨cause, run⟩ := run_find?_of_value conditions task shown
          rw [run]
          exact ⟨_, rfl, rfl⟩
      | entries list =>
          rw [run_find? task shown]
          dsimp only
          cases EntryList.locate? task list with
          | none => exact induction
          | some pair => exact ⟨_, rfl, rfl⟩

theorem run_locate? (readable : ∀ tray, ∃ list,
    world.store.cell (Key.tray user tray) = .entries list) :
    conditions.run (locate? user task).run world =
      (.ok (world.scene.locate? user task), world) := by
  unfold locate? Scene.locate?
  induction Tray.all with
  | nil => rfl
  | cons tray trays induction =>
      obtain ⟨list, shown⟩ := readable tray
      have seen : world.scene.cells (Key.tray user tray) = .entries list := shown
      unfold locateIn Scene.locateIn
      rw [Conditions.run_bind, run_find? task shown, seen]
      dsimp only
      cases EntryList.locate? task list with
      | none => exact induction
      | some pair => rfl

end Trays
end Handoff
