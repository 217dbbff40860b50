import Handoff.Proofs.Workflow.Accept
import Handoff.Proofs.Workflow.Assign
import Handoff.Proofs.Workflow.Create
import Handoff.Proofs.Workflow.Operation

/-!
# Operations that fail

Adding, sending, accepting and assigning either succeed or leave the store as it was, whichever keys
cannot be written.  Only an assignment that fails may have moved two entries to the ends of their
trays, since an entry that has been taken out is put back at the end.
-/

namespace Handoff

/-- The record names that are given out are not empty, not in use and all different. -/
structure World.Supplied (around : Surroundings) (world : World) : Prop where
  named : ∀ n, world.issued ≤ n → around.newTaskId n ≠ ""
  unused : ∀ n, world.issued ≤ n → world.store.get? (Key.record (around.newTaskId n)) = none
  distinct : ∀ m n, world.issued ≤ m → m < n → around.newTaskId m ≠ around.newTaskId n

theorem World.supplied_of_fresh {around : Surroundings} {world : World} (fresh : around.Fresh)
    (unused : ∀ n, world.issued ≤ n →
      world.store.get? (Key.record (around.newTaskId n)) = none) : world.Supplied around where
  named := fun n _ => fresh.named n
  unused := unused
  distinct := fun _ _ _ earlier same => absurd (fresh.injective same) (Nat.ne_of_lt earlier)

/-- Each record that can be read lies under its own name, and no tray that can be read has two
entries for a task. -/
structure Store.Orderly (store : Store) : Prop where
  own : ∀ task bytes content, store.get? (Key.record task) = some bytes →
    Task.decode bytes = .ok content → content.id = task
  unrepeated : ∀ key list, store.cell key = .entries list → EntryList.Unrepeated list

theorem Store.orderly_empty : Store.empty.Orderly where
  own := by
    rintro _ _ _ ⟨⟩
  unrepeated := by
    intro key list shown
    rcases read_of_cell_eq_entries shown with ⟨_, rfl⟩ | ⟨_, _, found, _⟩
    · exact List.nodup_nil
    · cases found

/-- What a store still has after entries that may move have moved to the ends of their trays. -/
structure Store.Restored (may : String → Entry → Prop) (before after : Store) : Prop where
  /-- What is no tray is as it was, records among it. -/
  others : ∀ key, Key.isTray key = false → after.get? key = before.get? key
  /-- A tray that cannot be read has the value that it had. -/
  unreadable : ∀ key bytes cause, Key.isTray key = true → before.get? key = some bytes →
    EntryList.decode bytes = .error cause → after.get? key = some bytes
  /-- A tray that can be read has the entries that it had. -/
  trays : ∀ key list, before.cell key = .entries list →
    ∃ moved, after.cell key = .entries moved ∧ EntryList.MovedToEnd (may key) list moved

theorem Store.restored_of_movedToEnd {may : String → Entry → Prop} {before after : World}
    (moved : Scene.MovedToEnd may before.scene after.scene) :
    Restored may before.store after.store := by
  refine ⟨fun key other => ?_, fun key bytes cause isTray found refused => ?_,
    fun key list shown => ?_⟩
  · have shown : before.scene.cells key = .value (before.store.get? key) :=
      before.store.cell_of_not_isTray other
    exact get?_eq_of_cell_eq_value (Cell.MovedToEnd.eq_value (shown ▸ moved key))
  · have shown : before.scene.cells key = .value (some bytes) := by
      simp [World.scene, cell, isTray, found, refused]
    exact get?_eq_of_cell_eq_value (Cell.MovedToEnd.eq_value (shown ▸ moved key))
  · exact Cell.MovedToEnd.exists_entries (shown ▸ moved key)

namespace Operation

/-- The entry of the user, and the entry of the previous assignee that is linked to it, under the
keys of the trays where they are found. -/
inductive Assigned (scene : Scene) (user : UserId) (task : TaskId) : String → Entry → Prop
  /-- The user's own entry. -/
  | own (located : Located) (found : scene.locate? user task = some located) :
    Assigned scene user task (Key.tray user located.tray) located.entry
  /-- The entry of the previous assignee. -/
  | previous (located other : Located) (link : Link)
    (found : scene.locate? user task = some located) (linked : located.entry.link = some link)
    (other_found : scene.locate? link.user link.task = some other)
    (linked_back : other.entry.linksTo user task = true) :
    Assigned scene user task (Key.tray link.user other.tray) other.entry

/-- The entries that an operation may move to the ends of their trays if it fails. -/
def mayMove (scene : Scene) : Operation → String → Entry → Prop
  | .assign user task _ => Assigned scene user task
  | _ => fun _ _ => False

end Operation

namespace Workflow

open Attempt (Yields Fails)

variable {conditions : Conditions}

theorem undone_cases (policy : Policy) (operation : Operation) (world : World)
    (undone : operation.isUndone = true) (supplied : world.Supplied conditions.around)
    (orderly : world.store.Orderly) (users_named : ∀ user ∈ operation.users, user ≠ "")
    (task_named : ∀ task ∈ operation.task?, task ≠ "") :
    (∃ after, Fails conditions (operation.attempt policy) world.scene after ∧
      Scene.MovedToEnd (operation.mayMove world.scene) world.scene after) ∨
      ∃ after, Yields conditions (operation.attempt policy) world.scene () after := by
  have kept := Scene.movedToEnd_refl (operation.mayMove world.scene) world.scene
  have absent (n : Nat) (later : world.issued ≤ n) :
      world.scene.cells (Key.record (conditions.around.newTaskId n)) = .value none :=
    (world.store.cell_record _).trans (congrArg Cell.value (supplied.unused n later))
  have next : world.issued ≤ world.issued + 1 := Nat.le_succ _
  cases operation with
  | add user message description origin =>
      rcases add_cases conditions policy user message description origin rfl (absent _ le_rfl) with
        ⟨after, fails, rfl⟩ | ⟨task, after, ends, _⟩
      · exact .inl ⟨_, fails.bind _, kept⟩
      · exact .inr ⟨after, ends.bind (Attempt.yields_pure ())⟩
  | send sender receiver message description origin =>
      have sender_ne := users_named sender (by simp [Operation.users])
      have receiver_ne := users_named receiver (by simp [Operation.users])
      rcases send_cases conditions policy message description origin sender_ne receiver_ne rfl rfl
        (supplied.named _ le_rfl) (supplied.named _ next)
        (supplied.distinct _ _ le_rfl (Nat.lt_succ_self _)) (absent _ le_rfl) (absent _ next) with
        ⟨after, fails, rfl⟩ | ⟨dispatch, after, ends, _⟩
      · exact .inl ⟨_, fails.bind _, kept⟩
      · exact .inr ⟨after, ends.bind (Attempt.yields_pure ())⟩
  | accept user task =>
      rcases accept_cases conditions world.scene policy user task with
        fails | ⟨acceptance, after, entry, ends, _⟩
      · exact .inl ⟨_, fails.bind _, kept⟩
      · exact .inr ⟨after, ends.bind (Attempt.yields_pure ())⟩
  | assign user task assignee =>
      have user_ne := users_named user (by simp [Operation.users])
      have assignee_ne := users_named assignee (by simp [Operation.users])
      have own (bytes : Bytes) (content : Task)
          (stored : world.scene.cells (Key.record task) = .value (some bytes))
          (decoded : Task.decode bytes = .ok content) : content.id = task :=
        orderly.own task bytes content (Store.get?_eq_of_cell_eq_value stored) decoded
      have unrepeated : world.scene.Unrepeated := orderly.unrepeated
      rcases assign_cases conditions (Operation.Assigned world.scene user task) policy
        unrepeated user_ne assignee_ne (task_named task rfl) own (absent _ le_rfl)
        (supplied.named _ le_rfl)
        (fun located link other found linked other_found linked_back =>
          .previous located other link found linked other_found linked_back)
        (fun located found => .own located found) with
        ⟨after, fails, moved⟩ | ⟨result, ends⟩ |
          ⟨located, content, orphaned, left, _, _, _, _, ends⟩
      · exact .inl ⟨after, fails.bind _, moved⟩
      · exact .inr ⟨_, ends.bind (Attempt.yields_pure ())⟩
      · obtain ⟨after, dropped⟩ :=
          dropOrphan_cases conditions left orphaned located.entry.link
        exact .inr ⟨after, (ends after dropped).bind (Attempt.yields_pure ())⟩
  | complete | remove | pop | bump | edit => cases undone

/-- An operation that undoes its steps and fails leaves every record and every tray as it was,
except that an assignment may have moved its two entries to the ends of their trays. -/
theorem restored_of_failed (policy : Policy) (operation : Operation) {world left : World}
    {failure : Failure} (undone : operation.isUndone = true)
    (supplied : world.Supplied conditions.around) (orderly : world.store.Orderly)
    (users_named : ∀ user ∈ operation.users, user ≠ "")
    (task_named : ∀ task ∈ operation.task?, task ≠ "")
    (failed : conditions.run (operation.attempt policy).run world = (.error failure, left)) :
    Store.Restored (operation.mayMove world.scene) world.store left.store := by
  rcases undone_cases policy operation world undone supplied orderly users_named task_named with
    ⟨after, fails, moved⟩ | ⟨after, ends⟩
  · obtain ⟨_, _, reached⟩ := fails world rfl
    rw [failed] at reached
    subst reached
    exact Store.restored_of_movedToEnd moved
  · have succeeded := (ends world rfl).1
    rw [failed] at succeeded
    cases succeeded

/-- Sending leaves nothing behind if the tray of the receiver cannot be written, which is the last
thing that sending does. -/
theorem restored_of_barred_receiver :
    let conditions : Conditions := ⟨.strokes, (· == Key.tray "bob" .received), fun _ => ⟨"down"⟩⟩
    let sending : Operation := .send "ann" "bob" "Call" "" none
    Store.Restored (fun _ _ => False) .empty
      (conditions.run (sending.attempt .standard).run ⟨.empty, ⟨0⟩, 0⟩).2.store := by
  intro conditions sending
  have failed : (conditions.run (sending.attempt .standard).run ⟨.empty, ⟨0⟩, 0⟩).1 =
      .error (.outage "down") := by decide +kernel
  have supplied : World.Supplied conditions.around ⟨.empty, ⟨0⟩, 0⟩ :=
    World.supplied_of_fresh Surroundings.fresh_strokes fun _ _ => rfl
  have users_named : ∀ user ∈ sending.users, user ≠ "" := by simp [sending, Operation.users]
  rcases run : conditions.run (sending.attempt .standard).run ⟨.empty, ⟨0⟩, 0⟩ with ⟨result, left⟩
  rw [run] at failed
  subst failed
  have task_named : ∀ task ∈ sending.task?, task ≠ "" := by simp [sending, Operation.task?]
  exact restored_of_failed .standard sending rfl supplied Store.orderly_empty users_named task_named
    run

end Workflow
end Handoff
