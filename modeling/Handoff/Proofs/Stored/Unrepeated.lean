import Handoff.Proofs.Entry.RoundTrip
import Handoff.Proofs.Stored.Built
import Handoff.Proofs.Stored.Contract
import Handoff.Proofs.Stored.Moves

/-!
# Trays without repeated tasks

A change of a tray looks for a task before it puts in an entry for it, and it is applied to what is
replaced.  So no change makes a tray repeat a task, whatever else is done to the store in the
meantime.  This holds of every entry that is put in, also of one that is not well linked and so is
not read back.
-/

namespace Handoff

open Json

namespace EntryList

variable {list others : List Entry}

/-- A stored list that can be read back at all has the newer form and entries for the same tasks,
also if some of them were not well linked. -/
theorem tasks_eq_of_decode_encode {form : TrayForm}
    (decoded : decode (encode list) = .ok (others, form)) :
    form = .entries ∧ others.map Entry.task = list.map Entry.task := by
  rw [decode_encode_eq] at decoded
  split at decoded
  · cases decoded
  · cases decoded
    rw [List.map_map]
    exact ⟨rfl, rfl⟩

end EntryList

namespace Change

/-- A change that turns entries of which no task has two into such entries. -/
def KeepsUnrepeated {β : Type} (change : Change β) : Prop :=
  ∀ list result changed, EntryList.Unrepeated list → change list = .ok (result, changed) →
    EntryList.Unrepeated changed

variable (user : UserId) (tray : Tray) (task : TaskId)

theorem keepsUnrepeated_append (entry : Entry) : (append user tray entry).KeepsUnrepeated := by
  intro list result changed unrepeated done
  obtain ⟨absent, rfl⟩ := (append_eq_ok_iff user tray).mp done
  exact unrepeated.append absent

theorem keepsUnrepeated_remove : (remove user tray task).KeepsUnrepeated := by
  intro list result changed unrepeated done
  obtain ⟨_, rfl⟩ := (remove_eq_ok_iff user tray task).mp done
  exact unrepeated.erase task

theorem keepsUnrepeated_pop : (pop user tray).KeepsUnrepeated := by
  intro list result changed unrepeated done
  cases list with
  | nil => cases done
  | cons first rest =>
      cases done
      exact (List.nodup_cons.mp unrepeated).2

theorem keepsUnrepeated_bump : (bump user tray task).KeepsUnrepeated := by
  intro list result changed unrepeated done
  obtain ⟨entry, found, rfl⟩ := (bump_eq_ok_iff user tray task).mp done
  obtain rfl := EntryList.task_eq_of_find? found
  have others := EntryList.find?_eq_none_iff.mp (unrepeated.find?_erase entry.task)
  refine List.nodup_cons.mpr ⟨fun mem => ?_, unrepeated.erase entry.task⟩
  obtain ⟨other, listed, same⟩ := List.mem_map.mp mem
  exact others other listed same

end Change

/-- No tray that can be read, in whichever form, has two entries for a task. -/
def Store.Unrepeated (store : Store) : Prop :=
  ∀ user tray bytes list form, store.get? (Key.tray user tray) = some bytes →
    EntryList.decode bytes = .ok (list, form) → EntryList.Unrepeated list

namespace Store

variable {store : Store}

theorem unrepeated_empty : empty.Unrepeated := by
  intro user tray bytes list form found
  cases found

theorem Unrepeated.of_shows (unrepeated : store.Unrepeated) {user : UserId} {tray : Tray}
    {list : List Entry} (shows : Trays.Shows (store.get? (Key.tray user tray)) list) :
    EntryList.Unrepeated list := by
  rcases shows with ⟨_, rfl⟩ | ⟨bytes, form, found, decoded⟩
  · exact List.nodup_nil
  · exact unrepeated user tray bytes list form found decoded

/-- Writing entries of which no task has two keeps a store so, whatever their links. -/
theorem Unrepeated.insert_tray (unrepeated : store.Unrepeated) (key : String)
    {changed : List Entry} (fits : EntryList.Unrepeated changed) :
    (store.insert key (EntryList.encode changed)).Unrepeated := by
  intro user tray bytes list form found decoded
  rw [get?_insert] at found
  split at found
  · cases found
    unfold EntryList.Unrepeated
    rwa [(EntryList.tasks_eq_of_decode_encode decoded).2]
  · exact unrepeated user tray bytes list form found decoded

theorem Unrepeated.congr (unrepeated : store.Unrepeated) {other : Store}
    (same : ∀ user tray, other.get? (Key.tray user tray) = store.get? (Key.tray user tray)) :
    other.Unrepeated := by
  intro user tray bytes list form found
  rw [same user tray] at found
  exact unrepeated user tray bytes list form found

end Store

namespace Contract

/-- A tray is replaced by the outcome of a change that repeats no task, applied to what is replaced;
other values under the keys of trays are neither set nor deleted. -/
def swaps : Contract where
  allows
    | .get _ => True
    | .set key _ | .delete key => Key.isTray key = false
    | .compareAndSet key expected value => ∃ user tray list changed,
      key = Key.tray user tray ∧ Trays.Shows expected list ∧ value = EntryList.encode changed ∧
        (EntryList.Unrepeated list → EntryList.Unrepeated changed)
  promises := fun _ _ => True

/-- A call that is allowed makes no tray repeat a task. -/
theorem answer_swaps {around : Surroundings} (action : Action) (world : World)
    (permitted : swaps.Permits action) (begins : world.store.Unrepeated) :
    (World.answer around action world).2.store.Unrepeated := by
  cases action with
  | newTaskId | now | nameOf | note => exact begins
  | call request =>
      cases request with
      | get key => exact begins
      | set key value =>
          refine begins.congr fun user tray => world.store.get?_insert_of_ne value ?_
          rintro rfl
          cases permitted.symm.trans (Key.isTray_tray user tray)
      | delete key =>
          refine begins.congr fun user tray => world.store.get?_erase_of_ne ?_
          rintro rfl
          cases permitted.symm.trans (Key.isTray_tray user tray)
      | compareAndSet key expected value =>
          obtain ⟨user, tray, list, changed, rfl, shows, rfl, keeps⟩ := permitted
          simp only [World.answer, Store.perform]
          split
          · rename_i same
            exact begins.insert_tray _ (keeps (begins.of_shows (same ▸ shows)))
          · exact begins

end Contract

namespace Trays

open Contract (swaps)

variable {β : Type} {budget : Nat} {user : UserId} {tray : Tray}

theorem honours_swaps_alter {change : Change β} (keeps : change.KeepsUnrepeated) :
    Attempt.Honours swaps (fun _ => True) (alter budget user tray change) := by
  refine honours_alter trivial fun version list result changed read done => ⟨?_, trivial⟩
  exact ⟨user, tray, list, changed, rfl, read.2, rfl, fun fits =>
    keeps list result changed fits done⟩

end Trays

section
open Contract (swaps)

/-- A program that is built from the operations on trays and records makes no tray repeat a task. -/
theorem Program.Built.honours_swaps {α : Type} {p : Program α} (built : p.Built) :
    p.Honours swaps fun _ => True := by
  have reads {key : String} : swaps.allows (.get key) := trivial
  have saves (task : Task) : swaps.allows (.set (Key.record task.id) task.encode) :=
    Key.isTray_record task.id
  have deletes (task : TaskId) : swaps.allows (.delete (Key.record task)) :=
    Key.isTray_record task
  induction built with
  | pure a => trivial
  | bind _ _ first goes => exact first.bind fun a _ => goes a
  | newTaskId | now | nameOf | note => exact ⟨trivial, fun _ _ => trivial⟩
  | entries user tray => exact (Trays.honours_entries reads).run
  | append budget user tray entry =>
      exact (Trays.honours_swaps_alter (Change.keepsUnrepeated_append user tray entry)).run
  | remove budget user tray task =>
      exact (Trays.honours_swaps_alter (Change.keepsUnrepeated_remove user tray task)).run
  | pop budget user tray =>
      exact (Trays.honours_swaps_alter (Change.keepsUnrepeated_pop user tray)).run
  | bump budget user tray task =>
      exact (Trays.honours_swaps_alter (Change.keepsUnrepeated_bump user tray task)).run
  | load task => exact (Records.honours_load reads).run
  | save task => exact (Records.honours_save (saves task)).run
  | delete task => exact (Records.honours_delete (deletes task)).run

end
end Handoff
