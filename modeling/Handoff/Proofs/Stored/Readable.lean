import Handoff.Proofs.Stored.Contract
import Handoff.Program.World

/-!
# Trays and records that can be read back

A store is readable if every tray in it is stored in a form that is read back as it was written, and
every record under its own name.  A program that honours a contract about what it writes keeps a
store readable.
-/

namespace Handoff

/-- Every tray is stored as a list of well-linked entries, and every record has a name and lies
under it. -/
structure Store.Readable (store : Store) : Prop where
  trays : ∀ key bytes, Key.isTray key = true → store.get? key = some bytes →
    ∃ list, EntryList.WellLinked list ∧ bytes = EntryList.encode list
  records : ∀ task bytes, store.get? (Key.record task) = some bytes →
    task ≠ "" ∧ ∃ content, Task.decode bytes = .ok content ∧ content.id = task

namespace Store

variable {store : Store}

theorem readable_empty : empty.Readable := ⟨by simp, by simp⟩

theorem Readable.insert_tray (readable : store.Readable) {key : String}
    (isTray : Key.isTray key = true) {list : List Entry} (well : EntryList.WellLinked list) :
    (store.insert key (EntryList.encode list)).Readable := by
  refine ⟨fun other bytes tray found => ?_, fun task bytes found => ?_⟩
  · rw [get?_insert] at found
    split at found
    · cases found
      exact ⟨list, well, rfl⟩
    · exact readable.trays other bytes tray found
  · have differs : Key.record task ≠ key := by
      rintro rfl
      simp at isTray
    rw [get?_insert_of_ne store _ differs] at found
    exact readable.records task bytes found

theorem Readable.insert_record (readable : store.Readable) {content : Task}
    (named : content.id ≠ "") :
    (store.insert (Key.record content.id) content.encode).Readable := by
  refine ⟨fun key bytes tray found => ?_, fun task bytes found => ?_⟩
  · have differs : key ≠ Key.record content.id := by
      rintro rfl
      simp at tray
    rw [get?_insert_of_ne store _ differs] at found
    exact readable.trays key bytes tray found
  · rw [get?_insert] at found
    split at found
    · rename_i same
      cases found
      obtain rfl := Key.record_injective same
      exact ⟨named, _, content.decode_encode, rfl⟩
    · exact readable.records task bytes found

theorem Readable.erase (readable : store.Readable) (key : String) :
    (store.erase key).Readable := by
  have kept {other : String} {bytes : Bytes} (found : (store.erase key).get? other = some bytes) :
      store.get? other = some bytes := by
    rw [get?_erase] at found
    split at found
    · cases found
    · exact found
  exact ⟨fun other bytes tray found => readable.trays other bytes tray (kept found),
    fun task bytes found => readable.records task bytes (kept found)⟩

/-- A tray of a readable store is read as it was written. -/
theorem Readable.decode_eq (readable : store.Readable) {user : UserId} {tray : Tray} {bytes : Bytes}
    (found : store.get? (Key.tray user tray) = some bytes) :
    ∃ list, bytes = EntryList.encode list ∧ EntryList.decode bytes = .ok (list, .entries) := by
  obtain ⟨list, well, rfl⟩ := readable.trays _ bytes (Key.isTray_tray user tray) found
  exact ⟨list, rfl, EntryList.decode_encode well⟩

theorem Readable.exists_entries (readable : store.Readable) (user : UserId) (tray : Tray) :
    ∃ list, store.cell (Key.tray user tray) = .entries list := by
  unfold cell
  rw [if_pos (Key.isTray_tray user tray)]
  split
  · exact ⟨[], rfl⟩
  · rename_i bytes found
    obtain ⟨list, _, decoded⟩ := readable.decode_eq found
    exact ⟨list, by rw [decoded]⟩

end Store

namespace Contract

/-- Trays are written with well-linked entries, and records with a name and under it.  New records
get a name, and records that are read have theirs. -/
def readable : Contract where
  allows
    | .get _ => True
    | .set key value =>
      ∃ content : Task, content.id ≠ "" ∧ key = Key.record content.id ∧ value = content.encode
    | .compareAndSet key _ value =>
      Key.isTray key = true ∧ ∃ list, EntryList.WellLinked list ∧ value = EntryList.encode list
    | .delete key => ∃ task, key = Key.record task
  promises
    | .newTaskId, id => id ≠ ""
    | .call (.get key), .ok (some bytes) =>
      ∀ task, key = Key.record task →
        task ≠ "" ∧ ∀ content, Task.decode bytes = .ok content → content.id = task
    | _, _ => True

theorem answer_readable {around : Surroundings} (named : ∀ n, around.newTaskId n ≠ "")
    (action : Action) (world : World) (permitted : readable.Permits action)
    (legible : world.store.Readable) :
    readable.promises action (World.answer around action world).1 ∧
      (World.answer around action world).2.store.Readable := by
  cases action with
  | newTaskId => exact ⟨named world.issued, legible⟩
  | now | nameOf | note => exact ⟨trivial, legible⟩
  | call request =>
      cases request with
      | get key =>
          refine ⟨?_, legible⟩
          simp only [World.answer, Store.perform]
          cases found : world.store.get? key with
          | none => trivial
          | some bytes =>
              rintro task rfl
              obtain ⟨own, content, decoded, same⟩ := legible.records task bytes found
              refine ⟨own, fun other other_decoded => ?_⟩
              cases decoded.symm.trans other_decoded
              exact same
      | set key value =>
          obtain ⟨content, own, rfl, rfl⟩ := permitted
          exact ⟨trivial, legible.insert_record own⟩
      | compareAndSet key expected value =>
          obtain ⟨isTray, list, well, rfl⟩ := permitted
          refine ⟨trivial, ?_⟩
          simp only [World.answer, Store.perform]
          split
          · exact legible.insert_tray isTray well
          · exact legible
      | delete key => exact ⟨trivial, legible.erase key⟩

/-- A program that honours the contract keeps a store readable. -/
theorem readable_run {α : Type} {ends : α → Prop} {p : Program α} {around : Surroundings}
    (honours : p.Honours readable ends) (named : ∀ n, around.newTaskId n ≠ "") {world : World}
    (legible : world.store.Readable) : (p.run around world).2.store.Readable :=
  (honours.runWith (answer_readable named) legible).2

/-- The contract suits workflows that put nobody without a name into a link. -/
theorem suits_readable : readable.Suits (· ≠ "") (· ≠ "") Entry.WellLinked where
  reads := fun _ => trivial
  newTaskId := fun _ id_named => id_named
  recorded := by
    intro task bytes content promised decoded
    obtain ⟨task_named, own⟩ := promised task rfl
    exact ⟨own content decoded, task_named⟩
  saves := fun content content_named => ⟨content, content_named, rfl, rfl⟩
  deletes := fun task _ => ⟨task, rfl⟩
  shown := fun _ _ _ _ read => read.wellLinked
  swaps := fun user tray _ _ changed _ well => ⟨Key.isTray_tray user tray, changed, well, rfl⟩
  unlinked := Entry.wellLinked_unlinked
  linked := fun task _ _ user_named other_named =>
    Entry.wellLinked_linked task user_named other_named

end Contract
end Handoff
