import Handoff.Proofs.Stored.Contract

/-!
# Values that cannot be read

A tray that cannot be read is never swapped, since its entries would have to be read first.  A
record that cannot be read could be written and deleted without being read; a program that takes
care does so only to records that it has read or that are new, and leaves the others as they are.
-/

namespace Handoff

namespace Store

/-- The key is that of a tray or of a record, and its value cannot be read as one. -/
def Illegible (store : Store) (key : String) : Prop :=
  ∃ bytes cause, store.get? key = some bytes ∧
    ((∃ user tray, key = Key.tray user tray) ∧ EntryList.decode bytes = .error cause ∨
      (∃ task, key = Key.record task) ∧ Task.decode bytes = .error cause)

/-- Every record that can be read has the name under which it lies. -/
def OwnNamed (store : Store) : Prop :=
  ∀ task bytes content, store.get? (Key.record task) = some bytes →
    Task.decode bytes = .ok content → content.id = task

theorem not_illegible_of_get?_eq_none {store : Store} {key : String}
    (absent : store.get? key = none) : ¬store.Illegible key := by
  rintro ⟨bytes, cause, found, _⟩
  cases absent.symm.trans found

theorem not_illegible_of_shows {store : Store} {user : UserId} {tray : Tray} {list : List Entry}
    (shows : Trays.Shows (store.get? (Key.tray user tray)) list) :
    ¬store.Illegible (Key.tray user tray) := by
  rcases shows with ⟨absent, _⟩ | ⟨bytes, form, found, decoded⟩
  · exact not_illegible_of_get?_eq_none absent
  · rintro ⟨other, cause, other_found, ⟨_, refused⟩ | ⟨⟨task, same⟩, _⟩⟩
    · cases found.symm.trans other_found
      cases decoded.symm.trans refused
    · exact Key.record_ne_tray task user tray same.symm

theorem not_illegible_of_decode {store : Store} {task : TaskId} {bytes : Bytes} {content : Task}
    (found : store.get? (Key.record task) = some bytes)
    (decoded : Task.decode bytes = .ok content) : ¬store.Illegible (Key.record task) := by
  rintro ⟨other, cause, other_found, ⟨⟨user, tray, same⟩, _⟩ | ⟨_, refused⟩⟩
  · exact Key.record_ne_tray task user tray same
  · cases found.symm.trans other_found
    cases decoded.symm.trans refused

/-- What could not be read in an old store is still there as it was, and records that can be read
have the names under which they lie. -/
structure Unharmed (old store : Store) : Prop where
  kept : ∀ key, old.Illegible key → store.get? key = old.get? key
  own : store.OwnNamed

namespace Unharmed

variable {old store : Store}

theorem refl (own : old.OwnNamed) : old.Unharmed old := ⟨fun _ _ => rfl, own⟩

theorem not_illegible (unharmed : old.Unharmed store) {key : String}
    (legible : ¬store.Illegible key) : ¬old.Illegible key := by
  intro illegible
  obtain ⟨bytes, cause, found, refused⟩ := illegible
  exact legible ⟨bytes, cause, (unharmed.kept key ⟨bytes, cause, found, refused⟩).trans found,
    refused⟩

theorem insert_record (unharmed : old.Unharmed store) {content : Task}
    (free : ¬old.Illegible (Key.record content.id)) :
    old.Unharmed (store.insert (Key.record content.id) content.encode) := by
  refine ⟨fun key illegible => ?_, fun task bytes other found decoded => ?_⟩
  · have differs : key ≠ Key.record content.id := by
      rintro rfl
      exact free illegible
    rw [get?_insert_of_ne store _ differs, unharmed.kept key illegible]
  · rw [get?_insert] at found
    split at found
    · rename_i same
      cases found
      cases content.decode_encode.symm.trans decoded
      exact (Key.record_injective same).symm
    · exact unharmed.own task bytes other found decoded

theorem insert_tray (unharmed : old.Unharmed store) {user : UserId} {tray : Tray}
    (free : ¬old.Illegible (Key.tray user tray)) (value : Bytes) :
    old.Unharmed (store.insert (Key.tray user tray) value) := by
  refine ⟨fun key illegible => ?_, fun task bytes content found decoded => ?_⟩
  · have differs : key ≠ Key.tray user tray := by
      rintro rfl
      exact free illegible
    rw [get?_insert_of_ne store _ differs, unharmed.kept key illegible]
  · rw [get?_insert_of_ne store _ (Key.record_ne_tray task user tray)] at found
    exact unharmed.own task bytes content found decoded

theorem erase (unharmed : old.Unharmed store) {key : String} (free : ¬old.Illegible key) :
    old.Unharmed (store.erase key) := by
  refine ⟨fun other illegible => ?_, fun task bytes content found decoded => ?_⟩
  · have differs : other ≠ key := by
      rintro rfl
      exact free illegible
    rw [get?_erase_of_ne store differs, unharmed.kept other illegible]
  · rw [get?_erase] at found
    split at found
    · cases found
    · exact unharmed.own task bytes content found decoded

end Unharmed
end Store

/-- Trays are read before they are swapped, and nothing else is written or deleted but records
that were not illegible in an old store.  New records are given names of no such records, and those
that are read are not among them and have their own names. -/
def Contract.careful (old : Store) : Contract where
  allows
    | .get _ => True
    | .set key value => ∃ content : Task,
      key = Key.record content.id ∧ value = content.encode ∧ ¬old.Illegible key
    | .compareAndSet key expected _ => ∃ user tray list,
      key = Key.tray user tray ∧ Trays.Shows expected list
    | .delete key => ¬old.Illegible key
  promises
    | .newTaskId, id => ¬old.Illegible (Key.record id)
    | .call (.get key), .ok (some bytes) =>
      ∀ task content, key = Key.record task → Task.decode bytes = .ok content →
        content.id = task ∧ ¬old.Illegible key
    | _, _ => True

/-- What could not be read in an old store is unharmed, and no name of such a record will be given
to a new one. -/
structure World.Unharmed (around : Surroundings) (old : Store) (world : World) : Prop where
  store : old.Unharmed world.store
  unused : ∀ n, world.issued ≤ n → ¬old.Illegible (Key.record (around.newTaskId n))

namespace Contract

variable {around : Surroundings} {old : Store}

/-- A world answers as promised, and what cannot be read stays unharmed. -/
theorem answer_careful (action : Action) (world : World)
    (permitted : (careful old).Permits action) (unharmed : world.Unharmed around old) :
    (careful old).promises action (World.answer around action world).1 ∧
      (World.answer around action world).2.Unharmed around old := by
  obtain ⟨kept, unused⟩ := unharmed
  cases action with
  | newTaskId =>
      exact ⟨unused world.issued le_rfl, kept, fun n later => unused n (Nat.le_of_succ_le later)⟩
  | now | nameOf | note => exact ⟨trivial, kept, unused⟩
  | call request =>
      cases request with
      | get key =>
          refine ⟨?_, kept, unused⟩
          simp only [World.answer, Store.perform]
          cases found : world.store.get? key with
          | none => trivial
          | some bytes =>
              rintro task content rfl decoded
              exact ⟨kept.own task bytes content found decoded,
                kept.not_illegible (Store.not_illegible_of_decode found decoded)⟩
      | set key value =>
          obtain ⟨content, rfl, rfl, free⟩ := permitted
          exact ⟨trivial, kept.insert_record free, unused⟩
      | compareAndSet key expected value =>
          obtain ⟨user, tray, list, rfl, shows⟩ := permitted
          simp only [World.answer, Store.perform]
          split
          · rename_i found
            have legible := Store.not_illegible_of_shows (found.symm ▸ shows)
            exact ⟨trivial, kept.insert_tray (kept.not_illegible legible) value, unused⟩
          · exact ⟨trivial, kept, unused⟩
      | delete key => exact ⟨trivial, kept.erase permitted, unused⟩

/-- The contract suits every workflow. -/
theorem suits_careful (old : Store) :
    (careful old).Suits (fun task => ¬old.Illegible (Key.record task)) (fun _ => True)
      fun _ => True where
  reads := fun _ => trivial
  newTaskId := fun _ free => free
  recorded := fun task _ content promised decoded => promised task content rfl decoded
  saves := fun content free => ⟨content, rfl, rfl, free⟩
  deletes := fun _ free => free
  shown := fun _ _ _ _ _ _ _ => trivial
  swaps := fun user tray _ list _ read _ => ⟨user, tray, list, rfl, read.2⟩
  unlinked := fun _ => trivial
  linked := fun _ _ _ _ _ => trivial

end Contract
end Handoff
