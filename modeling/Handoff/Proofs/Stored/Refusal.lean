import Handoff.Proofs.Pool.Dialogue
import Handoff.Proofs.Program.Refusal

/-!
# Trays and records on a store that refuses calls

Whichever calls are refused, a change of a tray that fails has changed nothing, and one that
succeeds has replaced the tray that was there.  A search reads the trays one after another, up to
the first that has an entry for the task or cannot be read.
-/

namespace Handoff

namespace Store

variable {store before after : Store} {user : UserId} {tray : Tray} {task : TaskId}

/-- An entry is gone from a tray where it was the first one for its task, and nothing else has
changed. -/
structure Loses (before : Store) (user : UserId) (tray : Tray) (entry : Entry) (after : Store) :
    Prop where
  lost : ∃ list, before.cell (Key.tray user tray) = .entries list ∧
    EntryList.find? entry.task list = some entry ∧
    after.cell (Key.tray user tray) = .entries (EntryList.erase entry.task list)
  kept : ∀ key, key ≠ Key.tray user tray → after.get? key = before.get? key

/-- A record may have been deleted, and nothing else has changed. -/
def MayForget (before : Store) (task : TaskId) (after : Store) : Prop :=
  after = before ∨ after = before.erase (Key.record task)

theorem MayForget.get?_of_ne (forgets : before.MayForget task after) {key : String}
    (other : key ≠ Key.record task) : after.get? key = before.get? key := by
  obtain rfl | rfl := forgets
  · rfl
  · exact before.get?_erase_of_ne other

theorem MayForget.get?_tray (forgets : before.MayForget task after) (user : UserId) (tray : Tray) :
    after.get? (Key.tray user tray) = before.get? (Key.tray user tray) :=
  forgets.get?_of_ne (Key.record_ne_tray task user tray).symm

theorem MayForget.get?_self (forgets : before.MayForget task after) :
    after.get? (Key.record task) = before.get? (Key.record task) ∨
      after.get? (Key.record task) = none := by
  obtain rfl | rfl := forgets
  · exact .inl rfl
  · exact .inr (before.get?_erase_self _)

theorem cell_tray_of_shows {list : List Entry}
    (shows : Trays.Shows (store.get? (Key.tray user tray)) list) :
    store.cell (Key.tray user tray) = .entries list := by
  rcases shows with ⟨absent, rfl⟩ | ⟨bytes, form, found, decoded⟩
  · simp [cell, absent]
  · simp [cell, found, decoded]

theorem loses_insert {list : List Entry} {entry : Entry}
    (shown : store.cell (Key.tray user tray) = .entries list)
    (found : EntryList.find? entry.task list = some entry) :
    store.Loses user tray entry
      (store.insert (Key.tray user tray)
        (EntryList.encode (EntryList.erase entry.task list))) where
  lost := by
    refine ⟨list, shown, found, ?_⟩
    have well : EntryList.WellLinked (EntryList.erase entry.task list) := fun other mem =>
      wellLinked_of_cell_eq_entries shown other (List.mem_of_mem_eraseP mem)
    rw [store.cell_insert_encode (Key.isTray_tray user tray) well, Function.update_self]
  kept _ other := store.get?_insert_of_ne _ other

end Store

def Exchange.isRefused (exchange : Exchange) : Bool :=
  match exchange.answer with
  | .ok _ => false
  | .error _ => true

variable {store after : Store} {exchanges : List Exchange}

open Attempt (Runs)

theorem Attempt.Runs.of_get {key : String} {ended : Except Failure (Option Bytes)}
    (runs : Runs (Attempt.get key) store exchanges ended after) :
    after = store ∧
      ((∃ outage, exchanges = [.read key (.error outage)] ∧
          ended = .error (.outage outage.reason)) ∨
        (exchanges = [.read key (.ok (store.get? key))] ∧ ended = .ok (store.get? key))) := by
  obtain ⟨outage, said, ends, same⟩ | ⟨said, ends, same⟩ := runs.of_call
  · exact ⟨same, .inl ⟨outage, said, ends⟩⟩
  · exact ⟨same, .inr ⟨said, ends⟩⟩

namespace Trays

variable {β : Type} {user : UserId} {tray : Tray} {task : TaskId} {budget : Nat}

/-! ## Changes -/

section Changes

variable {change : Change β} {ended : Except Failure β}

/-- In a dialogue with a store, a change that has a round left replaces what is there.  It fails
without effect if a call is refused or if it fails for the entries that are read. -/
theorem Dialogue.undergone {key : String} {left : Nat}
    (dialogue : Dialogue budget key change (left + 1) exchanges ended)
    (undergoes : store.Undergoes exchanges after) :
    (∃ failure, ended = .error failure ∧ after = store ∧
        ((∃ exchange ∈ exchanges, exchange.isRefused = true) ∨
          ∀ list, Shows (store.get? key) list → ∃ cause, change list = .error cause)) ∨
      ∃ list result changed, ended = .ok result ∧
        (∀ exchange ∈ exchanges, exchange.isRefused = false) ∧ Shows (store.get? key) list ∧
        change list = .ok (result, changed) ∧
        after = store.insert key (EntryList.encode changed) := by
  cases dialogue with
  | halted halts =>
      cases halts with
      | outage request outage =>
          exact .inl ⟨_, rfl, undergoes, .inl ⟨_, List.mem_singleton_self _, rfl⟩⟩
      | unreadable refused =>
          obtain ⟨found, same⟩ := undergoes
          have stored : store.get? key = some _ := found.symm
          refine .inl ⟨_, rfl, same, .inr fun list shows => ?_⟩
          rw [stored] at shows
          rcases shows with ⟨⟨⟩, _⟩ | ⟨_, _, ⟨⟩, decoded⟩
          cases refused.symm.trans decoded
      | refused shown refused =>
          obtain ⟨rfl, same⟩ := undergoes
          refine .inl ⟨_, rfl, same, .inr fun list shows => ?_⟩
          exact ⟨_, shows.unique shown ▸ refused⟩
  | failed shows done outage =>
      obtain ⟨_, same⟩ := undergoes
      exact .inl ⟨_, rfl, same, .inl ⟨_, List.mem_cons_of_mem _ (List.mem_singleton_self _), rfl⟩⟩
  | swapped shows done =>
      obtain ⟨rfl, _, same⟩ := undergoes
      simp only [Store.perform, ↓reduceIte] at same
      refine .inr ⟨_, _, _, rfl, ?_, shows, done, same⟩
      simp [Exchange.isRefused, Exchange.read, Exchange.swap]
  | lost =>
      -- Nobody else writes: the value is still the one that has been read.
      obtain ⟨rfl, refused, _⟩ := undergoes
      simp [Store.perform] at refused

theorem of_runs_alter (runs : Runs (alter budget user tray change) store exchanges ended after) :
    (∃ failure, ended = .error failure ∧ after = store ∧
        ((∃ exchange ∈ exchanges, exchange.isRefused = true) ∨
          ∀ list, store.cell (Key.tray user tray) = .entries list →
            ∃ cause, change list = .error cause)) ∨
      ∃ list result changed, ended = .ok result ∧
        (∀ exchange ∈ exchanges, exchange.isRefused = false) ∧
        store.cell (Key.tray user tray) = .entries list ∧ change list = .ok (result, changed) ∧
        after = store.insert (Key.tray user tray) (EntryList.encode changed) := by
  obtain ⟨left, some_round⟩ := exists_rounds budget
  have dialogue := dialogue_of_leads runs.leads
  rw [some_round] at dialogue
  obtain ⟨failure, ends, same, cause⟩ | ⟨list, result, changed, ends, served, shows, rest⟩ :=
    dialogue.undergone runs.undergoes
  · exact .inl ⟨failure, ends, same, cause.imp_right fun fails list shown =>
      fails list (Store.read_of_cell_eq_entries shown)⟩
  · exact .inr ⟨list, result, changed, ends, served, Store.cell_tray_of_shows shows, rest⟩

end Changes

theorem of_runs_remove {ended : Except Failure Entry}
    (runs : Runs (remove budget user tray task) store exchanges ended after) :
    (∃ failure, ended = .error failure ∧ after = store) ∨
      ∃ list entry, ended = .ok entry ∧ store.cell (Key.tray user tray) = .entries list ∧
        EntryList.find? task list = some entry ∧ store.Loses user tray entry after := by
  obtain ⟨failure, ends, same, _⟩ | ⟨list, entry, others, ends, _, shown, done, rfl⟩ :=
    of_runs_alter runs
  · exact .inl ⟨failure, ends, same⟩
  · obtain ⟨found, rfl⟩ := (Change.remove_eq_ok_iff user tray task).mp done
    obtain rfl := EntryList.task_eq_of_find? found
    exact .inr ⟨list, entry, ends, shown, found, Store.loses_insert shown found⟩

theorem of_runs_pop {ended : Except Failure Entry}
    (runs : Runs (pop budget user tray) store exchanges ended after) :
    (∃ failure, ended = .error failure ∧ after = store) ∨
      ∃ first rest, ended = .ok first ∧ store.cell (Key.tray user tray) = .entries (first :: rest) ∧
        store.Loses user tray first after := by
  obtain ⟨failure, ends, same, _⟩ | ⟨list, first, rest, ends, _, shown, done, rfl⟩ :=
    of_runs_alter runs
  · exact .inl ⟨failure, ends, same⟩
  · cases list with
    | nil => cases done
    | cons first rest =>
        cases done
        have found : EntryList.find? first.task (first :: rest) = some first := by
          simp [EntryList.find?]
        have left : EntryList.erase first.task (first :: rest) = rest := by
          simp [EntryList.erase]
        exact .inr ⟨first, rest, ends, shown, left ▸ Store.loses_insert shown found⟩

/-! ## Searching -/

/-- What is said when a tray is read, and how the reading ends. -/
inductive Reading (store : Store) (user : UserId) (tray : Tray) :
    Exchange → Except Failure (List Entry) → Prop
  | refused (outage : Outage) : Reading store user tray
    (.read (Key.tray user tray) (.error outage)) (.error (.outage outage.reason))
  | unreadable {bytes : Bytes} {cause : Json.Error}
    (stored : store.get? (Key.tray user tray) = some bytes)
    (refused : EntryList.decode bytes = .error cause) : Reading store user tray
    (.read (Key.tray user tray) (.ok (some bytes))) (.error (.unreadableTray cause))
  | shown {list : List Entry} (shown : store.cell (Key.tray user tray) = .entries list) :
    Reading store user tray (.read (Key.tray user tray) (.ok (store.get? (Key.tray user tray))))
      (.ok list)

/-- What is said in a search through trays for the entry for a task, and how it ends: with the
first tray that cannot be read or has such an entry, or after all of them. -/
inductive Searched (store : Store) (user : UserId) (task : TaskId) :
    List Tray → List Exchange → Except Failure (Option Located) → Prop
  | nowhere : Searched store user task [] [] (.ok none)
  | failed {tray : Tray} {trays : List Tray} {exchange : Exchange} {failure : Failure}
    (reading : Reading store user tray exchange (.error failure)) :
    Searched store user task (tray :: trays) [exchange] (.error failure)
  | found {tray : Tray} {trays : List Tray} {exchange : Exchange} {list : List Entry}
    {entry : Entry} {position : Nat} (reading : Reading store user tray exchange (.ok list))
    (here : EntryList.locate? task list = some (entry, position)) :
    Searched store user task (tray :: trays) [exchange] (.ok (some ⟨tray, entry, position⟩))
  | passed {tray : Tray} {trays : List Tray} {exchange : Exchange} {list : List Entry}
    {exchanges : List Exchange} {ended : Except Failure (Option Located)}
    (reading : Reading store user tray exchange (.ok list))
    (absent : EntryList.find? task list = none)
    (rest : Searched store user task trays exchanges ended) :
    Searched store user task (tray :: trays) (exchange :: exchanges) ended

theorem Reading.congr {exchange : Exchange} {ended : Except Failure (List Entry)}
    (reading : Reading store user tray exchange ended) {other : Store}
    (same : other.get? (Key.tray user tray) = store.get? (Key.tray user tray)) :
    Reading other user tray exchange ended := by
  cases reading with
  | refused outage => exact .refused outage
  | unreadable stored refused => exact .unreadable (same.trans stored) refused
  | shown shown =>
      rw [← same]
      exact .shown ((Store.cell_congr same).trans shown)

theorem Searched.congr {trays : List Tray} {ended : Except Failure (Option Located)}
    (searched : Searched store user task trays exchanges ended) {other : Store}
    (same : ∀ tray, other.get? (Key.tray user tray) = store.get? (Key.tray user tray)) :
    Searched other user task trays exchanges ended := by
  induction searched with
  | nowhere => exact .nowhere
  | failed reading => exact .failed (reading.congr (same _))
  | found reading here => exact .found (reading.congr (same _)) here
  | passed reading absent _ induction => exact .passed (reading.congr (same _)) absent induction

theorem of_runs_load {ended : Except Failure (List Entry × Option Bytes)}
    (runs : Runs (load (Key.tray user tray)) store exchanges ended after) :
    after = store ∧ ∃ exchange, exchanges = [exchange] ∧
      Reading store user tray exchange (ended.map Prod.fst) := by
  obtain ⟨failure, rfl, got⟩ | ⟨version, earlier, later, middle, rfl, got, runs⟩ := runs.of_bind
  · obtain ⟨rfl, ⟨outage, rfl, ⟨⟩⟩ | ⟨_, ⟨⟩⟩⟩ := got.of_get
    exact ⟨rfl, _, rfl, .refused outage⟩
  · obtain ⟨same, ⟨_, _, ⟨⟩⟩ | ⟨rfl, ⟨⟩⟩⟩ := got.of_get
    rw [same] at runs
    cases stored : store.get? (Key.tray user tray) with
    | none =>
        simp only [stored] at runs
        obtain ⟨rfl, rfl, rfl⟩ := Runs.of_pure runs
        rw [← stored]
        exact ⟨rfl, _, rfl, .shown (by simp [Store.cell, stored])⟩
    | some bytes =>
        rcases decoded : EntryList.decode bytes with cause | ⟨list, form⟩
        · simp only [stored, decoded] at runs
          obtain ⟨rfl, rfl, rfl⟩ := Runs.of_throw runs
          exact ⟨rfl, _, rfl, .unreadable stored decoded⟩
        · have shown : store.cell (Key.tray user tray) = .entries list := by
            simp [Store.cell, stored, decoded]
          have reading := Reading.shown shown
          rw [stored] at reading
          simp only [stored, decoded] at runs
          split at runs
          · obtain ⟨rfl, rfl, rfl⟩ := Runs.of_pure runs.of_note_bind
            exact ⟨rfl, _, rfl, reading⟩
          · obtain ⟨rfl, rfl, rfl⟩ := Runs.of_pure runs
            exact ⟨rfl, _, rfl, reading⟩

theorem of_runs_find? {ended : Except Failure (Option (Entry × Nat))}
    (runs : Runs (find? user tray task) store exchanges ended after) :
    after = store ∧ ∃ exchange read, exchanges = [exchange] ∧
      Reading store user tray exchange read ∧ ended = read.map (EntryList.locate? task) := by
  obtain ⟨list, rfl, listing⟩ := Runs.of_bind_pure runs
  obtain ⟨read, rfl, loading⟩ := Runs.of_bind_pure listing
  obtain ⟨rfl, exchange, rfl, reading⟩ := of_runs_load loading
  exact ⟨rfl, exchange, _, rfl, reading, rfl⟩

/-- A search that comes to its end has changed nothing. -/
theorem of_runs_locateIn {trays : List Tray} {ended : Except Failure (Option Located)}
    (runs : Runs (locateIn user task trays) store exchanges ended after) :
    after = store ∧ Searched store user task trays exchanges ended := by
  induction trays generalizing exchanges with
  | nil =>
      obtain ⟨rfl, rfl, rfl⟩ := Runs.of_pure runs
      exact ⟨rfl, .nowhere⟩
  | cons tray trays induction =>
      obtain ⟨failure, rfl, finding⟩ | ⟨found, earlier, later, middle, rfl, finding, runs⟩ :=
        runs.of_bind
      · obtain ⟨rfl, exchange, read, rfl, reading, ends⟩ := of_runs_find? finding
        cases read with
        | error cause =>
            cases ends
            exact ⟨rfl, .failed reading⟩
        | ok list => cases ends
      · obtain ⟨rfl, exchange, read, rfl, reading, ends⟩ := of_runs_find? finding
        cases read with
        | error cause => cases ends
        | ok list =>
            cases ends
            cases here : EntryList.locate? task list with
            | none =>
                rw [here] at runs
                obtain ⟨same, searched⟩ := induction runs
                exact ⟨same, .passed reading (by simpa [EntryList.locate?] using here) searched⟩
            | some pair =>
                rw [here] at runs
                obtain ⟨rfl, rfl, rfl⟩ := Runs.of_pure runs
                exact ⟨rfl, .found reading here⟩

theorem Reading.cell_eq {exchange : Exchange} {list : List Entry}
    (reading : Reading store user tray exchange (.ok list)) :
    store.cell (Key.tray user tray) = .entries list := by
  cases reading with
  | shown shown => exact shown

theorem Searched.exists_find? {trays : List Tray} {located : Located}
    (searched : Searched store user task trays exchanges (.ok (some located))) :
    ∃ list, store.cell (Key.tray user located.tray) = .entries list ∧
      EntryList.find? task list = some located.entry := by
  generalize same : Except.ok (some located) = ended at searched
  induction searched with
  | nowhere | failed => cases same
  | found reading here =>
      cases same
      obtain ⟨_, first, rfl, _⟩ := Option.map_eq_some_iff.mp here
      exact ⟨_, reading.cell_eq, first⟩
  | passed _ _ _ induction => exact induction same

theorem Searched.forall_absent {trays : List Tray}
    (searched : Searched store user task trays exchanges (.ok none)) :
    ∀ tray ∈ trays, ∃ list, store.cell (Key.tray user tray) = .entries list ∧
      EntryList.find? task list = none := by
  generalize same : Except.ok none = ended at searched
  induction searched with
  | nowhere => exact List.forall_mem_nil _
  | failed | found => cases same
  | passed reading absent _ induction =>
      exact List.forall_mem_cons.mpr ⟨⟨_, reading.cell_eq, absent⟩, induction same⟩

end Trays

/-! ## Records -/

namespace Records

variable {task : TaskId}

theorem of_runs_load {ended : Except Failure Task}
    (runs : Runs (load task) store exchanges ended after) :
    after = store ∧ ∃ answer, exchanges = [.read (Key.record task) answer] := by
  obtain ⟨_, _, got⟩ | ⟨version, _, later, _, rfl, got, rest⟩ := runs.of_bind
  · obtain ⟨rfl, ⟨_, said, _⟩ | ⟨said, _⟩⟩ := got.of_get
    all_goals exact ⟨rfl, _, said⟩
  · obtain ⟨same, ⟨_, _, ⟨⟩⟩ | ⟨rfl, _⟩⟩ := got.of_get
    rw [same] at rest
    have still : later = [] ∧ after = store := by
      split at rest
      · obtain ⟨silent, _, still⟩ := Runs.of_throw rest
        exact ⟨silent, still⟩
      · split at rest
        · obtain ⟨silent, _, still⟩ := Runs.of_pure rest
          exact ⟨silent, still⟩
        · obtain ⟨silent, _, still⟩ := Runs.of_throw rest
          exact ⟨silent, still⟩
    obtain ⟨rfl, still⟩ := still
    exact ⟨still, _, rfl⟩

theorem of_runs_take {ended : Except Failure Task}
    (runs : Runs (take task) store exchanges ended after) :
    (∃ earlier said, exchanges = earlier ++ [said] ∧ said.call.key = Key.record task) ∧
      store.MayForget task after := by
  obtain ⟨_, _, loading⟩ | ⟨content, earlier, later, middle, rfl, loading, rest⟩ := runs.of_bind
  · obtain ⟨rfl, answer, rfl⟩ := of_runs_load loading
    exact ⟨⟨[], _, rfl, rfl⟩, .inl rfl⟩
  · obtain ⟨rfl, answer, rfl⟩ := of_runs_load loading
    obtain ⟨_, _, deleting⟩ := Runs.of_bind_pure rest
    obtain ⟨outage, rfl, _, rfl⟩ | ⟨rfl, _, rfl⟩ := deleting.of_call
    · exact ⟨⟨_, _, rfl, rfl⟩, .inl rfl⟩
    · exact ⟨⟨_, _, rfl, rfl⟩, .inr rfl⟩

end Records
end Handoff
