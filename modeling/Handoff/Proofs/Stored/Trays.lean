import Handoff.Proofs.Stored.Records
import Handoff.Stored.Trays

/-!
# What operations on trays yield

A change of a tray either fails and leaves the scene as it was, or puts the changed entries into the
cell of the tray.  The search for an entry sees the cells only.
-/

namespace Handoff

namespace Change

/-- A change that makes fitting entries of fitting entries. -/
def Keeps {β : Type} (fits : Entry → Prop) (change : Change β) : Prop :=
  ∀ entries result changed, (∀ entry ∈ entries, fits entry) →
    change entries = .ok (result, changed) → ∀ entry ∈ changed, fits entry

/-- A change that turns well-linked entries into well-linked entries. -/
def KeepsLinks {β : Type} (change : Change β) : Prop :=
  ∀ entries result changed, EntryList.WellLinked entries →
    change entries = .ok (result, changed) → EntryList.WellLinked changed

variable (user : UserId) (tray : Tray) (task : TaskId)

theorem append_eq_ok_iff {entry : Entry} {entries changed : List Entry} :
    append user tray entry entries = .ok ((), changed) ↔
      EntryList.find? entry.task entries = none ∧ changed = entries ++ [entry] := by
  unfold append
  cases EntryList.find? entry.task entries with
  | none => simp [eq_comm]
  | some found => simp

theorem remove_eq_ok_iff {entry : Entry} {entries changed : List Entry} :
    remove user tray task entries = .ok (entry, changed) ↔
      EntryList.find? task entries = some entry ∧ changed = EntryList.erase task entries := by
  unfold remove
  cases EntryList.find? task entries with
  | none => simp
  | some found => simp [eq_comm]

theorem append_eq_error_iff {entry : Entry} {entries : List Entry} {failure : Failure} :
    append user tray entry entries = .error failure ↔
      EntryList.find? entry.task entries ≠ none ∧
        failure = .alreadyListed entry.task tray user := by
  unfold append
  cases EntryList.find? entry.task entries <;> simp [eq_comm]

theorem remove_eq_error_iff {entries : List Entry} {failure : Failure} :
    remove user tray task entries = .error failure ↔
      EntryList.find? task entries = none ∧ failure = .entryMissing task tray user := by
  unfold remove
  cases EntryList.find? task entries <;> simp [eq_comm]

theorem keeps_append {fits : Entry → Prop} {entry : Entry} (fit : fits entry) :
    (append user tray entry).Keeps fits := by
  intro entries result changed all done
  obtain ⟨_, rfl⟩ := (append_eq_ok_iff user tray).mp done
  intro other mem
  rcases List.mem_append.mp mem with old | new
  · exact all other old
  · rw [List.mem_singleton.mp new]
    exact fit

theorem keeps_remove (fits : Entry → Prop) : (remove user tray task).Keeps fits := by
  intro entries result changed all done
  obtain ⟨_, rfl⟩ := (remove_eq_ok_iff user tray task).mp done
  exact fun other mem => all other (List.mem_of_mem_eraseP mem)

theorem keeps_pop (fits : Entry → Prop) : (pop user tray).Keeps fits := by
  intro entries result changed all done
  cases entries with
  | nil => cases done
  | cons first rest =>
      cases done
      exact fun other mem => all other (List.mem_cons_of_mem _ mem)

theorem bump_eq_ok_iff {entries changed : List Entry} :
    bump user tray task entries = .ok ((), changed) ↔
      ∃ entry, EntryList.find? task entries = some entry ∧
        changed = entry :: EntryList.erase task entries := by
  unfold bump
  cases EntryList.find? task entries with
  | none => simp
  | some found => simp [eq_comm]

theorem keeps_bump (fits : Entry → Prop) : (bump user tray task).Keeps fits := by
  intro entries result changed all done
  obtain ⟨entry, found, rfl⟩ := (bump_eq_ok_iff user tray task).mp done
  intro other mem
  rcases List.mem_cons.mp mem with rfl | old
  · exact all other (List.mem_of_find?_eq_some found)
  · exact all other (List.mem_of_mem_eraseP old)

theorem keepsLinks_append {entry : Entry} (well : entry.WellLinked) :
    (append user tray entry).KeepsLinks :=
  keeps_append user tray well

theorem keepsLinks_remove : (remove user tray task).KeepsLinks := keeps_remove user tray task _

theorem keepsLinks_pop : (pop user tray).KeepsLinks := keeps_pop user tray _

theorem keepsLinks_bump : (bump user tray task).KeepsLinks := keeps_bump user tray task _

end Change

namespace Trays

open Attempt (Yields Fails run_get run_write run_write_of_barred)

variable {conditions : Conditions} {scene : Scene}

theorem run_load {world : World} {key : String} {list : List Entry}
    (shown : world.store.cell key = .entries list) :
    conditions.run (load key).run world = (.ok (list, world.store.get? key), world) := by
  unfold load
  rw [Conditions.run_bind, run_get]
  rcases Store.read_of_cell_eq_entries shown with ⟨absent, rfl⟩ | ⟨bytes, form, found, decoded⟩
  · rw [absent]
    rfl
  · rw [found]
    simp only [decoded]
    cases form <;> rfl

theorem run_load_of_unreadable {world : World} {key : String} {bytes : Bytes} {cause : Json.Error}
    (found : world.store.get? key = some bytes) (refused : EntryList.decode bytes = .error cause) :
    conditions.run (load key).run world = (.error (.unreadableTray cause), world) := by
  unfold load
  rw [Conditions.run_bind, run_get, found]
  simp only [refused]
  rfl

theorem run_load_of_value {world : World} {user : UserId} {tray : Tray} {bytes : Option Bytes}
    (conditions : Conditions) (hidden : world.store.cell (Key.tray user tray) = .value bytes) :
    ∃ cause, conditions.run (load (Key.tray user tray)).run world =
      (.error (.unreadableTray cause), world) := by
  obtain ⟨value, cause, rfl, found, refused⟩ :=
    Store.unreadable_of_cell_eq_value (Key.isTray_tray user tray) hidden
  exact ⟨cause, run_load_of_unreadable found refused⟩

theorem load_cases (conditions : Conditions) (scene : Scene) (user : UserId) (tray : Tray) :
    Fails conditions (load (Key.tray user tray)) scene scene ∨
      ∃ list, scene.cells (Key.tray user tray) = .entries list ∧ EntryList.WellLinked list := by
  cases shown : scene.cells (Key.tray user tray) with
  | entries list =>
      by_cases well : EntryList.WellLinked list
      · exact .inr ⟨list, rfl, well⟩
      · refine .inl fun world seen => ?_
        subst seen
        exact absurd (Store.wellLinked_of_cell_eq_entries shown) well
  | value value =>
      refine .inl fun world seen => ?_
      subst seen
      obtain ⟨cause, run⟩ := run_load_of_value conditions shown
      rw [run]
      exact ⟨.unreadableTray cause, rfl, rfl⟩

section
variable {β : Type} {change : Change β} {user : UserId} {tray : Tray} {list changed : List Entry}
  {result : β}

theorem exists_rounds (budget : Nat) : ∃ left, rounds budget = left + 1 :=
  ⟨rounds budget - 1, by unfold rounds; omega⟩

theorem run_round {world : World} {key : String} (budget left : Nat)
    (shown : world.store.cell key = .entries list) :
    conditions.run (changeWithin budget key change (left + 1)).run world =
      conditions.run (do
        let (result, changed) ← Attempt.ofExcept (change list)
        if ← Attempt.compareAndSet key (world.store.get? key) (EntryList.encode changed) then
          return result
        else
          Attempt.note .retrying
          changeWithin budget key change left : Attempt β).run world := by
  rw [changeWithin, Conditions.run_bind, run_load shown]

/-- A tray that can be read is changed in the first round, if its key is not barred and the change
does not fail. -/
theorem run_alter {world : World} (budget : Nat)
    (free : conditions.barred (Key.tray user tray) = false)
    (shown : world.store.cell (Key.tray user tray) = .entries list) :
    conditions.run (alter budget user tray change).run world =
      match change list with
      | .ok (result, changed) => (.ok result,
          { world with
            store := world.store.insert (Key.tray user tray) (EntryList.encode changed) })
      | .error failure => (.error failure, world) := by
  obtain ⟨left, some_round⟩ := exists_rounds budget
  unfold alter
  rw [some_round, run_round _ _ shown]
  cases done : change list with
  | error failure => rfl
  | ok pair =>
      obtain ⟨result, changed⟩ := pair
      let request : Call := .compareAndSet (Key.tray user tray)
        (world.store.get? (Key.tray user tray)) (EntryList.encode changed)
      have swapped : world.store.perform request =
          (true, world.store.insert (Key.tray user tray) (EntryList.encode changed)) := by
        simp [request, Store.perform]
      have unchanged : conditions.run (Attempt.ofExcept (.ok (result, changed))).run world =
        (.ok (result, changed), world) := rfl
      rw [Conditions.run_bind, unchanged]
      dsimp only
      rw [Conditions.run_bind, Attempt.compareAndSet, run_write request free, swapped]
      rfl

theorem run_alter_of_value {world : World} {bytes : Option Bytes} (conditions : Conditions)
    (budget : Nat) (change : Change β)
    (hidden : world.store.cell (Key.tray user tray) = .value bytes) :
    ∃ cause, conditions.run (alter budget user tray change).run world =
      (.error (.unreadableTray cause), world) := by
  obtain ⟨cause, run⟩ := run_load_of_value conditions hidden
  obtain ⟨left, some_round⟩ := exists_rounds budget
  refine ⟨cause, ?_⟩
  unfold alter
  rw [some_round, changeWithin, Conditions.run_bind, run]

theorem yields_alter (budget : Nat) (keeps : change.KeepsLinks)
    (free : conditions.barred (Key.tray user tray) = false)
    (shown : scene.cells (Key.tray user tray) = .entries list)
    (done : change list = .ok (result, changed)) :
    Yields conditions (alter budget user tray change) scene result
      (scene.put (Key.tray user tray) (.entries changed)) := by
  intro world seen
  subst seen
  have well := keeps list result changed (Store.wellLinked_of_cell_eq_entries shown) done
  rw [run_alter budget free shown, done]
  refine ⟨rfl, ?_⟩
  have cells := Store.cell_insert_encode world.store (Key.isTray_tray user tray) well
  exact congrArg (Scene.mk · world.clock world.issued) cells

theorem alter_cases (conditions : Conditions) (scene : Scene) (budget : Nat) (user : UserId)
    (tray : Tray) (change : Change β) :
    Fails conditions (alter budget user tray change) scene scene ∨
      (conditions.barred (Key.tray user tray) = false ∧ ∃ list result changed,
        scene.cells (Key.tray user tray) = .entries list ∧ EntryList.WellLinked list ∧
          change list = .ok (result, changed)) := by
  obtain ⟨left, some_round⟩ := exists_rounds budget
  rcases load_cases conditions scene user tray with fails | ⟨list, shown, well⟩
  · left
    unfold alter
    rw [some_round, changeWithin]
    exact fails.bind _
  · cases done : change list with
    | error failure =>
        refine .inl fun world seen => ?_
        subst seen
        unfold alter
        rw [some_round, run_round _ _ shown, done]
        exact ⟨failure, rfl, rfl⟩
    | ok pair =>
        obtain ⟨result, changed⟩ := pair
        cases barred : conditions.barred (Key.tray user tray) with
        | false => exact .inr ⟨rfl, list, result, changed, shown, well, done⟩
        | true =>
            refine .inl fun world seen => ?_
            subst seen
            let request : Call := .compareAndSet (Key.tray user tray)
              (world.store.get? (Key.tray user tray)) (EntryList.encode changed)
            have unchanged : conditions.run (Attempt.ofExcept (.ok (result, changed))).run world =
              (.ok (result, changed), world) := rfl
            unfold alter
            rw [some_round, run_round _ _ shown, done, Conditions.run_bind, unchanged]
            dsimp only
            rw [Conditions.run_bind, Attempt.compareAndSet,
              run_write_of_barred request rfl barred]
            exact ⟨.outage (conditions.outage request).reason, rfl, rfl⟩

end

end Trays

namespace Scene

/-- An entry has been put at the end of a tray that had none for its task. -/
def Appended (before : Scene) (user : UserId) (tray : Tray) (entry : Entry) (after : Scene) :
    Prop :=
  ∃ list, before.cells (Key.tray user tray) = .entries list ∧
    EntryList.find? entry.task list = none ∧
    after = before.put (Key.tray user tray) (.entries (list ++ [entry]))

/-- An entry, the first one for its task, has been taken out of a tray. -/
def Removed (before : Scene) (user : UserId) (tray : Tray) (entry : Entry) (after : Scene) :
    Prop :=
  ∃ list, before.cells (Key.tray user tray) = .entries list ∧
    EntryList.find? entry.task list = some entry ∧
    after = before.put (Key.tray user tray) (.entries (EntryList.erase entry.task list))

/-- An entry, the first one for its task, has been moved to the front of a tray. -/
def Bumped (before : Scene) (user : UserId) (tray : Tray) (entry : Entry) (after : Scene) :
    Prop :=
  ∃ list, before.cells (Key.tray user tray) = .entries list ∧
    EntryList.find? entry.task list = some entry ∧
    after = before.put (Key.tray user tray) (.entries (entry :: EntryList.erase entry.task list))

variable {before after : Scene} {user : UserId} {tray : Tray} {entry : Entry} {key : String}

theorem Appended.cells_of_ne (appended : before.Appended user tray entry after)
    (differs : key ≠ Key.tray user tray) : after.cells key = before.cells key := by
  obtain ⟨list, _, _, rfl⟩ := appended
  exact put_cells_of_ne _ _ differs

theorem Appended.issued_eq (appended : before.Appended user tray entry after) :
    after.issued = before.issued := by
  obtain ⟨list, _, _, rfl⟩ := appended
  rfl

theorem Removed.cells_of_ne (removed : before.Removed user tray entry after)
    (differs : key ≠ Key.tray user tray) : after.cells key = before.cells key := by
  obtain ⟨list, _, _, rfl⟩ := removed
  exact put_cells_of_ne _ _ differs

theorem Removed.issued_eq (removed : before.Removed user tray entry after) :
    after.issued = before.issued := by
  obtain ⟨list, _, _, rfl⟩ := removed
  rfl

theorem Removed.issue (removed : before.Removed user tray entry after) :
    before.issue.Removed user tray entry after.issue := by
  obtain ⟨list, shown, found, rfl⟩ := removed
  exact ⟨list, shown, found, rfl⟩

/-- The entry that is taken out is the one that is found. -/
theorem Removed.eq_of_find? {list : List Entry} {found : Entry}
    (removed : before.Removed user tray entry after)
    (shown : before.cells (Key.tray user tray) = .entries list)
    (first : EntryList.find? entry.task list = some found) : entry = found := by
  obtain ⟨others, others_shown, other_first, _⟩ := removed
  rw [shown] at others_shown
  cases others_shown
  exact Option.some.inj (other_first.symm.trans first)

theorem Bumped.issued_eq (bumped : before.Bumped user tray entry after) :
    after.issued = before.issued := by
  obtain ⟨list, _, _, rfl⟩ := bumped
  rfl

end Scene

namespace EntryList

theorem task_eq_of_find? {task : TaskId} {list : List Entry} {entry : Entry}
    (found : find? task list = some entry) : entry.task = task := by
  simpa using List.find?_some found

theorem mem_of_find? {task : TaskId} {list : List Entry} {entry : Entry}
    (found : find? task list = some entry) : entry ∈ list :=
  List.mem_of_find?_eq_some found

end EntryList

namespace Trays

open Attempt (Yields Fails)

variable {conditions : Conditions} {scene after : Scene} {user : UserId} {tray : Tray}
  {task : TaskId} {entry : Entry} {list : List Entry}

/-! ## The four changes -/

theorem yields_append (budget : Nat) (well : entry.WellLinked)
    (free : conditions.barred (Key.tray user tray) = false)
    (appended : scene.Appended user tray entry after) :
    Yields conditions (append budget user tray entry) scene () after := by
  obtain ⟨list, shown, absent, rfl⟩ := appended
  exact yields_alter budget (Change.keepsLinks_append user tray well) free shown
    ((Change.append_eq_ok_iff user tray).mpr ⟨absent, rfl⟩)

theorem append_cases (conditions : Conditions) (scene : Scene) (budget : Nat) (user : UserId)
    (tray : Tray) {entry : Entry} (well : entry.WellLinked) :
    Fails conditions (append budget user tray entry) scene scene ∨
      conditions.barred (Key.tray user tray) = false ∧ ∃ after,
        scene.Appended user tray entry after ∧
          Yields conditions (append budget user tray entry) scene () after := by
  rcases alter_cases conditions scene budget user tray (.append user tray entry) with
    fails | ⟨free, list, ⟨⟩, changed, shown, _, done⟩
  · exact .inl fails
  · have absent := ((Change.append_eq_ok_iff user tray).mp done).1
    have appended : scene.Appended user tray entry _ := ⟨list, shown, absent, rfl⟩
    exact .inr ⟨free, _, appended, yields_append budget well free appended⟩

theorem yields_remove (budget : Nat) (free : conditions.barred (Key.tray user tray) = false)
    (removed : scene.Removed user tray entry after) :
    Yields conditions (remove budget user tray entry.task) scene entry after := by
  obtain ⟨list, shown, found, rfl⟩ := removed
  exact yields_alter budget (Change.keepsLinks_remove user tray entry.task) free shown
    ((Change.remove_eq_ok_iff user tray entry.task).mpr ⟨found, rfl⟩)

theorem remove_cases (conditions : Conditions) (scene : Scene) (budget : Nat) (user : UserId)
    (tray : Tray) (task : TaskId) :
    Fails conditions (remove budget user tray task) scene scene ∨
      conditions.barred (Key.tray user tray) = false ∧ ∃ entry after, entry.task = task ∧
        entry.WellLinked ∧ scene.Removed user tray entry after ∧
          Yields conditions (remove budget user tray task) scene entry after := by
  rcases alter_cases conditions scene budget user tray (.remove user tray task) with
    fails | ⟨free, list, entry, changed, shown, well, done⟩
  · exact .inl fails
  · have found := ((Change.remove_eq_ok_iff user tray task).mp done).1
    obtain rfl := EntryList.task_eq_of_find? found
    have removed : scene.Removed user tray entry _ := ⟨list, shown, found, rfl⟩
    exact .inr ⟨free, entry, _, rfl, well entry (EntryList.mem_of_find? found), removed,
      yields_remove budget free removed⟩

theorem yields_pop (budget : Nat) (free : conditions.barred (Key.tray user tray) = false)
    (shown : scene.cells (Key.tray user tray) = .entries (entry :: list)) :
    Yields conditions (pop budget user tray) scene entry
      (scene.put (Key.tray user tray) (.entries list)) :=
  yields_alter budget (Change.keepsLinks_pop user tray) free shown rfl

theorem pop_cases (conditions : Conditions) (scene : Scene) (budget : Nat) (user : UserId)
    (tray : Tray) :
    Fails conditions (pop budget user tray) scene scene ∨
      conditions.barred (Key.tray user tray) = false ∧ ∃ entry rest after,
        scene.cells (Key.tray user tray) = .entries (entry :: rest) ∧
          scene.Removed user tray entry after ∧
          Yields conditions (pop budget user tray) scene entry after := by
  rcases alter_cases conditions scene budget user tray (.pop user tray) with
    fails | ⟨free, list, entry, changed, shown, _, done⟩
  · exact .inl fails
  · cases list with
    | nil => cases done
    | cons first rest =>
        refine .inr ⟨free, first, rest, _, shown, ⟨first :: rest, shown, ?_, ?_⟩,
          yields_pop budget free shown⟩
        · simp [EntryList.find?]
        · simp [EntryList.erase]

theorem yields_bump (budget : Nat) (free : conditions.barred (Key.tray user tray) = false)
    (bumped : scene.Bumped user tray entry after) :
    Yields conditions (bump budget user tray entry.task) scene () after := by
  obtain ⟨list, shown, found, rfl⟩ := bumped
  exact yields_alter budget (Change.keepsLinks_bump user tray entry.task) free shown
    ((Change.bump_eq_ok_iff user tray entry.task).mpr ⟨entry, found, rfl⟩)

theorem bump_cases (conditions : Conditions) (scene : Scene) (budget : Nat) (user : UserId)
    (tray : Tray) (task : TaskId) :
    Fails conditions (bump budget user tray task) scene scene ∨
      conditions.barred (Key.tray user tray) = false ∧ ∃ entry after, entry.task = task ∧
        scene.Bumped user tray entry after ∧
          Yields conditions (bump budget user tray task) scene () after := by
  rcases alter_cases conditions scene budget user tray (.bump user tray task) with
    fails | ⟨free, list, ⟨⟩, changed, shown, _, done⟩
  · exact .inl fails
  · obtain ⟨entry, found, _⟩ := (Change.bump_eq_ok_iff user tray task).mp done
    obtain rfl := EntryList.task_eq_of_find? found
    have bumped : scene.Bumped user tray entry _ := ⟨list, shown, found, rfl⟩
    exact .inr ⟨free, entry, _, rfl, bumped, yields_bump budget free bumped⟩

/-! ## Searching -/

theorem yields_entries (shown : scene.cells (Key.tray user tray) = .entries list) :
    Yields conditions (entries user tray) scene list scene := by
  intro world seen
  subst seen
  unfold entries
  rw [Conditions.run_bind, run_load shown]
  exact ⟨rfl, rfl⟩

theorem yields_find? (conditions : Conditions) (task : TaskId)
    (shown : scene.cells (Key.tray user tray) = .entries list) :
    Yields conditions (find? user tray task) scene (EntryList.locate? task list) scene :=
  (yields_entries shown).bind (Attempt.yields_pure _)

theorem find?_cases (conditions : Conditions) (scene : Scene) (user : UserId) (tray : Tray)
    (task : TaskId) :
    Fails conditions (find? user tray task) scene scene ∨
      ∃ list, scene.cells (Key.tray user tray) = .entries list ∧ EntryList.WellLinked list :=
  (load_cases conditions scene user tray).imp_left fun fails => (fails.bind _).bind _

end Trays

namespace Scene

/-- The entry for a task in the first of the given trays that has one, if all trays before it can
be read. -/
def locateIn (scene : Scene) (user : UserId) (task : TaskId) : List Tray → Option Located
  | [] => none
  | tray :: trays =>
    match scene.cells (Key.tray user tray) with
    | .value _ => none
    | .entries list =>
      match EntryList.locate? task list with
      | some (entry, position) => some ⟨tray, entry, position⟩
      | none => scene.locateIn user task trays

/-- The entry for a task in the first of the user's trays that has one. -/
def locate? (scene : Scene) (user : UserId) (task : TaskId) : Option Located :=
  scene.locateIn user task Tray.all

/-- An entry that is found is in the tray where it is found, the first one for its task. -/
theorem find?_of_locateIn {scene : Scene} {user : UserId} {task : TaskId} {trays : List Tray}
    {located : Located} (found : scene.locateIn user task trays = some located) :
    ∃ list, scene.cells (Key.tray user located.tray) = .entries list ∧
      EntryList.find? task list = some located.entry := by
  induction trays with
  | nil => cases found
  | cons tray trays induction =>
      unfold locateIn at found
      split at found
      · cases found
      · rename_i list shown
        split at found
        · rename_i entry position here
          cases found
          obtain ⟨first, is_first, pair⟩ := Option.map_eq_some_iff.mp here
          cases pair
          exact ⟨list, shown, is_first⟩
        · exact induction found

theorem task_eq_of_locate? {scene : Scene} {user : UserId} {task : TaskId} {located : Located}
    (found : scene.locate? user task = some located) : located.entry.task = task := by
  obtain ⟨list, _, first⟩ := find?_of_locateIn found
  exact EntryList.task_eq_of_find? first

end Scene

namespace Trays

open Attempt (Yields Fails)

/-- A search sees the cells only. -/
theorem locateIn_cases (conditions : Conditions) (scene : Scene) (user : UserId) (task : TaskId)
    (trays : List Tray) :
    (Fails conditions (locateIn user task trays) scene scene ∧
        scene.locateIn user task trays = none) ∨
      Yields conditions (locateIn user task trays) scene (scene.locateIn user task trays)
        scene := by
  induction trays with
  | nil => exact .inr (Attempt.yields_pure none)
  | cons tray trays induction =>
      unfold locateIn Scene.locateIn
      cases shown : scene.cells (Key.tray user tray) with
      | value value =>
          refine .inl ⟨Fails.bind ?_ _, rfl⟩
          refine (find?_cases conditions scene user tray task).resolve_right ?_
          rintro ⟨_, readable, _⟩
          cases shown.symm.trans readable
      | entries list =>
          have searched := yields_find? conditions task shown
          dsimp only
          cases here : EntryList.locate? task list with
          | some pair =>
              rw [here] at searched
              exact .inr (searched.bind (Attempt.yields_pure _))
          | none =>
              rw [here] at searched
              exact induction.imp (And.imp_left searched.bind_fails) searched.bind

theorem yields_locate? {conditions : Conditions} {scene : Scene} {user : UserId} {task : TaskId}
    {located : Located} (found : scene.locate? user task = some located) :
    Yields conditions (locate? user task) scene (some located) scene := by
  rcases locateIn_cases conditions scene user task Tray.all with ⟨_, missing⟩ | ends
  · cases found.symm.trans missing
  · exact found ▸ ends

theorem locate?_cases (conditions : Conditions) (scene : Scene) (user : UserId) (task : TaskId) :
    Fails conditions (locate? user task) scene scene ∨
      Yields conditions (locate? user task) scene (scene.locate? user task) scene :=
  (locateIn_cases conditions scene user task Tray.all).imp_left And.left

end Trays
end Handoff
