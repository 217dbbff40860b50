import Handoff.Proofs.Pairing.Paired
import Handoff.Proofs.Stored.Unharmed

/-!
# Where a task is found

A search looks through the trays of a user in order.  It finds the first tray that has an entry for
the task, and the first of these entries, unless it meets a tray before that cannot be read.
-/

namespace Handoff

/-- A tray is looked through before another one. -/
def Tray.Precedes (tray other : Tray) : Prop := tray ∈ Tray.all.takeWhile (· != other)

instance (tray other : Tray) : Decidable (tray.Precedes other) :=
  inferInstanceAs (Decidable (_ ∈ _))

theorem Tray.precedes_or (tray other : Tray) :
    tray.Precedes other ∨ tray = other ∨ other.Precedes tray := by
  cases tray <;> cases other <;> decide

/-- What stands before a tray in the order of trays precedes it. -/
theorem Tray.precedes_iff {earlier tray : Tray} {before after : List Tray}
    (order : Tray.all = before ++ tray :: after) : earlier.Precedes tray ↔ earlier ∈ before := by
  have different : ∀ other ∈ before, (other != tray) = true := by
    intro other mem
    have distinct : (before ++ tray :: after).Nodup := order ▸ by decide
    exact bne_iff_ne.mpr fun same =>
      (List.nodup_append.mp distinct).2.2 other mem tray List.mem_cons_self same
  unfold Precedes
  rw [order, List.takeWhile_append_of_pos different]
  simp

namespace EntryList

/-- The first entry for a task stands at a position, counted from 0. -/
structure FirstAt (list : List Entry) (task : TaskId) (position : Nat) : Prop where
  here : ∃ entry, list[position]? = some entry ∧ entry.task = task
  before : ∀ earlier entry, earlier < position → list[earlier]? = some entry → entry.task ≠ task

variable {list : List Entry} {task : TaskId} {entry : Entry} {position : Nat}

/-- An entry that is located is the first one for its task. -/
theorem getElem?_of_locate? (found : locate? task list = some (entry, position)) :
    list[position]? = some entry := by
  obtain ⟨first, is_first, pair⟩ := Option.map_eq_some_iff.mp found
  cases pair
  rw [← is_first, find?, List.find?_eq_getElem?_findIdx]

theorem firstAt_of_locate? (found : locate? task list = some (entry, position)) :
    FirstAt list task position := by
  have here := getElem?_of_locate? found
  obtain ⟨first, is_first, pair⟩ := Option.map_eq_some_iff.mp found
  cases pair
  refine ⟨⟨entry, here, task_eq_of_find? is_first⟩, fun earlier other less there => ?_⟩
  obtain ⟨within, rfl⟩ := List.getElem?_eq_some_iff.mp there
  simpa using List.not_of_lt_findIdx less

end EntryList

namespace Store

/-- A tray can be read and has an entry for a task. -/
def Has (store : Store) (user : UserId) (tray : Tray) (task : TaskId) : Prop :=
  ∃ entry, store.Lists user tray entry ∧ entry.task = task

/-- A tray is the first of a user's trays that has an entry for a task. -/
structure FirstWith (store : Store) (user : UserId) (task : TaskId) (tray : Tray) : Prop where
  has : store.Has user tray task
  first : ∀ earlier : Tray, earlier.Precedes tray → ¬store.Has user earlier task

/-- A tray that cannot be read comes before the first tray that has an entry for a task. -/
def Obstructed (store : Store) (user : UserId) (task : TaskId) : Prop :=
  ∃ tray earlier, store.FirstWith user task tray ∧ earlier.Precedes tray ∧
    store.Illegible (Key.tray user earlier)

variable {store : Store} {user : UserId} {tray : Tray} {task : TaskId} {list : List Entry}

theorem illegible_tray_iff : store.Illegible (Key.tray user tray) ↔
    ¬∃ list, store.cell (Key.tray user tray) = .entries list := by
  constructor
  · rintro illegible ⟨list, shown⟩
    exact not_illegible_of_shows (read_of_cell_eq_entries shown) illegible
  · intro unreadable
    cases shown : store.cell (Key.tray user tray) with
    | entries list => exact absurd ⟨list, shown⟩ unreadable
    | value bytes =>
        obtain ⟨value, cause, _, found, refused⟩ :=
          unreadable_of_cell_eq_value (Key.isTray_tray user tray) shown
        exact ⟨value, cause, found, .inl ⟨⟨user, tray, rfl⟩, refused⟩⟩

theorem has_iff (shown : store.cell (Key.tray user tray) = .entries list) :
    store.Has user tray task ↔ EntryList.find? task list ≠ none := by
  simp only [Ne, EntryList.find?_eq_none_iff, not_forall, not_not, exists_prop]
  constructor
  · rintro ⟨entry, ⟨others, others_shown, mem⟩, same⟩
    cases shown.symm.trans others_shown
    exact ⟨entry, mem, same⟩
  · rintro ⟨entry, mem, same⟩
    exact ⟨entry, ⟨list, shown, mem⟩, same⟩

theorem not_has_of_illegible (illegible : store.Illegible (Key.tray user tray)) :
    ¬store.Has user tray task := by
  rintro ⟨entry, ⟨list, shown, _⟩, _⟩
  exact illegible_tray_iff.mp illegible ⟨list, shown⟩

theorem exists_firstWith (has : store.Has user tray task) :
    ∃ first, store.FirstWith user task first := by
  classical
  cases found : Tray.all.find? fun other => decide (store.Has user other task) with
  | none =>
      have absent := List.find?_eq_none.mp found tray tray.mem_all
      exact absurd (decide_eq_true has) absent
  | some first =>
      obtain ⟨here, before, after, order, others⟩ := List.find?_eq_some_iff_append.mp found
      refine ⟨first, of_decide_eq_true here, fun earlier precedes => ?_⟩
      simpa using others earlier ((Tray.precedes_iff order).mp precedes)

theorem FirstWith.unique {first other : Tray} (is_first : store.FirstWith user task first)
    (is_other : store.FirstWith user task other) : first = other := by
  rcases first.precedes_or other with precedes | same | precedes
  · exact absurd is_first.has (is_other.first first precedes)
  · exact same
  · exact absurd is_other.has (is_first.first other precedes)

end Store

variable {world : World} {user : UserId} {task : TaskId}

/-- All trays before the one where an entry is found can be read and have none. -/
theorem World.exists_split_of_locateIn {trays : List Tray} {located : Located}
    (found : world.scene.locateIn user task trays = some located) :
    ∃ before after list, trays = before ++ located.tray :: after ∧
      (∀ earlier ∈ before, ¬world.store.Illegible (Key.tray user earlier) ∧
        ¬world.store.Has user earlier task) ∧
      world.store.cell (Key.tray user located.tray) = .entries list ∧
      EntryList.locate? task list = some (located.entry, located.position) := by
  induction trays with
  | nil => cases found
  | cons tray trays induction =>
      unfold Scene.locateIn at found
      cases shown : world.scene.cells (Key.tray user tray) with
      | value bytes =>
          simp only [shown] at found
          cases found
      | entries list =>
          simp only [shown] at found
          cases here : EntryList.locate? task list with
          | some pair =>
              rw [here] at found
              cases found
              exact ⟨[], trays, list, rfl, List.forall_mem_nil _, shown, here⟩
          | none =>
              rw [here] at found
              obtain ⟨before, after, others, rfl, passed, rest⟩ := induction found
              refine ⟨tray :: before, after, others, rfl, ?_, rest⟩
              refine List.forall_mem_cons.mpr ⟨⟨?_, ?_⟩, passed⟩
              · exact fun illegible => Store.illegible_tray_iff.mp illegible ⟨list, shown⟩
              · rw [Store.has_iff shown, not_not]
                simpa [EntryList.locate?] using here

/-- If nothing is found, no tray has an entry, or none has before one that cannot be read. -/
theorem World.split_of_locateIn_eq_none {trays : List Tray}
    (missing : world.scene.locateIn user task trays = none) :
    (∀ tray ∈ trays, ¬world.store.Has user tray task) ∨
      ∃ before tray after, trays = before ++ tray :: after ∧
        (∀ earlier ∈ before, ¬world.store.Has user earlier task) ∧
        world.store.Illegible (Key.tray user tray) := by
  induction trays with
  | nil => exact .inl (List.forall_mem_nil _)
  | cons tray trays induction =>
      unfold Scene.locateIn at missing
      cases shown : world.scene.cells (Key.tray user tray) with
      | value bytes =>
          refine .inr ⟨[], tray, trays, rfl, List.forall_mem_nil _, ?_⟩
          rw [Store.illegible_tray_iff]
          rintro ⟨list, readable⟩
          cases shown.symm.trans readable
      | entries list =>
          simp only [shown] at missing
          cases here : EntryList.locate? task list with
          | some pair =>
              rw [here] at missing
              cases missing
          | none =>
              rw [here] at missing
              have absent : ¬world.store.Has user tray task := by
                rw [Store.has_iff shown, not_not]
                simpa [EntryList.locate?] using here
              rcases induction missing with nowhere | ⟨before, blocked, after, rfl, passed, rest⟩
              · exact .inl (List.forall_mem_cons.mpr ⟨absent, nowhere⟩)
              · exact .inr ⟨tray :: before, blocked, after, rfl,
                  List.forall_mem_cons.mpr ⟨absent, passed⟩, rest⟩

/-- What is found is the first entry of the first tray, with no unreadable tray before it. -/
theorem World.firstWith_of_locate? {located : Located}
    (found : world.scene.locate? user task = some located) :
    world.store.FirstWith user task located.tray ∧ ¬world.store.Obstructed user task ∧
      ∃ list, world.store.cell (Key.tray user located.tray) = .entries list ∧
        EntryList.locate? task list = some (located.entry, located.position) := by
  obtain ⟨before, after, list, order, passed, shown, here⟩ := exists_split_of_locateIn found
  have first : world.store.FirstWith user task located.tray := by
    refine ⟨(Store.has_iff shown).mpr ?_, fun earlier precedes => ?_⟩
    · obtain ⟨_, is_first, _⟩ := Option.map_eq_some_iff.mp here
      simp [is_first]
    · exact (passed earlier ((Tray.precedes_iff order).mp precedes)).2
  refine ⟨first, ?_, list, shown, here⟩
  rintro ⟨tray, earlier, other_first, precedes, illegible⟩
  obtain rfl := first.unique other_first
  exact (passed earlier ((Tray.precedes_iff order).mp precedes)).1 illegible

/-- Nothing is found exactly if no tray has an entry, or if an unreadable tray comes before the
first one that has. -/
theorem World.locate?_eq_none_iff : world.scene.locate? user task = none ↔
    (∀ tray, ¬world.store.Has user tray task) ∨ world.store.Obstructed user task := by
  constructor
  · intro missing
    rcases split_of_locateIn_eq_none missing with
      nowhere | ⟨before, blocked, after, order, passed, illegible⟩
    · exact .inl fun tray => nowhere tray tray.mem_all
    by_cases has : ∃ tray, world.store.Has user tray task
    · obtain ⟨tray, has⟩ := has
      obtain ⟨first, is_first⟩ := Store.exists_firstWith has
      refine .inr ⟨first, blocked, is_first, ?_, illegible⟩
      rcases blocked.precedes_or first with precedes | rfl | precedes
      · exact precedes
      · exact absurd is_first.has (Store.not_has_of_illegible illegible)
      · exact absurd is_first.has (passed first ((Tray.precedes_iff order).mp precedes))
    · exact .inl fun tray here => has ⟨tray, here⟩
  · intro absent
    cases found : world.scene.locate? user task with
    | none => rfl
    | some located =>
        obtain ⟨first, clear, _⟩ := firstWith_of_locate? found
        exact (absent.elim (fun nowhere => nowhere _ first.has) clear).elim

end Handoff
