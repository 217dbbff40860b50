import Handoff.Proofs.Stored.Reading
import Handoff.Proofs.Stored.Search

/-!
# Changes of a tray that undo each other

What is put in can be taken out again, and then the tray holds what it held before.  What is taken
out and put back stands at the end, and what is bumped stands first.  All this is said of a tray
that can be read, in whichever form it is stored, and has no two entries for a task.
-/

namespace Handoff

namespace EntryList

variable {list front back : List Entry} {task : TaskId} {entry : Entry} {position : Nat}

theorem Unrepeated.find?_split (unrepeated : Unrepeated (front ++ entry :: back)) :
    find? entry.task (front ++ entry :: back) = some entry :=
  unrepeated.find?_eq_some_iff.mpr ⟨by simp, rfl⟩

theorem Unrepeated.erase_split (unrepeated : Unrepeated (front ++ entry :: back)) :
    EntryList.erase entry.task (front ++ entry :: back) = front ++ back := by
  unfold Unrepeated at unrepeated
  rw [List.map_append, List.nodup_append] at unrepeated
  have earlier : ∀ other ∈ front, ¬(other.task == entry.task) = true := fun other mem same =>
    unrepeated.2.2 other.task (List.mem_map_of_mem mem) entry.task (by simp) (beq_iff_eq.mp same)
  rw [EntryList.erase, List.eraseP_append_right _ earlier]
  simp

/-- Where no task has two entries, an entry is located where it stands. -/
theorem Unrepeated.locate?_eq_some_iff (unrepeated : Unrepeated list) :
    locate? task list = some (entry, position) ↔
      list[position]? = some entry ∧ entry.task = task := by
  constructor
  · intro located
    obtain ⟨first, found, pair⟩ := Option.map_eq_some_iff.mp located
    cases pair
    exact ⟨getElem?_of_locate? located, task_eq_of_find? found⟩
  · rintro ⟨here, same⟩
    have found := unrepeated.find?_eq_some_iff.mpr ⟨List.mem_of_getElem? here, same⟩
    have located : locate? task list = some (entry, list.findIdx (·.task == task)) := by
      rw [locate?, found]
      rfl
    have inside := (List.getElem?_eq_some_iff.mp here).1
    have place := (List.getElem?_inj inside (List.Nodup.of_map _ unrepeated)).mp
      (here.trans (getElem?_of_locate? located).symm)
    rw [located, place]

end EntryList

@[simp]
theorem Store.insert_insert (store : Store) (key : String) (first second : Bytes) :
    (store.insert key first).insert key second = store.insert key second := by
  simp [Store.insert, Store.erase]

namespace World

variable {user : UserId} {tray : Tray} {list others : List Entry}

/-- The world with other entries in a tray. -/
def withEntries (world : World) (user : UserId) (tray : Tray) (list : List Entry) : World :=
  { world with store := world.store.insert (Key.tray user tray) (EntryList.encode list) }

@[simp]
theorem withEntries_withEntries (world : World) :
    (world.withEntries user tray list).withEntries user tray others =
      world.withEntries user tray others := by
  simp [withEntries]

theorem cell_withEntries (world : World) (well : EntryList.WellLinked list) :
    (world.withEntries user tray list).store.cell (Key.tray user tray) = .entries list := by
  rw [withEntries, Store.cell_insert_encode _ (Key.isTray_tray user tray) well,
    Function.update_self]

/-- A tray can be read and holds the given entries, and all else is as it was before. -/
structure Keeps (before : World) (user : UserId) (tray : Tray) (list : List Entry)
    (after : World) : Prop where
  shown : after.store.cell (Key.tray user tray) = .entries list
  others : ∀ key, key ≠ Key.tray user tray → after.store.get? key = before.store.get? key
  clock : after.clock = before.clock
  issued : after.issued = before.issued

theorem keeps_withEntries (world : World) (well : EntryList.WellLinked list) :
    world.Keeps user tray list (world.withEntries user tray list) where
  shown := world.cell_withEntries well
  others _ other := world.store.get?_insert_of_ne _ other
  clock := rfl
  issued := rfl

end World

namespace Trays

variable {β : Type} {around : Surroundings} {world : World} {user : UserId} {tray : Tray}
  {list changed front back : List Entry} {entry : Entry}

/-- A change of a tray that can be read is made at once. -/
theorem run_alter_of_ok {change : Change β} {result : β} (budget : Nat)
    (shown : world.store.cell (Key.tray user tray) = .entries list)
    (done : change list = .ok (result, changed)) :
    (alter budget user tray change).run.run around world =
      (.ok result, world.withEntries user tray changed) := by
  rw [← Conditions.run_calm, run_alter budget rfl shown, done]
  rfl

theorem run_append_of_absent (budget : Nat)
    (shown : world.store.cell (Key.tray user tray) = .entries list)
    (absent : EntryList.find? entry.task list = none) :
    (append budget user tray entry).run.run around world =
      (.ok (), world.withEntries user tray (list ++ [entry])) :=
  run_alter_of_ok budget shown ((Change.append_eq_ok_iff user tray).mpr ⟨absent, rfl⟩)

theorem run_remove_of_find? (budget : Nat)
    (shown : world.store.cell (Key.tray user tray) = .entries list)
    (found : EntryList.find? entry.task list = some entry) :
    (remove budget user tray entry.task).run.run around world =
      (.ok entry, world.withEntries user tray (EntryList.erase entry.task list)) :=
  run_alter_of_ok budget shown ((Change.remove_eq_ok_iff user tray _).mpr ⟨found, rfl⟩)

theorem run_bump_of_find? (budget : Nat)
    (shown : world.store.cell (Key.tray user tray) = .entries list)
    (found : EntryList.find? entry.task list = some entry) :
    (bump budget user tray entry.task).run.run around world =
      (.ok (), world.withEntries user tray (entry :: EntryList.erase entry.task list)) :=
  run_alter_of_ok budget shown ((Change.bump_eq_ok_iff user tray _).mpr ⟨entry, found, rfl⟩)

theorem run_pop_of_cons (budget : Nat)
    (shown : world.store.cell (Key.tray user tray) = .entries (entry :: list)) :
    (pop budget user tray).run.run around world =
      (.ok entry, world.withEntries user tray list) :=
  run_alter_of_ok budget shown rfl

theorem run_find?_of_cell (task : TaskId)
    (shown : world.store.cell (Key.tray user tray) = .entries list) :
    (find? user tray task).run.run around world = (.ok (EntryList.locate? task list), world) := by
  rw [← Conditions.run_calm, run_find? task shown]

/-- An entry for a task that had none is put in and taken out again. -/
theorem remove_of_appended (around : Surroundings) (budget : Nat)
    (shown : world.store.cell (Key.tray user tray) = .entries list) (well : entry.WellLinked)
    (absent : EntryList.find? entry.task list = none) :
    let appended := (append budget user tray entry).run.run around world
    let removed := (remove budget user tray entry.task).run.run around appended.2
    appended.1 = .ok () ∧ world.Keeps user tray (list ++ [entry]) appended.2 ∧
      removed.1 = .ok entry ∧ world.Keeps user tray list removed.2 := by
  have old := Store.wellLinked_of_cell_eq_entries shown
  have new : EntryList.WellLinked (list ++ [entry]) :=
    Change.keepsLinks_append user tray well list () _ old
      ((Change.append_eq_ok_iff user tray).mpr ⟨absent, rfl⟩)
  intro appended removed
  have appended_eq : appended = _ := run_append_of_absent budget shown absent
  have removed_eq : removed = _ :=
    run_remove_of_find? budget (by rw [appended_eq]; exact world.cell_withEntries new)
      (EntryList.find?_append_of_absent absent)
  rw [EntryList.erase_append_of_absent absent, appended_eq, World.withEntries_withEntries]
    at removed_eq
  rw [removed_eq, appended_eq]
  exact ⟨rfl, world.keeps_withEntries new, rfl, world.keeps_withEntries old⟩

/-- An entry is taken out and put back at the end. -/
theorem append_of_removed (around : Surroundings) (budget : Nat)
    (shown : world.store.cell (Key.tray user tray) = .entries (front ++ entry :: back))
    (unrepeated : EntryList.Unrepeated (front ++ entry :: back)) :
    let removed := (remove budget user tray entry.task).run.run around world
    let appended := (append budget user tray entry).run.run around removed.2
    removed.1 = .ok entry ∧ world.Keeps user tray (front ++ back) removed.2 ∧
      appended.1 = .ok () ∧ world.Keeps user tray (front ++ back ++ [entry]) appended.2 := by
  have old := Store.wellLinked_of_cell_eq_entries shown
  have left : EntryList.WellLinked (front ++ back) := fun other mem =>
    old other ((List.sublist_cons_self entry back).append_left front |>.mem mem)
  have new : EntryList.WellLinked (front ++ back ++ [entry]) := fun other mem =>
    old other (by simpa [or_assoc, or_comm] using mem)
  have absent : EntryList.find? entry.task (front ++ back) = none :=
    unrepeated.erase_split ▸ unrepeated.find?_erase entry.task
  intro removed appended
  have removed_eq : removed = _ := run_remove_of_find? budget shown unrepeated.find?_split
  rw [unrepeated.erase_split] at removed_eq
  have appended_eq : appended = _ :=
    run_append_of_absent budget (by rw [removed_eq]; exact world.cell_withEntries left) absent
  rw [removed_eq, World.withEntries_withEntries] at appended_eq
  rw [appended_eq, removed_eq]
  exact ⟨rfl, world.keeps_withEntries left, rfl, world.keeps_withEntries new⟩

/-- An entry comes to the front, and stays there when it is bumped again. -/
theorem bump_of_bumped (around : Surroundings) (budget : Nat)
    (shown : world.store.cell (Key.tray user tray) = .entries (front ++ entry :: back))
    (unrepeated : EntryList.Unrepeated (front ++ entry :: back)) :
    let bumped := (bump budget user tray entry.task).run.run around world
    bumped.1 = .ok () ∧ world.Keeps user tray (entry :: (front ++ back)) bumped.2 ∧
      (bump budget user tray entry.task).run.run around bumped.2 = bumped ∧
      (find? user tray entry.task).run.run around bumped.2 = (.ok (some (entry, 0)), bumped.2) := by
  have old := Store.wellLinked_of_cell_eq_entries shown
  have new : EntryList.WellLinked (entry :: (front ++ back)) := fun other mem =>
    old other (by simpa [or_left_comm] using mem)
  have first : EntryList.find? entry.task (entry :: (front ++ back)) = some entry := by
    simp [EntryList.find?]
  have without : EntryList.erase entry.task (entry :: (front ++ back)) = front ++ back := by
    simp [EntryList.erase]
  have located : EntryList.locate? entry.task (entry :: (front ++ back)) = some (entry, 0) := by
    simp [EntryList.locate?, EntryList.find?, List.findIdx_cons]
  intro bumped
  have bumped_eq : bumped = _ := run_bump_of_find? budget shown unrepeated.find?_split
  rw [unrepeated.erase_split] at bumped_eq
  have shown_first : bumped.2.store.cell (Key.tray user tray) =
      .entries (entry :: (front ++ back)) := by
    rw [bumped_eq]
    exact world.cell_withEntries new
  rw [run_bump_of_find? budget shown_first first, without, run_find?_of_cell _ shown_first,
    located, bumped_eq, World.withEntries_withEntries]
  exact ⟨rfl, world.keeps_withEntries new, rfl, rfl⟩

/-- To pop a tray is to take out the entry for its first task. -/
theorem pop_eq_remove (around : Surroundings) (budget : Nat)
    (shown : world.store.cell (Key.tray user tray) = .entries (entry :: back)) :
    (pop budget user tray).run.run around world =
      (remove budget user tray entry.task).run.run around world := by
  have found : EntryList.find? entry.task (entry :: back) = some entry := by
    simp [EntryList.find?]
  have without : EntryList.erase entry.task (entry :: back) = back := by
    simp [EntryList.erase]
  rw [run_pop_of_cons budget shown, run_remove_of_find? budget shown found, without]

/-- Of a tray that can be read and has no two entries for a task: a well-linked entry for a new
task is put in and taken out again, and the entries are what they were; an entry is taken out and
put back, and stands at the end; an entry is bumped, and stands before the entries that are left if
it is taken out, where it is found and where it stays if it is bumped again; to pop the tray is to
take out the entry for its first task; and an entry is found exactly at its position. -/
theorem undone_of_unrepeated (around : Surroundings) (budget : Nat) (user : UserId) (tray : Tray)
    (world : World) (list : List Entry)
    (shown : world.store.cell (Key.tray user tray) = .entries list)
    (unrepeated : EntryList.Unrepeated list) :
    (∀ entry : Entry, entry.WellLinked → (∀ other ∈ list, other.task ≠ entry.task) →
      let appended := (append budget user tray entry).run.run around world
      let removed := (remove budget user tray entry.task).run.run around appended.2
      appended.1 = .ok () ∧ world.Keeps user tray (list ++ [entry]) appended.2 ∧
        removed.1 = .ok entry ∧ world.Keeps user tray list removed.2) ∧
    (∀ front entry back, list = front ++ entry :: back →
      let removed := (remove budget user tray entry.task).run.run around world
      let appended := (append budget user tray entry).run.run around removed.2
      let bumped := (bump budget user tray entry.task).run.run around world
      (removed.1 = .ok entry ∧ world.Keeps user tray (front ++ back) removed.2 ∧
        appended.1 = .ok () ∧ world.Keeps user tray (front ++ back ++ [entry]) appended.2) ∧
      (bumped.1 = .ok () ∧ world.Keeps user tray (entry :: (front ++ back)) bumped.2 ∧
        (bump budget user tray entry.task).run.run around bumped.2 = bumped ∧
        (find? user tray entry.task).run.run around bumped.2 =
          (.ok (some (entry, 0)), bumped.2))) ∧
    (∀ first rest, list = first :: rest →
      (pop budget user tray).run.run around world =
        (remove budget user tray first.task).run.run around world) ∧
    ∀ task, ∃ found, (find? user tray task).run.run around world = (.ok found, world) ∧
      ∀ entry position, found = some (entry, position) ↔
        list[position]? = some entry ∧ entry.task = task := by
  refine ⟨fun entry well absent => ?_, ?_, ?_, fun task => ?_⟩
  · exact remove_of_appended around budget shown well (EntryList.find?_eq_none_iff.mpr absent)
  · rintro front entry back rfl
    exact ⟨append_of_removed around budget shown unrepeated,
      bump_of_bumped around budget shown unrepeated⟩
  · rintro first rest rfl
    exact pop_eq_remove around budget shown
  · exact ⟨_, run_find?_of_cell task shown, fun _ _ => unrepeated.locate?_eq_some_iff⟩

/-- A tray that is still stored in the older form: a linked entry is put in and taken out again, and
the entry in the middle is taken out and put back, or bumped. -/
theorem undone_of_older_form :
    let key := Key.tray "ann" .owned
    let world : World := ⟨Store.ofList [(key, Utf8.encode "[\"a\", \"b\", \"c\"]")], ⟨0⟩, 0⟩
    let a := Entry.unlinked "a"
    let b := Entry.unlinked "b"
    let c := Entry.unlinked "c"
    let d := Entry.linked "d" "bob" "e"
    let appended := (append 0 "ann" .owned d).run.run .strokes world
    let removed := (remove 0 "ann" .owned "b").run.run .strokes world
    let bumped := (bump 0 "ann" .owned "b").run.run .strokes world
    (world.store.cell key = .entries [a, b, c] ∧ EntryList.Unrepeated [a, b, c] ∧
      d.WellLinked ∧ ∀ other ∈ [a, b, c], other.task ≠ d.task) ∧
    world.Keeps "ann" .owned [a, b, c]
      ((remove 0 "ann" .owned "d").run.run .strokes appended.2).2 ∧
    world.Keeps "ann" .owned [a, c, b]
      ((append 0 "ann" .owned b).run.run .strokes removed.2).2 ∧
    world.Keeps "ann" .owned [b, a, c] bumped.2 ∧
    (pop 0 "ann" .owned).run.run .strokes world =
      (remove 0 "ann" .owned "a").run.run .strokes world ∧
    (find? "ann" .owned "c").run.run .strokes world = (.ok (some (c, 2)), world) := by
  intro key world a b c d appended removed bumped
  have shown : world.store.cell key = .entries [a, b, c] := by decide +kernel
  have unrepeated : EntryList.Unrepeated [a, b, c] := by
    simp [EntryList.Unrepeated, a, b, c, Entry.unlinked]
  have well : d.WellLinked := Entry.wellLinked_linked "d" (by decide) (by decide)
  have absent : ∀ other ∈ [a, b, c], other.task ≠ d.task := by decide
  clear_value world
  obtain ⟨undone, moved, popped, found⟩ :=
    undone_of_unrepeated .strokes 0 "ann" .owned world [a, b, c] shown unrepeated
  obtain ⟨⟨_, _, _, restored⟩, _, in_front, _⟩ := moved [a] b [c] rfl
  obtain ⟨result, run, position⟩ := found "c"
  have third : result = some (c, 2) := (position c 2).mpr ⟨rfl, rfl⟩
  exact ⟨⟨shown, unrepeated, well, absent⟩, (undone d well absent).2.2.2, restored, in_front,
    popped a [b, c] rfl, third ▸ run⟩

end Trays
end Handoff
