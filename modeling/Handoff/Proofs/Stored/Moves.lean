import Handoff.Proofs.Stored.Trays
import Mathlib.Data.List.Nodup

/-!
# Entries that move to the end

An entry that is taken out and put back stands at the end of its tray.  If a tray has one entry for
a task at most, all other entries keep their order.
-/

namespace Handoff

namespace EntryList

/-- No task has two entries. -/
def Unrepeated (list : List Entry) : Prop := (list.map Entry.task).Nodup

variable {list : List Entry} {entry other : Entry} {task : TaskId}

theorem find?_eq_none_iff : find? task list = none ↔ ∀ entry ∈ list, entry.task ≠ task := by
  simp [find?]

theorem erase_append_of_absent (absent : find? entry.task list = none) :
    erase entry.task (list ++ [entry]) = list := by
  have others : ∀ other ∈ list, ¬(other.task == entry.task) = true := List.find?_eq_none.mp absent
  rw [erase, List.eraseP_append_right _ others]
  simp

theorem find?_append_of_absent (absent : find? entry.task list = none) :
    find? entry.task (list ++ [entry]) = some entry := by
  rw [find?, List.find?_append, show list.find? (·.task == entry.task) = none from absent]
  simp

/-- Without the first entry for a task that has no other, the other entries stay in order. -/
theorem Unrepeated.erase_eq_filter (unrepeated : Unrepeated list) (task : TaskId) :
    erase task list = list.filter (·.task != task) := by
  induction list with
  | nil => rfl
  | cons first rest induction =>
      obtain ⟨fresh, others⟩ := List.nodup_cons.mp unrepeated
      by_cases same : first.task = task
      · subst same
        have kept : ∀ entry ∈ rest, (entry.task != first.task) = true := fun entry mem =>
          bne_iff_ne.mpr fun again => fresh (List.mem_map.mpr ⟨entry, mem, again⟩)
        simp [erase, List.filter_eq_self.mpr kept]
      · have stays : (first.task == task) = false := beq_eq_false_iff_ne.mpr same
        have rest_eq : rest.eraseP (·.task == task) = rest.filter (·.task != task) :=
          induction others
        simp [erase, stays, rest_eq, bne]

theorem Unrepeated.find?_erase (unrepeated : Unrepeated list) (task : TaskId) :
    find? task (EntryList.erase task list) = none := by
  rw [unrepeated.erase_eq_filter, find?_eq_none_iff]
  intro entry kept
  simpa using (List.mem_filter.mp kept).2

theorem Unrepeated.erase (unrepeated : Unrepeated list) (task : TaskId) :
    Unrepeated (EntryList.erase task list) :=
  unrepeated.sublist (List.eraseP_sublist.map Entry.task)

theorem Unrepeated.append (unrepeated : Unrepeated list)
    (absent : find? entry.task list = none) : Unrepeated (list ++ [entry]) := by
  unfold Unrepeated
  rw [List.map_append, List.nodup_append]
  refine ⟨unrepeated, List.nodup_singleton _, ?_⟩
  intro task mem other new same
  obtain ⟨old, listed, rfl⟩ := List.mem_map.mp mem
  obtain rfl := List.mem_singleton.mp new
  exact find?_eq_none_iff.mp absent old listed same

theorem find?_append_of_task_ne (differs : other.task ≠ task) :
    find? task (list ++ [other]) = find? task list := by
  rw [find?, List.find?_append]
  simp [find?, differs]

theorem erase_append_of_find? (found : find? task list = some entry) :
    erase task (list ++ [other]) = erase task list ++ [other] := by
  have fits : (entry.task == task) = true := beq_iff_eq.mpr (task_eq_of_find? found)
  exact List.eraseP_append_left (p := (·.task == task)) fits _ (mem_of_find? found)

theorem Unrepeated.eq_of_task_eq (unrepeated : Unrepeated list) (mem : entry ∈ list)
    (other_mem : other ∈ list) (same : entry.task = other.task) : entry = other :=
  List.inj_on_of_nodup_map unrepeated mem other_mem same

/-- Where no task has two entries, an entry is the first one for its task. -/
theorem Unrepeated.find?_eq_some_iff (unrepeated : Unrepeated list) :
    find? task list = some entry ↔ entry ∈ list ∧ entry.task = task := by
  constructor
  · intro found
    exact ⟨mem_of_find? found, task_eq_of_find? found⟩
  · rintro ⟨mem, rfl⟩
    cases found : find? entry.task list with
    | none => exact absurd rfl (find?_eq_none_iff.mp found entry mem)
    | some first =>
        exact congrArg some
          (unrepeated.eq_of_task_eq (mem_of_find? found) mem (task_eq_of_find? found))

/-- Some entries that may move have moved to the end, and all others have kept their order. -/
def MovedToEnd (may : Entry → Prop) (before after : List Entry) : Prop :=
  ∃ moved : List Entry, moved.Nodup ∧ (∀ entry ∈ moved, entry ∈ before ∧ may entry) ∧
    after = before.filter (· ∉ moved) ++ moved

theorem movedToEnd_refl (may : Entry → Prop) (list : List Entry) : MovedToEnd may list list :=
  ⟨[], List.nodup_nil, List.forall_mem_nil _, by simp⟩

theorem MovedToEnd.eq_of_forall_not {may : Entry → Prop} {after : List Entry}
    (moved : MovedToEnd may list after) (none_may : ∀ entry, ¬may entry) : after = list := by
  obtain ⟨entries, _, allowed, rfl⟩ := moved
  have none_moved : entries = [] :=
    List.eq_nil_iff_forall_not_mem.mpr fun entry mem => none_may entry (allowed entry mem).2
  simp [none_moved]

theorem Unrepeated.filter_task_eq_filter (unrepeated : Unrepeated list) (mem : entry ∈ list) :
    list.filter (·.task != entry.task) = list.filter (· ≠ entry) := by
  refine List.filter_congr fun other other_mem => ?_
  rw [bne, Bool.eq_iff_iff, Bool.not_eq_true', beq_eq_false_iff_ne, decide_eq_true_iff]
  exact not_congr ⟨unrepeated.eq_of_task_eq other_mem mem, congrArg Entry.task⟩

theorem Unrepeated.movedToEnd_one {may : Entry → Prop} (unrepeated : Unrepeated list)
    (mem : entry ∈ list) (allowed : may entry) :
    MovedToEnd may list (EntryList.erase entry.task list ++ [entry]) := by
  refine ⟨[entry], by simp, by simpa using ⟨mem, allowed⟩, ?_⟩
  rw [unrepeated.erase_eq_filter, unrepeated.filter_task_eq_filter mem]
  simp

theorem Unrepeated.movedToEnd_two {may : Entry → Prop} (unrepeated : Unrepeated list)
    (mem : entry ∈ list) (other_mem : other ∈ EntryList.erase entry.task list)
    (allowed : may entry) (other_allowed : may other) :
    MovedToEnd may list
      (EntryList.erase other.task (EntryList.erase entry.task list) ++ [other] ++ [entry]) := by
  have rest := unrepeated.erase entry.task
  rw [rest.erase_eq_filter, rest.filter_task_eq_filter other_mem]
  rw [unrepeated.erase_eq_filter, unrepeated.filter_task_eq_filter mem] at other_mem ⊢
  obtain ⟨listed, differs⟩ := List.mem_filter.mp other_mem
  refine ⟨[other, entry], by simpa using differs, ?_, ?_⟩
  · simp [mem, listed, allowed, other_allowed]
  · rw [List.filter_filter, List.append_assoc]
    congr 1
    refine List.filter_congr fun found _ => ?_
    simp

end EntryList

/-- Entries that may move have moved to the end. -/
def Cell.MovedToEnd (may : Entry → Prop) : Cell → Cell → Prop
  | .value before, .value after => after = before
  | .entries before, .entries after => EntryList.MovedToEnd may before after
  | _, _ => False

theorem Cell.movedToEnd_refl (may : Entry → Prop) (cell : Cell) : MovedToEnd may cell cell := by
  cases cell with
  | value bytes => rfl
  | entries list => exact EntryList.movedToEnd_refl may list

theorem Cell.MovedToEnd.eq_value {may : Entry → Prop} {bytes : Option Bytes} {cell : Cell}
    (moved : MovedToEnd may (.value bytes) cell) : cell = .value bytes := by
  cases cell with
  | value after => exact congrArg Cell.value moved
  | entries list => exact moved.elim

theorem Cell.MovedToEnd.exists_entries {may : Entry → Prop} {list : List Entry} {cell : Cell}
    (moved : MovedToEnd may (.entries list) cell) :
    ∃ after, cell = .entries after ∧ EntryList.MovedToEnd may list after := by
  cases cell with
  | value bytes => exact moved.elim
  | entries after => exact ⟨after, rfl, moved⟩

namespace Scene

/-- No list has two entries for a task. -/
def Unrepeated (scene : Scene) : Prop :=
  ∀ key list, scene.cells key = .entries list → EntryList.Unrepeated list

/-- Entries that may move have moved to the end, and nothing else has changed. -/
def MovedToEnd (may : String → Entry → Prop) (before after : Scene) : Prop :=
  ∀ key, (before.cells key).MovedToEnd (may key) (after.cells key)

/-- An entry has been taken out of a tray and put back. -/
def Returned (before : Scene) (user : UserId) (tray : Tray) (entry : Entry) (after : Scene) :
    Prop :=
  ∃ middle, before.Removed user tray entry middle ∧ middle.Appended user tray entry after

variable {before middle after left : Scene} {user other : UserId} {tray place : Tray}
  {entry moved : Entry} {may : String → Entry → Prop} {key : String}

theorem movedToEnd_refl (may : String → Entry → Prop) (scene : Scene) :
    MovedToEnd may scene scene :=
  fun key => (scene.cells key).movedToEnd_refl (may key)

theorem Unrepeated.put (unrepeated : before.Unrepeated) {list : List Entry}
    (kept : EntryList.Unrepeated list) : (before.put key (.entries list)).Unrepeated := by
  intro other others shown
  rw [put_cells] at shown
  split at shown
  · cases shown
    exact kept
  · exact unrepeated other others shown

theorem Unrepeated.removed (unrepeated : before.Unrepeated)
    (removed : before.Removed user tray entry after) : after.Unrepeated := by
  obtain ⟨list, shown, _, rfl⟩ := removed
  exact unrepeated.put ((unrepeated _ list shown).erase entry.task)

theorem Unrepeated.appended (unrepeated : before.Unrepeated)
    (appended : before.Appended user tray entry after) : after.Unrepeated := by
  obtain ⟨list, shown, absent, rfl⟩ := appended
  exact unrepeated.put ((unrepeated _ list shown).append absent)

theorem Unrepeated.save (unrepeated : before.Unrepeated) (task : Task) :
    (before.save task).Unrepeated := by
  intro other others shown
  rw [Scene.save, put_cells] at shown
  split at shown
  · cases shown
  · exact unrepeated other others shown

theorem Unrepeated.issue (unrepeated : before.Unrepeated) : before.issue.Unrepeated := unrepeated

/-- What has been put in can be taken out, and then all is as before. -/
theorem Appended.removed (appended : before.Appended user tray entry after) :
    after.Removed user tray entry before := by
  obtain ⟨list, shown, absent, rfl⟩ := appended
  refine ⟨list ++ [entry], put_cells_self .., EntryList.find?_append_of_absent absent, ?_⟩
  rw [put_put, EntryList.erase_append_of_absent absent, put_eq_self shown]

/-- What has been taken out can be put back. -/
theorem Removed.exists_appended (removed : before.Removed user tray entry middle)
    (unrepeated : before.Unrepeated) : ∃ after, middle.Appended user tray entry after := by
  obtain ⟨list, shown, _, rfl⟩ := removed
  exact ⟨_, _, put_cells_self .., (unrepeated _ list shown).find?_erase entry.task, rfl⟩

theorem returned_iff : before.Returned user tray entry after ↔
    ∃ list, before.cells (Key.tray user tray) = .entries list ∧
      EntryList.find? entry.task list = some entry ∧
      EntryList.find? entry.task (EntryList.erase entry.task list) = none ∧
      after = before.put (Key.tray user tray)
        (.entries (EntryList.erase entry.task list ++ [entry])) := by
  constructor
  · rintro ⟨middle, ⟨list, shown, found, rfl⟩, rest, rest_shown, absent, rfl⟩
    rw [put_cells_self] at rest_shown
    cases rest_shown
    exact ⟨list, shown, found, absent, put_put ..⟩
  · rintro ⟨list, shown, found, absent, rfl⟩
    exact ⟨_, ⟨list, shown, found, rfl⟩, _, put_cells_self .., absent, (put_put ..).symm⟩

theorem Returned.movedToEnd (returned : before.Returned user tray entry after)
    (unrepeated : before.Unrepeated) (allowed : may (Key.tray user tray) entry) :
    MovedToEnd may before after := by
  obtain ⟨list, shown, found, _, rfl⟩ := returned_iff.mp returned
  intro key
  by_cases here : key = Key.tray user tray
  · subst here
    rw [put_cells_self, shown]
    exact (unrepeated _ list shown).movedToEnd_one (EntryList.mem_of_find? found) allowed
  · rw [put_cells_of_ne _ _ here]
    exact Cell.movedToEnd_refl _ _

/-- Two entries that may move have moved, the second one while the first one was missing. -/
theorem movedToEnd_of_returned (removed : before.Removed user tray entry middle)
    (returned : middle.Returned other place moved left)
    (appended : left.Appended user tray entry after) (unrepeated : before.Unrepeated)
    (allowed : may (Key.tray user tray) entry) (moved_allowed : may (Key.tray other place) moved) :
    MovedToEnd may before after := by
  have rest_unrepeated := unrepeated.removed removed
  obtain ⟨list, shown, found, rfl⟩ := removed
  by_cases same : Key.tray other place = Key.tray user tray
  · obtain ⟨rest, rest_shown, moved_found, _, rfl⟩ := returned_iff.mp returned
    obtain ⟨last, last_shown, _, rfl⟩ := appended
    rw [same, put_cells_self] at rest_shown
    cases rest_shown
    rw [same, put_cells_self] at last_shown
    cases last_shown
    intro key
    rw [same, put_put, put_put, put_cells]
    split
    · rename_i here
      rw [here, shown]
      exact (unrepeated _ list shown).movedToEnd_two (EntryList.mem_of_find? found)
        (EntryList.mem_of_find? moved_found) allowed (same ▸ moved_allowed)
    · exact Cell.movedToEnd_refl _ _
  · have moved_back : MovedToEnd may _ _ := returned.movedToEnd rest_unrepeated moved_allowed
    obtain ⟨rest, rest_shown, moved_found, _, rfl⟩ := returned_iff.mp returned
    obtain ⟨last, last_shown, _, rfl⟩ := appended
    rw [put_cells_of_ne _ _ (Ne.symm same), put_cells_self] at last_shown
    cases last_shown
    intro key
    rw [put_cells]
    split
    · rename_i here
      rw [here, shown]
      exact (unrepeated _ list shown).movedToEnd_one (EntryList.mem_of_find? found) allowed
    · rename_i elsewhere
      have others := moved_back key
      rwa [put_cells_of_ne before _ elsewhere] at others

/-- An entry that is put in before another one is taken out and put back can be taken out after
that. -/
theorem Appended.swap_returned (appended : before.Appended user tray entry middle)
    (returned : middle.Returned other place moved after) (differs : entry.task ≠ moved.task) :
    ∃ left, after.Removed user tray entry left ∧ before.Returned other place moved left := by
  obtain ⟨list, shown, lacking, rfl⟩ := appended
  obtain ⟨rest, rest_shown, found, absent, rfl⟩ := returned_iff.mp returned
  by_cases same : Key.tray other place = Key.tray user tray
  · rw [same, put_cells_self] at rest_shown
    cases rest_shown
    rw [same]
    rw [EntryList.find?_append_of_task_ne differs] at found
    rw [EntryList.erase_append_of_find? found] at absent ⊢
    have moved_absent : EntryList.find? moved.task (EntryList.erase moved.task list) = none := by
      rwa [EntryList.find?_append_of_task_ne differs] at absent
    have still_lacking : EntryList.find? entry.task (EntryList.erase moved.task list) = none :=
      EntryList.find?_eq_none_iff.mpr fun listed mem =>
        EntryList.find?_eq_none_iff.mp lacking listed (List.mem_of_mem_eraseP mem)
    have found_last : EntryList.find? entry.task (EntryList.erase moved.task list ++ [entry]) =
        some entry := EntryList.find?_append_of_absent still_lacking
    refine ⟨before.put (Key.tray user tray)
      (.entries (EntryList.erase moved.task list ++ [moved])), ⟨_, put_cells_self .., ?_, ?_⟩,
      returned_iff.mpr ⟨list, same ▸ shown, found, moved_absent, by rw [same]⟩⟩
    · rw [EntryList.find?_append_of_task_ne (Ne.symm differs), found_last]
    · rw [EntryList.erase_append_of_find? found_last,
        EntryList.erase_append_of_absent still_lacking, put_put, put_put]
  · rw [put_cells_of_ne _ _ same] at rest_shown
    refine ⟨before.put (Key.tray other place)
      (.entries (EntryList.erase moved.task rest ++ [moved])), ⟨list ++ [entry], ?_, ?_, ?_⟩,
      returned_iff.mpr ⟨rest, rest_shown, found, absent, rfl⟩⟩
    · rw [put_cells_of_ne _ _ (Ne.symm same), put_cells_self]
    · exact EntryList.find?_append_of_absent lacking
    · rw [EntryList.erase_append_of_absent lacking, put_comm _ _ _ (Ne.symm same), put_put]
      refine (put_eq_self ?_).symm
      rw [put_cells_of_ne _ _ (Ne.symm same), shown]

/-- A record that is saved before an entry is taken out and put back can be deleted after that. -/
theorem Returned.discard {task : Task}
    (returned : (before.save task).Returned user tray entry after)
    (absent : before.cells (Key.record task.id) = .value none) :
    before.Returned user tray entry (after.discard task.id) := by
  obtain ⟨list, shown, found, lacking, rfl⟩ := returned_iff.mp returned
  rw [Scene.save, put_record_cells_tray] at shown
  refine returned_iff.mpr ⟨list, shown, found, lacking, ?_⟩
  rw [Scene.save, Scene.discard, put_comm _ _ _ (Key.record_ne_tray _ _ _), put_put]
  exact put_eq_self ((put_tray_cells_record ..).trans absent)

/-- A tray has no other entry for the task of an entry. -/
def Sole (scene : Scene) (user : UserId) (tray : Tray) (entry : Entry) : Prop :=
  ∀ list, scene.cells (Key.tray user tray) = .entries list →
    ∀ other ∈ list, other.task = entry.task → other = entry

theorem Unrepeated.sole {list : List Entry} (unrepeated : before.Unrepeated)
    (shown : before.cells (Key.tray user tray) = .entries list) (mem : entry ∈ list) :
    before.Sole user tray entry := by
  intro others others_shown found listed same
  rw [shown] at others_shown
  cases others_shown
  exact (unrepeated _ list shown).eq_of_task_eq listed mem same

theorem Sole.removed (sole : before.Sole user tray entry)
    (removed : before.Removed other place moved after) : after.Sole user tray entry := by
  obtain ⟨list, shown, _, rfl⟩ := removed
  intro rest rest_shown found listed
  rw [put_cells] at rest_shown
  split at rest_shown
  · rename_i same
    cases rest_shown
    exact sole list (same ▸ shown) found (List.mem_of_mem_eraseP listed)
  · exact sole rest rest_shown found listed

theorem Sole.appended (sole : before.Sole user tray entry)
    (appended : before.Appended other place moved after) (differs : moved.task ≠ entry.task) :
    after.Sole user tray entry := by
  obtain ⟨list, shown, _, rfl⟩ := appended
  intro rest rest_shown found listed same_task
  rw [put_cells] at rest_shown
  split at rest_shown
  · rename_i same
    cases rest_shown
    rcases List.mem_append.mp listed with old | new
    · exact sole list (same ▸ shown) found old same_task
    · rw [List.mem_singleton.mp new] at same_task
      exact absurd same_task differs
  · exact sole rest rest_shown found listed same_task

theorem Sole.save (sole : before.Sole user tray entry) (task : Task) :
    (before.save task).Sole user tray entry := by
  intro list shown
  rw [Scene.save, put_record_cells_tray] at shown
  exact sole list shown

theorem Sole.issue (sole : before.Sole user tray entry) : before.issue.Sole user tray entry := sole

/-- The entry that is taken out for a task is the only one. -/
theorem Sole.eq_of_removed (sole : before.Sole user tray entry)
    (removed : before.Removed user tray moved after) (same : moved.task = entry.task) :
    moved = entry := by
  obtain ⟨list, shown, first, _⟩ := removed
  exact sole list shown moved (EntryList.mem_of_find? first) same

/-- What has been taken out can be put back after another entry has moved. -/
theorem Removed.exists_appended_after (removed : before.Removed user tray entry middle)
    (returned : middle.Returned other place moved left) (unrepeated : before.Unrepeated) :
    ∃ after, left.Appended user tray entry after := by
  obtain ⟨list, shown, _, rfl⟩ := removed
  have lacking := (unrepeated _ list shown).find?_erase entry.task
  obtain ⟨rest, rest_shown, found, absent, rfl⟩ := returned_iff.mp returned
  by_cases same : Key.tray other place = Key.tray user tray
  · rw [same, put_cells_self] at rest_shown
    cases rest_shown
    rw [same]
    refine ⟨_, _, put_cells_self .., ?_, rfl⟩
    have differs : moved.task ≠ entry.task :=
      EntryList.find?_eq_none_iff.mp lacking moved (EntryList.mem_of_find? found)
    rw [EntryList.find?_append_of_task_ne differs, EntryList.find?_eq_none_iff]
    exact fun listed mem =>
      EntryList.find?_eq_none_iff.mp lacking listed (List.mem_of_mem_eraseP mem)
  · exact ⟨_, _, (put_cells_of_ne _ _ (Ne.symm same)).trans (put_cells_self ..), lacking, rfl⟩

end Scene
end Handoff
