import Handoff.Proofs.Pairing.Holding
import Handoff.Proofs.Stored.Moves
import Mathlib.Data.List.Perm.Basic

/-!
# The share of some tasks in a scene

Some tasks have a share in a scene: their entries and records.  All else is as in an older scene.
Every operation on a tray or a record changes the share alone.
-/

namespace Handoff

namespace EntryList

variable {list : List Entry} {task : TaskId} {keep : TaskId → Bool}

theorem filter_erase_of_not (keep : TaskId → Bool) (dropped : keep task = false) :
    (erase task list).filter (keep ·.task) = list.filter (keep ·.task) := by
  induction list with
  | nil => rfl
  | cons first rest induction =>
      by_cases same : first.task = task
      · simp [erase, same, dropped]
      · have stays : (first.task == task) = false := beq_eq_false_iff_ne.mpr same
        have others : (rest.eraseP (·.task == task)).filter (keep ·.task) =
            rest.filter (keep ·.task) := induction
        simp [erase, stays, List.filter_cons, others]

/-- An entry is erased among the kept ones. -/
theorem filter_erase (kept : keep task = true) :
    (erase task list).filter (keep ·.task) = erase task (list.filter (keep ·.task)) := by
  induction list with
  | nil => rfl
  | cons first rest induction =>
      by_cases same : first.task = task
      · simp [erase, same, kept]
      · have stays : (first.task == task) = false := beq_eq_false_iff_ne.mpr same
        have others : (rest.eraseP (·.task == task)).filter (keep ·.task) =
            (rest.filter (keep ·.task)).eraseP (·.task == task) := induction
        cases kept_first : keep first.task <;>
          simp [erase, stays, others, kept_first]

theorem find?_filter (kept : keep task = true) :
    find? task (list.filter (keep ·.task)) = find? task list := by
  rw [find?, find?, List.find?_filter]
  congr 1
  funext entry
  by_cases same : entry.task = task
  · simp [same, kept]
  · simp [same]

theorem unrepeated_of_length_le_one (few : list.length ≤ 1) : Unrepeated list := by
  match list, few with
  | [], _ => exact List.nodup_nil
  | [_], _ => exact List.nodup_singleton _

theorem filter_not_eq_self (none_kept : list.filter (keep ·.task) = []) :
    list.filter (!keep ·.task) = list := by
  refine List.filter_eq_self.mpr fun entry mem => ?_
  simpa using List.filter_eq_nil_iff.mp none_kept entry mem

/-- No task has two entries if none has among the kept entries and none among the others. -/
theorem unrepeated_of_filter (keep : TaskId → Bool) (kept : Unrepeated (list.filter (keep ·.task)))
    (others : Unrepeated (list.filter (!keep ·.task))) : Unrepeated list := by
  have parts := (List.filter_append_perm (fun entry : Entry => keep entry.task) list).map Entry.task
  apply parts.nodup_iff.mp
  rw [List.map_append, List.nodup_append]
  refine ⟨kept, others, ?_⟩
  rintro task left other right rfl
  obtain ⟨entry, here, rfl⟩ := List.mem_map.mp left
  obtain ⟨next, there, same⟩ := List.mem_map.mp right
  have kept_entry := (List.mem_filter.mp here).2
  have dropped := (List.mem_filter.mp there).2
  simp [same, kept_entry] at dropped

theorem MovedToEnd.filter_not {may : Entry → Prop} {after : List Entry}
    (moved : MovedToEnd may list after) (kept : ∀ entry, may entry → keep entry.task = true) :
    after.filter (!keep ·.task) = list.filter (!keep ·.task) := by
  obtain ⟨entries, _, allowed, rfl⟩ := moved
  have none_left : entries.filter (!keep ·.task) = [] :=
    List.filter_eq_nil_iff.mpr fun entry mem => by simp [kept entry (allowed entry mem).2]
  rw [List.filter_append, none_left, List.append_nil, List.filter_filter]
  refine List.filter_congr fun entry _ => ?_
  by_cases mem : entry ∈ entries
  · simp [kept entry (allowed entry mem).2]
  · simp [mem]

/-- Moving kept entries does not show if there is one at most. -/
theorem MovedToEnd.filter {may : Entry → Prop} {after : List Entry}
    (moved : MovedToEnd may list after) (kept : ∀ entry, may entry → keep entry.task = true)
    (few : (list.filter (keep ·.task)).length ≤ 1) :
    after.filter (keep ·.task) = list.filter (keep ·.task) := by
  obtain ⟨entries, distinct, allowed, rfl⟩ := moved
  have all_kept : entries.filter (keep ·.task) = entries :=
    List.filter_eq_self.mpr fun entry mem => kept entry (allowed entry mem).2
  rw [List.filter_append, all_kept]
  cases entries with
  | nil => simp
  | cons first others =>
      have listed {entry : Entry} (mem : entry ∈ first :: others) :
          entry ∈ list.filter (keep ·.task) :=
        List.mem_filter.mpr ⟨(allowed entry mem).1, kept entry (allowed entry mem).2⟩
      obtain ⟨only, only_eq⟩ := List.length_eq_one_iff.mp
        (le_antisymm few (List.length_pos_of_mem (listed List.mem_cons_self)))
      rw [only_eq] at listed ⊢
      obtain rfl := List.mem_singleton.mp (listed List.mem_cons_self)
      have no_others : others = [] := by
        refine List.eq_nil_iff_forall_not_mem.mpr fun entry mem => ?_
        obtain rfl := List.mem_singleton.mp (listed (List.mem_cons_of_mem _ mem))
        exact (List.nodup_cons.mp distinct).1 mem
      subst no_others
      rw [List.filter_comm, only_eq]
      simp

end EntryList

namespace Scene

/-- A record can be read and lies under its own name. -/
def Recorded (scene : Scene) (task : TaskId) : Prop :=
  ∃ bytes content, scene.cells (Key.record task) = .value (some bytes) ∧
    Task.decode bytes = .ok content ∧ content.id = task

/-- Some tasks have a share in a scene, and all else is as in an older scene. -/
structure Holds (community : Community) (mine : TaskId → Bool) (old : Scene) (share : Share)
    (scene : Scene) : Prop where
  trays : ∀ user tray, community.member user → ∃ list rest,
    scene.cells (Key.tray user tray) = .entries list ∧
      old.cells (Key.tray user tray) = .entries rest ∧
      list.filter (!mine ·.task) = rest.filter (!mine ·.task) ∧
      list.filter (mine ·.task) = share.entries user tray
  recorded : ∀ task, mine task = true → share.stored task → scene.Recorded task
  absent : ∀ task, mine task = true → ¬share.stored task →
    scene.cells (Key.record task) = .value none
  others : ∀ key, (∀ user tray, community.member user → key ≠ Key.tray user tray) →
    (∀ task, mine task = true → key ≠ Key.record task) → scene.cells key = old.cells key

variable {community : Community} {mine : TaskId → Bool} {old scene after : Scene} {share : Share}
  {user : UserId} {tray : Tray} {entry : Entry} {task : TaskId}

theorem Holds.issue (holds : Holds community mine old share scene) :
    Holds community mine old share scene.issue :=
  ⟨holds.trays, holds.recorded, holds.absent, holds.others⟩

/-- The key of a member's tray is no other key of a member's tray. -/
theorem tray_ne {other : UserId} {place : Tray} (user_member : community.member user)
    (other_member : community.member other) (differs : ¬(other = user ∧ place = tray)) :
    Key.tray other place ≠ Key.tray user tray :=
  fun same => differs (community.distinct other user place tray other_member user_member same)

/-- Changing one tray of a member, as far as the share goes, changes the share. -/
theorem Holds.put {list changed : List Entry} {entries : Placing}
    (holds : Holds community mine old share scene) (member : community.member user)
    (shown : scene.cells (Key.tray user tray) = .entries list)
    (outside : changed.filter (!mine ·.task) = list.filter (!mine ·.task))
    (inside : changed.filter (mine ·.task) = entries user tray)
    (elsewhere : ∀ other place, ¬(other = user ∧ place = tray) →
      entries other place = share.entries other place) :
    Holds community mine old ⟨entries, share.stored⟩
      (scene.put (Key.tray user tray) (.entries changed)) := by
  refine ⟨fun other place other_member => ?_, fun task ours stored => ?_,
    fun task ours missing => ?_, fun key no_tray no_record => ?_⟩
  · obtain ⟨found, rest, found_shown, rest_shown, out, inn⟩ :=
      holds.trays other place other_member
    by_cases here : other = user ∧ place = tray
    · obtain ⟨rfl, rfl⟩ := here
      cases shown.symm.trans found_shown
      exact ⟨changed, rest, put_cells_self .., rest_shown, outside.trans out, inside⟩
    · refine ⟨found, rest, ?_, rest_shown, out, inn.trans (elsewhere other place here).symm⟩
      rw [put_cells_of_ne _ _ (tray_ne member other_member here), found_shown]
  · obtain ⟨bytes, content, found, decoded, own⟩ := holds.recorded task ours stored
    exact ⟨bytes, content, (put_tray_cells_record ..).trans found, decoded, own⟩
  · exact (put_tray_cells_record ..).trans (holds.absent task ours missing)
  · rw [put_cells_of_ne _ _ (no_tray user tray member)]
    exact holds.others key no_tray no_record

theorem Holds.appended (holds : Holds community mine old share scene)
    (member : community.member user) (ours : mine entry.task = true)
    (appended : scene.Appended user tray entry after) :
    Holds community mine old (share.append user tray entry) after := by
  obtain ⟨list, shown, _, rfl⟩ := appended
  obtain ⟨found, _, found_shown, _, _, inside⟩ := holds.trays user tray member
  cases shown.symm.trans found_shown
  refine holds.put member shown ?_ ?_ fun other place elsewhere => ?_
  · simp [ours]
  · simp [Placing.append, ours, inside]
  · simp [Placing.append, elsewhere]

theorem Holds.removed (holds : Holds community mine old share scene)
    (member : community.member user) (ours : mine entry.task = true)
    (removed : scene.Removed user tray entry after) :
    Holds community mine old (share.remove user tray entry.task) after := by
  obtain ⟨list, shown, _, rfl⟩ := removed
  obtain ⟨found, _, found_shown, _, _, inside⟩ := holds.trays user tray member
  cases shown.symm.trans found_shown
  refine holds.put member shown ?_ ?_ fun other place elsewhere => ?_
  · exact EntryList.filter_erase_of_not (fun task => !mine task) (by simp [ours])
  · rw [EntryList.filter_erase ours, inside]
    simp [Placing.remove]
  · simp [Placing.remove, elsewhere]

/-- Moving the only entry of the share in a tray to the front does not change the share. -/
theorem Holds.bumped (holds : Holds community mine old share scene)
    (member : community.member user) (ours : mine entry.task = true)
    (only : share.entries user tray = [entry]) (bumped : scene.Bumped user tray entry after) :
    Holds community mine old share after := by
  obtain ⟨list, shown, _, rfl⟩ := bumped
  obtain ⟨found, _, found_shown, _, _, inside⟩ := holds.trays user tray member
  cases shown.symm.trans found_shown
  refine holds.put member shown ?_ ?_ fun _ _ _ => rfl
  · have dropped : (!mine entry.task) = false := by simp [ours]
    rw [List.filter_cons_of_neg (by simp [ours])]
    exact EntryList.filter_erase_of_not (fun task => !mine task) dropped
  · rw [List.filter_cons_of_pos (by simp [ours]), EntryList.filter_erase ours, inside, only]
    simp [EntryList.erase]

theorem Holds.putRecord {value : Option Bytes} {stored : TaskId → Prop}
    (holds : Holds community mine old share scene) (ours : mine task = true)
    (readable : stored task → ∃ bytes content, value = some bytes ∧
      Task.decode bytes = .ok content ∧ content.id = task)
    (missing : ¬stored task → value = none)
    (elsewhere : ∀ other, other ≠ task → (stored other ↔ share.stored other)) :
    Holds community mine old ⟨share.entries, stored⟩
      (scene.put (Key.record task) (.value value)) := by
  refine ⟨fun other place member => ?_, fun other other_ours here => ?_,
    fun other other_ours here => ?_, fun key no_tray no_record => ?_⟩
  · rw [put_record_cells_tray]
    exact holds.trays other place member
  · by_cases same : other = task
    · subst same
      obtain ⟨bytes, content, rfl, decoded, own⟩ := readable here
      exact ⟨bytes, content, put_cells_self .., decoded, own⟩
    · obtain ⟨bytes, content, found, decoded, own⟩ :=
        holds.recorded other other_ours ((elsewhere other same).mp here)
      refine ⟨bytes, content, ?_, decoded, own⟩
      rw [put_cells_of_ne _ _ fun keys => same (Key.record_injective keys), found]
  · by_cases same : other = task
    · subst same
      rw [put_cells_self, missing here]
    · rw [put_cells_of_ne _ _ fun keys => same (Key.record_injective keys)]
      exact holds.absent other other_ours fun stored => here ((elsewhere other same).mpr stored)
  · rw [put_cells_of_ne _ _ (no_record task ours)]
    exact holds.others key no_tray no_record

theorem Holds.save (holds : Holds community mine old share scene) (content : Task)
    (ours : mine content.id = true) (named : content.OriginNamed) :
    Holds community mine old (share.save content.id) (scene.save content) :=
  holds.putRecord ours
    (fun _ => ⟨content.encode, content, rfl, Task.decode_encode_of_originNamed named, rfl⟩)
    (fun missing => absurd (.inl rfl) missing) fun other differs => by simp [differs]

theorem Holds.discard (holds : Holds community mine old share scene) (ours : mine task = true) :
    Holds community mine old (share.discard task) (scene.discard task) :=
  holds.putRecord ours (fun stored => absurd rfl stored.1) (fun _ => rfl)
    fun other differs => by simp [differs]

theorem Holds.id_eq (holds : Holds community mine old share scene) (ours : mine task = true)
    (stored : share.stored task) {bytes : Bytes} {content : Task}
    (shown : scene.cells (Key.record task) = .value (some bytes))
    (decoded : Task.decode bytes = .ok content) : content.id = task := by
  obtain ⟨found, record, found_shown, found_decoded, own⟩ := holds.recorded task ours stored
  cases shown.symm.trans found_shown
  cases decoded.symm.trans found_decoded
  exact own

theorem Holds.not_entries (holds : Holds community mine old share scene)
    (ours : mine task = true) (list : List Entry) :
    scene.cells (Key.record task) ≠ .entries list := by
  by_cases stored : share.stored task
  · obtain ⟨bytes, content, shown, _⟩ := holds.recorded task ours stored
    rw [shown]
    rintro ⟨⟩
  · rw [holds.absent task ours stored]
    rintro ⟨⟩

/-! ## Looking for an entry of the share -/

theorem Holds.find?_eq {list : List Entry} (holds : Holds community mine old share scene)
    (member : community.member user) (ours : mine task = true)
    (shown : scene.cells (Key.tray user tray) = .entries list) :
    EntryList.find? task list = EntryList.find? task (share.entries user tray) := by
  obtain ⟨found, _, found_shown, _, _, inside⟩ := holds.trays user tray member
  cases shown.symm.trans found_shown
  rw [← inside, EntryList.find?_filter ours]

theorem Holds.mem_of_removed (holds : Holds community mine old share scene)
    (member : community.member user) (ours : mine entry.task = true)
    (removed : scene.Removed user tray entry after) : entry ∈ share.entries user tray := by
  obtain ⟨list, shown, first, _⟩ := removed
  rw [holds.find?_eq member ours shown] at first
  exact EntryList.mem_of_find? first

theorem Holds.mem_of_locateIn {located : Located} {trays : List Tray}
    (holds : Holds community mine old share scene) (member : community.member user)
    (ours : mine task = true) (found : scene.locateIn user task trays = some located) :
    located.entry ∈ share.entries user located.tray ∧ located.entry.task = task := by
  obtain ⟨list, shown, first⟩ := find?_of_locateIn found
  rw [holds.find?_eq member ours shown] at first
  exact ⟨EntryList.mem_of_find? first, EntryList.task_eq_of_find? first⟩

theorem Holds.task_ne_of_locateIn {trays : List Tray}
    (holds : Holds community mine old share scene) (member : community.member user)
    (ours : mine task = true) (missing : scene.locateIn user task trays = none) :
    ∀ tray ∈ trays, ∀ entry ∈ share.entries user tray, entry.task ≠ task := by
  induction trays with
  | nil => exact List.forall_mem_nil _
  | cons first rest induction =>
      obtain ⟨list, _, shown, _⟩ := holds.trays user first member
      unfold locateIn at missing
      simp only [shown] at missing
      split at missing
      · cases missing
      · rename_i lacking
        have absent : EntryList.find? task list = none := Option.map_eq_none_iff.mp lacking
        rw [holds.find?_eq member ours shown] at absent
        intro tray mem
        rcases List.mem_cons.mp mem with rfl | later
        · exact EntryList.find?_eq_none_iff.mp absent
        · exact induction missing tray later

/-- The only entry of the share for a task is found. -/
theorem Holds.exists_located (holds : Holds community mine old share scene)
    (member : community.member user) (ours : mine entry.task = true)
    (held : entry ∈ share.entries user tray)
    (only : ∀ place, ∀ other ∈ share.entries user place, other.task = entry.task →
      place = tray ∧ other = entry) :
    ∃ position, scene.locate? user entry.task = some ⟨tray, entry, position⟩ := by
  cases found : scene.locate? user entry.task with
  | none =>
      have missing := holds.task_ne_of_locateIn member ours found
      exact absurd rfl (missing tray tray.mem_all entry held)
  | some located =>
      obtain ⟨listed, same⟩ := holds.mem_of_locateIn member ours found
      obtain ⟨here, this⟩ := only located.tray located.entry listed same
      exact ⟨located.position, by rw [← here, ← this]⟩

theorem exists_removed_of_locate? {located : Located}
    (found : scene.locate? user task = some located) :
    ∃ after, scene.Removed user located.tray located.entry after := by
  obtain ⟨list, shown, first⟩ := find?_of_locateIn found
  obtain rfl := EntryList.task_eq_of_find? first
  exact ⟨_, list, shown, first, rfl⟩

/-! ## Shares with one entry in each tray at most -/

/-- There is no tray with two entries. -/
def Few (share : Share) : Prop := ∀ user tray, (share.entries user tray).length ≤ 1

theorem Holds.unrepeated (holds : Holds community mine old share scene)
    (old_unrepeated : old.Unrepeated) (few : Few share) : scene.Unrepeated := by
  intro key list shown
  by_cases known : ∃ user tray, community.member user ∧ key = Key.tray user tray
  · obtain ⟨user, tray, member, rfl⟩ := known
    obtain ⟨found, rest, found_shown, rest_shown, outside, inside⟩ := holds.trays user tray member
    cases shown.symm.trans found_shown
    have others : EntryList.Unrepeated (rest.filter (!mine ·.task)) :=
      (old_unrepeated _ rest rest_shown).sublist (List.filter_sublist.map Entry.task)
    refine EntryList.unrepeated_of_filter mine ?_ (outside ▸ others)
    rw [inside]
    exact EntryList.unrepeated_of_length_le_one (few user tray)
  · have no_tray (user : UserId) (tray : Tray) (member : community.member user) :
        key ≠ Key.tray user tray := fun same => known ⟨user, tray, member, same⟩
    by_cases ours : ∃ task, mine task = true ∧ key = Key.record task
    · obtain ⟨task, task_ours, rfl⟩ := ours
      exact absurd shown (holds.not_entries task_ours list)
    · exact old_unrepeated key list ((holds.others key no_tray fun task task_ours same =>
        ours ⟨task, task_ours, same⟩).symm.trans shown)

/-- An entry for one of the tasks, under the key of a member's tray. -/
def Ours (community : Community) (mine : TaskId → Bool) (key : String) (entry : Entry) : Prop :=
  mine entry.task = true ∧ ∃ user tray, community.member user ∧ key = Key.tray user tray

/-- Where entries of the share move at most, moving does not show. -/
theorem Holds.movedToEnd (holds : Holds community mine old share scene) (few : Few share)
    (moved : MovedToEnd (Ours community mine) scene after) :
    Holds community mine old share after := by
  have kept_record (task : TaskId) {value : Option Bytes}
      (shown : scene.cells (Key.record task) = .value value) :
      after.cells (Key.record task) = .value value :=
    Cell.MovedToEnd.eq_value (shown ▸ moved (Key.record task))
  refine ⟨fun user tray member => ?_, fun task ours stored => ?_, fun task ours missing => ?_,
    fun key no_tray no_record => ?_⟩
  · obtain ⟨list, rest, shown, rest_shown, outside, inside⟩ := holds.trays user tray member
    obtain ⟨changed, changed_shown, list_moved⟩ :=
      Cell.MovedToEnd.exists_entries (shown ▸ moved (Key.tray user tray))
    have kept (entry : Entry) (moves : Ours community mine (Key.tray user tray) entry) :
        mine entry.task = true := moves.1
    have one : (list.filter (mine ·.task)).length ≤ 1 := inside ▸ few user tray
    exact ⟨changed, rest, changed_shown, rest_shown, (list_moved.filter_not kept).trans outside,
      (list_moved.filter kept one).trans inside⟩
  · obtain ⟨bytes, content, shown, decoded, own⟩ := holds.recorded task ours stored
    exact ⟨bytes, content, kept_record task shown, decoded, own⟩
  · exact kept_record task (holds.absent task ours missing)
  · rw [← holds.others key no_tray no_record]
    have stays (entry : Entry) : ¬Ours community mine key entry := by
      rintro ⟨_, user, tray, member, same⟩
      exact no_tray user tray member same
    have same := moved key
    cases shown : scene.cells key with
    | value value => exact Cell.MovedToEnd.eq_value (shown ▸ same)
    | entries list =>
        obtain ⟨changed, changed_shown, list_moved⟩ := Cell.MovedToEnd.exists_entries (shown ▸ same)
        rw [changed_shown, list_moved.eq_of_forall_not stays]

end Scene
end Handoff
