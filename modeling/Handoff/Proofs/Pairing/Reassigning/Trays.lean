import Handoff.Proofs.Pairing.Assigning

/-!
# The trays of a task that is assigned

An entry that is taken out of the only tray that has one for its task is filtered out of all trays.
So a task that is assigned leaves the entries of other tasks in their order, and its new entries
stand at the ends of their trays.
-/

namespace Handoff

namespace Placing

/-- Without the entries for some tasks. -/
def without (placing : Placing) (tasks : List TaskId) : Placing :=
  fun user tray => (placing user tray).filter fun entry => decide (entry.task ∉ tasks)

/-- With more entries at the ends of the trays. -/
def join (placing added : Placing) : Placing :=
  fun user tray => placing user tray ++ added user tray

/-- Entries for a task are in one tray at most, among those of members. -/
def OneTray (community : Community) (placing : Placing) (task : TaskId) : Prop :=
  ∀ user other tray place, community.member user → community.member other →
    ∀ entry ∈ placing user tray, ∀ next ∈ placing other place,
      entry.task = task → next.task = task → user = other ∧ tray = place

variable {community : Community} {placing : Placing} {user other : UserId} {tray place : Tray}
  {entry : Entry} {task : TaskId} {tasks others : List TaskId}

theorem without_without :
    (placing.without tasks).without others = placing.without (others ++ tasks) := by
  funext user tray
  simp only [without, List.filter_filter]
  exact List.filter_congr fun entry _ => by simp [not_or]

theorem without_append (kept : entry.task ∉ tasks) :
    (placing.append user tray entry).without tasks =
      (placing.without tasks).append user tray entry := by
  funext someone somewhere
  by_cases here : someone = user ∧ somewhere = tray
  · simp [without, append, here, kept]
  · simp [without, append, here]

theorem append_apply :
    placing.append user tray entry other place =
      placing other place ++ none.append user tray entry other place := by
  by_cases here : other = user ∧ place = tray
  · simp [append, none, here]
  · simp [append, none, here]

theorem append_eq_join :
    placing.append user tray entry = placing.join (none.append user tray entry) := by
  funext someone somewhere
  exact append_apply

theorem append_append_eq_join {next : Entry} :
    (placing.append user tray entry).append other place next =
      placing.join ((none.append user tray entry).append other place next) := by
  funext someone somewhere
  rw [append_apply, append_apply, List.append_assoc, join,
    @append_apply (none.append user tray entry)]

theorem OneTray.without (one : placing.OneTray community task) (tasks : List TaskId) :
    (placing.without tasks).OneTray community task :=
  fun user other tray place member other_member entry mem next next_mem =>
    one user other tray place member other_member entry (List.mem_of_mem_filter mem) next
      (List.mem_of_mem_filter next_mem)

theorem OneTray.append (one : placing.OneTray community task) (differs : entry.task ≠ task) :
    (placing.append user tray entry).OneTray community task := by
  have old {someone : UserId} {somewhere : Tray} {found : Entry}
      (mem : found ∈ placing.append user tray entry someone somewhere) (same : found.task = task) :
      found ∈ placing someone somewhere := by
    rw [append_apply, List.mem_append, mem_none_append] at mem
    rcases mem with here | ⟨_, _, rfl⟩
    · exact here
    · exact absurd same differs
  exact fun user other tray place member other_member entry mem next next_mem same next_same =>
    one user other tray place member other_member entry (old mem same) next (old next_mem next_same)
      same next_same

end Placing

namespace Scene

variable {community : Community} {scene after : Scene} {placing : Placing} {user : UserId}
  {tray : Tray} {entry : Entry} {task : TaskId}

/-- The entries that can be read in the trays. -/
def allocation (scene : Scene) : Placing := fun user tray =>
  match scene.cells (Key.tray user tray) with
  | .entries list => list
  | .value _ => []

/-- The trays of members have these entries. -/
def Places (community : Community) (placing : Placing) (scene : Scene) : Prop :=
  ∀ user tray, community.member user →
    scene.cells (Key.tray user tray) = .entries (placing user tray)

theorem places_allocation
    (readable : ∀ user tray, community.member user →
      ∃ list, scene.cells (Key.tray user tray) = .entries list) :
    scene.Places community scene.allocation := by
  intro user tray member
  obtain ⟨list, shown⟩ := readable user tray member
  simp [allocation, shown]

theorem Places.issue (places : scene.Places community placing) :
    scene.issue.Places community placing := places

theorem Places.save (places : scene.Places community placing) (content : Task) :
    (scene.save content).Places community placing := fun user tray member =>
  (put_record_cells_tray ..).trans (places user tray member)

theorem Places.discard (places : scene.Places community placing) (task : TaskId) :
    (scene.discard task).Places community placing := fun user tray member =>
  (put_record_cells_tray ..).trans (places user tray member)

theorem Places.appended (places : scene.Places community placing) (member : community.member user)
    (appended : scene.Appended user tray entry after) :
    after.Places community (placing.append user tray entry) := by
  obtain ⟨list, shown, _, rfl⟩ := appended
  cases shown.symm.trans (places user tray member)
  intro other place other_member
  by_cases here : other = user ∧ place = tray
  · obtain ⟨rfl, rfl⟩ := here
    simp [Placing.append]
  · rw [put_cells_of_ne _ _ (tray_ne member other_member here), places other place other_member]
    simp [Placing.append, here]

/-- An entry that is taken out was the only one for its task. -/
theorem Places.removed (places : scene.Places community placing) (member : community.member user)
    (one : placing.OneTray community entry.task) (unrepeated : scene.Unrepeated)
    (removed : scene.Removed user tray entry after) :
    after.Places community (placing.without [entry.task]) := by
  obtain ⟨list, shown, first, rfl⟩ := removed
  cases shown.symm.trans (places user tray member)
  intro other place other_member
  by_cases here : other = user ∧ place = tray
  · obtain ⟨rfl, rfl⟩ := here
    rw [put_cells_self, (unrepeated _ _ shown).erase_eq_filter]
    refine congrArg Cell.entries (List.filter_congr fun next _ => ?_)
    simp [bne, beq_eq_decide]
  · have kept : (placing other place).filter (fun next => decide (next.task ∉ [entry.task])) =
        placing other place := by
      refine List.filter_eq_self.mpr fun next mem => ?_
      have differs : next.task ≠ entry.task := fun same =>
        here (one other user place tray other_member member next mem entry
          (EntryList.mem_of_find? first) same rfl)
      simpa using differs
    rw [put_cells_of_ne _ _ (tray_ne member other_member here), places other place other_member]
    exact congrArg Cell.entries kept.symm

/-! ## What assigning does to the trays -/

open Workflow (TakenBack HandedOver)

variable {located : Located} {assignee : UserId} {copy : Task}

theorem Places.takenBack (places : scene.Places community placing) (member : community.member user)
    (one : placing.OneTray community located.entry.task) (unrepeated : scene.Unrepeated)
    (taken : TakenBack scene user located after) :
    after.Places community ((placing.without [located.entry.task]).join
      (Holding.alone user located.entry.task).entries) := by
  obtain ⟨bare, removed, appended⟩ := taken
  have taken_places := (places.removed member one unrepeated removed).appended member appended
  rwa [Placing.append_eq_join] at taken_places

theorem Places.handedOver (places : scene.Places community placing)
    (member : community.member user) (assignee_member : community.member assignee)
    (one : placing.OneTray community located.entry.task) (unrepeated : scene.Unrepeated)
    (differs : copy.id ≠ located.entry.task)
    (handed : HandedOver scene user assignee located copy after) :
    after.Places community ((placing.without [located.entry.task]).join
      (Holding.shared user located.entry.task assignee copy.id false).entries) := by
  obtain ⟨given, bare, received, removed, sent⟩ := handed
  have given_places := (places.issue.save copy).appended assignee_member received
  have given_unrepeated := (unrepeated.issue.save copy).appended received
  have bare_places :=
    given_places.removed member (one.append differs) given_unrepeated removed
  rw [Placing.without_append (by simpa using differs)] at bare_places
  have after_places := bare_places.appended member sent
  rwa [Placing.append_comm (by decide), Placing.append_append_eq_join] at after_places

/-- However the task is assigned, its entry is filtered out and the new entries are put in. -/
theorem Places.moved (places : scene.Places community placing) (member : community.member user)
    (assignee_member : community.member assignee)
    (one : placing.OneTray community located.entry.task) (unrepeated : scene.Unrepeated)
    (differs : copy.id ≠ located.entry.task)
    (moved : if assignee = user then TakenBack scene user located after
      else HandedOver scene user assignee located copy after) :
    after.Places community ((placing.without [located.entry.task]).join
      (Holding.assigned user located.entry.task assignee copy.id).entries) := by
  unfold Holding.assigned
  by_cases home : assignee = user
  · rw [if_pos home] at moved ⊢
    exact places.takenBack member one unrepeated moved
  · rw [if_neg home] at moved ⊢
    exact places.handedOver member assignee_member one unrepeated differs moved

end Scene
end Handoff
