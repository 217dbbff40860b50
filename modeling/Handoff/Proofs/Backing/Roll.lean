import Handoff.Proofs.Pairing.Share
import Handoff.Proofs.Pool.Linear
import Handoff.Proofs.Stored.Service
import Mathlib.Data.Set.Insert

/-!
# Entries and their records

A roll tells which tasks are listed under which keys, and which have a record of their own.  In a
sound scene every listed task has a record.  Each kind of write changes the roll in one place: an
entry may be put in once its task has a record, and a record may be deleted once its task is listed
nowhere.
-/

namespace Handoff

theorem EntryList.Unrepeated.mem_map_task_erase_iff {list : List Entry} {task other : TaskId}
    (unrepeated : EntryList.Unrepeated list) :
    other ∈ (EntryList.erase task list).map Entry.task ↔
      other ∈ list.map Entry.task ∧ other ≠ task := by
  rw [unrepeated.erase_eq_filter]
  simp only [List.mem_map, List.mem_filter, bne_iff_ne]
  constructor
  · rintro ⟨entry, ⟨mem, differs⟩, rfl⟩
    exact ⟨⟨entry, mem, rfl⟩, differs⟩
  · rintro ⟨⟨entry, mem, rfl⟩, differs⟩
    exact ⟨entry, ⟨mem, differs⟩, rfl⟩

namespace Scene

/-- Which tasks are listed, under the keys of their trays. -/
def listed (scene : Scene) : Set (String × TaskId) :=
  {place | ∃ list, scene.cells place.1 = .entries list ∧ place.2 ∈ list.map Entry.task}

/-- The tasks that have a record of their own. -/
def recorded (scene : Scene) : Set TaskId := {task | scene.Recorded task}

/-- The scene shows this roll: no tray has two entries for a task, only trays of members have
entries, and every task that is listed has a record. -/
structure Sound (community : Community) (listed : Set (String × TaskId)) (recorded : Set TaskId)
    (scene : Scene) : Prop where
  listed_eq : scene.listed = listed
  recorded_eq : scene.recorded = recorded
  unrepeated : scene.Unrepeated
  backed : ∀ key task, (key, task) ∈ listed → task ∈ recorded
  enclosed : ∀ key task, (key, task) ∈ listed →
    ∃ user tray, community.member user ∧ key = Key.tray user tray

variable {community : Community} {listed : Set (String × TaskId)} {recorded : Set TaskId}
  {scene after : Scene} {user : UserId} {tray : Tray} {entry : Entry} {task : TaskId}
  {key : String} {list : List Entry}

theorem mem_listed_put {place : String × TaskId} :
    place ∈ (scene.put key (.entries list)).listed ↔
      if place.1 = key then place.2 ∈ list.map Entry.task else place ∈ scene.listed := by
  simp only [Scene.listed, Set.mem_ofPred_eq, put_cells]
  split
  · constructor
    · rintro ⟨_, ⟨⟩, mem⟩
      exact mem
    · exact fun mem => ⟨list, rfl, mem⟩
  · rfl

theorem recorded_put_tray (cell : Cell) :
    (scene.put (Key.tray user tray) cell).recorded = scene.recorded := by
  ext other
  simp [Scene.recorded, Recorded]

theorem unlisted_of_only {place : String} (only : ∀ other, (other, task) ∈ listed → other = place)
    (there : (key, task) ∈ listed) (other : String) : (other, task) ∉ listed \ {(key, task)} := by
  rintro ⟨here, differs⟩
  exact differs (by rw [only other here, only key there]; rfl)

namespace Sound

theorem issue (sound : Sound community listed recorded scene) :
    Sound community listed recorded scene.issue :=
  ⟨sound.listed_eq, sound.recorded_eq, sound.unrepeated, sound.backed, sound.enclosed⟩

theorem mem_listed_iff (sound : Sound community listed recorded scene)
    (shown : scene.cells key = .entries list) :
    (key, task) ∈ listed ↔ task ∈ list.map Entry.task := by
  rw [← sound.listed_eq]
  constructor
  · rintro ⟨others, others_shown, mem⟩
    cases shown.symm.trans others_shown
    exact mem
  · exact fun mem => ⟨list, shown, mem⟩

theorem mem_listed_of_find? (sound : Sound community listed recorded scene)
    (shown : scene.cells key = .entries list) (first : EntryList.find? task list = some entry) :
    (key, task) ∈ listed :=
  (sound.mem_listed_iff shown).mpr
    (List.mem_map.mpr ⟨entry, EntryList.mem_of_find? first, EntryList.task_eq_of_find? first⟩)

/-- A task that could only be in a tray which has no entry for it is listed nowhere. -/
theorem unlisted_of_absent (sound : Sound community listed recorded scene)
    (only : ∀ other, (other, task) ∈ listed → other = key)
    (shown : scene.cells key = .entries list) (missing : EntryList.find? task list = none)
    (other : String) : (other, task) ∉ listed := by
  intro there
  obtain rfl := only other there
  obtain ⟨entry, mem, same⟩ := List.mem_map.mp ((sound.mem_listed_iff shown).mp there)
  exact EntryList.find?_eq_none_iff.mp missing entry mem same

theorem not_mem_listed (sound : Sound community listed recorded scene) (missing : task ∉ recorded)
    (key : String) : (key, task) ∉ listed :=
  fun mem => missing (sound.backed key task mem)

/-- An entry may be put in once its task has a record. -/
theorem appended (sound : Sound community listed recorded scene) (member : community.member user)
    (stored : entry.task ∈ recorded) (appended : scene.Appended user tray entry after) :
    Sound community (insert (Key.tray user tray, entry.task) listed) recorded after := by
  have unrepeated := sound.unrepeated.appended appended
  obtain ⟨list, shown, _, rfl⟩ := appended
  constructor
  · ext ⟨key, task⟩
    rw [mem_listed_put, sound.listed_eq]
    by_cases here : key = Key.tray user tray
    · subst here
      simp [sound.mem_listed_iff shown, or_comm]
    · simp [here]
  · rw [recorded_put_tray, sound.recorded_eq]
  · exact unrepeated
  · rintro key task (new | old)
    · cases new
      exact stored
    · exact sound.backed key task old
  · rintro key task (new | old)
    · cases new
      exact ⟨user, tray, member, rfl⟩
    · exact sound.enclosed key task old

theorem removed (sound : Sound community listed recorded scene)
    (removed : scene.Removed user tray entry after) :
    Sound community (listed \ {(Key.tray user tray, entry.task)}) recorded after := by
  have unrepeated := sound.unrepeated.removed removed
  obtain ⟨list, shown, _, rfl⟩ := removed
  constructor
  · ext ⟨key, task⟩
    rw [mem_listed_put, sound.listed_eq]
    by_cases here : key = Key.tray user tray
    · subst here
      rw [if_pos rfl, (sound.unrepeated _ list shown).mem_map_task_erase_iff]
      simp [sound.mem_listed_iff shown]
    · simp [here]
  · rw [recorded_put_tray, sound.recorded_eq]
  · exact unrepeated
  · exact fun key task mem => sound.backed key task mem.1
  · exact fun key task mem => sound.enclosed key task mem.1

theorem bumped (sound : Sound community listed recorded scene)
    (bumped : scene.Bumped user tray entry after) : Sound community listed recorded after := by
  obtain ⟨list, shown, found, rfl⟩ := bumped
  have same : (entry :: EntryList.erase entry.task list).Perm list :=
    (EntryList.perm_cons_erase found).symm
  constructor
  · ext ⟨key, task⟩
    rw [mem_listed_put, sound.listed_eq]
    by_cases here : key = Key.tray user tray
    · subst here
      rw [if_pos rfl, (same.map Entry.task).mem_iff, sound.mem_listed_iff shown]
    · simp [here]
  · rw [recorded_put_tray, sound.recorded_eq]
  · exact sound.unrepeated.put ((same.map Entry.task).nodup_iff.mpr (sound.unrepeated _ list shown))
  · exact sound.backed
  · exact sound.enclosed

theorem listed_putRecord (sound : Sound community listed recorded scene) (value : Option Bytes) :
    (scene.put (Key.record task) (.value value)).listed = listed := by
  rw [← sound.listed_eq]
  ext ⟨key, other⟩
  by_cases here : key = Key.record task
  · subst here
    constructor
    · rintro ⟨list, shown, _⟩
      rw [put_cells_self] at shown
      cases shown
    · intro mem
      rw [sound.listed_eq] at mem
      obtain ⟨user, tray, _, same⟩ := sound.enclosed _ _ mem
      exact absurd same (Key.record_ne_tray task user tray)
  · simp [Scene.listed, put_cells, here]

theorem unrepeated_putRecord (sound : Sound community listed recorded scene)
    (value : Option Bytes) : (scene.put (Key.record task) (.value value)).Unrepeated := by
  intro key list shown
  rw [put_cells] at shown
  split at shown
  · cases shown
  · exact sound.unrepeated key list shown

theorem saved {content : Task} (sound : Sound community listed recorded scene)
    (named : content.OriginNamed) :
    Sound community listed (insert content.id recorded) (scene.save content) := by
  constructor
  · exact sound.listed_putRecord _
  · rw [← sound.recorded_eq]
    ext task
    by_cases same : task = content.id
    · subst same
      have reads : (scene.save content).Recorded content.id :=
        ⟨_, _, put_cells_self .., Task.decode_encode_of_originNamed named, rfl⟩
      simp [Scene.recorded, reads]
    · have differs : Key.record task ≠ Key.record content.id :=
        fun keys => same (Key.record_injective keys)
      simp [Scene.recorded, Recorded, Scene.save, put_cells, differs, same]
  · exact sound.unrepeated_putRecord _
  · exact fun key task mem => .inr (sound.backed key task mem)
  · exact sound.enclosed

/-- A record may be deleted once its task is listed nowhere. -/
theorem discarded (sound : Sound community listed recorded scene)
    (unlisted : ∀ key, (key, task) ∉ listed) :
    Sound community listed (recorded \ {task}) (scene.discard task) := by
  constructor
  · exact sound.listed_putRecord _
  · rw [← sound.recorded_eq]
    ext other
    by_cases same : other = task
    · subst same
      simp [Scene.recorded, Recorded, Scene.discard]
    · have differs : Key.record other ≠ Key.record task :=
        fun keys => same (Key.record_injective keys)
      simp [Scene.recorded, Recorded, Scene.discard, put_cells, differs, same]
  · exact sound.unrepeated_putRecord _
  · intro key other mem
    have differs : other ≠ task := by
      rintro rfl
      exact unlisted key mem
    exact ⟨sound.backed key other mem, differs⟩
  · exact sound.enclosed

end Sound
end Scene
end Handoff
