import Handoff.Proofs.Pairing.Spares.Steps

/-!
# The two records of a shared task

The copies of a shared task say the same, and come from the same place.  Which entries and which
records an operation brings is told apart from what they hold: an entry is an old one or one of a
few new ones, and a record is as it was or has a new name.
-/

namespace Handoff

namespace Task

/-- Two records say the same and come from the same place. -/
structure Twin (task other : Task) : Prop where
  message : task.message = other.message
  description : task.description = other.description
  origin : task.origin = other.origin

/-- A record is another state of a record: it says perhaps something else, but it has the same name
and comes from the same place and time. -/
structure Continues (before after : Task) : Prop where
  id : after.id = before.id
  createdAt : after.createdAt = before.createdAt
  origin : after.origin = before.origin

variable {task other : Task}

theorem Twin.symm (twin : task.Twin other) : other.Twin task :=
  ⟨twin.message.symm, twin.description.symm, twin.origin.symm⟩

theorem twin_copy (named : task.OriginNamed) (id : TaskId) (now : Instant) :
    task.Twin (task.copy id now) :=
  ⟨rfl, rfl, (namedOrigin_eq_self named).symm⟩

theorem Twin.withContent (twin : task.Twin other) (message description : String) :
    (task.withContent message description).Twin (other.withContent message description) :=
  ⟨rfl, rfl, twin.origin⟩

theorem continues_refl (task : Task) : task.Continues task := ⟨rfl, rfl, rfl⟩

theorem continues_withContent (task : Task) (message description : String) :
    task.Continues (task.withContent message description) := ⟨rfl, rfl, rfl⟩

end Task

namespace Scene

/-- A record can be read as a task. -/
def Reads (scene : Scene) (task : TaskId) (content : Task) : Prop :=
  ∃ bytes, scene.cells (Key.record task) = .value (some bytes) ∧ Task.decode bytes = .ok content

/-- Two records can be read and say the same. -/
def Alike (scene : Scene) (task other : TaskId) : Prop :=
  ∃ content copy, scene.Reads task content ∧ scene.Reads other copy ∧ content.Twin copy

/-- The records on the two sides of every link say the same. -/
def Synchronized (community : Community) (scene : Scene) : Prop :=
  ∀ user tray entry link, community.member user → scene.Lists user tray entry →
    entry.link = some link → scene.Alike entry.task link.task

variable {community : Community} {around : Surroundings} {before middle scene after : Scene}
  {user other : UserId} {tray place : Tray} {entry next : Entry} {task : TaskId}
  {content copy : Task} {added : List Entry}

theorem Reads.unique (reads : scene.Reads task content) (again : scene.Reads task copy) :
    content = copy := by
  obtain ⟨bytes, shown, decoded⟩ := reads
  obtain ⟨others, others_shown, others_decoded⟩ := again
  cases shown.symm.trans others_shown
  cases decoded.symm.trans others_decoded
  rfl

theorem Reads.of_cells_eq (reads : before.Reads task content)
    (same : after.cells (Key.record task) = before.cells (Key.record task)) :
    after.Reads task content := by
  obtain ⟨bytes, shown, decoded⟩ := reads
  exact ⟨bytes, same.trans shown, decoded⟩

theorem Reads.originNamed (reads : scene.Reads task content) : content.OriginNamed := by
  obtain ⟨bytes, _, decoded⟩ := reads
  exact Task.originNamed_of_decode decoded

theorem reads_save (scene : Scene) (named : content.OriginNamed) :
    (scene.save content).Reads content.id content :=
  ⟨content.encode, put_cells_self .., Task.decode_encode_of_originNamed named⟩

theorem Alike.symm {left right : TaskId} (alike : scene.Alike left right) :
    scene.Alike right left := by
  obtain ⟨content, copy, reads, copy_reads, twin⟩ := alike
  exact ⟨copy, content, copy_reads, reads, twin.symm⟩

/-- Two entries that are linked to each other lead to each other's records. -/
theorem alike_of_mem_pair {left right : TaskId} {owner partner : UserId} {link : Link}
    (alike : scene.Alike left right)
    (mem : entry ∈ [Entry.linked left partner right, Entry.linked right owner left])
    (linked : entry.link = some link) : scene.Alike entry.task link.task := by
  rcases List.mem_cons.mp mem with rfl | later
  · cases linked
    exact alike
  · obtain rfl := List.mem_singleton.mp later
    cases linked
    exact alike.symm

/-! ## Which entries are listed after a change of a tray -/

theorem lists_put {list : List Entry}
    (lists : (scene.put (Key.tray user tray) (.entries list)).Lists other place next) :
    (Key.tray other place = Key.tray user tray ∧ next ∈ list) ∨ scene.Lists other place next := by
  obtain ⟨found, shown, mem⟩ := lists
  rw [put_cells] at shown
  split at shown
  · rename_i here
    cases shown
    exact .inl ⟨here, mem⟩
  · exact .inr ⟨found, shown, mem⟩

/-- An entry that is listed when some of the entries of a tray are left was listed before. -/
theorem lists_of_subset {list others : List Entry}
    (shown : scene.cells (Key.tray user tray) = .entries list) (subset : others ⊆ list)
    (lists : (scene.put (Key.tray user tray) (.entries others)).Lists other place next) :
    scene.Lists other place next := by
  rcases lists_put lists with ⟨here, mem⟩ | old
  · exact ⟨list, here ▸ shown, subset mem⟩
  · exact old

theorem Appended.lists (appended : before.Appended user tray entry after)
    (lists : after.Lists other place next) : next = entry ∨ before.Lists other place next := by
  obtain ⟨list, shown, _, rfl⟩ := appended
  rcases lists_put lists with ⟨here, mem⟩ | old
  · rcases List.mem_append.mp mem with old | new
    · exact .inr ⟨list, here ▸ shown, old⟩
    · exact .inl (List.mem_singleton.mp new)
  · exact .inr old

theorem Removed.lists (removed : before.Removed user tray entry after)
    (lists : after.Lists other place next) : before.Lists other place next := by
  obtain ⟨list, shown, _, rfl⟩ := removed
  exact lists_of_subset shown List.eraseP_sublist.subset lists

theorem Bumped.lists (bumped : before.Bumped user tray entry after)
    (lists : after.Lists other place next) : before.Lists other place next := by
  obtain ⟨list, shown, found, rfl⟩ := bumped
  refine lists_of_subset shown ?_ lists
  exact List.cons_subset.mpr ⟨EntryList.mem_of_find? found, List.eraseP_sublist.subset⟩

/-! ## What an operation brings -/

/-- An entry is listed as before, or is one of those that have been added; and a record is as
before, or is gone, or has a name that had not been given out. -/
structure Follows (community : Community) (around : Surroundings) (added : List Entry)
    (before after : Scene) : Prop where
  lists : ∀ user tray entry, community.member user → after.Lists user tray entry →
    entry ∈ added ∨ ∃ other place, community.member other ∧ before.Lists other place entry
  records : ∀ task bytes, after.cells (Key.record task) = .value (some bytes) →
    before.cells (Key.record task) = .value (some bytes) ∨
      ∃ n, before.issued ≤ n ∧ around.newTaskId n = task

theorem follows_refl (scene : Scene) : Follows community around added scene scene :=
  ⟨fun user tray _ member lists => .inr ⟨user, tray, member, lists⟩, fun _ _ shown => .inl shown⟩

namespace Follows

theorem of_cells_eq (follows : Follows community around added before middle)
    (same : after.cells = middle.cells) : Follows community around added before after := by
  constructor
  · intro user tray entry member lists
    rw [Lists, same] at lists
    exact follows.lists user tray entry member lists
  · intro task bytes shown
    rw [same] at shown
    exact follows.records task bytes shown

/-- A change of a tray that lists only what it listed, and what is added. -/
theorem trays (follows : Follows community around added before middle)
    (lists : ∀ user tray entry, community.member user → after.Lists user tray entry →
      entry ∈ added ∨ ∃ other place, community.member other ∧
        (middle.Lists other place entry ∨ before.Lists other place entry))
    (records : ∀ task, after.cells (Key.record task) = middle.cells (Key.record task)) :
    Follows community around added before after := by
  constructor
  · intro user tray entry member listed
    rcases lists user tray entry member listed with new | ⟨other, place, other_member, old | old⟩
    · exact .inl new
    · exact follows.lists other place entry other_member old
    · exact .inr ⟨other, place, other_member, old⟩
  · intro task bytes shown
    rw [records task] at shown
    exact follows.records task bytes shown

theorem appended (follows : Follows community around added before middle)
    (appended : middle.Appended user tray entry after) (mem : entry ∈ added) :
    Follows community around added before after := by
  apply follows.trays
  · intro other place next member lists
    rcases appended.lists lists with rfl | old
    · exact .inl mem
    · exact .inr ⟨other, place, member, .inl old⟩
  · exact appended.cells_record

theorem relisted (follows : Follows community around added before middle)
    (appended : middle.Appended user tray entry after) (member : community.member other)
    (listed : before.Lists other place entry) : Follows community around added before after := by
  apply follows.trays
  · intro owner spot next owner_member lists
    rcases appended.lists lists with rfl | old
    · exact .inr ⟨other, place, member, .inr listed⟩
    · exact .inr ⟨owner, spot, owner_member, .inl old⟩
  · exact appended.cells_record

theorem removed (follows : Follows community around added before middle)
    (removed : middle.Removed user tray entry after) :
    Follows community around added before after := by
  apply follows.trays
  · exact fun other place _ member lists => .inr ⟨other, place, member, .inl (removed.lists lists)⟩
  · exact removed.cells_record

theorem bumped (follows : Follows community around added before middle)
    (bumped : middle.Bumped user tray entry after) :
    Follows community around added before after := by
  apply follows.trays
  · exact fun other place _ member lists => .inr ⟨other, place, member, .inl (bumped.lists lists)⟩
  · obtain ⟨list, _, _, rfl⟩ := bumped
    exact fun task => put_tray_cells_record ..

theorem putRecord (follows : Follows community around added before middle) {value : Option Bytes}
    (fits : ∀ bytes, value = some bytes → ∃ n, before.issued ≤ n ∧ around.newTaskId n = task) :
    Follows community around added before (middle.put (Key.record task) (.value value)) := by
  constructor
  · rintro user tray entry member ⟨list, shown, mem⟩
    rw [put_record_cells_tray] at shown
    exact follows.lists user tray entry member ⟨list, shown, mem⟩
  · intro other bytes shown
    rw [put_cells] at shown
    split at shown
    · rename_i same
      cases Key.record_injective same
      cases shown
      exact .inr (fits bytes rfl)
    · exact follows.records other bytes shown

theorem save (follows : Follows community around added before middle) {n : Nat}
    (later : before.issued ≤ n) (generated : content.id = around.newTaskId n) :
    Follows community around added before (middle.save content) :=
  follows.putRecord fun _ _ => ⟨n, later, generated.symm⟩

theorem discard (follows : Follows community around added before middle) (task : TaskId) :
    Follows community around added before (middle.discard task) :=
  follows.putRecord nofun

theorem reads_before (follows : Follows community around added before after)
    (old : ∀ n, before.issued ≤ n → around.newTaskId n ≠ task) (reads : after.Reads task content) :
    before.Reads task content := by
  obtain ⟨bytes, shown, decoded⟩ := reads
  rcases follows.records task bytes shown with same | ⟨n, later, generated⟩
  · exact ⟨bytes, same, decoded⟩
  · exact absurd generated (old n later)

end Follows

end Scene
end Handoff
