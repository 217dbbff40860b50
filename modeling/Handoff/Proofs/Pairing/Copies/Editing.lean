import Handoff.Proofs.Pairing.Copies.Basic

/-!
# Editing both copies

Where links are mutual and no write fails, an edit gives its texts to the user's record and to the
record on the other side.  As no other link leads to one of the two, records that say the same go on
to do so.
-/

namespace Handoff

/-- A record is that of an entry, or the one on the other side of its link. -/
def Entry.Concerns (entry : Entry) (task : TaskId) : Prop :=
  task = entry.task ∨ ∃ link, entry.link = some link ∧ task = link.task

/-- The records that an entry concerns have got new texts, and all others say what they said. -/
structure Scene.Edited (before : Scene) (entry : Entry) (message description : String)
    (after : Scene) : Prop where
  trays : ∀ user tray, after.cells (Key.tray user tray) = before.cells (Key.tray user tray)
  revised : ∀ task content, entry.Concerns task → before.Reads task content →
    after.Reads task (content.withContent message description)
  kept : ∀ task content, ¬entry.Concerns task → before.Reads task content →
    after.Reads task content

namespace Workflow

open Conditions (calm)
open Attempt (Yields)

variable {around : Surroundings} {scene : Scene} {user : UserId} {task : TaskId} {located : Located}
  {content copy : Task} {link : Link} {message description : String}

theorem yields_revise (reads : scene.Reads task content) (message description : String) :
    Yields (calm around) (revise task message description) scene content.message
      (scene.save (content.withContent message description)) := by
  obtain ⟨bytes, shown, decoded⟩ := reads
  apply (Records.yields_load (calm around) shown decoded).bind
  exact (Records.yields_save rfl).bind (Attempt.yields_pure _)

theorem yields_edit (found : scene.locate? user task = some located)
    (reads : scene.Reads task content) {after : Scene}
    (other : Program.Yields (calm around) (reviseOther message description located.entry.link)
      (scene.save (content.withContent message description)) () after) :
    Yields (calm around) (edit user task message description) scene
      ⟨located.entry.partner, located.tray, content.message⟩ after := by
  apply ((Trays.yields_locate? found).bind (Attempt.yields_pure located)).bind
  apply (yields_revise reads message description).bind
  exact (Attempt.yields_lift other).bind (Attempt.yields_pure _)

end Workflow

namespace Scene

variable {community : Community} {around : Surroundings} {world : World} {holdings : List Holding}
  {scene after : Scene} {user other : UserId} {tray place : Tray} {entry next : Entry}
  {task : TaskId} {content copy : Task} {link : Link} {message description : String}

theorem Reads.save (reads : scene.Reads task copy) (differs : task ≠ content.id) :
    (scene.save content).Reads task copy :=
  reads.of_cells_eq (put_cells_of_ne _ _ fun keys => differs (Key.record_injective keys))

theorem Reads.save_withContent (reads : scene.Reads task content) (own : content.id = task)
    (message description : String) :
    (scene.save (content.withContent message description)).Reads task
      (content.withContent message description) := by
  have saved := reads_save scene (reads.originNamed.withContent message description)
  exact own ▸ saved

theorem edited_unlinked (unlinked : entry.link = none) (reads : scene.Reads entry.task content)
    (own : content.id = entry.task) :
    scene.Edited entry message description
      (scene.save (content.withContent message description)) := by
  constructor
  · exact fun user tray => put_record_cells_tray ..
  · rintro task found (rfl | ⟨link, linked, _⟩) found_reads
    · obtain rfl := reads.unique found_reads
      exact reads.save_withContent own message description
    · cases unlinked.symm.trans linked
  · intro task found untouched found_reads
    apply found_reads.save
    exact fun same => untouched (.inl (same.trans own))

theorem edited_linked (linked : entry.link = some link) (differs : link.task ≠ entry.task)
    (reads : scene.Reads entry.task content) (own : content.id = entry.task)
    (copy_reads : scene.Reads link.task copy) (copy_own : copy.id = link.task) :
    scene.Edited entry message description
      ((scene.save (content.withContent message description)).save
        (copy.withContent message description)) := by
  have still : (scene.save (content.withContent message description)).Reads link.task copy :=
    copy_reads.save fun same => differs (same.trans own)
  constructor
  · exact fun user tray => (put_record_cells_tray ..).trans (put_record_cells_tray ..)
  · rintro task found (rfl | ⟨another, also, rfl⟩) found_reads
    · obtain rfl := reads.unique found_reads
      apply (reads.save_withContent own message description).save
      exact fun same => differs (same.trans copy_own).symm
    · cases linked.symm.trans also
      obtain rfl := copy_reads.unique found_reads
      exact still.save_withContent copy_own message description
  · intro task found untouched found_reads
    refine (found_reads.save ?_).save ?_
    · exact fun same => untouched (.inl (same.trans own))
    · exact fun same => untouched (.inr ⟨link, linked, same.trans copy_own⟩)

end Scene

/-- If an entry concerns the record of another, it concerns the one on the other side as well. -/
theorem Store.Paired.concerns_link {community : Community} {store : Store} {user other : UserId}
    {tray place : Tray} {entry next : Entry} {link : Link} (paired : store.Paired community)
    (member : community.member user) (lists : store.Lists user tray entry)
    (other_member : community.member other) (next_lists : store.Lists other place next)
    (linked : next.link = some link) (concerns : entry.Concerns next.task) :
    entry.Concerns link.task := by
  rcases concerns with same | ⟨across, leads, same⟩
  · obtain rfl := paired.eq_of_task_eq other_member member next_lists lists same
    exact .inr ⟨link, linked, rfl⟩
  · obtain ⟨across_member, spot, back⟩ := paired.exists_back member lists leads
    obtain rfl := paired.eq_of_task_eq other_member across_member next_lists back same
    cases linked
    exact .inl rfl

namespace Scene.Comprises

open Conditions (calm)

variable {community : Community} {around : Surroundings} {world : World} {holdings : List Holding}
  {after : Scene} {user : UserId} {tray : Tray} {entry : Entry} {task : TaskId} {link : Link}
  {message description : String}

/-- A listed task has a record under its own name. -/
theorem exists_reads (comprises : Comprises community around holdings world.scene)
    (member : community.member user) (lists : world.scene.Lists user tray entry) :
    ∃ content, world.scene.Reads entry.task content ∧ content.id = entry.task := by
  obtain ⟨holding, mem, held⟩ := (comprises.lists_iff member).mp lists
  obtain ⟨bytes, content, shown, decoded, own⟩ := comprises.recorded entry.task
    (List.mem_flatMap.mpr ⟨holding, mem, Holding.task_mem_of_mem held⟩)
  exact ⟨content, ⟨bytes, shown, decoded⟩, own⟩

/-- An edit finds no entry for the task, or gives its texts to the records that the entry
concerns. -/
theorem edit_cases (comprises : Comprises community around holdings world.scene)
    (member : community.member user) (task : TaskId) (message description : String) :
    (Workflow.edit user task message description).run.Leaves (calm around) world.scene world.scene ∨
      ∃ tray entry after, world.scene.Lists user tray entry ∧ entry.task = task ∧
        (Workflow.edit user task message description).run.Leaves (calm around) world.scene after ∧
        world.scene.Edited entry message description after := by
  rcases Workflow.locate_cases (calm around) world.scene user task with
    fails | ⟨located, found, _⟩
  · exact .inl (fails.bind _).leaves
  obtain ⟨list, shown, first⟩ := find?_of_locateIn found
  obtain rfl := EntryList.task_eq_of_find? first
  have lists : world.scene.Lists user located.tray located.entry :=
    ⟨list, shown, EntryList.mem_of_find? first⟩
  obtain ⟨content, reads, own⟩ := comprises.exists_reads member lists
  refine .inr ⟨located.tray, located.entry, ?_⟩
  cases linked : located.entry.link with
  | none =>
      refine ⟨_, lists, rfl, (Workflow.yields_edit found reads ?_).leaves,
        edited_unlinked linked reads own⟩
      rw [linked]
      exact Program.yields_pure ()
  | some link =>
      obtain ⟨link_member, place, back⟩ := comprises.paired.exists_back member lists linked
      obtain ⟨copy, copy_reads, copy_own⟩ := comprises.exists_reads link_member back
      have differs := comprises.paired.link_task_ne member lists linked
      refine ⟨_, lists, rfl, (Workflow.yields_edit found reads ?_).leaves,
        edited_linked linked differs reads own copy_reads copy_own⟩
      rw [linked]
      have still :
          (world.scene.save (content.withContent message description)).Reads link.task copy :=
        copy_reads.save fun same => differs (same.trans own)
      exact Program.Yields.bind (Workflow.yields_revise still message description)
        (Program.yields_pure ())

end Scene.Comprises
end Handoff
