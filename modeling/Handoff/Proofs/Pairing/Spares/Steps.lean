import Handoff.Proofs.Pairing.Spares.Basic

/-!
# What the workflows touch

The task of a user may be shared with one other user, whose entry is linked to the first.  All
workflows but assigning touch at most the two entries and the two records of one task.
-/

namespace Handoff

namespace Holding

variable {holding : Holding} {user other : UserId} {tray place : Tray} {entry next : Entry}

theorem partner_eq (held : entry ∈ holding.entries user tray)
    (next_held : next ∈ holding.entries other place) (differs : other ≠ user) :
    next.partner = some user := by
  cases holding with
  | gone => exact absurd held List.not_mem_nil
  | alone holder task =>
      obtain ⟨rfl, _⟩ := mem_entries_alone.mp held
      exact absurd (mem_entries_alone.mp next_held).1 differs
  | shared sender task receiver copy accepted =>
      rcases mem_entries_shared.mp held with ⟨rfl, _⟩ | ⟨rfl, _⟩ <;>
        rcases mem_entries_shared.mp next_held with ⟨rfl, _, rfl⟩ | ⟨rfl, _, rfl⟩
      · exact absurd rfl differs
      · rfl
      · rfl
      · exact absurd rfl differs

end Holding

theorem Store.Paired.exists_back {community : Community} {store : Store} {user : UserId}
    {tray : Tray} {entry : Entry} {link : Link} (paired : store.Paired community)
    (member : community.member user) (listed : store.Lists user tray entry)
    (linked : entry.link = some link) : community.member link.user ∧
      ∃ place, store.Lists link.user place (.linked link.task user entry.task) := by
  by_cases sent : tray = .sent
  · subst sent
    obtain ⟨receiver, copy, place, receiver_member, found, _, back⟩ :=
      paired.sent user entry member listed
    cases linked.symm.trans found
    exact ⟨receiver_member, place, back⟩
  · exact (paired.linked user tray entry link member listed sent linked).imp_right (⟨.sent, ·⟩)

/-- A program that is run for a user touches nothing of another but what is linked to the user. -/
def Program.Spares {α : Type} (around : Surroundings) (user other : UserId) (p : Program α)
    (scene : Scene) : Prop :=
  ∃ after, p.Leaves (.calm around) scene after ∧ scene.Spares user other after

/-- A program may go on with what changes nothing. -/
theorem Program.Spares.bind {α β : Type} {around : Surroundings} {user other : UserId}
    {scene : Scene} {attempt : Attempt α} {next : α → Attempt β}
    (spares : attempt.run.Spares around user other scene)
    (silent : ∀ a after, Program.Leaves (.calm around) (next a).run after after) :
    (attempt >>= next).run.Spares around user other scene := by
  obtain ⟨after, leaves, spares⟩ := spares
  have going : Program.Leaves (.calm around)
      (attempt.run >>= ExceptT.bindCont next) scene after := by
    refine leaves.bind fun result => ?_
    cases result with
    | ok a => exact silent a after
    | error failure => exact (Program.yields_pure _).leaves
  exact ⟨after, going, spares⟩

theorem Program.Spares.map {α β : Type} {around : Surroundings} {user other : UserId}
    {scene : Scene} {attempt : Attempt α} (spares : attempt.run.Spares around user other scene)
    (f : α → β) : (f <$> attempt).run.Spares around user other scene :=
  spares.bind fun a _ => (Attempt.yields_pure (f a)).leaves

namespace Scene.Comprises

open Conditions (calm)

variable {community : Community} {around : Surroundings} {world : World} {holdings : List Holding}
  {user other : UserId} {tray : Tray} {entry : Entry} {task : TaskId}

theorem readable (comprises : Comprises community around holdings world.scene)
    (member : community.member user) (tray : Tray) :
    ∃ list, world.scene.cells (Key.tray user tray) = .entries list :=
  comprises.paired.readable user tray member

theorem spares_of_same_cells {after : Scene}
    (comprises : Comprises community around holdings world.scene)
    (member : community.member other) (same : after.cells = world.scene.cells) :
    world.scene.Spares user other after :=
  spares_of_cells_eq (comprises.readable member) (fun _ => congrFun same _)
    fun _ _ _ => congrFun same _

/-- A listed task is not about to be named. -/
theorem record_ne_fresh (comprises : Comprises community around holdings world.scene)
    (fresh : around.Fresh) (member : community.member user)
    (listed : world.scene.Lists user tray entry) {n : Nat} (later : world.issued ≤ n) :
    Key.record entry.task ≠ Key.record (around.newTaskId n) := by
  obtain ⟨holding, mem, held⟩ := (comprises.lists_iff member).mp listed
  have task_held := List.mem_flatMap.mpr ⟨holding, mem, Holding.task_mem_of_mem held⟩
  exact fun same => comprises.ne_fresh fresh task_held later (Key.record_injective same).symm

theorem absent_fresh (comprises : Comprises community around holdings world.scene)
    (fresh : around.Fresh) {n : Nat} (later : world.issued ≤ n) :
    world.scene.cells (Key.record (around.newTaskId n)) = .value none :=
  comprises.absent _ fun held => comprises.ne_fresh fresh held later rfl

theorem exists_held (comprises : Comprises community around holdings world.scene)
    (fresh : around.Fresh) (task : TaskId) : ∃ holding mine, mine task = true ∧
      Keeps community around mine world.scene holding world.scene := by
  obtain ⟨holding, _, first, apart⟩ := comprises.exists_first task
  obtain ⟨mine, ours, _, keeps⟩ := first.exists_keeps fresh apart
  exact ⟨holding, mine, ours, keeps⟩

section
variable (comprises : Comprises community around holdings world.scene)
  (member : community.member user) (other_member : community.member other) (differs : other ≠ user)
  (policy : Policy)
include comprises member other_member differs

theorem spares_add (fresh : around.Fresh) (message description : String) (origin : Option String) :
    (Workflow.add policy user message description origin).run.Spares around user other
      world.scene := by
  rcases Workflow.add_cases (calm around) policy user message description origin rfl
    (comprises.absent_fresh fresh le_rfl) with
    ⟨_, fails, rfl⟩ | ⟨content, after, ends, rfl, appended⟩
  · exact ⟨_, fails.leaves, comprises.spares_of_same_cells other_member rfl⟩
  · refine ⟨after, ends.leaves, spares_of_cells_eq (comprises.readable other_member)
      (fun tray => ?_) fun tray entry listed => ?_⟩
    · rw [appended.cells_of_ne (tray_ne member other_member fun same => differs same.1)]
      exact put_record_cells_tray ..
    · rw [appended.cells_record]
      exact save_cells_record _ (comprises.record_ne_fresh fresh other_member listed le_rfl)

theorem spares_send (fresh : around.Fresh) {receiver : UserId}
    (receiver_member : community.member receiver) (message description : String)
    (origin : Option String) :
    (Workflow.send policy user receiver message description origin).run.Spares around user other
      world.scene := by
  have next : world.issued ≤ world.issued + 1 := Nat.le_succ _
  have distinct : around.newTaskId world.scene.issued ≠ around.newTaskId (world.scene.issued + 1) :=
    fun same => absurd (fresh.injective same) (by omega)
  rcases Workflow.send_cases (calm around) policy message description origin
    (community.named _ member) (community.named _ receiver_member) rfl rfl (fresh.named _)
    (fresh.named _) distinct (comprises.absent_fresh fresh le_rfl)
    (comprises.absent_fresh fresh next) with
    ⟨_, fails, rfl⟩ | ⟨_, after, ends, _, content, copy, middle, rfl, rfl, sent, received⟩
  · exact ⟨_, fails.leaves, comprises.spares_of_same_cells other_member rfl⟩
  have middle_trays (tray : Tray) : middle.cells (Key.tray other tray) =
      world.scene.cells (Key.tray other tray) := by
    rw [sent.cells_of_ne (tray_ne member other_member fun same => differs same.1)]
    simp [Scene.save]
  have records (tray : Tray) (entry : Entry) (listed : world.scene.Lists other tray entry) :
      after.cells (Key.record entry.task) = world.scene.cells (Key.record entry.task) := by
    rw [received.cells_record, sent.cells_record, save_cells_record]
    · exact save_cells_record _ (comprises.record_ne_fresh fresh other_member listed le_rfl)
    · exact comprises.record_ne_fresh fresh other_member listed next
  refine ⟨after, ends.leaves, ?_⟩
  by_cases theirs : other = receiver
  · subst theirs
    refine spares_of_touched .received (comprises.readable other_member) (fun tray elsewhere => ?_)
      ?_ records
    · rw [received.cells_of_ne (tray_ne other_member other_member fun same => elsewhere same.2)]
      exact middle_trays tray
    · obtain ⟨list, shown, absent, rfl⟩ := received
      exact ⟨list, _, (middle_trays .received).symm.trans shown, put_cells_self ..,
        .given rfl absent rfl⟩
  · refine spares_of_cells_eq (comprises.readable other_member) (fun tray => ?_) records
    rw [received.cells_of_ne (tray_ne receiver_member other_member fun same => theirs same.1)]
    exact middle_trays tray

theorem spares_accept (task : TaskId) :
    (Workflow.accept policy user task).run.Spares around user other world.scene := by
  rcases Workflow.accept_cases (calm around) world.scene policy user task with
    fails | ⟨_, after, accepted, ends, rfl, middle, appended, removed⟩
  · exact ⟨_, fails.leaves, comprises.spares_of_same_cells other_member rfl⟩
  · refine ⟨after, ends.leaves, spares_of_cells_eq (comprises.readable other_member)
      (fun tray => ?_) fun tray entry listed => ?_⟩
    · rw [removed.cells_of_ne (tray_ne member other_member fun same => differs same.1)]
      exact appended.cells_of_ne (tray_ne member other_member fun same => differs same.1)
    · rw [removed.cells_record, appended.cells_record]

theorem spares_bump (task : TaskId) :
    (Workflow.bump policy user task).run.Spares around user other world.scene := by
  have paired := comprises.paired
  rcases Workflow.bump_cases (calm around) world.scene policy user task with
    fails | ⟨_, after, list, entry, link, promoted, ends, shown, first, linked, same, bumped⟩
  · exact ⟨_, fails.leaves, comprises.spares_of_same_cells other_member rfl⟩
  obtain ⟨others, others_shown, found, rfl⟩ := bumped
  have listed : world.store.Lists user .sent entry := ⟨list, shown, EntryList.mem_of_find? first⟩
  obtain ⟨link_member, place, back⟩ := paired.exists_back member listed linked
  have promoted_listed : world.store.Lists link.user .received promoted :=
    ⟨others, others_shown, EntryList.mem_of_find? found⟩
  refine ⟨_, ends.leaves, ?_⟩
  by_cases theirs : other = link.user
  · subst theirs
    refine spares_of_touched .received (comprises.readable other_member) (fun tray elsewhere => ?_)
      ⟨others, _, others_shown, put_cells_self .., .raised rfl found ?_⟩
      fun _ _ _ => put_tray_cells_record ..
    · exact put_cells_of_ne _ _ (tray_ne other_member other_member fun same => elsewhere same.2)
    · obtain ⟨_, rfl⟩ := paired.one_place _ _ _ _ _ _ link_member link_member promoted_listed back
        same
      obtain ⟨back_list, back_shown, back_mem⟩ := back
      cases back_shown.symm.trans others_shown
      have unrepeated := paired.unrepeated _ _ _ link_member others_shown
      rw [unrepeated.eq_of_task_eq (EntryList.mem_of_find? found) back_mem same]
      rfl
  · exact spares_of_cells_eq (comprises.readable other_member)
      (fun tray => put_cells_of_ne _ _ (tray_ne link_member other_member fun here => theirs here.1))
      fun _ _ _ => put_tray_cells_record ..

theorem spares_edit (fresh : around.Fresh) (task : TaskId) (message description : String) :
    (Workflow.edit user task message description).run.Spares around user other world.scene := by
  rcases Workflow.edit_cases (calm around) world.scene user task message description with
    fails | ⟨_, middle, after, located, ends, found, revised, rest⟩
  · exact ⟨_, fails.leaves, comprises.spares_of_same_cells other_member rfl⟩
  obtain ⟨holding, mine, ours, keeps⟩ := comprises.exists_held fresh task
  obtain ⟨held, rfl⟩ := keeps.holds.mem_of_locateIn member ours found
  have middle_holds := keeps.holds.revised ours revised
  obtain ⟨_, content, shown, decoded, rfl⟩ := revised
  have own : content.id = located.entry.task :=
    keeps.holds.id_eq ours (Holding.task_mem_of_mem held) shown decoded
  have listed : world.store.Lists user located.tray located.entry := by
    obtain ⟨list, list_shown, first⟩ := find?_of_locateIn found
    exact ⟨list, list_shown, EntryList.mem_of_find? first⟩
  have record_eq (tray : Tray) (entry : Entry) (here : world.scene.Lists other tray entry) :
      (world.scene.save (content.withContent message description)).cells (Key.record entry.task) =
        world.scene.cells (Key.record entry.task) := by
    refine save_cells_record _ fun keys => differs ?_
    exact (comprises.paired.one_place other user tray _ entry _ other_member member here listed
      ((Key.record_injective keys).trans own)).1
  refine ⟨after, ends.leaves, ?_⟩
  rcases rest with rfl | ⟨link, linked, _, copy, copy_shown, copy_decoded, rfl⟩
  · exact spares_of_cells_eq (comprises.readable other_member)
      (fun tray => put_record_cells_tray ..) record_eq
  have copy_held := (Holding.mem_of_link held linked).2
  have copy_ours := keeps.ours _ copy_held
  have copy_own : copy.id = link.task :=
    middle_holds.id_eq copy_ours copy_held copy_shown copy_decoded
  constructor
  · intro tray
    obtain ⟨list, list_shown⟩ := comprises.readable other_member tray
    refine ⟨list, list, list_shown, ?_, .kept, rfl⟩
    rw [Scene.save, put_record_cells_tray, Scene.save, put_record_cells_tray, list_shown]
  · intro tray entry here
    by_cases theirs : entry.task = link.task
    · have entry_held := keeps.holds.mem_of_lists other_member (theirs ▸ copy_ours) here
      refine .inr ⟨Holding.partner_eq held entry_held differs, .inr ⟨_, copy, message, description,
        ?_, copy_decoded, ?_⟩⟩
      · rw [← record_eq tray entry here, theirs, copy_shown]
      · rw [theirs, ← copy_own]
        exact put_cells_self ..
    · rw [save_cells_record, record_eq tray entry here]
      · exact .inl rfl
      · exact fun keys => theirs ((Key.record_injective keys).trans copy_own)

end

/-! ## Finishing -/

section
variable (comprises : Comprises community around holdings world.scene) (fresh : around.Fresh)
  (member : community.member user) (other_member : community.member other) (differs : other ≠ user)
  (policy : Policy)
include comprises fresh member other_member differs

/-- An entry is taken out, and whatever is left of its task is cleaned up. -/
theorem spares_of_removed {left : Scene} (removed : world.scene.Removed user tray entry left) :
    ∃ cleanup after, Program.Yields (calm around) (Workflow.cleanUp policy.budget user entry) left
        cleanup after ∧ world.scene.Spares user other after := by
  obtain ⟨holding, mine, ours, keeps⟩ := comprises.exists_held fresh entry.task
  have held := keeps.holds.mem_of_removed member ours removed
  obtain ⟨cleanup, after, cleaned, gone, _⟩ := keeps.cleanUp member ours removed policy.budget
  exact ⟨cleanup, after, cleaned, keeps.spares_of_gone gone other_member
    (fun _ _ other_held => Holding.partner_eq held other_held differs) fun _ => rfl⟩

theorem spares_takeOut (task : TaskId) (event : Event) :
    (Workflow.takeOut policy user task event).run.Spares around user other world.scene := by
  rcases Workflow.takeOut_cases (calm around) world.scene policy user task event with
    fails | ⟨located, left, _, removed, ends⟩
  · exact ⟨_, fails.leaves, comprises.spares_of_same_cells other_member rfl⟩
  · obtain ⟨cleanup, after, cleaned, spares⟩ :=
      comprises.spares_of_removed fresh member other_member differs policy removed
    exact ⟨after, (ends cleanup after cleaned).leaves, spares⟩

theorem spares_complete (task : TaskId) :
    (Workflow.complete policy user task).run.Spares around user other world.scene :=
  (comprises.spares_takeOut fresh member other_member differs policy task .taskCompleted).bind
    fun _ _ => (Attempt.yields_pure _).leaves

theorem spares_remove (task : TaskId) :
    (Workflow.remove policy user task).run.Spares around user other world.scene :=
  (comprises.spares_takeOut fresh member other_member differs policy task .taskRemoved).bind
    fun _ _ => (Attempt.yields_pure _).leaves

theorem spares_pop : (Workflow.pop policy user).run.Spares around user other world.scene := by
  rcases Workflow.pop_cases (calm around) world.scene policy user with
    fails | ⟨_, _, left, _, removed, ends⟩
  · exact ⟨_, fails.leaves, comprises.spares_of_same_cells other_member rfl⟩
  · obtain ⟨cleanup, after, cleaned, spares⟩ :=
      comprises.spares_of_removed fresh member other_member differs policy removed
    exact ⟨after, (ends cleanup after cleaned).leaves, spares⟩

end

end Scene.Comprises
end Handoff
