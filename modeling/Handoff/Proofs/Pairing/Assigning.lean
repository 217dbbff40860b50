import Handoff.Proofs.Pairing.Steps

/-!
# What assigning does to one task

The task is taken back, handed over for the first time, or taken from its previous assignee and
handed over again.  The record of the previous assignee is dropped in the end.
-/

namespace Handoff

namespace Holding

theorem few_share (holding : Holding) : Scene.Few holding.share := by
  have one (user : UserId) (tray : Tray) (entry : Entry) (other : UserId) (place : Tray) :
      (Placing.none.append user tray entry other place).length ≤ 1 := by
    simp only [Placing.append, Placing.none]
    split <;> simp
  intro user tray
  cases holding with
  | gone => exact Nat.zero_le 1
  | alone holder task => exact one ..
  | shared sender task receiver copy accepted =>
      change (Placing.append _ receiver (place accepted) _ user tray).length ≤ 1
      by_cases here : tray = place accepted
      · rw [Placing.append, Placing.append_apply_of_ne (here ▸ (sent_ne_place accepted).symm)]
        split <;> simp [Placing.none]
      · rw [Placing.append_apply_of_ne here]
        exact one ..

/-- A task of the user's own is held by the user alone or has been sent by them. -/
theorem eq_of_isOutright {holding : Holding} {user : UserId} {tray : Tray} {entry : Entry}
    (held : entry ∈ holding.entries user tray) (outright : Workflow.isOutright tray entry = true) :
    (∃ task, holding = .alone user task ∧ tray = .owned ∧ entry = .unlinked task) ∨
      ∃ task receiver copy accepted, holding = .shared user task receiver copy accepted ∧
        tray = .sent ∧ entry = .linked task receiver copy := by
  cases holding with
  | gone => exact absurd held List.not_mem_nil
  | alone holder task =>
      obtain ⟨rfl, here, this⟩ := mem_entries_alone.mp held
      exact .inl ⟨task, rfl, here, this⟩
  | shared sender task receiver copy accepted =>
      rcases mem_entries_shared.mp held with ⟨rfl, here, this⟩ | ⟨_, here, this⟩
      · exact .inr ⟨task, receiver, copy, accepted, rfl, here, this⟩
      · rw [here, this] at outright
        cases accepted <;> cases outright

/-- How a task of a user's own is held when it has been assigned. -/
def assigned (user : UserId) (task : TaskId) (assignee : UserId) (copy : TaskId) : Holding :=
  if assignee = user then .alone user task else .shared user task assignee copy false

end Holding

namespace Scene

open Conditions (calm)
open Attempt (Yields Fails)

variable {community : Community} {around : Surroundings} {mine : TaskId → Bool}
  {old scene after : Scene} {holding : Holding} {user : UserId} {task : TaskId}

/-- An assignment that fails leaves the task with its holders. -/
theorem Keeps.movedToEnd (keeps : Keeps community around mine old holding scene) {α : Type}
    {attempt : Attempt α} (fails : Fails (calm around) attempt scene after)
    (moved : MovedToEnd (Ours community mine) scene after) :
    Advances community around mine old attempt.run scene := by
  by_cases real : ∃ world : World, world.scene = scene
  · obtain ⟨world, rfl⟩ := real
    obtain ⟨failure, _, reached⟩ := fails world rfl
    have later : world.scene.issued ≤ after.issued := by
      rw [← reached]
      exact Conditions.issued_le_run ..
    have holds := keeps.holds.movedToEnd holding.few_share moved
    exact ⟨holding, after, fails.leaves,
      keeps.change holds (keeps.proper.mono later) keeps.ours later, later⟩
  · exact ⟨holding, scene, fun world seen => absurd ⟨world, seen⟩ real, keeps, le_rfl⟩

/-- What a share becomes when the user takes the task back. -/
theorem Holds.takenBack {share : Share} {located : Located}
    (holds : Holds community mine old share scene) (member : community.member user)
    (ours : mine located.entry.task = true) (taken : Workflow.TakenBack scene user located after) :
    Holds community mine old ((share.remove user located.tray located.entry.task).append user .owned
        (.unlinked located.entry.task)) after ∧ after.issued = scene.issued := by
  obtain ⟨middle, removed, appended⟩ := taken
  constructor
  · exact (holds.removed member ours removed).appended member ours appended
  · exact appended.issued_eq.trans removed.issued_eq

/-- What a share becomes when the user hands the task over. -/
theorem Holds.handedOver {share : Share} {located : Located} {assignee : UserId} {copy : Task}
    (holds : Holds community mine old share scene) (member : community.member user)
    (assignee_member : community.member assignee) (ours : mine located.entry.task = true)
    (copy_ours : mine copy.id = true) (named : copy.OriginNamed)
    (handed : Workflow.HandedOver scene user assignee located copy after) :
    Holds community mine old ((((share.save copy.id).append assignee .received
        (.linked copy.id user located.entry.task)).remove user located.tray
          located.entry.task).append user .sent (.linked located.entry.task assignee copy.id))
        after ∧ after.issued = scene.issued + 1 := by
  obtain ⟨given, middle, appended, removed, sent⟩ := handed
  constructor
  · have saved := holds.issue.save copy copy_ours named
    have given_holds := saved.appended assignee_member copy_ours appended
    exact (given_holds.removed member ours removed).appended member ours sent
  · exact (sent.issued_eq.trans removed.issued_eq).trans appended.issued_eq

theorem Keeps.moved_alone (fresh : around.Fresh) {assignee : UserId} {content : Task}
    {position : Nat} {orphaned : Bool}
    (keeps : Keeps community around mine old (.alone user task) scene)
    (assignee_member : community.member assignee)
    (moved : Workflow.Moved (calm around) scene user assignee content
      ⟨.owned, .unlinked task, position⟩ orphaned after) :
    orphaned = false ∧ scene.issued ≤ after.issued ∧ Keeps community around mine old
      (.assigned user task assignee (around.newTaskId scene.issued)) after := by
  unfold Holding.assigned
  obtain ⟨member, generated⟩ := Holding.proper_alone_iff.mp keeps.proper
  have ours := keeps.ours task (by simp [Holding.tasks])
  obtain ⟨start, ⟨rfl, unchanged⟩, rest⟩ := moved
  rw [unchanged] at rest
  by_cases home : assignee = user
  · rw [if_pos home] at rest
    obtain ⟨holds, same⟩ := keeps.holds.takenBack member ours rest
    rw [Entry.unlinked_task, Holding.share_takeBack_alone] at holds
    rw [if_pos home]
    exact ⟨rfl, same.ge, keeps.change holds (keeps.proper.mono same.ge) keeps.ours same.ge⟩
  · rw [if_neg home] at rest ⊢
    have copy_ours := keeps.fresh_ours _ (le_refl scene.issued)
    obtain ⟨holds, next⟩ := keeps.holds.handedOver member assignee_member ours copy_ours
      (Task.originNamed_copy _ _ _) rest
    have shared : Holds community mine old (Holding.shared user task assignee
        (around.newTaskId scene.issued) false).share after := by
      rw [← Holding.share_handOver_alone]
      exact holds
    refine ⟨rfl, by omega, keeps.change shared (Holding.proper_shared_iff.mpr
      ⟨⟨member, assignee_member⟩, ⟨?_, ?_⟩, ?_⟩) ?_ (by omega)⟩
    · exact generated.imp fun _ found => found.imp_left (by omega)
    · exact ⟨scene.issued, by omega, rfl⟩
    · exact keeps.ne_fresh fresh (by simp [Holding.tasks]) le_rfl
    · simpa [Holding.tasks] using ⟨ours, copy_ours⟩

/-- The entry of the receiver of a shared task is found. -/
theorem Keeps.locate?_receiver {receiver : UserId} {copy : TaskId} {accepted : Bool}
    (keeps : Keeps community around mine old (.shared user task receiver copy accepted) scene) :
    ∃ position, scene.locate? receiver copy =
      some ⟨Holding.place accepted, .linked copy user task, position⟩ := by
  obtain ⟨⟨_, member⟩, _, differs⟩ := Holding.proper_shared_iff.mp keeps.proper
  have ours := keeps.ours copy (by simp [Holding.tasks])
  have held : Entry.linked copy user task ∈
      (Holding.shared user task receiver copy accepted).entries receiver (Holding.place accepted) :=
    Holding.mem_entries_shared.mpr (.inr ⟨rfl, rfl, rfl⟩)
  refine keeps.holds.exists_located member ours held fun place other listed same => ?_
  rcases Holding.mem_entries_shared.mp listed with ⟨_, _, rfl⟩ | ⟨_, here, this⟩
  · exact absurd same differs
  · exact ⟨here, this⟩

/-- The previous assignee of a shared task has lost their entry. -/
theorem Keeps.withdrawn {receiver : UserId} {copy : TaskId} {accepted orphaned : Bool}
    (keeps : Keeps community around mine old (.shared user task receiver copy accepted) scene)
    (withdrawn : Workflow.Withdrawn scene user task ⟨receiver, copy⟩ orphaned after) :
    orphaned = true ∧
      scene.Removed receiver (Holding.place accepted) (.linked copy user task) after := by
  obtain ⟨position, found⟩ := keeps.locate?_receiver
  cases withdrawn with
  | gone missing => cases found.symm.trans missing
  | elsewhere other other_found linked =>
      cases found.symm.trans other_found
      simp [Entry.linksTo] at linked
  | taken other _ other_found linked removed =>
      cases found.symm.trans other_found
      exact ⟨rfl, removed⟩

theorem Holds.dropOrphan {share : Share} (around : Surroundings)
    (holds : Holds community mine old share scene) (ours : mine task = true)
    (stored : share.stored task) (receiver : UserId) :
    Program.Yields (calm around) (Workflow.dropOrphan true (some ⟨receiver, task⟩)) scene ()
        (scene.discard task) ∧
      Holds community mine old (share.discard task) (scene.discard task) := by
  obtain ⟨bytes, content, shown, decoded, _⟩ := holds.recorded task ours stored
  have dropped : Program.Yields (calm around) _ scene _ _ :=
    Workflow.yields_dropRecord shown decoded rfl
  exact ⟨dropped.bind (Program.yields_pure ()), holds.discard ours⟩

theorem Keeps.moved_shared (fresh : around.Fresh) {assignee receiver : UserId} {copy : TaskId}
    {accepted orphaned : Bool} {content : Task} {position : Nat}
    (keeps : Keeps community around mine old (.shared user task receiver copy accepted) scene)
    (assignee_member : community.member assignee)
    (moved : Workflow.Moved (calm around) scene user assignee content
      ⟨.sent, .linked task receiver copy, position⟩ orphaned after) :
    Program.Yields (calm around) (Workflow.dropOrphan orphaned (some ⟨receiver, copy⟩)) after ()
        (after.discard copy) ∧
      scene.issued ≤ after.issued ∧ Keeps community around mine old
        (.assigned user task assignee (around.newTaskId scene.issued)) (after.discard copy) := by
  unfold Holding.assigned
  obtain ⟨⟨member, receiver_member⟩, ⟨generated, _⟩, differs⟩ :=
    Holding.proper_shared_iff.mp keeps.proper
  have ours := keeps.ours task (by simp [Holding.tasks])
  have copy_ours := keeps.ours copy (by simp [Holding.tasks])
  obtain ⟨middle, withdrawn, rest⟩ := moved
  obtain ⟨rfl, withdrawn_removed⟩ := keeps.withdrawn withdrawn
  have middle_holds := keeps.holds.removed receiver_member copy_ours withdrawn_removed
  have middle_issued := withdrawn_removed.issued_eq
  by_cases home : assignee = user
  · rw [if_pos home] at rest
    obtain ⟨holds, left_issued⟩ := middle_holds.takenBack member ours rest
    have same : after.issued = scene.issued := left_issued.trans middle_issued
    obtain ⟨ends, dropped⟩ :=
      holds.dropOrphan around copy_ours (by simp [Holding.share, Holding.tasks]) receiver
    have alone : Holds community mine old (Holding.alone user task).share (after.discard copy) := by
      rw [← Holding.share_takeBack differs]
      exact dropped
    rw [if_pos home]
    refine ⟨ends, same.ge, keeps.change alone (Holding.proper_alone_iff.mpr
      ⟨member, ?_⟩) (by simpa [Holding.tasks] using ours) same.ge⟩
    exact same ▸ generated
  · rw [if_neg home] at rest ⊢
    have later : scene.issued ≤ middle.issued := middle_issued.ge
    have next_ours := keeps.fresh_ours _ later
    obtain ⟨holds, next⟩ := middle_holds.handedOver member assignee_member ours next_ours
      (Task.originNamed_copy _ _ _) rest
    obtain ⟨ends, dropped⟩ :=
      holds.dropOrphan around copy_ours (by simp [Holding.share, Holding.tasks]) receiver
    have shared : Holds community mine old (Holding.shared user task assignee
        (around.newTaskId middle.issued) false).share (after.discard copy) := by
      rw [← Holding.share_handOver_shared
        (keeps.ne_fresh fresh (by simp [Holding.tasks]) later) differs]
      exact dropped
    have now : scene.issued ≤ (after.discard copy).issued := by
      change scene.issued ≤ after.issued
      omega
    have next_copy : around.newTaskId scene.issued = around.newTaskId middle.issued := by
      rw [middle_issued]
    rw [next_copy]
    refine ⟨ends, now, keeps.change shared (Holding.proper_shared_iff.mpr
      ⟨⟨member, assignee_member⟩, ⟨?_, ?_⟩, ?_⟩) ?_ now⟩
    · exact generated.imp fun _ found => found.imp_left (Nat.lt_of_lt_of_le · now)
    · exact ⟨middle.issued, by change middle.issued < after.issued; omega, rfl⟩
    · exact keeps.ne_fresh fresh (by simp [Holding.tasks]) later
    · simpa [Holding.tasks] using ⟨ours, next_ours⟩

theorem Keeps.assign (fresh : around.Fresh) {assignee : UserId}
    (keeps : Keeps community around mine old holding scene) (member : community.member user)
    (assignee_member : community.member assignee) (ours : mine task = true) (policy : Policy) :
    Advances community around mine old (Workflow.assign policy user task assignee).run scene := by
  rcases Workflow.locate_cases (calm around) scene user task with fails | ⟨located, found, _⟩
  · exact keeps.stays (fails.bind _)
  obtain ⟨held, rfl⟩ := keeps.holds.mem_of_locateIn member ours found
  have task_held := Holding.task_mem_of_mem held
  obtain ⟨n, _, generated⟩ := keeps.proper.generated _ task_held
  have own_moves (other : Located)
      (other_found : scene.locate? user located.entry.task = some other) :
      Ours community mine (Key.tray user other.tray) other.entry := by
    cases found.symm.trans other_found
    exact ⟨ours, user, located.tray, member, rfl⟩
  have other_moves (own : Located) (link : Link) (other : Located)
      (own_found : scene.locate? user located.entry.task = some own)
      (linked : own.entry.link = some link)
      (other_found : scene.locate? link.user link.task = some other)
      (_ : other.entry.linksTo user located.entry.task = true) :
      Ours community mine (Key.tray link.user other.tray) other.entry := by
    cases found.symm.trans own_found
    obtain ⟨partner, other_held⟩ := Holding.mem_of_link held linked
    rw [← task_eq_of_locate? other_found] at other_held
    exact ⟨keeps.ours _ other_held, link.user, other.tray, keeps.proper.members _ partner, rfl⟩
  rcases Workflow.assign_cases (calm around) (Ours community mine) policy
    (keeps.holds.unrepeated keeps.unrepeated holding.few_share) (community.named _ member)
    (community.named _ assignee_member) (generated ▸ fresh.named n)
    (fun _ _ => keeps.holds.id_eq ours task_held) (keeps.absent fresh le_rfl) (fresh.named _)
    other_moves own_moves with
    ⟨after, fails, moved⟩ | ⟨result, ends⟩ |
      ⟨other, content, orphaned, left, other_found, outright, _, moved, ends⟩
  · exact keeps.movedToEnd fails moved
  · exact ⟨holding, scene, ends.leaves, keeps, le_rfl⟩
  · cases found.symm.trans other_found
    obtain ⟨tray, entry, position⟩ := located
    rcases Holding.eq_of_isOutright held outright with
      ⟨task, rfl, rfl, rfl⟩ | ⟨task, receiver, copy, accepted, rfl, rfl, rfl⟩
    · obtain ⟨rfl, later, kept⟩ := keeps.moved_alone fresh assignee_member moved
      exact ⟨_, left, (ends left (Program.yields_pure ())).leaves, kept, later⟩
    · obtain ⟨dropping, later, kept⟩ := keeps.moved_shared fresh assignee_member moved
      exact ⟨_, _, (ends _ dropping).leaves, kept, later⟩

end Scene
end Handoff
