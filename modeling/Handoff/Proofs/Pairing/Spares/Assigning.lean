import Handoff.Proofs.Pairing.Assigning
import Handoff.Proofs.Pairing.Spares.Steps

/-!
# What assigning touches

Where links are mutual and no write fails, a task that can be assigned is moved as described, so an
assignment never gets as far as rolling back.  The previous assignee loses their entry, and the next
one gets one.
-/

namespace Handoff

namespace Workflow

open Conditions (calm)
open Undoable

variable {around : Surroundings} {noted : List Undo} {scene after : Scene}
  {user assignee : UserId} {task : TaskId} {located : Located} {content : Task}

/-! ## Moving as described -/

theorem yields_withdraw (policy : Policy) (link : Link) {other : Located}
    (found : scene.locate? link.user link.task = some other)
    (linked : other.entry.linksTo user task = true)
    (removed : scene.Removed link.user other.tray other.entry after) :
    Yields (calm around) (withdraw policy user task link) noted scene true
      (noted ++ [.putBack link.user other.tray other.entry]) after := by
  have taken : Attempt.Yields (calm around) _ scene _ _ :=
    Trays.yields_remove policy.budget rfl removed
  rw [Scene.task_eq_of_locate? found] at taken
  apply (yields_step (Trays.yields_locate? found)).bind
  simp only [linked, if_true]
  exact (yields_step taken).bind ((yields_note _).bind (yields_pure _))

theorem yields_takeBack (policy : Policy) (taken : TakenBack scene user located after) :
    Yields (calm around) (takeBack policy user located) noted scene ()
      (noted ++ [.putBack user located.tray located.entry]) after := by
  obtain ⟨middle, removed, appended⟩ := taken
  have well := Entry.wellLinked_unlinked located.entry.task
  exact (yields_step (Trays.yields_remove policy.budget rfl removed)).bind
    ((yields_note _).bind (yields_step (Trays.yields_append policy.budget well rfl appended)))

theorem yields_handOver (fresh : around.Fresh) (policy : Policy) (user_ne : user ≠ "")
    (assignee_ne : assignee ≠ "") (task_ne : located.entry.task ≠ "")
    (own : content.id = located.entry.task)
    (handed : HandedOver scene user assignee located
      (content.copy (around.newTaskId scene.issued) scene.clock) after) :
    Yields (calm around) (handOver policy user assignee content located) noted scene ()
      (((noted ++ [.deleteRecord (around.newTaskId scene.issued)]) ++
        [.takeOut assignee .received (around.newTaskId scene.issued)]) ++
        [.putBack user located.tray located.entry]) after := by
  obtain ⟨given, middle, appended, removed, sent⟩ := handed
  have well := Entry.wellLinked_linked (around.newTaskId scene.issued) user_ne task_ne
  have sent_well := Entry.wellLinked_linked located.entry.task assignee_ne
    (fresh.named scene.issued)
  unfold handOver
  rw [own]
  exact (yields_step Attempt.yields_newTaskId).bind ((yields_step Attempt.yields_now).bind
    ((yields_step (Records.yields_save rfl)).bind ((yields_note _).bind
    ((yields_step (Trays.yields_append policy.budget well rfl appended)).bind
    ((yields_note _).bind ((yields_step (Trays.yields_remove policy.budget rfl removed)).bind
    ((yields_note _).bind
      (yields_step (Trays.yields_append policy.budget sent_well rfl sent)))))))))

end Workflow

namespace Scene

open Conditions (calm)
open Undoable (Yields settle yields_settle yields_pure)
open Workflow (TakenBack HandedOver Moved moveTo takeBack handOver)

variable {community : Community} {around : Surroundings} {mine : TaskId → Bool}
  {old scene after : Scene} {share : Share} {holding changed : Holding}
  {user other assignee : UserId} {tray : Tray} {entry : Entry} {located : Located} {content : Task}

/-! ## A task that can be moved -/

theorem Holds.exists_appended (holds : Holds community mine old share scene) (tray : Tray)
    (entry : Entry) (member : community.member user) (ours : mine entry.task = true)
    (lacking : share.entries user tray = []) :
    ∃ after, scene.Appended user tray entry after := by
  obtain ⟨list, _, shown, _⟩ := holds.trays user tray member
  refine ⟨_, list, shown, ?_, rfl⟩
  rw [holds.find?_eq member ours shown, lacking]
  rfl

theorem Holds.exists_removed (holds : Holds community mine old share scene)
    (member : community.member user) (ours : mine entry.task = true)
    (only : share.entries user tray = [entry]) : ∃ after, scene.Removed user tray entry after := by
  obtain ⟨list, _, shown, _⟩ := holds.trays user tray member
  refine ⟨_, list, shown, ?_, rfl⟩
  rw [holds.find?_eq member ours shown, only]
  simp [EntryList.find?]

/-- The only entry of the share can be taken back. -/
theorem Holds.exists_takenBack (holds : Holds community mine old share scene)
    (member : community.member user) (ours : mine located.entry.task = true)
    (only : share.entries = Placing.none.append user located.tray located.entry) :
    ∃ after, TakenBack scene user located after := by
  have held : share.entries user located.tray = [located.entry] := by
    simp [only, Placing.append, Placing.none]
  obtain ⟨middle, removed⟩ := holds.exists_removed member ours held
  have nothing : (share.remove user located.tray located.entry.task).entries user .owned = [] := by
    rw [Share.remove_entries, only, Placing.remove_append_self _ rfl]
    rfl
  obtain ⟨after, appended⟩ := (holds.removed member ours removed).exists_appended .owned
    (.unlinked located.entry.task) member ours nothing
  exact ⟨after, middle, removed, appended⟩

/-- The only entry of the share can be handed over. -/
theorem Holds.exists_handedOver {copy : Task} (holds : Holds community mine old share scene)
    (member : community.member user) (assignee_member : community.member assignee)
    (ours : mine located.entry.task = true) (copy_ours : mine copy.id = true)
    (named : copy.OriginNamed)
    (only : share.entries = Placing.none.append user located.tray located.entry)
    (received : located.tray ≠ .received) :
    ∃ after, HandedOver scene user assignee located copy after := by
  have saved := holds.issue.save copy copy_ours named
  have none_received : (share.save copy.id).entries assignee .received = [] := by
    rw [Share.save_entries, only, Placing.append_apply_of_ne received.symm]
    rfl
  obtain ⟨given, appended⟩ := saved.exists_appended .received
    (.linked copy.id user located.entry.task) assignee_member copy_ours none_received
  have given_holds := saved.appended assignee_member copy_ours appended
  have held : ((share.save copy.id).append assignee .received
      (.linked copy.id user located.entry.task)).entries user located.tray = [located.entry] := by
    rw [Share.append_entries, Placing.append_apply_of_ne received, Share.save_entries, only]
    simp [Placing.append, Placing.none]
  obtain ⟨middle, removed⟩ := given_holds.exists_removed member ours held
  have none_sent : (((share.save copy.id).append assignee .received
      (.linked copy.id user located.entry.task)).remove user located.tray
        located.entry.task).entries user .sent = [] := by
    rw [Share.remove_entries, Share.append_entries, Share.save_entries, only,
      Placing.remove_append_of_ne received.symm, Placing.remove_append_self _ rfl,
      Placing.append_apply_of_ne (by decide)]
    rfl
  obtain ⟨after, sent⟩ := (given_holds.removed member ours removed).exists_appended .sent
    (.linked located.entry.task assignee copy.id) member ours none_sent
  exact ⟨after, given, middle, appended, removed, sent⟩

/-- Once the previous assignee has lost the task, nothing keeps it from being moved. -/
theorem Holds.exists_move (fresh : around.Fresh) (policy : Policy)
    (holds : Holds community mine old share scene) (member : community.member user)
    (assignee_member : community.member assignee) (ours : mine located.entry.task = true)
    (next_ours : mine (around.newTaskId scene.issued) = true) (task_ne : located.entry.task ≠ "")
    (own : content.id = located.entry.task)
    (only : share.entries = Placing.none.append user located.tray located.entry)
    (received : located.tray ≠ .received) (orphaned : Bool) (noted : List Undo) : ∃ ended after,
      (if assignee = user then TakenBack scene user located after
        else HandedOver scene user assignee located
          (content.copy (around.newTaskId scene.issued) scene.clock) after) ∧
      Yields (calm around)
        (if assignee = user then takeBack policy user located >>= fun _ => pure orphaned
          else handOver policy user assignee content located >>= fun _ => pure orphaned)
        noted scene orphaned ended after := by
  by_cases home : assignee = user
  · simp only [if_pos home]
    obtain ⟨after, taken⟩ := holds.exists_takenBack member ours only
    exact ⟨_, after, taken, (Workflow.yields_takeBack policy taken).bind (yields_pure _)⟩
  · simp only [if_neg home]
    obtain ⟨after, handed⟩ := holds.exists_handedOver member assignee_member ours next_ours
      (Task.originNamed_copy _ _ _) only received
    exact ⟨_, after, handed, (Workflow.yields_handOver fresh policy (community.named _ member)
      (community.named _ assignee_member) task_ne own handed).bind (yields_pure _)⟩

/-- A task of the user's own can be moved. -/
theorem Keeps.exists_moved (fresh : around.Fresh) (policy : Policy)
    (keeps : Keeps community around mine old holding scene) (member : community.member user)
    (assignee_member : community.member assignee)
    (held : located.entry ∈ holding.entries user located.tray)
    (outright : Workflow.isOutright located.tray located.entry = true)
    (own : content.id = located.entry.task) : ∃ orphaned after,
      Moved (calm around) scene user assignee content located orphaned after ∧
      Attempt.Yields (calm around)
        (settle policy.budget (moveTo policy user assignee content located)) scene orphaned
        after := by
  have task_held := Holding.task_mem_of_mem held
  have ours := keeps.ours _ task_held
  have next_ours := keeps.fresh_ours _ le_rfl
  obtain ⟨n, _, generated⟩ := keeps.proper.generated _ task_held
  have task_ne : located.entry.task ≠ "" := generated ▸ fresh.named n
  obtain ⟨tray, entry, position⟩ := located
  rcases Holding.eq_of_isOutright held outright with
    ⟨task, rfl, rfl, rfl⟩ | ⟨task, receiver, copy, accepted, rfl, rfl, rfl⟩
  · obtain ⟨ended, after, moved, ends⟩ := keeps.holds.exists_move fresh policy member
      assignee_member ours next_ours task_ne own rfl (by simp) false []
    exact ⟨false, after, ⟨scene, ⟨rfl, rfl⟩, moved⟩, yields_settle ends⟩
  · obtain ⟨⟨_, receiver_member⟩, _⟩ := Holding.proper_shared_iff.mp keeps.proper
    have copy_ours := keeps.ours copy (by simp [Holding.tasks])
    obtain ⟨_, found⟩ := keeps.locate?_receiver
    obtain ⟨middle, removed⟩ := exists_removed_of_locate? found
    have withdrawing : Yields (calm around) (Workflow.withdraw policy user task ⟨receiver, copy⟩) []
        scene true _ middle :=
      Workflow.yields_withdraw policy ⟨receiver, copy⟩ found (beq_self_eq_true _) removed
    have middle_holds := keeps.holds.removed receiver_member copy_ours removed
    obtain ⟨ended, after, moved, ends⟩ := middle_holds.exists_move fresh policy member
      assignee_member ours (removed.issued_eq ▸ next_ours) task_ne own
      Holding.entries_remove_receiver (by simp) true _
    refine ⟨true, after, ⟨middle, .taken _ _ found (beq_self_eq_true _) removed, moved⟩, ?_⟩
    rw [Entry.linked_task] at own
    rw [← own] at withdrawing
    exact yields_settle (withdrawing.bind ends)

/-! ## Whom it touches -/

theorem entries_assigned_of_ne {task next : TaskId} (differs : other ≠ user)
    (another : other ≠ assignee) (tray : Tray) :
    (Holding.assigned user task assignee next).entries other tray = [] := by
  refine List.eq_nil_iff_forall_not_mem.mpr fun entry held => ?_
  unfold Holding.assigned at held
  split at held
  · exact differs (Holding.mem_entries_alone.mp held).1
  · rcases Holding.mem_entries_shared.mp held with ⟨same, _⟩ | ⟨same, _⟩
    · exact differs same
    · exact another same

/-- A task that the other user did not hold has been put at the end of their received tray. -/
theorem Keeps.spares_of_given (keeps : Keeps community around mine scene holding scene)
    (kept : Keeps community around mine scene changed after) (member : community.member other)
    (before_none : ∀ tray, holding.entries other tray = [])
    (elsewhere : ∀ tray, tray ≠ .received → changed.entries other tray = [])
    (received : changed.entries other .received = [entry]) (linked : entry.partner = some user)
    (last : ∃ list, after.cells (Key.tray other .received) = .entries (list ++ [entry])) :
    scene.Spares user other after := by
  have none_linked (tray : Tray) (held_entry : Entry)
      (held : held_entry ∈ holding.entries other tray) : held_entry.partner = some user :=
    absurd (before_none tray ▸ held) List.not_mem_nil
  have records (tray : Tray) (listed_entry : Entry)
      (listed : scene.Lists other tray listed_entry) :=
    keeps.record_spared kept member (none_linked tray) (.inl (before_none tray)) listed
  refine ⟨fun tray => ?_, fun tray listed_entry listed =>
    (records tray listed_entry listed).imp_right (And.imp_right .inl)⟩
  by_cases here : tray = .received
  · subst here
    obtain ⟨list, next, shown, next_shown, outside, held, inside⟩ :=
      keeps.exists_lists kept member .received
    obtain ⟨others, others_shown⟩ := last
    cases next_shown.symm.trans others_shown
    rw [received] at inside
    rw [before_none] at held
    have ours : mine entry.task = true := EntryList.keep_of_filter_eq inside
    have none_others : others.filter (mine ·.task) = [] := by
      simpa [ours] using inside
    obtain rfl : others = list := by
      rw [List.filter_append, EntryList.filter_not_eq_self none_others,
        EntryList.filter_not_eq_self held] at outside
      simpa [ours] using outside
    have absent : EntryList.find? entry.task others = none := by
      rw [← EntryList.find?_filter ours, held]
      rfl
    have touched : EntryList.Touched user .received others (others ++ [entry]) :=
      .given rfl absent linked
    exact ⟨others, _, shown, next_shown, touched, touched.filter⟩
  · obtain ⟨list, next, shown, next_shown, touched⟩ :=
      keeps.touched_of_gone kept member (none_linked tray) (elsewhere tray here)
    exact ⟨list, next, shown, next_shown, touched, touched.filter⟩

theorem last_of_moved {orphaned : Bool}
    (moved : Moved (calm around) scene user assignee content located orphaned after)
    (member : community.member user) (assignee_member : community.member assignee)
    (differs : assignee ≠ user) : ∃ list, after.cells (Key.tray assignee .received) =
      .entries (list ++ [.linked (around.newTaskId scene.issued) user located.entry.task]) := by
  obtain ⟨middle, freed, rest⟩ := moved
  rw [if_neg differs, freed.issued_eq] at rest
  obtain ⟨given, left, ⟨list, _, _, rfl⟩, removed, sent⟩ := rest
  have apart (tray : Tray) : Key.tray assignee .received ≠ Key.tray user tray :=
    tray_ne member assignee_member fun same => differs same.1
  refine ⟨list, ?_⟩
  rw [sent.cells_of_ne (apart _), removed.cells_of_ne (apart _), put_cells_self]
  rfl

/-- Assigning touches the previous and the next assignee. -/
theorem Keeps.spares_of_assigned {task next : TaskId}
    (keeps : Keeps community around mine scene holding scene)
    (kept : Keeps community around mine scene (.assigned user task assignee next) after)
    (member : community.member other) (differs : other ≠ user)
    (held : entry ∈ holding.entries user tray) (another : entry.partner.getD user ≠ assignee)
    (last : assignee ≠ user → ∃ list, after.cells (Key.tray assignee .received) =
      .entries (list ++ [.linked next user task])) : scene.Spares user other after := by
  have linked (place : Tray) (theirs : Entry) (theirs_held : theirs ∈ holding.entries other place) :
      theirs.partner = some user := Holding.partner_eq held theirs_held differs
  by_cases assigned : other = assignee
  · subst assigned
    have before_none (place : Tray) : holding.entries other place = [] := by
      refine List.eq_nil_iff_forall_not_mem.mpr fun theirs theirs_held => another ?_
      rw [Holding.partner_eq theirs_held held differs.symm, Option.getD_some]
    have shared : Holding.assigned user task other next = .shared user task other next false :=
      if_neg differs
    rw [shared] at kept
    refine keeps.spares_of_given kept member before_none (fun place elsewhere => ?_)
      Holding.entries_receiver rfl (last differs)
    refine List.eq_nil_iff_forall_not_mem.mpr fun theirs theirs_held => ?_
    rcases Holding.mem_entries_shared.mp theirs_held with ⟨same, _⟩ | ⟨_, same, _⟩
    · exact differs same
    · exact elsewhere same
  · exact keeps.spares_of_gone kept member linked
      (entries_assigned_of_ne differs assigned)

namespace Comprises

variable {holdings : List Holding} {world : World}

theorem spares_assign (comprises : Comprises community around holdings world.scene)
    (member : community.member user) (other_member : community.member other)
    (differs : other ≠ user) (policy : Policy) (fresh : around.Fresh)
    (assignee_member : community.member assignee) (task : TaskId) :
    (Workflow.assign policy user task assignee).run.Spares around user other world.scene := by
  rcases Workflow.assignable_cases (calm around) world.scene policy user task assignee with
    fails | ⟨_, ends⟩ | ⟨located, content, assignable⟩
  · exact ⟨_, fails.leaves, comprises.spares_of_same_cells other_member rfl⟩
  · exact ⟨_, ends.leaves, comprises.spares_of_same_cells other_member rfl⟩
  obtain ⟨holding, mine, ours, keeps⟩ := comprises.exists_held fresh task
  obtain ⟨held, rfl⟩ := keeps.holds.mem_of_locateIn member ours assignable.found
  obtain ⟨bytes, stored, decoded⟩ := assignable.stored
  have own := keeps.holds.id_eq ours (Holding.task_mem_of_mem held) stored decoded
  obtain ⟨orphaned, left, moved, settled⟩ := keeps.exists_moved fresh policy member assignee_member
    held assignable.outright own
  have last := last_of_moved moved member assignee_member
  obtain ⟨tray, entry, position⟩ := located
  rcases Holding.eq_of_isOutright held assignable.outright with
    ⟨task, rfl, rfl, rfl⟩ | ⟨task, receiver, copy, accepted, rfl, rfl, rfl⟩
  · obtain ⟨rfl, _, kept⟩ := keeps.moved_alone fresh assignee_member moved
    exact ⟨left, (assignable.yields policy settled (Program.yields_pure ())).leaves,
      keeps.spares_of_assigned kept other_member differs held assignable.another last⟩
  · obtain ⟨dropping, _, kept⟩ := keeps.moved_shared fresh assignee_member moved
    refine ⟨_, (assignable.yields policy settled dropping).leaves,
      keeps.spares_of_assigned kept other_member differs held assignable.another fun away => ?_⟩
    rw [Scene.discard, put_record_cells_tray]
    exact last away

end Comprises
end Scene
end Handoff
