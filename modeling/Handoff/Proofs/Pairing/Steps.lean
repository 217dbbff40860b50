import Handoff.Proofs.Pairing.Share
import Handoff.Proofs.Workflow.Accept
import Handoff.Proofs.Workflow.Assign
import Handoff.Proofs.Workflow.Bump
import Handoff.Proofs.Workflow.Create
import Handoff.Proofs.Workflow.Edit

/-!
# What the workflows do to one task

Where no write fails, each workflow turns one way of holding a task into another, and leaves
everything else as it is.
-/

namespace Handoff

namespace Holding

def users : Holding → List UserId
  | .gone => []
  | .alone user _ => [user]
  | .shared sender _ receiver _ _ => [sender, receiver]

/-- A task is held by members, under record names that have been given out. -/
structure Proper (community : Community) (around : Surroundings) (issued : Nat)
    (holding : Holding) : Prop where
  members : ∀ user ∈ holding.users, community.member user
  generated : ∀ task ∈ holding.tasks, ∃ n, n < issued ∧ around.newTaskId n = task
  distinct : holding.tasks.Nodup

theorem task_mem_of_mem {holding : Holding} {user : UserId} {tray : Tray} {entry : Entry}
    (held : entry ∈ holding.entries user tray) : entry.task ∈ holding.tasks := by
  cases holding with
  | gone => exact absurd held List.not_mem_nil
  | alone holder task =>
      obtain ⟨_, _, rfl⟩ := mem_entries_alone.mp held
      simp [tasks]
  | shared sender task receiver copy accepted =>
      rcases mem_entries_shared.mp held with ⟨_, _, rfl⟩ | ⟨_, _, rfl⟩ <;> simp [tasks]

/-- The other side of an entry holds the task as well. -/
theorem mem_of_link {holding : Holding} {user : UserId} {tray : Tray} {entry : Entry} {link : Link}
    (held : entry ∈ holding.entries user tray) (linked : entry.link = some link) :
    link.user ∈ holding.users ∧ link.task ∈ holding.tasks := by
  cases holding with
  | gone => exact absurd held List.not_mem_nil
  | alone holder task =>
      obtain ⟨_, _, rfl⟩ := mem_entries_alone.mp held
      cases linked
  | shared sender task receiver copy accepted =>
      rcases mem_entries_shared.mp held with ⟨_, _, rfl⟩ | ⟨_, _, rfl⟩
      · cases linked
        simp [users, tasks]
      · cases linked
        simp [users, tasks]

variable {community : Community} {around : Surroundings} {issued : Nat}

theorem proper_gone : gone.Proper community around issued :=
  ⟨List.forall_mem_nil _, List.forall_mem_nil _, List.nodup_nil⟩

theorem Proper.mono {holding : Holding} {later : Nat}
    (proper : holding.Proper community around issued) (le : issued ≤ later) :
    holding.Proper community around later :=
  ⟨proper.members, fun task held =>
    (proper.generated task held).imp fun _ found => found.imp_left (Nat.lt_of_lt_of_le · le),
    proper.distinct⟩

theorem proper_alone_iff {user : UserId} {task : TaskId} :
    (alone user task).Proper community around issued ↔
      community.member user ∧ ∃ n, n < issued ∧ around.newTaskId n = task := by
  constructor
  · exact fun proper => ⟨proper.members user (by simp [users]),
      proper.generated task (by simp [tasks])⟩
  · rintro ⟨member, generated⟩
    exact ⟨by simpa [users], by simpa [tasks], by simp [tasks]⟩

theorem proper_shared_iff {sender receiver : UserId} {task copy : TaskId} {accepted : Bool} :
    (shared sender task receiver copy accepted).Proper community around issued ↔
      (community.member sender ∧ community.member receiver) ∧
        ((∃ n, n < issued ∧ around.newTaskId n = task) ∧
          ∃ n, n < issued ∧ around.newTaskId n = copy) ∧ task ≠ copy := by
  constructor
  · rintro ⟨members, generated, distinct⟩
    exact ⟨by simpa [users] using members, by simpa [tasks] using generated,
      by simpa [tasks] using distinct⟩
  · rintro ⟨members, generated, differs⟩
    exact ⟨by simpa [users] using members, by simpa [tasks] using generated,
      by simpa [tasks] using differs⟩

end Holding

/-- A scene is an older one, with a task that is held in a given way in place of some tasks. -/
structure Scene.Keeps (community : Community) (around : Surroundings) (mine : TaskId → Bool)
    (old : Scene) (holding : Holding) (scene : Scene) : Prop where
  holds : Scene.Holds community mine old holding.share scene
  proper : holding.Proper community around scene.issued
  ours : ∀ task ∈ holding.tasks, mine task = true
  fresh_ours : ∀ n, scene.issued ≤ n → mine (around.newTaskId n) = true
  unrepeated : old.Unrepeated

namespace Scene

open Conditions (calm)
open Attempt (Yields Fails)

variable {community : Community} {around : Surroundings} {mine : TaskId → Bool}
  {old scene after : Scene} {holding : Holding} {user : UserId} {task : TaskId}

theorem Keeps.issue (keeps : Keeps community around mine old holding scene) :
    Keeps community around mine old holding scene.issue where
  holds := keeps.holds.issue
  proper := keeps.proper.mono (Nat.le_succ _)
  ours := keeps.ours
  fresh_ours := fun n later => keeps.fresh_ours n (Nat.le_of_succ_le later)
  unrepeated := keeps.unrepeated

/-- A program leads from a scene to one where the task is held in some way. -/
def Advances {α : Type} (community : Community) (around : Surroundings) (mine : TaskId → Bool)
    (old : Scene) (p : Program α) (scene : Scene) : Prop :=
  ∃ holding after, Program.Leaves (calm around) p scene after ∧
    Keeps community around mine old holding after ∧ scene.issued ≤ after.issued

theorem Keeps.ne_fresh (fresh : around.Fresh)
    (keeps : Keeps community around mine old holding scene) (held : task ∈ holding.tasks) {n : Nat}
    (later : scene.issued ≤ n) : task ≠ around.newTaskId n := by
  obtain ⟨m, earlier, rfl⟩ := keeps.proper.generated _ held
  exact fun same => absurd (fresh.injective same) (by omega)

theorem Keeps.absent (fresh : around.Fresh) (keeps : Keeps community around mine old holding scene)
    {n : Nat} (later : scene.issued ≤ n) :
    scene.cells (Key.record (around.newTaskId n)) = .value none := by
  exact keeps.holds.absent _ (keeps.fresh_ours n later) fun held =>
    keeps.ne_fresh fresh held later rfl

theorem Keeps.stays (keeps : Keeps community around mine old holding scene) {α : Type}
    {attempt : Attempt α} (fails : Fails (calm around) attempt scene scene) :
    Advances community around mine old attempt.run scene :=
  ⟨holding, scene, fails.leaves, keeps, le_rfl⟩

theorem Keeps.add (fresh : around.Fresh) (keeps : Keeps community around mine old .gone scene)
    (member : community.member user) (policy : Policy) (message description : String)
    (origin : Option String) : Advances community around mine old
      (Workflow.add policy user message description origin).run scene := by
  rcases Workflow.add_cases (calm around) policy user message description origin rfl
    (keeps.absent fresh le_rfl) with ⟨_, fails, rfl⟩ | ⟨content, after, ends, rfl, appended⟩
  · exact ⟨.gone, _, fails.leaves, keeps.issue, Nat.le_succ _⟩
  · have next : after.issued = scene.issued + 1 := appended.issued_eq
    have ours := keeps.fresh_ours _ le_rfl
    have named := Task.originNamed_create (around.newTaskId scene.issued) scene.clock message
      description origin
    have holds := (keeps.holds.issue.save _ ours named).appended member ours appended
    refine ⟨.alone user (around.newTaskId scene.issued), after, ends.leaves,
      ⟨Holding.share_add ▸ holds, ?_, ?_, ?_, keeps.unrepeated⟩, by omega⟩
    · exact Holding.proper_alone_iff.mpr ⟨member, scene.issued, by omega, rfl⟩
    · simpa [Holding.tasks] using ours
    · exact fun n later => keeps.fresh_ours n (by omega)

/-- Another way of holding the task, under record names that count. -/
theorem Keeps.change (keeps : Keeps community around mine old holding scene) {changed : Holding}
    (holds : Holds community mine old changed.share after)
    (proper : changed.Proper community around after.issued)
    (ours : ∀ task ∈ changed.tasks, mine task = true) (later : scene.issued ≤ after.issued) :
    Keeps community around mine old changed after where
  holds := holds
  proper := proper
  ours := ours
  fresh_ours := fun n from_now => keeps.fresh_ours n (later.trans from_now)
  unrepeated := keeps.unrepeated

theorem Keeps.send (fresh : around.Fresh) (keeps : Keeps community around mine old .gone scene)
    {sender receiver : UserId} (sender_member : community.member sender)
    (receiver_member : community.member receiver) (policy : Policy)
    (message description : String) (origin : Option String) :
    Advances community around mine old
      (Workflow.send policy sender receiver message description origin).run scene := by
  have next : scene.issued ≤ scene.issued + 1 := Nat.le_succ _
  have differs : around.newTaskId scene.issued ≠ around.newTaskId (scene.issued + 1) :=
    fun same => absurd (fresh.injective same) (by omega)
  rcases Workflow.send_cases (calm around) policy message description origin
    (community.named _ sender_member) (community.named _ receiver_member) rfl rfl (fresh.named _)
    (fresh.named _) differs (keeps.absent fresh le_rfl) (keeps.absent fresh next) with
    ⟨_, fails, rfl⟩ | ⟨_, after, ends, _, content, copy, middle, rfl, rfl, sent, received⟩
  · exact ⟨.gone, _, fails.leaves, keeps.issue.issue, by simp [Scene.issue]; omega⟩
  · have middle_issued : middle.issued = scene.issued + 1 + 1 := sent.issued_eq
    have after_issued : after.issued = scene.issued + 1 + 1 :=
      received.issued_eq.trans middle_issued
    have ours := keeps.fresh_ours _ le_rfl
    have copy_ours := keeps.fresh_ours _ next
    have named (id : TaskId) := Task.originNamed_create id scene.clock message description origin
    have saved := (keeps.holds.issue.issue.save _ ours (named _)).save _ copy_ours (named _)
    have holds := (saved.appended sender_member ours sent).appended receiver_member copy_ours
      received
    refine ⟨.shared sender (around.newTaskId scene.issued) receiver
      (around.newTaskId (scene.issued + 1)) false, after, ends.leaves,
      ⟨Holding.share_send ▸ holds, ?_, ?_, ?_, keeps.unrepeated⟩, by omega⟩
    · exact Holding.proper_shared_iff.mpr ⟨⟨sender_member, receiver_member⟩,
        ⟨⟨scene.issued, by omega, rfl⟩, ⟨scene.issued + 1, by omega, rfl⟩⟩, differs⟩
    · simpa [Holding.tasks] using ⟨ours, copy_ours⟩
    · exact fun n later => keeps.fresh_ours n (by omega)

theorem Keeps.accept (keeps : Keeps community around mine old holding scene)
    (member : community.member user) (ours : mine task = true) (policy : Policy) :
    Advances community around mine old (Workflow.accept policy user task).run scene := by
  rcases Workflow.accept_cases (calm around) scene policy user task with
    fails | ⟨_, after, entry, ends, rfl, middle, appended, removed⟩
  · exact keeps.stays fails
  · have appended_holds := keeps.holds.appended member ours appended
    have holds := appended_holds.removed member ours removed
    have mem : entry ∈ holding.entries user .received := by
      have listed := appended_holds.mem_of_removed member ours removed
      rwa [Share.append_entries, Placing.append_apply_of_ne (by decide)] at listed
    have same : after.issued = scene.issued := removed.issued_eq.trans appended.issued_eq
    cases holding with
    | gone => exact absurd mem List.not_mem_nil
    | alone holder held => cases (Holding.mem_entries_alone.mp mem).2.1
    | shared sender sent receiver copy accepted =>
        rcases Holding.mem_entries_shared.mp mem with ⟨_, other_tray, _⟩ | ⟨rfl, here, rfl⟩
        · cases other_tray
        · cases accepted with
          | true => cases here
          | false =>
              have proper := Holding.proper_shared_iff.mp (keeps.proper.mono same.ge)
              rw [Entry.linked_task, Holding.share_accept] at holds
              have changed := keeps.change holds (Holding.proper_shared_iff.mpr proper) keeps.ours
                same.ge
              exact ⟨.shared sender sent user copy true, after, ends.leaves, changed, same.ge⟩

theorem Keeps.bump (keeps : Keeps community around mine old holding scene)
    (member : community.member user) (ours : mine task = true) (policy : Policy) :
    Advances community around mine old (Workflow.bump policy user task).run scene := by
  rcases Workflow.bump_cases (calm around) scene policy user task with
    fails | ⟨_, after, list, entry, link, promoted, ends, shown, first, linked, same, bumped⟩
  · exact keeps.stays fails
  · obtain rfl := EntryList.task_eq_of_find? first
    rw [keeps.holds.find?_eq member ours shown] at first
    have mem := EntryList.mem_of_find? first
    have unchanged : after.issued = scene.issued := bumped.issued_eq
    cases holding with
    | gone => exact absurd mem List.not_mem_nil
    | alone holder held => cases (Holding.mem_entries_alone.mp mem).2.1
    | shared sender sent receiver copy accepted =>
        rcases Holding.mem_entries_shared.mp mem with ⟨rfl, _, rfl⟩ | ⟨_, here, _⟩
        · cases linked
          have copy_ours := keeps.ours copy (by simp [Holding.tasks])
          have receiver_member := keeps.proper.members receiver (by simp [Holding.users])
          have promoted_ours : mine promoted.task = true := same ▸ copy_ours
          obtain ⟨others, others_shown, found, _⟩ := id bumped
          rw [keeps.holds.find?_eq receiver_member promoted_ours others_shown] at found
          rcases Holding.mem_entries_shared.mp (EntryList.mem_of_find? found) with
            ⟨_, other_tray, _⟩ | ⟨_, here, rfl⟩
          · cases other_tray
          · have only : (Holding.shared user sent receiver copy accepted).entries receiver
                (Holding.place accepted) = [.linked copy user sent] := Holding.entries_receiver
            rw [← here] at only
            exact ⟨_, after, ends.leaves, keeps.change
              (keeps.holds.bumped receiver_member promoted_ours only bumped)
              (keeps.proper.mono unchanged.ge) keeps.ours unchanged.ge, unchanged.ge⟩
        · exact absurd here (Holding.sent_ne_place accepted)

theorem Holds.revised {share : Share} {message description : String}
    (holds : Holds community mine old share scene) (ours : mine task = true)
    (revised : Workflow.Revised scene task message description after) :
    Holds community mine old share after := by
  obtain ⟨bytes, content, shown, decoded, rfl⟩ := revised
  have stored : share.stored task := by
    by_contra missing
    cases shown.symm.trans (holds.absent task ours missing)
  obtain rfl := holds.id_eq ours stored shown decoded
  have named := (Task.originNamed_of_decode decoded).withContent message description
  have saved := holds.save (content.withContent message description) ours named
  have same : share.save content.id = share :=
    Share.eq_of_entries_of_stored rfl fun other => by
      rw [Share.save_stored]
      exact ⟨fun either => either.elim (· ▸ stored) id, .inr⟩
  exact same ▸ saved

/-- Editing. -/
theorem Keeps.edit (keeps : Keeps community around mine old holding scene)
    (member : community.member user) (ours : mine task = true) (message description : String) :
    Advances community around mine old (Workflow.edit user task message description).run
      scene := by
  rcases Workflow.edit_cases (calm around) scene user task message description with
    fails | ⟨_, middle, after, located, ends, found, revised, rest⟩
  · exact keeps.stays fails
  · have held := (keeps.holds.mem_of_locateIn member ours found).1
    have middle_holds := keeps.holds.revised ours revised
    have middle_issued : middle.issued = scene.issued := by
      obtain ⟨_, _, _, _, rfl⟩ := revised
      rfl
    rcases rest with rfl | ⟨other, linked, revised⟩
    · exact ⟨holding, _, ends.leaves, keeps.change middle_holds
        (keeps.proper.mono middle_issued.ge) keeps.ours middle_issued.ge, middle_issued.ge⟩
    · have after_issued : after.issued = scene.issued := by
        obtain ⟨_, _, _, _, rfl⟩ := revised
        exact middle_issued
      have other_ours := keeps.ours _ (Holding.mem_of_link held linked).2
      exact ⟨holding, _, ends.leaves, keeps.change (middle_holds.revised other_ours revised)
        (keeps.proper.mono after_issued.ge) keeps.ours after_issued.ge, after_issued.ge⟩

/-! ## Finishing -/

/-- The other side is cleaned up, if it has the only entry that is left. -/
theorem Holds.cleanUpOther {share : Share} {other : UserId} {tray : Tray}
    (holds : Holds community mine old share scene) (around : Surroundings) (entry : Entry)
    (member : community.member other)
    (ours : mine entry.task = true) (stored : share.stored entry.task)
    (rest : share.entries = Placing.none.append other tray entry)
    (linked : entry.linksTo user task = true) (budget : Nat) :
    ∃ told after, Program.Yields (calm around)
        (Workflow.cleanUpOther budget user task ⟨other, entry.task⟩) scene told after ∧
      Holds community mine old ((share.remove other tray entry.task).discard entry.task) after ∧
      after.issued = scene.issued := by
  have held : entry ∈ share.entries other tray := by
    rw [rest]
    exact Placing.mem_none_append.mpr ⟨rfl, rfl, rfl⟩
  obtain ⟨position, found⟩ := holds.exists_located member ours held fun place next listed _ => by
    rw [rest] at listed
    exact (Placing.mem_none_append.mp listed).2
  obtain ⟨left, removed⟩ := exists_removed_of_locate? found
  have left_holds := holds.removed member ours removed
  obtain ⟨bytes, content, shown, decoded, _⟩ := left_holds.recorded entry.task ours stored
  exact ⟨_, _, Workflow.yields_cleanUpOther budget ⟨other, entry.task⟩ found linked
    removed shown decoded rfl rfl, left_holds.discard ours, removed.issued_eq⟩

/-- After an entry of the task has been taken out, nothing of the task is left. -/
theorem Keeps.cleanUp {tray : Tray} {entry : Entry} {left : Scene}
    (keeps : Keeps community around mine old holding scene) (member : community.member user)
    (ours : mine entry.task = true) (removed : scene.Removed user tray entry left)
    (budget : Nat) :
    ∃ cleanup after, Program.Yields (calm around) (Workflow.cleanUp budget user entry) left cleanup
        after ∧
      Keeps community around mine old .gone after ∧ after.issued = scene.issued := by
  have held := keeps.holds.mem_of_removed member ours removed
  have left_holds := keeps.holds.removed member ours removed
  have gone (after : Scene) (holds : Holds community mine old Holding.gone.share after)
      (same : after.issued = scene.issued) : Keeps community around mine old .gone after :=
    keeps.change holds Holding.proper_gone (List.forall_mem_nil _) same.ge
  have stored : (holding.share.remove user tray entry.task).stored entry.task :=
    Holding.task_mem_of_mem held
  obtain ⟨bytes, content, shown, decoded, _⟩ := left_holds.recorded entry.task ours stored
  have dropped := left_holds.discard ours
  cases holding with
  | gone => exact absurd held List.not_mem_nil
  | alone holder task =>
      obtain ⟨rfl, rfl, rfl⟩ := Holding.mem_entries_alone.mp held
      rw [Entry.unlinked_task, Holding.share_finish_alone] at dropped
      exact ⟨_, _, Workflow.yields_cleanUp_unlinked budget user rfl shown decoded rfl,
        gone _ dropped removed.issued_eq, removed.issued_eq⟩
  | shared sender task receiver copy accepted =>
      obtain ⟨⟨sender_member, receiver_member⟩, _, differs⟩ :=
        Holding.proper_shared_iff.mp keeps.proper
      rcases Holding.mem_entries_shared.mp held with ⟨rfl, rfl, rfl⟩ | ⟨rfl, rfl, rfl⟩
      · obtain ⟨told, after, cleaned, holds, same⟩ := dropped.cleanUpOther around
          (.linked copy user task) receiver_member
          (keeps.ours copy (by simp [Holding.tasks])) ⟨differs.symm, by simp [Holding.tasks]⟩
          Holding.entries_remove_sender (beq_self_eq_true _) budget
        rw [Entry.linked_task, Entry.linked_task, Holding.share_finish_sender] at holds
        exact ⟨_, after, Workflow.yields_cleanUp_linked budget rfl shown decoded rfl cleaned,
          gone after holds (same.trans removed.issued_eq), same.trans removed.issued_eq⟩
      · obtain ⟨told, after, cleaned, holds, same⟩ := dropped.cleanUpOther around
          (.linked task user copy) sender_member
          (keeps.ours task (by simp [Holding.tasks])) ⟨differs, by simp [Holding.tasks]⟩
          Holding.entries_remove_receiver (beq_self_eq_true _) budget
        rw [Entry.linked_task, Entry.linked_task, Holding.share_finish_receiver] at holds
        exact ⟨_, after, Workflow.yields_cleanUp_linked budget rfl shown decoded rfl cleaned,
          gone after holds (same.trans removed.issued_eq), same.trans removed.issued_eq⟩

/-- A workflow that fails and changes nothing, or succeeds and leaves nothing of the task. -/
def Finishes {α : Type} (community : Community) (around : Surroundings) (mine : TaskId → Bool)
    (old : Scene) (attempt : Attempt α) (scene : Scene) : Prop :=
  Fails (calm around) attempt scene scene ∨
    ∃ result after, Yields (calm around) attempt scene result after ∧
      Keeps community around mine old .gone after ∧ after.issued = scene.issued

theorem Keeps.takeOut (keeps : Keeps community around mine old holding scene)
    (member : community.member user) (ours : mine task = true) (policy : Policy) (event : Event) :
    Finishes community around mine old (Workflow.takeOut policy user task event) scene := by
  refine (Workflow.takeOut_cases (calm around) scene policy user task event).imp_right ?_
  rintro ⟨located, left, found, removed, ends⟩
  obtain rfl := task_eq_of_locate? found
  obtain ⟨cleanup, after, cleaned, gone, same⟩ :=
    keeps.cleanUp member ours removed policy.budget
  exact ⟨_, after, ends cleanup after cleaned, gone, same⟩

theorem Keeps.complete (keeps : Keeps community around mine old holding scene)
    (member : community.member user) (ours : mine task = true) (policy : Policy) :
    Finishes community around mine old (Workflow.complete policy user task) scene := by
  rcases keeps.takeOut member ours policy .taskCompleted with fails | ⟨_, after, ends, gone⟩
  · exact .inl (fails.bind _)
  · exact .inr ⟨_, after, ends.bind (Attempt.yields_pure _), gone⟩

theorem Keeps.remove (keeps : Keeps community around mine old holding scene)
    (member : community.member user) (ours : mine task = true) (policy : Policy) :
    Finishes community around mine old (Workflow.remove policy user task) scene := by
  rcases keeps.takeOut member ours policy .taskRemoved with fails | ⟨_, after, ends, gone⟩
  · exact .inl (fails.bind _)
  · exact .inr ⟨_, after, ends.bind (Attempt.yields_pure _), gone⟩

theorem Keeps.pop (keeps : Keeps community around mine old holding scene)
    (member : community.member user) (policy : Policy)
    (ours : ∀ entry rest, scene.cells (Key.tray user .owned) = .entries (entry :: rest) →
      mine entry.task = true) :
    Finishes community around mine old (Workflow.pop policy user) scene := by
  refine (Workflow.pop_cases (calm around) scene policy user).imp_right ?_
  rintro ⟨entry, rest, left, shown, removed, ends⟩
  obtain ⟨cleanup, after, cleaned, gone, same⟩ :=
    keeps.cleanUp member (ours entry rest shown) removed policy.budget
  exact ⟨_, after, ends cleanup after cleaned, gone, same⟩

end Scene
end Handoff
