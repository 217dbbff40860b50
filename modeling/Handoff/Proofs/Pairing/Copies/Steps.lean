import Handoff.Proofs.Pairing.Copies.Basic
import Handoff.Proofs.Pairing.Spares.Assigning

/-!
# Operations that make copies

Every operation but editing leaves the records that were there as they are or deletes them.  Where
it adds entries that are linked to each other, one of their records has just been made as a copy of
the other.
-/

namespace Handoff

/-- A program leads to a scene in which new links lead to records that say the same, and other
records say what they said. -/
def Program.Matches {α : Type} (community : Community) (around : Surroundings) (p : Program α)
    (scene : Scene) : Prop :=
  ∃ added after, p.Leaves (.calm around) scene after ∧
    Scene.Follows community around added scene after ∧
    ∀ entry ∈ added, ∀ link, entry.link = some link → after.Alike entry.task link.task

variable {community : Community} {around : Surroundings} {scene after left : Scene}
  {user other : UserId} {tray : Tray} {entry : Entry} {task : TaskId}

theorem Program.Matches.told {α β : Type} {attempt : Attempt α}
    (made : attempt.run.Matches community around scene) (f : α → β) :
    (attempt >>= fun a => (pure (f a) : Attempt β)).run.Matches community around scene := by
  obtain ⟨added, after, leaves, follows, alike⟩ := made
  refine ⟨added, after, ?_, follows, alike⟩
  apply leaves.bind
  intro result
  cases result with
  | ok a => exact (Program.yields_pure _).leaves
  | error failure => exact (Program.yields_pure _).leaves

/-- Where the entries and the records are as they were, there is nothing to compare. -/
theorem Program.matches_of_same_cells {α : Type} {p : Program α}
    (leaves : p.Leaves (.calm around) scene after) (same : after.cells = scene.cells) :
    p.Matches community around scene :=
  ⟨[], after, leaves, (Scene.follows_refl scene).of_cells_eq same, List.forall_mem_nil _⟩

namespace Scene

open Conditions (calm)

variable {mine : TaskId → Bool} {old : Scene} {holding : Holding}

/-- Where nothing is left of a task, there are only entries and records of others. -/
theorem Keeps.follows_of_gone (gone : Keeps community around mine scene .gone after) :
    Follows community around [] scene after := by
  constructor
  · rintro user tray entry member ⟨found, found_shown, mem⟩
    obtain ⟨list, rest, shown, rest_shown, outside, inside⟩ := gone.holds.trays user tray member
    cases shown.symm.trans found_shown
    rw [EntryList.filter_not_eq_self inside] at outside
    rw [outside] at mem
    exact .inr ⟨user, tray, member, rest, rest_shown, (List.mem_filter.mp mem).1⟩
  · intro task bytes shown
    cases ours : mine task with
    | true =>
        have absent := gone.holds.absent task ours List.not_mem_nil
        cases shown.symm.trans absent
    | false => exact .inl ((gone.holds.record_eq ours).symm.trans shown)

/-! ## Assigning -/

section
open Workflow (Moved Freed HandedOver TakenBack)

variable {before middle : Scene} {assignee : UserId} {located : Located} {content copy : Task}
  {orphaned : Bool} {link : Option Link} {added : List Entry}

theorem follows_of_freed (freed : Freed scene user task link orphaned after) :
    Follows community around added scene after := by
  rcases freed.cases with rfl | ⟨_, _, _, removed⟩
  · exact follows_refl _
  · exact (follows_refl scene).removed removed

theorem Follows.takenBack (follows : Follows community around added before middle)
    (taken : TakenBack middle user located after) (mem : .unlinked located.entry.task ∈ added) :
    Follows community around added before after := by
  obtain ⟨bare, removed, appended⟩ := taken
  exact (follows.removed removed).appended appended mem

theorem Follows.handedOver (follows : Follows community around added before middle) {n : Nat}
    (later : before.issued ≤ n) (generated : copy.id = around.newTaskId n)
    (handed : HandedOver middle user assignee located copy after)
    (given_mem : .linked copy.id user located.entry.task ∈ added)
    (sent_mem : .linked located.entry.task assignee copy.id ∈ added) :
    Follows community around added before after := by
  obtain ⟨given, bare, received, removed, sent⟩ := handed
  have issued := follows.of_cells_eq middle.issue_cells
  have listed := (issued.save later generated).appended received given_mem
  exact (listed.removed removed).appended sent sent_mem

theorem cells_record_of_handedOver (handed : HandedOver middle user assignee located copy after)
    (differs : task ≠ copy.id) :
    after.cells (Key.record task) = middle.cells (Key.record task) := by
  obtain ⟨given, bare, received, removed, sent⟩ := handed
  rw [sent.cells_record, removed.cells_record, received.cells_record]
  exact put_cells_of_ne _ _ fun keys => differs (Key.record_injective keys)

theorem reads_of_handedOver (handed : HandedOver middle user assignee located copy after)
    (named : copy.OriginNamed) : after.Reads copy.id copy := by
  obtain ⟨given, bare, received, removed, sent⟩ := handed
  apply (reads_save middle.issue named).of_cells_eq
  rw [sent.cells_record, removed.cells_record, received.cells_record]

theorem cells_record_of_freed (freed : Freed scene user task link orphaned after)
    (other : TaskId) : after.cells (Key.record other) = scene.cells (Key.record other) := by
  rcases freed.cases with rfl | ⟨_, _, _, removed⟩
  · rfl
  · exact removed.cells_record other

variable (community) in
/-- A task that is handed over and its new copy say the same, as long as their records stay. -/
theorem exists_follows_of_moved
    (moved : Moved (calm around) scene user assignee content located orphaned after)
    (reads : scene.Reads located.entry.task content)
    (differs : located.entry.task ≠ around.newTaskId scene.issued) :
    ∃ added, Follows community around added scene after ∧ ∀ last : Scene,
      last.cells (Key.record located.entry.task) = after.cells (Key.record located.entry.task) →
      last.cells (Key.record (around.newTaskId scene.issued)) =
        after.cells (Key.record (around.newTaskId scene.issued)) →
      ∀ entry ∈ added, ∀ link, entry.link = some link → last.Alike entry.task link.task := by
  obtain ⟨middle, freed, rest⟩ := moved
  rw [freed.issued_eq] at rest
  split at rest
  · refine ⟨[.unlinked located.entry.task], ?_, ?_⟩
    · exact (follows_of_freed freed).takenBack rest List.mem_cons_self
    · intro last _ _ entry mem link linked
      obtain rfl := List.mem_singleton.mp mem
      cases linked
  · let next := around.newTaskId scene.issued
    let made := content.copy next middle.clock
    let added : List Entry :=
      [.linked next user located.entry.task, .linked located.entry.task assignee next]
    refine ⟨added, ?_, ?_⟩
    · exact (follows_of_freed freed).handedOver le_rfl rfl rest List.mem_cons_self
        (List.mem_cons_of_mem _ List.mem_cons_self)
    · intro last same next_same
      have last_reads : last.Reads located.entry.task content := by
        apply reads.of_cells_eq
        rw [same, cells_record_of_handedOver rest differs, cells_record_of_freed freed]
      have next_reads : last.Reads next made :=
        (reads_of_handedOver rest (Task.originNamed_copy _ _ _)).of_cells_eq next_same
      have alike : last.Alike located.entry.task next :=
        ⟨content, made, last_reads, next_reads, Task.twin_copy reads.originNamed _ _⟩
      exact fun entry mem link linked => alike_of_mem_pair alike.symm mem linked

end

/-! ## Accepting and bumping -/

/-- Accepting puts an entry into another tray that was listed before. -/
theorem matches_accept (member : community.member user) (policy : Policy) (task : TaskId) :
    (Workflow.accept policy user task).run.Matches community around scene := by
  rcases Workflow.accept_cases (calm around) scene policy user task with
    fails | ⟨_, after, entry, ends, rfl, middle, appended, removed⟩
  · exact Program.matches_of_same_cells fails.leaves rfl
  have listed : scene.Lists user .received entry := by
    obtain ⟨list, shown, found, _⟩ := id removed
    have apart : Key.tray user .received ≠ Key.tray user .owned := by
      intro keys
      cases Key.tray_injective keys
    rw [appended.cells_of_ne apart] at shown
    exact ⟨list, shown, EntryList.mem_of_find? found⟩
  have follows : Follows community around [] scene after :=
    ((follows_refl scene).relisted appended member listed).removed removed
  exact ⟨[], after, ends.leaves, follows, List.forall_mem_nil _⟩

theorem matches_bump (user : UserId) (policy : Policy) (task : TaskId) :
    (Workflow.bump policy user task).run.Matches community around scene := by
  rcases Workflow.bump_cases (calm around) scene policy user task with
    fails | ⟨_, after, _, _, _, promoted, ends, _, _, _, _, bumped⟩
  · exact Program.matches_of_same_cells fails.leaves rfl
  · exact ⟨[], after, ends.leaves, (follows_refl scene).bumped bumped, List.forall_mem_nil _⟩

namespace Comprises

variable {holdings : List Holding} {world : World}

section
variable (comprises : Comprises community around holdings world.scene) (fresh : around.Fresh)
  (policy : Policy)
include comprises fresh

theorem matches_add (message description : String) (origin : Option String) :
    (Workflow.add policy user message description origin).run.Matches community around
      world.scene := by
  rcases Workflow.add_cases (calm around) policy user message description origin rfl
    (comprises.absent_fresh fresh le_rfl) with
    ⟨_, fails, rfl⟩ | ⟨content, after, ends, rfl, appended⟩
  · exact Program.matches_of_same_cells fails.leaves rfl
  · have issued : Follows community around [.unlinked (around.newTaskId world.issued)] world.scene
        world.scene.issue := (follows_refl _).of_cells_eq world.scene.issue_cells
    have follows := (issued.save le_rfl rfl).appended appended List.mem_cons_self
    refine ⟨_, after, ends.leaves, follows, ?_⟩
    intro entry mem link linked
    obtain rfl := List.mem_singleton.mp mem
    cases linked

theorem matches_send {receiver : UserId} (member : community.member user)
    (receiver_member : community.member receiver)
    (message description : String) (origin : Option String) :
    (Workflow.send policy user receiver message description origin).run.Matches community around
      world.scene := by
  have next : world.issued ≤ world.issued + 1 := Nat.le_succ _
  have differs : around.newTaskId world.scene.issued ≠ around.newTaskId (world.scene.issued + 1) :=
    fun same => absurd (fresh.injective same) (by omega)
  rcases Workflow.send_cases (calm around) policy message description origin
    (community.named _ member) (community.named _ receiver_member) rfl rfl (fresh.named _)
    (fresh.named _) differs (comprises.absent_fresh fresh le_rfl)
    (comprises.absent_fresh fresh next) with
    ⟨_, fails, rfl⟩ | ⟨_, after, ends, _, content, copy, middle, rfl, rfl, sent, received⟩
  · exact Program.matches_of_same_cells fails.leaves rfl
  let made (n : Nat) :=
    Task.create (around.newTaskId n) world.scene.clock message description origin
  have named (n : Nat) : (made n).OriginNamed := Task.originNamed_create _ _ _ _ _
  let added : List Entry :=
    [.linked (around.newTaskId world.issued) receiver (around.newTaskId (world.issued + 1)),
      .linked (around.newTaskId (world.issued + 1)) user (around.newTaskId world.issued)]
  have issued : Follows community around added world.scene world.scene.issue.issue :=
    (follows_refl _).of_cells_eq rfl
  have listed : Follows community around added world.scene middle := by
    apply Follows.appended _ sent List.mem_cons_self
    apply Follows.save _ next rfl
    exact issued.save le_rfl rfl
  have follows := listed.appended received (List.mem_cons_of_mem _ List.mem_cons_self)
  have reads : after.Reads (around.newTaskId world.issued) (made world.issued) := by
    apply (reads_save world.scene.issue.issue (named world.issued)).of_cells_eq
    rw [received.cells_record, sent.cells_record]
    exact save_cells_record _ fun keys => differs (Key.record_injective keys)
  have copy_reads :
      after.Reads (around.newTaskId (world.issued + 1)) (made (world.issued + 1)) := by
    apply (reads_save _ (named (world.issued + 1))).of_cells_eq
    rw [received.cells_record, sent.cells_record]
    rfl
  have alike : after.Alike (around.newTaskId world.issued) (around.newTaskId (world.issued + 1)) :=
    ⟨_, _, reads, copy_reads, rfl, rfl, rfl⟩
  exact ⟨added, after, ends.leaves, follows, fun entry mem link => alike_of_mem_pair alike mem⟩

/-! ## Finishing -/

theorem matches_cleanUp {left : Scene} (removed : world.scene.Removed user tray entry left)
    (member : community.member user) : ∃ cleanup after, Program.Yields (calm around)
      (Workflow.cleanUp policy.budget user entry) left cleanup after ∧
        Follows community around [] world.scene after := by
  obtain ⟨holding, mine, ours, keeps⟩ := comprises.exists_held fresh entry.task
  obtain ⟨cleanup, after, cleaned, gone, _⟩ := keeps.cleanUp member ours removed policy.budget
  exact ⟨cleanup, after, cleaned, gone.follows_of_gone⟩

theorem matches_takeOut (member : community.member user) (task : TaskId) (event : Event) :
    (Workflow.takeOut policy user task event).run.Matches community around world.scene := by
  rcases Workflow.takeOut_cases (calm around) world.scene policy user task event with
    fails | ⟨located, left, _, removed, ends⟩
  · exact Program.matches_of_same_cells fails.leaves rfl
  · obtain ⟨cleanup, after, cleaned, follows⟩ :=
      comprises.matches_cleanUp fresh policy removed member
    exact ⟨[], after, (ends cleanup after cleaned).leaves, follows, List.forall_mem_nil _⟩

theorem matches_pop (member : community.member user) :
    (Workflow.pop policy user).run.Matches community around world.scene := by
  rcases Workflow.pop_cases (calm around) world.scene policy user with
    fails | ⟨_, _, left, _, removed, ends⟩
  · exact Program.matches_of_same_cells fails.leaves rfl
  · obtain ⟨cleanup, after, cleaned, follows⟩ :=
      comprises.matches_cleanUp fresh policy removed member
    exact ⟨[], after, (ends cleanup after cleaned).leaves, follows, List.forall_mem_nil _⟩

theorem matches_assign {assignee : UserId} (member : community.member user)
    (assignee_member : community.member assignee) (task : TaskId) :
    (Workflow.assign policy user task assignee).run.Matches community around world.scene := by
  rcases Workflow.assignable_cases (calm around) world.scene policy user task assignee with
    fails | ⟨_, ends⟩ | ⟨located, content, assignable⟩
  · exact Program.matches_of_same_cells fails.leaves rfl
  · exact Program.matches_of_same_cells ends.leaves rfl
  obtain ⟨holding, mine, ours, keeps⟩ := comprises.exists_held fresh task
  obtain ⟨held, rfl⟩ := keeps.holds.mem_of_locateIn member ours assignable.found
  have task_held := Holding.task_mem_of_mem held
  obtain ⟨bytes, stored, decoded⟩ := assignable.stored
  have own := keeps.holds.id_eq ours task_held stored decoded
  have differs := keeps.ne_fresh fresh task_held le_rfl
  obtain ⟨orphaned, left, moved, settled⟩ := keeps.exists_moved fresh policy member assignee_member
    held assignable.outright own
  obtain ⟨added, follows, alike⟩ :=
    exists_follows_of_moved community moved ⟨bytes, stored, decoded⟩ differs
  obtain ⟨tray, entry, position⟩ := located
  rcases Holding.eq_of_isOutright held assignable.outright with
    ⟨task, rfl, rfl, rfl⟩ | ⟨task, receiver, copy, accepted, rfl, rfl, rfl⟩
  · obtain ⟨rfl, _, _⟩ := keeps.moved_alone fresh assignee_member moved
    exact ⟨added, left, (assignable.yields policy settled (Program.yields_pure ())).leaves, follows,
      alike left rfl rfl⟩
  · obtain ⟨dropping, _, _⟩ := keeps.moved_shared fresh assignee_member moved
    have apart := (Holding.proper_shared_iff.mp keeps.proper).2.2
    have next_apart := keeps.ne_fresh fresh (by simp [Holding.tasks] : copy ∈ _) le_rfl
    refine ⟨added, _, (assignable.yields policy settled dropping).leaves, follows.discard copy,
      alike _ ?_ ?_⟩
    · exact put_cells_of_ne _ _ fun keys => apart (Key.record_injective keys)
    · exact put_cells_of_ne _ _ fun keys => next_apart (Key.record_injective keys).symm

end

theorem matches_attempt (comprises : Comprises community around holdings world.scene)
    (fresh : around.Fresh) (policy : Policy) (operation : Operation)
    (members : ∀ user ∈ operation.users, community.member user)
    (no_edit : ∀ user task message description,
      operation ≠ .edit user task message description) :
    (operation.attempt policy).run.Matches community around world.scene := by
  cases operation with
  | add user message description origin =>
      exact (comprises.matches_add fresh policy message description origin).told _
  | send sender receiver message description origin =>
      exact (comprises.matches_send fresh policy (members sender (by simp [Operation.users]))
        (members receiver (by simp [Operation.users])) message description origin).told _
  | accept user task =>
      exact (matches_accept (members user (by simp [Operation.users])) policy task).told _
  | complete user task =>
      exact ((comprises.matches_takeOut fresh policy (members user (by simp [Operation.users])) task
        .taskCompleted).told _).told _
  | remove user task =>
      exact ((comprises.matches_takeOut fresh policy (members user (by simp [Operation.users])) task
        .taskRemoved).told _).told _
  | pop user =>
      exact (comprises.matches_pop fresh policy (members user (by simp [Operation.users]))).told _
  | bump user task => exact (matches_bump user policy task).told _
  | edit user task message description => exact absurd rfl (no_edit user task message description)
  | assign user task assignee =>
      exact (comprises.matches_assign fresh policy (members user (by simp [Operation.users]))
        (members assignee (by simp [Operation.users])) task).told _

end Comprises
end Scene
end Handoff
