import Handoff.Proofs.Pairing.Copies.Editing
import Handoff.Proofs.Pairing.Copies.Steps
import Handoff.Proofs.Pairing.Residue

/-!
# Copies stay synchronized

After any operations on an empty store, the two records of a shared task say the same and come from
the same place.  No operation changes what a record is named, when it was made or where it comes
from, and only edits change what it says.
-/

namespace Handoff

/-- An operation edits a record: it is an edit of its task, or of the task that its entry is linked
to. -/
def Operation.Edits (operation : Operation) (community : Community) (scene : Scene)
    (task : TaskId) : Prop :=
  ∃ user edited message description, operation = .edit user edited message description ∧
    (edited = task ∨ ∃ owner tray entry link, community.member owner ∧
      scene.Lists owner tray entry ∧ entry.task = task ∧ entry.link = some link ∧
        link.task = edited)

/-- A record that is there before and after an operation can be read both times and is the same
record, and it says the same unless the operation edits it. -/
def Scene.Retains (community : Community) (operation : Operation) (before after : Scene) : Prop :=
  ∀ task bytes later, before.cells (Key.record task) = .value (some bytes) →
    after.cells (Key.record task) = .value (some later) →
    ∃ old new, Task.decode bytes = .ok old ∧ Task.decode later = .ok new ∧ old.Continues new ∧
      ((new.message = old.message ∧ new.description = old.description) ∨
        operation.Edits community before task)

namespace Scene

variable {community : Community} {around : Surroundings} {world left : World}
  {holdings changed : List Holding} {before after : Scene} {user : UserId} {tray : Tray}
  {entry : Entry} {operation : Operation} {task : TaskId} {message description : String}

namespace Comprises

theorem ne_fresh_of_reads (comprises : Comprises community around holdings world.scene)
    (fresh : around.Fresh) {content : Task} (reads : world.scene.Reads task content) (n : Nat)
    (later : world.scene.issued ≤ n) : around.newTaskId n ≠ task := by
  rintro rfl
  obtain ⟨bytes, shown, _⟩ := reads
  cases shown.symm.trans (comprises.absent_fresh fresh later)

theorem exists_content {scene : Scene} {bytes : Bytes}
    (comprises : Comprises community around holdings scene)
    (shown : scene.cells (Key.record task) = .value (some bytes)) :
    ∃ content, Task.decode bytes = .ok content := by
  by_cases held : task ∈ holdings.flatMap Holding.tasks
  · obtain ⟨others, content, others_shown, decoded, _⟩ := comprises.recorded task held
    cases shown.symm.trans others_shown
    exact ⟨content, decoded⟩
  · cases shown.symm.trans (comprises.absent task held)

/-! ## Operations that make copies -/

/-- New links lead to records that say the same, and so do old ones, as their records stay. -/
theorem synchronized_of_follows (fresh : around.Fresh) {added : List Entry}
    (comprises : Comprises community around holdings world.scene)
    (kept : Comprises community around changed left.scene)
    (synchronized : world.scene.Synchronized community)
    (follows : Follows community around added world.scene left.scene)
    (alike : ∀ entry ∈ added, ∀ link, entry.link = some link →
      left.scene.Alike entry.task link.task) : left.scene.Synchronized community := by
  intro user tray entry link member lists linked
  rcases follows.lists user tray entry member lists with new | ⟨owner, place, owner_member, old⟩
  · exact alike entry new link linked
  obtain ⟨content, copy, reads, copy_reads, twin⟩ :=
    synchronized owner place entry link owner_member old linked
  obtain ⟨link_member, spot, back⟩ := kept.paired.exists_back member lists linked
  obtain ⟨later, later_reads, _⟩ := kept.exists_reads member lists
  obtain ⟨later_copy, later_copy_reads, _⟩ := kept.exists_reads link_member back
  obtain rfl := reads.unique
    (follows.reads_before (comprises.ne_fresh_of_reads fresh reads) later_reads)
  obtain rfl := copy_reads.unique
    (follows.reads_before (comprises.ne_fresh_of_reads fresh copy_reads) later_copy_reads)
  exact ⟨content, copy, later_reads, later_copy_reads, twin⟩

theorem retains_of_follows (fresh : around.Fresh) {added : List Entry}
    (comprises : Comprises community around holdings world.scene)
    (kept : Comprises community around changed after)
    (follows : Follows community around added world.scene after) :
    Retains community operation world.scene after := by
  intro task bytes later shown later_shown
  obtain ⟨old, decoded⟩ := comprises.exists_content shown
  obtain ⟨new, later_decoded⟩ := kept.exists_content later_shown
  have reads : world.scene.Reads task old := ⟨bytes, shown, decoded⟩
  obtain rfl := reads.unique (follows.reads_before (comprises.ne_fresh_of_reads fresh reads)
    ⟨later, later_shown, later_decoded⟩)
  exact ⟨old, old, decoded, later_decoded, Task.continues_refl old, .inl ⟨rfl, rfl⟩⟩

/-! ## Editing -/

theorem synchronized_of_edited (comprises : Comprises community around holdings world.scene)
    (synchronized : world.scene.Synchronized community) (member : community.member user)
    (lists : world.scene.Lists user tray entry)
    (edited : world.scene.Edited entry message description after) :
    after.Synchronized community := by
  intro other place next link other_member next_lists linked
  have next_before : world.scene.Lists other place next := by
    obtain ⟨list, shown, mem⟩ := next_lists
    exact ⟨list, (edited.trays other place).symm.trans shown, mem⟩
  obtain ⟨content, copy, reads, copy_reads, twin⟩ :=
    synchronized other place next link other_member next_before linked
  have paired := comprises.paired
  obtain ⟨link_member, spot, back⟩ := paired.exists_back other_member next_before linked
  have forth := paired.concerns_link member lists other_member next_before linked
  have back_again : entry.Concerns link.task → entry.Concerns next.task :=
    paired.concerns_link member lists link_member back rfl
  by_cases concerns : entry.Concerns next.task
  · exact ⟨_, _, edited.revised _ _ concerns reads, edited.revised _ _ (forth concerns) copy_reads,
      twin.withContent message description⟩
  · exact ⟨_, _, edited.kept _ _ concerns reads,
      edited.kept _ _ (fun across => concerns (back_again across)) copy_reads, twin⟩

theorem retains_of_edited (comprises : Comprises community around holdings world.scene)
    (member : community.member user) (lists : world.scene.Lists user tray entry)
    (edited : world.scene.Edited entry message description after) :
    Retains community (.edit user entry.task message description) world.scene after := by
  intro task bytes later shown later_shown
  obtain ⟨old, decoded⟩ := comprises.exists_content shown
  refine ⟨old, ?_⟩
  by_cases concerns : entry.Concerns task
  · obtain ⟨others, others_shown, later_decoded⟩ :=
      edited.revised task old concerns ⟨bytes, shown, decoded⟩
    cases later_shown.symm.trans others_shown
    refine ⟨_, decoded, later_decoded, old.continues_withContent message description,
      .inr ⟨user, entry.task, message, description, rfl, ?_⟩⟩
    rcases concerns with same | ⟨link, linked, rfl⟩
    · exact .inl same.symm
    · obtain ⟨link_member, place, back⟩ := comprises.paired.exists_back member lists linked
      exact .inr ⟨link.user, place, _, ⟨user, entry.task⟩, link_member, back, rfl, rfl, rfl⟩
  · obtain ⟨others, others_shown, later_decoded⟩ :=
      edited.kept task old concerns ⟨bytes, shown, decoded⟩
    cases later_shown.symm.trans others_shown
    exact ⟨old, decoded, later_decoded, Task.continues_refl old, .inl ⟨rfl, rfl⟩⟩

end Comprises
end Scene

namespace World

open Scene (Comprises)

variable {community : Community} {around : Surroundings} {world : World} {holdings : List Holding}

/-- One operation keeps copies synchronized and records the same. -/
theorem synchronized_step (fresh : around.Fresh) (policy : Policy)
    (comprises : Comprises community around holdings world.scene)
    (synchronized : world.scene.Synchronized community) (turn : Instant × Operation)
    (members : ∀ user ∈ turn.2.users, community.member user) :
    (world.step around policy turn).scene.Synchronized community ∧
      world.scene.Retains community turn.2 (world.step around policy turn).scene := by
  obtain ⟨clock, operation⟩ := turn
  have now : Comprises community around holdings (World.scene { world with clock }) :=
    comprises.at_clock clock
  obtain ⟨changed, kept⟩ := exists_comprises_step fresh policy comprises (clock, operation) members
  have reached {after : Scene} (leaves : (operation.attempt policy).run.Leaves (.calm around)
      (World.scene { world with clock }) after) :
      (world.step around policy (clock, operation)).scene = after := by
    rw [← leaves { world with clock } rfl, Conditions.run_calm]
    rfl
  have retains (added : List Entry) {holdings : List Holding} {after : Scene}
      (kept : Comprises community around holdings after)
      (follows : Scene.Follows community around added (World.scene { world with clock }) after) :
      Scene.Retains community operation (World.scene { world with clock }) after :=
    now.retains_of_follows fresh kept follows
  by_cases edits : ∃ user task message description,
      operation = .edit user task message description
  · obtain ⟨user, task, message, description, rfl⟩ := edits
    have member := members user (by simp [Operation.users])
    rcases now.edit_cases member task message description with
      leaves | ⟨tray, entry, after, lists, rfl, leaves, edited⟩
    · rw [reached (Attempt.leaves_forget leaves)]
      exact ⟨synchronized, retains [] now (Scene.follows_refl _)⟩
    · rw [reached (Attempt.leaves_forget leaves)]
      exact ⟨now.synchronized_of_edited synchronized member lists edited,
        now.retains_of_edited member lists edited⟩
  · obtain ⟨added, after, leaves, follows, alike⟩ := now.matches_attempt fresh policy operation
      members fun user task message description same =>
        edits ⟨user, task, message, description, same⟩
    obtain rfl := reached leaves
    exact ⟨now.synchronized_of_follows fresh kept synchronized follows alike,
      retains added kept follows⟩

theorem synchronized_steps (fresh : around.Fresh) (policy : Policy)
    (turns : List (Instant × Operation))
    (members : ∀ turn ∈ turns, ∀ user ∈ turn.2.users, community.member user) {world : World}
    {holdings : List Holding} (comprises : Comprises community around holdings world.scene)
    (synchronized : world.scene.Synchronized community) :
    (world.steps around policy turns).scene.Synchronized community := by
  induction turns generalizing world holdings with
  | nil => exact synchronized
  | cons turn turns induction =>
      have first := members turn List.mem_cons_self
      obtain ⟨changed, kept⟩ := exists_comprises_step fresh policy comprises turn first
      exact induction (fun later mem => members later (List.mem_cons_of_mem _ mem)) kept
        (synchronized_step fresh policy comprises synchronized turn first).1

theorem synchronized_empty (clock : Instant) (issued : Nat) :
    (World.scene ⟨.empty, clock, issued⟩).Synchronized community := by
  rintro user tray entry link member ⟨list, shown, mem⟩ linked
  have nothing :
      (World.scene ⟨.empty, clock, issued⟩).cells (Key.tray user tray) = .entries [] := by
    simp [World.scene, Store.cell]
  cases shown.symm.trans nothing
  exact absurd mem List.not_mem_nil

/-- After any operations of members on an empty store, the records on the two sides of every link
say the same and come from the same place.  A further operation leaves the name, the time and the
place of origin of every record, and changes what a record says only if it edits the record's task
or the task that the record's entry is linked to. -/
theorem Reached.synchronized {policy : Policy} (fresh : around.Fresh)
    (reached : world.Reached community around policy) (turn : Instant × Operation)
    (members : ∀ user ∈ turn.2.users, community.member user) :
    world.scene.Synchronized community ∧
      world.scene.Retains community turn.2 (world.step around policy turn).scene := by
  obtain ⟨holdings, comprises⟩ := reached.exists_comprises fresh
  obtain ⟨turns, clock, issued, all_members, rfl⟩ := reached
  have synchronized := synchronized_steps fresh policy turns all_members
    (comprises_empty clock issued) (synchronized_empty clock issued)
  exact ⟨synchronized, (synchronized_step fresh policy comprises synchronized turn members).2⟩

/-- The receiver has edited an accepted task, and the sender has handed it to somebody else, who
edits it again: both records have the latest texts, and their own names and times. -/
theorem synchronized_of_edited_and_reassigned :
    let world := (World.mk .empty ⟨0⟩ 0).steps .strokes .standard
      [(⟨1⟩, .send "ann" "bob" "Call" "" none), (⟨2⟩, .accept "bob" "||"),
        (⟨3⟩, .edit "bob" "||" "Call back" ""), (⟨4⟩, .assign "ann" "|" "cat")]
    let turn : Instant × Operation := (⟨5⟩, .edit "cat" "|||" "Write" "soon")
    let after := world.step .strokes .standard turn
    after.store.get? (Key.record "|") = some (Task.encode ⟨"|", "Write", "soon", ⟨1⟩, none⟩) ∧
      after.store.get? (Key.record "|||") = some (Task.encode ⟨"|||", "Write", "soon", ⟨4⟩, none⟩) ∧
      world.scene.Synchronized .plain ∧ world.scene.Retains .plain turn.2 after.scene := by
  intro world turn after
  have reached : world.Reached .plain .strokes .standard :=
    ⟨_, ⟨0⟩, 0, by simp [Operation.users, Community.plain, UserId.Plain], rfl⟩
  have members : ∀ user ∈ turn.2.users, Community.plain.member user := by
    simp [turn, Operation.users, Community.plain, UserId.Plain]
  exact ⟨by decide +kernel, by decide +kernel,
    reached.synchronized Surroundings.fresh_strokes turn members⟩

end World
end Handoff
