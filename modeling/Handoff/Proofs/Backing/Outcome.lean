import Handoff.Proofs.Backing.Assigning
import Handoff.Proofs.Pairing.Residue
import Handoff.Proofs.Pairing.Spares.Steps

/-!
# No entry is ever without its record

Whenever an operation is broken off, every entry has its record, and every new entry that has a link
points to a record on the other side.  If writes to some keys fail, this goes for the operations
that are undone, up to the last action of the undoing.
-/

namespace Handoff

variable {community : Community} {around : Surroundings} {world : World}

namespace World

open Scene (Comprises)

theorem consistent_of_comprises (fresh : around.Fresh) {holdings : List Holding}
    (comprises : Comprises community around holdings world.scene)
    (enclosed : world.store.Enclosed community) :
    world.Consistent community around world.scene.listed world.scene.recorded := by
  have paired := comprises.paired
  have place {key : String} {task : TaskId} (there : (key, task) ∈ world.scene.listed) :
      ∃ user tray entry, community.member user ∧ key = Key.tray user tray ∧
        world.store.Lists user tray entry ∧ entry.task = task := by
    obtain ⟨list, shown, mem⟩ := there
    obtain ⟨entry, entry_mem, same⟩ := List.mem_map.mp mem
    obtain ⟨user, tray, member, rfl⟩ := enclosed key list shown (List.ne_nil_of_mem entry_mem)
    exact ⟨user, tray, entry, member, rfl, ⟨list, shown, entry_mem⟩, same⟩
  have held {key : String} {task : TaskId} (there : (key, task) ∈ world.scene.listed) :
      task ∈ holdings.flatMap Holding.tasks := by
    obtain ⟨user, tray, entry, member, _, listed, rfl⟩ := place there
    obtain ⟨holding, mem, entries⟩ := (comprises.lists_iff member).mp listed
    exact List.mem_flatMap.mpr ⟨holding, mem, Holding.task_mem_of_mem entries⟩
  have listed {user : UserId} {tray : Tray} {entry : Entry}
      (lists : world.store.Lists user tray entry) :
      (Key.tray user tray, entry.task) ∈ world.scene.listed := by
    obtain ⟨list, shown, mem⟩ := lists
    exact ⟨list, shown, List.mem_map_of_mem mem⟩
  constructor
  · refine ⟨rfl, rfl, comprises.unrepeated, ?_, ?_⟩
    · exact fun key task there => comprises.recorded task (held there)
    · intro key task there
      obtain ⟨user, tray, _, member, same, _⟩ := place there
      exact ⟨user, tray, member, same⟩
  · intro key other task here there
    obtain ⟨user, tray, entry, member, rfl, lists, rfl⟩ := place here
    obtain ⟨owner, spot, next, owner_member, rfl, next_lists, same⟩ := place there
    obtain ⟨rfl, rfl⟩ := paired.one_place user owner tray spot entry next member owner_member lists
      next_lists same.symm
    rfl
  · intro user tray list entry link member shown mem linked
    have lists : world.store.Lists user tray entry := ⟨list, shown, mem⟩
    obtain ⟨link_member, place, back⟩ := paired.exists_back member lists linked
    exact ⟨paired.link_task_ne member lists linked, link_member, place, listed back⟩
  · intro key task there
    obtain ⟨holding, mem, tasks⟩ := List.mem_flatMap.mp (held there)
    obtain ⟨n, _, rfl⟩ := (comprises.proper holding mem).generated task tasks
    exact fresh.named n
  · rintro n later ⟨bytes, content, shown, _⟩
    have absent := comprises.absent (around.newTaskId n)
      fun tasks => comprises.ne_fresh fresh tasks later rfl
    cases shown.symm.trans absent

end World

/-- Each operation leaves every entry its record, if it is undone or no write fails. -/
theorem Operation.backs {conditions : Conditions} {listed : Set (String × TaskId)}
    {recorded : Set TaskId} (policy : Policy) (operation : Operation)
    (fresh : conditions.around.Fresh)
    (consistent : world.Consistent community conditions.around listed recorded)
    (members : ∀ user ∈ operation.users, community.member user)
    (served : operation.isUndone = true ∨ ∀ key, conditions.barred key = false) :
    Attempt.Backs community conditions (operation.attempt policy) world := by
  have told {α β : Type} {attempt : Attempt α} (f : α → β)
      (backs : Attempt.Backs community conditions attempt world) :
      Attempt.Backs community conditions (attempt >>= fun a => pure (f a)) world := by
    rw [← map_eq_pure_bind]
    exact Attempt.Ensures.map backs
  cases operation with
  | add user message description origin =>
      have member := members user (by simp [users])
      exact told _ (Workflow.backs_add consistent member message description origin)
  | send sender receiver message description origin =>
      have sender_member := members sender (by simp [users])
      have receiver_member := members receiver (by simp [users])
      exact told _ (Workflow.backs_send fresh consistent sender_member receiver_member message
        description origin)
  | accept user task =>
      have member := members user (by simp [users])
      exact told _ (Workflow.backs_accept consistent member)
  | complete user task =>
      have member := members user (by simp [users])
      have free := served.resolve_left (by simp [isUndone])
      exact told _ (told _ (Workflow.backs_takeOut free consistent member .taskCompleted))
  | remove user task =>
      have member := members user (by simp [users])
      have free := served.resolve_left (by simp [isUndone])
      exact told _ (told _ (Workflow.backs_takeOut free consistent member .taskRemoved))
  | pop user =>
      have member := members user (by simp [users])
      have free := served.resolve_left (by simp [isUndone])
      exact told _ (Workflow.backs_pop free consistent member)
  | bump user task => exact told _ (Workflow.backs_bump consistent)
  | edit user task message description =>
      exact told _ (Workflow.backs_edit consistent message description)
  | assign user task assignee =>
      have member := members user (by simp [users])
      have assignee_member := members assignee (by simp [users])
      exact told _ (Workflow.backs_assign fresh consistent member assignee_member)

namespace World

open Conditions (calm)
open Scene (Comprises)

/-- Each operation of members leaves their trays the only ones with entries. -/
theorem enclosed_step (fresh : around.Fresh) (policy : Policy) {holdings : List Holding}
    (comprises : Comprises community around holdings world.scene)
    (enclosed : world.store.Enclosed community) (turn : Instant × Operation)
    (members : ∀ user ∈ turn.2.users, community.member user) :
    (world.step around policy turn).store.Enclosed community := by
  have consistent : Consistent community (calm around).around _ _ { world with clock := turn.1 } :=
    consistent_of_comprises fresh (comprises.at_clock turn.1) enclosed
  have backs := turn.2.backs policy fresh consistent members (.inr fun _ => rfl)
  have kept := Program.Ensures.holds_run backs (fun _ _ sequel => sequel.enclosed) enclosed
  rwa [Conditions.run_calm] at kept

theorem enclosed_steps (fresh : around.Fresh) (policy : Policy) (turns : List (Instant × Operation))
    (members : ∀ turn ∈ turns, ∀ user ∈ turn.2.users, community.member user) {world : World}
    {holdings : List Holding} (comprises : Comprises community around holdings world.scene)
    (enclosed : world.store.Enclosed community) :
    (world.steps around policy turns).store.Enclosed community := by
  induction turns generalizing world holdings with
  | nil => exact enclosed
  | cons turn turns induction =>
      have first := members turn List.mem_cons_self
      obtain ⟨changed, kept⟩ := exists_comprises_step fresh policy comprises turn first
      exact induction (fun later mem => members later (List.mem_cons_of_mem _ mem)) kept
        (enclosed_step fresh policy comprises enclosed turn first)

theorem enclosed_empty : Store.empty.Enclosed community := by
  intro key list shown nonempty
  rcases Store.read_of_cell_eq_entries shown with ⟨_, rfl⟩ | ⟨_, _, found, _⟩
  · exact absurd rfl nonempty
  · cases found

/-- In a world that has been reached an operation may begin. -/
theorem Reached.exists_consistent {policy : Policy} (fresh : around.Fresh)
    (reached : world.Reached community around policy) (clock : Instant) :
    ∃ listed recorded, Consistent community around listed recorded { world with clock } := by
  obtain ⟨holdings, comprises⟩ := reached.exists_comprises fresh
  obtain ⟨turns, first, issued, members, rfl⟩ := reached
  have enclosed := enclosed_steps fresh policy turns members (comprises_empty first issued)
    enclosed_empty
  exact ⟨_, _, consistent_of_comprises fresh (comprises.at_clock clock) enclosed⟩

/-- Wherever an operation is broken off, every entry has its record, and an entry that the next call
puts in points to a record on the other side, unless it has no link.  If writes to some keys fail,
this holds of the operations that are undone. -/
theorem Reached.backed_of_stopped {conditions : Conditions} {policy : Policy}
    (fresh : conditions.around.Fresh) (reached : world.Reached community conditions.around policy)
    (clock : Instant) (operation : Operation)
    (members : ∀ user ∈ operation.users, community.member user)
    (served : operation.isUndone = true ∨ ∀ key, conditions.barred key = false) (calls : Nat) :
    let stopped (calls : Nat) :=
      (conditions.stopAfter (operation.attempt policy).run calls { world with clock }).store
    (stopped calls).Backed ∧ (stopped calls).Pointed (stopped (calls + 1)) := by
  intro stopped
  obtain ⟨listed, recorded, consistent⟩ := reached.exists_consistent fresh clock
  have backs := operation.backs policy fresh consistent members served
  have begins := consistent.sound.store_backed
  refine ⟨Program.Ensures.holds_stopAfter backs (fun _ _ sequel => sequel.backed) begins calls, ?_⟩
  rcases Program.Ensures.step_stopAfter backs calls with same | sequel
  · rw [show stopped (calls + 1) = stopped calls from same]
    exact Store.pointed_refl _
  · exact sequel.pointed

/-- A task cannot be handed on, as a tray cannot be written.  The last call puts the entry of the
previous assignee back, which is linked to a record that has been there. -/
theorem Reached.backed_of_refused_assignment :
    let world := (World.mk .empty ⟨0⟩ 0).steps .strokes .standard
      [(⟨1⟩, .send "ann" "bob" "Call" "" none), (⟨2⟩, .accept "bob" "||")]
    let conditions : Conditions :=
      ⟨.strokes, fun key => key == Key.tray "cat" .received, fun _ => ⟨"down"⟩⟩
    let stopped (calls : Nat) := (conditions.stopAfter
      ((Operation.assign "ann" "|" "cat").attempt .standard).run calls
        { world with clock := ⟨3⟩ }).store
    (stopped 11).cell (Key.tray "bob" .owned) = .entries [] ∧
      (stopped 12).cell (Key.tray "bob" .owned) = .entries [.linked "||" "ann" "|"] ∧
      (stopped 11).Backed ∧ (stopped 11).Pointed (stopped 12) := by
  intro world conditions stopped
  have reached : world.Reached .plain .strokes .standard :=
    ⟨[(⟨1⟩, .send "ann" "bob" "Call" "" none), (⟨2⟩, .accept "bob" "||")], ⟨0⟩, 0,
      by simp [Operation.users, Community.plain, UserId.Plain], rfl⟩
  have members : ∀ user ∈ (Operation.assign "ann" "|" "cat").users,
      Community.plain.member user := by
    simp [Operation.users, Community.plain, UserId.Plain]
  have reached_there : world.Reached .plain conditions.around .standard := reached
  have backed := reached_there.backed_of_stopped Surroundings.fresh_strokes ⟨3⟩
    (.assign "ann" "|" "cat") members (.inl rfl) 11
  exact ⟨by decide +kernel, by decide +kernel, backed⟩

end World
end Handoff
