import Handoff.Proofs.Pairing.Runs

/-!
# Nothing is left of a finished task

A task that is sent, handed on and revised by members, and completed or removed at last, leaves
every tray and every record as it was before the task was sent.
-/

namespace Handoff

/-- A record name that is given out after the first ones. -/
def Surroundings.Later (around : Surroundings) (issued : Nat) (task : TaskId) : Prop :=
  ∃ n, issued ≤ n ∧ around.newTaskId n = task

namespace Operation

/-- Whether an operation hands a task on or revises it. -/
def carriesOn : Operation → Bool
  | .accept .. | .bump .. | .edit .. | .assign .. => true
  | .add .. | .send .. | .complete .. | .remove .. | .pop _ => false

theorem not_carriesOn_of_creates {operation : Operation} (creates : operation.creates = true) :
    ¬operation.carriesOn = true := by
  cases operation with
  | add | send => rintro ⟨⟩
  | accept | complete | remove | pop | bump | edit | assign => cases creates

/-- Whether an operation finishes a task that it names. -/
def finishes : Operation → Bool
  | .complete .. | .remove .. => true
  | .add .. | .send .. | .accept .. | .pop _ | .bump .. | .edit .. | .assign .. => false

end Operation

/-- Two stores with the same entries in the same trays and the same records. -/
structure Store.Alike (left right : Store) : Prop where
  trays : ∀ user tray, left.cell (Key.tray user tray) = right.cell (Key.tray user tray)
  records : ∀ task, left.get? (Key.record task) = right.get? (Key.record task)

theorem Store.alike_of_cell {left right : Store} (same : left.cell = right.cell) :
    left.Alike right := by
  refine ⟨fun user tray => congrFun same _, fun task => ?_⟩
  have cells := congrFun same (Key.record task)
  rw [cell_record, cell_record] at cells
  exact Cell.value.inj cells

namespace Scene

open Conditions (calm)

variable {community : Community} {around : Surroundings} {mine : TaskId → Bool}
  {old scene after : Scene} {holding : Holding}

/-- If some tasks had no share before and have none now, every cell is as it was. -/
theorem Holds.cells_eq (before : Holds community mine old Holding.gone.share old)
    (holds : Holds community mine old Holding.gone.share scene) : scene.cells = old.cells := by
  funext key
  by_cases known : ∃ user tray, community.member user ∧ key = Key.tray user tray
  · obtain ⟨user, tray, member, rfl⟩ := known
    obtain ⟨list, rest, shown, rest_shown, outside, inside⟩ := holds.trays user tray member
    obtain ⟨found, _, found_shown, _, _, old_inside⟩ := before.trays user tray member
    cases rest_shown.symm.trans found_shown
    rw [EntryList.filter_not_eq_self inside, EntryList.filter_not_eq_self old_inside] at outside
    rw [shown, rest_shown, outside]
  · by_cases ours : ∃ task, mine task = true ∧ key = Key.record task
    · obtain ⟨task, task_ours, rfl⟩ := ours
      rw [holds.absent task task_ours List.not_mem_nil,
        before.absent task task_ours List.not_mem_nil]
    · exact holds.others key (fun user tray member same => known ⟨user, tray, member, same⟩)
        fun task task_ours same => ours ⟨task, task_ours, same⟩

theorem Keeps.at_clock (keeps : Keeps community around mine old holding scene) (clock : Instant) :
    Keeps community around mine old holding { scene with clock } :=
  ⟨⟨keeps.holds.trays, keeps.holds.recorded, keeps.holds.absent, keeps.holds.others⟩, keeps.proper,
    keeps.ours, keeps.fresh_ours, keeps.unrepeated⟩

end Scene

namespace World

open Conditions (calm)
open Scene (Keeps)

variable {community : Community} {around : Surroundings} {mine : TaskId → Bool} {old : Scene}
  {world : World} {holding : Holding}

/-- A world that operations of members reach from an empty store. -/
def Reached (community : Community) (around : Surroundings) (policy : Policy) (world : World) :
    Prop :=
  ∃ turns clock issued, (∀ turn ∈ turns, ∀ user ∈ turn.2.users, community.member user) ∧
    world = steps around policy ⟨.empty, clock, issued⟩ turns

/-- A world that has been reached comprises tasks that are alone or shared. -/
theorem Reached.exists_comprises {policy : Policy} (fresh : around.Fresh)
    (reached : world.Reached community around policy) :
    ∃ holdings, Scene.Comprises community around holdings world.scene := by
  obtain ⟨turns, clock, issued, members, rfl⟩ := reached
  exact exists_comprises_steps fresh policy turns members (comprises_empty clock issued)

/-- One operation on a task keeps all other tasks. -/
theorem exists_keeps_step (fresh : around.Fresh) (policy : Policy)
    (keeps : Keeps community around mine old holding world.scene) (turn : Instant × Operation)
    (members : ∀ user ∈ turn.2.users, community.member user)
    (ours : ∀ task ∈ turn.2.task?, mine task = true)
    (creating : turn.2.creates = true → holding = .gone) (no_pop : ∀ user, turn.2 ≠ .pop user) :
    ∃ changed, Keeps community around mine old changed (world.step around policy turn).scene := by
  obtain ⟨changed, after, leaves, kept, _⟩ := (keeps.at_clock turn.1).advances fresh policy turn.2
    members ours creating fun user is_pop => absurd is_pop (no_pop user)
  have reached := leaves { world with clock := turn.1 } rfl
  rw [Conditions.run_calm] at reached
  exact ⟨changed, reached ▸ kept⟩

/-- Handing a task on and revising it keeps all other tasks. -/
theorem exists_keeps_steps (fresh : around.Fresh) (policy : Policy)
    (turns : List (Instant × Operation))
    (members : ∀ turn ∈ turns, ∀ user ∈ turn.2.users, community.member user)
    (carried : ∀ turn ∈ turns, turn.2.carriesOn = true)
    (ours : ∀ turn ∈ turns, ∀ task ∈ turn.2.task?, mine task = true) {world : World}
    {holding : Holding} (keeps : Keeps community around mine old holding world.scene) :
    ∃ changed, Keeps community around mine old changed (world.steps around policy turns).scene := by
  induction turns generalizing world holding with
  | nil => exact ⟨holding, keeps⟩
  | cons turn turns induction =>
      have carries := carried turn List.mem_cons_self
      obtain ⟨changed, kept⟩ := exists_keeps_step fresh policy keeps turn
        (members turn List.mem_cons_self) (ours turn List.mem_cons_self)
        (fun creates => absurd carries (Operation.not_carriesOn_of_creates creates))
        (fun user is_pop => by simp [is_pop, Operation.carriesOn] at carries)
      exact induction (fun later mem => members later (List.mem_cons_of_mem _ mem))
        (fun later mem => carried later (List.mem_cons_of_mem _ mem))
        (fun later mem => ours later (List.mem_cons_of_mem _ mem)) kept

/-- Finishing a task leaves all other tasks and nothing of this one. -/
theorem keeps_gone_of_finished (policy : Policy)
    (keeps : Keeps community around mine old holding world.scene) (operation : Operation)
    (finishes : operation.finishes = true)
    (members : ∀ user ∈ operation.users, community.member user)
    (ours : ∀ task ∈ operation.task?, mine task = true)
    (succeeded : ((operation.attempt policy).run.run around world).1 = .ok ()) :
    Keeps community around mine old .gone
      ((operation.attempt policy).run.run around world).2.scene := by
  rw [← Conditions.run_calm] at succeeded ⊢
  have gone {α : Type} {attempt : Attempt α}
      (ends : Scene.Finishes community around mine old attempt world.scene)
      (succeeded : ((calm around).run (attempt >>= fun _ => (pure () : Attempt Unit)).run
        world).1 = .ok ()) :
      Keeps community around mine old .gone
        ((calm around).run (attempt >>= fun _ => (pure () : Attempt Unit)).run world).2.scene := by
    rcases ends with fails | ⟨_, left, yields, kept, _⟩
    · obtain ⟨failure, failed, _⟩ := (fails.bind fun _ => (pure () : Attempt Unit)) world rfl
      cases failed.symm.trans succeeded
    · have forgotten : Attempt.Yields (calm around) (attempt >>= fun _ => pure ()) world.scene ()
          left := yields.bind (Attempt.yields_pure ())
      exact (forgotten world rfl).2 ▸ kept
  cases operation with
  | complete user task =>
      exact gone (keeps.complete (members user (by simp [Operation.users])) (ours task rfl) policy)
        succeeded
  | remove user task =>
      exact gone (keeps.remove (members user (by simp [Operation.users])) (ours task rfl) policy)
        succeeded
  | add | send | accept | pop | bump | edit | assign => cases finishes

theorem steps_append (around : Surroundings) (policy : Policy) (world : World)
    (turns : List (Instant × Operation)) (last : Instant × Operation) :
    world.steps around policy (turns ++ [last]) =
      (world.steps around policy turns).step around policy last := by
  simp [steps, List.foldl_append]

/-- A task that is sent, handed on or revised any number of times and finished at last leaves every
tray and every record as it was. -/
theorem alike_of_finished (fresh : around.Fresh) (policy : Policy) {before : World}
    (reached : before.Reached community around policy) (sending : Instant)
    (sender receiver : UserId) (message description : String) (origin : Option String)
    (turns : List (Instant × Operation)) (finishing : Instant) (last : Operation)
    (members : ∀ turn ∈ (sending, .send sender receiver message description origin) :: turns ++
      [(finishing, last)], ∀ user ∈ turn.2.users, community.member user)
    (carried : ∀ turn ∈ turns, turn.2.carriesOn = true) (finishes : last.finishes = true)
    (about : ∀ turn ∈ turns ++ [(finishing, last)], ∀ task ∈ turn.2.task?,
      around.Later before.issued task)
    (succeeded : ((last.attempt policy).run.run around
      { before.steps around policy
          ((sending, .send sender receiver message description origin) :: turns) with
        clock := finishing }).1 = .ok ()) :
    (before.steps around policy ((sending, .send sender receiver message description origin) ::
      turns ++ [(finishing, last)])).store.Alike before.store := by
  classical
  obtain ⟨holdings, comprises⟩ := reached.exists_comprises fresh
  let mine (task : TaskId) : Bool := decide (around.Later before.issued task)
  have others (task : TaskId) (held : task ∈ holdings.flatMap Holding.tasks) :
      mine task = false := by
    apply decide_eq_false
    rintro ⟨n, later, rfl⟩
    exact comprises.ne_fresh fresh held later rfl
  have start : Keeps community around mine before.scene .gone before.scene :=
    comprises.cons_gone.keeps (List.forall_mem_nil _) others
      fun n later => decide_eq_true ⟨n, later, rfl⟩
  obtain ⟨_, sent⟩ := exists_keeps_step fresh policy start
    (sending, .send sender receiver message description origin) (members _ (by simp))
    (by simp [Operation.task?]) (fun _ => rfl) (by simp)
  obtain ⟨_, kept⟩ := exists_keeps_steps fresh policy turns
    (fun turn mem => members turn (by simp [mem])) carried
    (fun turn mem task named => decide_eq_true (about turn (by simp [mem]) task named)) sent
  have gone := keeps_gone_of_finished policy (kept.at_clock finishing) last finishes
    (members (finishing, last) (by simp))
    (fun task named => decide_eq_true (about (finishing, last) (by simp) task named)) succeeded
  rw [steps_append]
  exact Store.alike_of_cell (start.holds.cells_eq gone.holds)

/-- Nothing is left of a task that was sent, taken back, sent to somebody else, accepted and
completed, while another task was waiting. -/
theorem alike_of_sent_and_completed :
    let before := (World.mk .empty ⟨0⟩ 0).steps .strokes .standard
      [(⟨1⟩, .add "carl" "Rest" "" none)]
    let turns : List (Instant × Operation) := [(⟨3⟩, .assign "ann" "||" "ann"),
      (⟨4⟩, .assign "ann" "||" "carl"), (⟨5⟩, .accept "carl" "||||")]
    (before.steps .strokes .standard ((⟨2⟩, .send "ann" "bob" "Call" "" none) ::
      turns ++ [(⟨6⟩, .complete "carl" "||||")])).store.Alike before.store := by
  intro before turns
  have reached : before.Reached .plain .strokes .standard :=
    ⟨[(⟨1⟩, .add "carl" "Rest" "" none)], ⟨0⟩, 0,
      by simp [Operation.users, Community.plain, UserId.Plain], rfl⟩
  have issued : before.issued = 1 := by decide +kernel
  have sent : Surroundings.strokes.Later before.issued "||" := ⟨1, issued.le, by decide⟩
  have sent_again : Surroundings.strokes.Later before.issued "||||" :=
    ⟨3, issued.le.trans (by decide), by decide⟩
  refine alike_of_finished Surroundings.fresh_strokes .standard reached ⟨2⟩ "ann" "bob" "Call" ""
    none turns ⟨6⟩ (.complete "carl" "||||") ?_ (by decide) rfl ?_ (by decide +kernel)
  · simp [turns, Operation.users, Community.plain, UserId.Plain]
  · simp [turns, Operation.task?, sent, sent_again]

end World
end Handoff
