import Handoff.Proofs.Pairing.Assigning
import Handoff.Proofs.Workflow.Operation

/-!
# Runs

Operations are carried out one after another, each at its own time.  At any time the trays of the
members consist of the entries of tasks that are held by one or two users, and the records are those
of these tasks.
-/

namespace Handoff

namespace World

def step (around : Surroundings) (policy : Policy) (world : World) (turn : Instant × Operation) :
    World :=
  ((turn.2.attempt policy).run.run around { world with clock := turn.1 }).2

/-- Carries out operations one after another. -/
def steps (around : Surroundings) (policy : Policy) (world : World)
    (turns : List (Instant × Operation)) : World :=
  turns.foldl (step around policy) world

end World

namespace Scene

open Conditions (calm)

variable {community : Community} {around : Surroundings} {mine : TaskId → Bool}
  {old scene after : Scene} {holding : Holding} {user : UserId} {task : TaskId}

theorem Advances.forget {α : Type} {attempt : Attempt α}
    (advances : Advances community around mine old attempt.run scene) :
    Advances community around mine old (attempt >>= fun _ => (pure () : Attempt Unit)).run
      scene := by
  obtain ⟨changed, after, leaves, kept, later⟩ := advances
  exact ⟨changed, after, Attempt.leaves_forget leaves, kept, later⟩

theorem Finishes.advances {α : Type} {attempt : Attempt α}
    (finishes : Finishes community around mine old attempt scene)
    (keeps : Keeps community around mine old holding scene) :
    Advances community around mine old attempt.run scene := by
  rcases finishes with fails | ⟨_, after, ends, kept, same⟩
  · exact keeps.stays fails
  · exact ⟨.gone, after, ends.leaves, kept, same.ge⟩

/-- Each operation leaves the task held in some way.  An operation that makes a new task is about a
task that was not held before. -/
theorem Keeps.advances (fresh : around.Fresh) (policy : Policy)
    (keeps : Keeps community around mine old holding scene) (operation : Operation)
    (members : ∀ user ∈ operation.users, community.member user)
    (ours : ∀ task ∈ operation.task?, mine task = true)
    (creating : operation.creates = true → holding = .gone)
    (popping : ∀ user, operation = .pop user → ∀ entry rest,
      scene.cells (Key.tray user .owned) = .entries (entry :: rest) → mine entry.task = true) :
    Advances community around mine old (operation.attempt policy).run scene := by
  cases operation with
  | add user message description origin =>
      obtain rfl := creating rfl
      exact (keeps.add fresh (members user (by simp [Operation.users])) policy message description
        origin).forget
  | send sender receiver message description origin =>
      obtain rfl := creating rfl
      exact (keeps.send fresh (members sender (by simp [Operation.users]))
        (members receiver (by simp [Operation.users])) policy message description origin).forget
  | accept user task =>
      exact (keeps.accept (members user (by simp [Operation.users])) (ours task rfl) policy).forget
  | complete user task =>
      exact ((keeps.complete (members user (by simp [Operation.users])) (ours task rfl)
        policy).advances keeps).forget
  | remove user task =>
      exact ((keeps.remove (members user (by simp [Operation.users])) (ours task rfl)
        policy).advances keeps).forget
  | pop user =>
      exact ((keeps.pop (members user (by simp [Operation.users])) policy
        (popping user rfl)).advances keeps).forget
  | bump user task =>
      exact (keeps.bump (members user (by simp [Operation.users])) (ours task rfl) policy).forget
  | edit user task message description =>
      exact (keeps.edit (members user (by simp [Operation.users])) (ours task rfl) message
        description).forget
  | assign user task assignee =>
      exact (keeps.assign fresh (members user (by simp [Operation.users]))
        (members assignee (by simp [Operation.users])) (ours task rfl) policy).forget

/-! ## All tasks together -/

/-- The trays of the members consist of the entries of some holdings, and the records are those of
the holdings. -/
structure Comprises (community : Community) (around : Surroundings) (holdings : List Holding)
    (scene : Scene) : Prop where
  trays : ∀ user tray, community.member user → ∃ list,
    scene.cells (Key.tray user tray) = .entries list ∧
      list.Perm (holdings.flatMap fun holding => holding.entries user tray)
  proper : ∀ holding ∈ holdings, holding.Proper community around scene.issued
  distinct : (holdings.flatMap Holding.tasks).Nodup
  recorded : ∀ task ∈ holdings.flatMap Holding.tasks, scene.Recorded task
  absent : ∀ task, task ∉ holdings.flatMap Holding.tasks →
    scene.cells (Key.record task) = .value none
  unrepeated : scene.Unrepeated

variable {holdings rest : List Holding}

theorem Comprises.perm {others : List Holding}
    (comprises : Comprises community around holdings scene) (same : holdings.Perm others) :
    Comprises community around others scene := by
  have tasks := same.flatMap_right Holding.tasks
  refine ⟨fun user tray member => ?_,
    fun holding mem => comprises.proper holding (same.mem_iff.mpr mem),
    tasks.nodup_iff.mp comprises.distinct,
    fun task mem => comprises.recorded task (tasks.mem_iff.mpr mem),
    fun task missing => comprises.absent task fun mem => missing (tasks.mem_iff.mp mem),
    comprises.unrepeated⟩
  obtain ⟨list, shown, perm⟩ := comprises.trays user tray member
  exact ⟨list, shown, perm.trans (same.flatMap_right _)⟩

theorem Comprises.cons_gone (comprises : Comprises community around holdings scene) :
    Comprises community around (.gone :: holdings) scene where
  trays := comprises.trays
  proper := by
    intro holding mem
    rcases List.mem_cons.mp mem with rfl | old
    · exact Holding.proper_gone
    · exact comprises.proper holding old
  distinct := comprises.distinct
  recorded := comprises.recorded
  absent := comprises.absent
  unrepeated := comprises.unrepeated

/-- A record belongs to the first of the holdings or to none of them. -/
theorem Comprises.exists_first (comprises : Comprises community around holdings scene)
    (task : TaskId) : ∃ holding rest, Comprises community around (holding :: rest) scene ∧
      task ∉ rest.flatMap Holding.tasks := by
  by_cases held : task ∈ holdings.flatMap Holding.tasks
  · obtain ⟨holding, mem, here⟩ := List.mem_flatMap.mp held
    obtain ⟨left, right, rfl⟩ := List.append_of_mem mem
    have first := comprises.perm List.perm_middle
    refine ⟨holding, left ++ right, first, fun again => ?_⟩
    have distinct := first.distinct
    rw [List.flatMap_cons, List.nodup_append] at distinct
    exact distinct.2.2 task here task again rfl
  · exact ⟨.gone, holdings, comprises.cons_gone, held⟩

theorem eq_of_perm_of_length_le_one {list others : List Entry} (same : list.Perm others)
    (few : others.length ≤ 1) : list = others := by
  match others, few with
  | [], _ => exact same.eq_nil
  | [_], _ => exact same.eq_singleton

theorem task_mem_flatMap {tray : Tray} {entry : Entry}
    (mem : entry ∈ holdings.flatMap fun holding => holding.entries user tray) :
    entry.task ∈ holdings.flatMap Holding.tasks := by
  obtain ⟨holding, held, here⟩ := List.mem_flatMap.mp mem
  exact List.mem_flatMap.mpr ⟨holding, held, Holding.task_mem_of_mem here⟩

theorem Comprises.keeps (comprises : Comprises community around (holding :: rest) scene)
    (ours : ∀ task ∈ holding.tasks, mine task = true)
    (others : ∀ task ∈ rest.flatMap Holding.tasks, mine task = false)
    (fresh_ours : ∀ n, scene.issued ≤ n → mine (around.newTaskId n) = true) :
    Keeps community around mine scene holding scene := by
  refine ⟨⟨fun user tray member => ?_, fun task _ stored => comprises.recorded task ?_,
    fun task task_ours missing => comprises.absent task ?_, fun _ _ _ => rfl⟩,
    comprises.proper holding List.mem_cons_self, ours, fresh_ours, comprises.unrepeated⟩
  · obtain ⟨list, shown, perm⟩ := comprises.trays user tray member
    refine ⟨list, list, shown, shown, rfl, ?_⟩
    have kept : (holding.entries user tray).filter (mine ·.task) = holding.entries user tray :=
      List.filter_eq_self.mpr fun entry held => ours _ (Holding.task_mem_of_mem held)
    have dropped :
        (rest.flatMap fun other => other.entries user tray).filter (mine ·.task) = [] :=
      List.filter_eq_nil_iff.mpr fun entry mem => by simp [others _ (task_mem_flatMap mem)]
    have filtered := perm.filter (mine ·.task)
    rw [List.flatMap_cons, List.filter_append, kept, dropped, List.append_nil] at filtered
    exact eq_of_perm_of_length_le_one filtered (holding.few_share user tray)
  · exact List.mem_flatMap.mpr ⟨holding, List.mem_cons_self, stored⟩
  · rw [List.flatMap_cons, List.mem_append]
    rintro (held | held)
    · exact missing held
    · cases task_ours.symm.trans (others task held)

theorem Holds.record_eq {share : Share} (holds : Holds community mine old share scene)
    (theirs : mine task = false) :
    scene.cells (Key.record task) = old.cells (Key.record task) := by
  refine holds.others _ (fun user tray _ => Key.record_ne_tray task user tray) ?_
  intro other ours same
  rw [Key.record_injective same, ours] at theirs
  cases theirs

/-- The entries of a tray are those of the changed holding and of the others. -/
theorem Comprises.replace_tray {changed : Holding} {tray : Tray}
    (comprises : Comprises community around (holding :: rest) scene)
    (ours : ∀ task ∈ holding.tasks, mine task = true)
    (others : ∀ task ∈ rest.flatMap Holding.tasks, mine task = false)
    (holds : Holds community mine scene changed.share after) (member : community.member user) :
    ∃ list, after.cells (Key.tray user tray) = .entries list ∧
      list.Perm ((changed :: rest).flatMap fun holding => holding.entries user tray) := by
  obtain ⟨list, before, shown, before_shown, outside, inside⟩ := holds.trays user tray member
  obtain ⟨found, found_shown, perm⟩ := comprises.trays user tray member
  cases before_shown.symm.trans found_shown
  have dropped : (holding.entries user tray).filter (!mine ·.task) = [] :=
    List.filter_eq_nil_iff.mpr fun entry held => by simp [ours _ (Holding.task_mem_of_mem held)]
  have kept : (rest.flatMap fun other => other.entries user tray).filter (!mine ·.task) =
      rest.flatMap fun other => other.entries user tray :=
    List.filter_eq_self.mpr fun entry mem => by simp [others _ (task_mem_flatMap mem)]
  have remaining : (list.filter (!mine ·.task)).Perm
      (rest.flatMap fun other => other.entries user tray) := by
    have filtered := perm.filter (!mine ·.task)
    rwa [List.flatMap_cons, List.filter_append, dropped, kept, List.nil_append, ← outside]
      at filtered
  have parts := (List.filter_append_perm (mine ·.task) list).symm
  rw [inside] at parts
  refine ⟨list, shown, ?_⟩
  rw [List.flatMap_cons]
  exact parts.trans (remaining.append_left _)

/-- Changing how the first task is held leaves the other holdings. -/
theorem Comprises.replace {changed : Holding}
    (comprises : Comprises community around (holding :: rest) scene)
    (ours : ∀ task ∈ holding.tasks, mine task = true)
    (others : ∀ task ∈ rest.flatMap Holding.tasks, mine task = false)
    (keeps : Keeps community around mine scene changed after)
    (later : scene.issued ≤ after.issued) :
    Comprises community around (changed :: rest) after := by
  refine ⟨fun user tray member => comprises.replace_tray ours others keeps.holds member,
    fun held mem => ?_, ?_, fun task mem => ?_, fun task missing => ?_,
    keeps.holds.unrepeated comprises.unrepeated changed.few_share⟩
  · rcases List.mem_cons.mp mem with rfl | old
    · exact keeps.proper
    · exact (comprises.proper held (List.mem_cons_of_mem _ old)).mono later
  · have distinct := comprises.distinct
    rw [List.flatMap_cons, List.nodup_append] at distinct ⊢
    refine ⟨keeps.proper.distinct, distinct.2.1, ?_⟩
    rintro task held other other_held rfl
    cases (keeps.ours task held).symm.trans (others task other_held)
  · rw [List.flatMap_cons, List.mem_append] at mem
    rcases mem with held | held
    · exact keeps.holds.recorded task (keeps.ours task held) held
    · have listed : task ∈ (holding :: rest).flatMap Holding.tasks := by
        rw [List.flatMap_cons, List.mem_append]
        exact .inr held
      obtain ⟨bytes, content, found, decoded, own⟩ := comprises.recorded task listed
      exact ⟨bytes, content, (keeps.holds.record_eq (others task held)).trans found, decoded, own⟩
  · rw [List.flatMap_cons, List.mem_append] at missing
    cases theirs : mine task with
    | true => exact keeps.holds.absent task theirs fun held => missing (.inl held)
    | false =>
        rw [keeps.holds.record_eq theirs]
        refine comprises.absent task fun listed => ?_
        rw [List.flatMap_cons, List.mem_append] at listed
        rcases listed with held | held
        · cases (ours task held).symm.trans theirs
        · exact missing (.inr held)

theorem Comprises.ne_fresh (fresh : around.Fresh)
    (comprises : Comprises community around holdings scene)
    (held : task ∈ holdings.flatMap Holding.tasks) {n : Nat} (later : scene.issued ≤ n) :
    around.newTaskId n ≠ task := by
  obtain ⟨holding, mem, here⟩ := List.mem_flatMap.mp held
  obtain ⟨m, earlier, rfl⟩ := (comprises.proper holding mem).generated task here
  exact fun same => absurd (fresh.injective same) (by omega)

/-- The first holding and a task that the others lack, together with the tasks that are still to be
named, are kept apart from the others. -/
theorem Comprises.exists_keeps (fresh : around.Fresh)
    (comprises : Comprises community around (holding :: rest) scene) {target : TaskId}
    (apart : target ∉ rest.flatMap Holding.tasks) :
    ∃ mine : TaskId → Bool, mine target = true ∧
      (∀ task ∈ rest.flatMap Holding.tasks, mine task = false) ∧
        Keeps community around mine scene holding scene := by
  classical
  let mine (task : TaskId) : Bool := decide (task ∈ holding.tasks ∨ task = target ∨
    ∃ n, scene.issued ≤ n ∧ around.newTaskId n = task)
  have others (task : TaskId) (theirs : task ∈ rest.flatMap Holding.tasks) : mine task = false := by
    apply decide_eq_false
    rintro (held | rfl | ⟨n, later, rfl⟩)
    · have distinct := comprises.distinct
      rw [List.flatMap_cons, List.nodup_append] at distinct
      exact distinct.2.2 task held task theirs rfl
    · exact apart theirs
    · refine comprises.ne_fresh fresh ?_ later rfl
      rw [List.flatMap_cons, List.mem_append]
      exact .inr theirs
  exact ⟨mine, decide_eq_true (.inr (.inl rfl)), others,
    comprises.keeps (fun task held => decide_eq_true (.inl held)) others
      fun n later => decide_eq_true (.inr (.inr ⟨n, later, rfl⟩))⟩

/-- An operation about the first holding changes this holding only. -/
theorem Comprises.advances (fresh : around.Fresh) (policy : Policy) {operation : Operation}
    (comprises : Comprises community around (holding :: rest) scene)
    (members : ∀ user ∈ operation.users, community.member user) {target : TaskId}
    (apart : target ∉ rest.flatMap Holding.tasks)
    (targets : ∀ task ∈ operation.task?, task = target)
    (creating : operation.creates = true → holding = .gone)
    (popping : ∀ user, operation = .pop user → ∀ entry rest,
      scene.cells (Key.tray user .owned) = .entries (entry :: rest) → entry.task = target) :
    ∃ changed after, Program.Leaves (calm around) (operation.attempt policy).run scene after ∧
      Comprises community around (changed :: rest) after := by
  obtain ⟨mine, target_ours, others, keeps⟩ := comprises.exists_keeps fresh apart
  obtain ⟨changed, after, leaves, kept, later⟩ := keeps.advances fresh policy operation members
    (fun task named => targets task named ▸ target_ours) creating
    fun user is_pop entry rest shown => popping user is_pop entry rest shown ▸ target_ours
  exact ⟨changed, after, leaves, comprises.replace keeps.ours others kept later⟩

/-- An operation that makes no new task is about one record at most. -/
theorem exists_target (scene : Scene) (operation : Operation) (makes : operation.creates = false) :
    ∃ target, (∀ task ∈ operation.task?, task = target) ∧
      ∀ user, operation = .pop user → ∀ entry rest,
        scene.cells (Key.tray user .owned) = .entries (entry :: rest) → entry.task = target := by
  cases operation with
  | add | send => cases makes
  | accept _ task | complete _ task | remove _ task | bump _ task | edit _ task | assign _ task =>
      refine ⟨task, fun _ named => (Option.some.inj named).symm, fun _ is_pop => ?_⟩
      cases is_pop
  | pop user =>
      have no_task (target : TaskId) : ∀ task ∈ (Operation.pop user).task?, task = target := by
        simp [Operation.task?]
      cases shown : scene.cells (Key.tray user .owned) with
      | value value =>
          refine ⟨"", no_task _, fun other is_pop entry rest found => ?_⟩
          cases is_pop
          cases shown.symm.trans found
      | entries list =>
          refine ⟨(list.head?.map Entry.task).getD "", no_task _,
            fun other is_pop entry rest found => ?_⟩
          cases is_pop
          cases shown.symm.trans found
          rfl

/-- After each operation of members, the scene comprises some holdings. -/
theorem Comprises.step (fresh : around.Fresh) (policy : Policy)
    (comprises : Comprises community around holdings scene) (operation : Operation)
    (members : ∀ user ∈ operation.users, community.member user) :
    ∃ changed after, Program.Leaves (calm around) (operation.attempt policy).run scene after ∧
      Comprises community around changed after := by
  by_cases creates : operation.creates = true
  · have apart : around.newTaskId scene.issued ∉ holdings.flatMap Holding.tasks :=
      fun held => comprises.ne_fresh fresh held le_rfl rfl
    obtain ⟨changed, after, leaves, kept⟩ := comprises.cons_gone.advances fresh policy members apart
      (by cases operation <;> simp_all [Operation.creates, Operation.task?]) (fun _ => rfl)
      (by cases operation <;> simp_all [Operation.creates])
    exact ⟨_, after, leaves, kept⟩
  · obtain ⟨target, targets, popping⟩ :=
      exists_target scene operation (Bool.eq_false_iff.mpr creates)
    obtain ⟨holding, rest, first, apart⟩ := comprises.exists_first target
    obtain ⟨changed, after, leaves, kept⟩ := first.advances fresh policy members apart targets
      (fun creating => absurd creating creates) popping
    exact ⟨_, after, leaves, kept⟩

theorem Comprises.at_clock (comprises : Comprises community around holdings scene)
    (clock : Instant) : Comprises community around holdings { scene with clock } :=
  ⟨comprises.trays, comprises.proper, comprises.distinct, comprises.recorded, comprises.absent,
    comprises.unrepeated⟩

end Scene

namespace World

open Scene (Comprises)

variable {community : Community} {around : Surroundings} {world : World}

/-- A world comprises some holdings after each operation of members. -/
theorem exists_comprises_step (fresh : around.Fresh) (policy : Policy) {holdings : List Holding}
    (comprises : Comprises community around holdings world.scene) (turn : Instant × Operation)
    (members : ∀ user ∈ turn.2.users, community.member user) :
    ∃ changed, Comprises community around changed (world.step around policy turn).scene := by
  obtain ⟨changed, after, leaves, kept⟩ :=
    (comprises.at_clock turn.1).step fresh policy turn.2 members
  have reached := leaves { world with clock := turn.1 } rfl
  rw [Conditions.run_calm] at reached
  exact ⟨changed, reached ▸ kept⟩

/-- A world comprises some holdings after any operations of members. -/
theorem exists_comprises_steps (fresh : around.Fresh) (policy : Policy)
    (turns : List (Instant × Operation))
    (members : ∀ turn ∈ turns, ∀ user ∈ turn.2.users, community.member user) {world : World}
    {holdings : List Holding} (comprises : Comprises community around holdings world.scene) :
    ∃ changed, Comprises community around changed (world.steps around policy turns).scene := by
  induction turns generalizing world holdings with
  | nil => exact ⟨holdings, comprises⟩
  | cons turn turns induction =>
      obtain ⟨changed, kept⟩ := exists_comprises_step fresh policy comprises turn
        (members turn List.mem_cons_self)
      exact induction (fun later mem => members later (List.mem_cons_of_mem _ mem)) kept

theorem comprises_empty (clock : Instant) (issued : Nat) :
    Comprises community around [] (World.scene ⟨.empty, clock, issued⟩) := by
  have tray_empty (user : UserId) (tray : Tray) :
      Store.empty.cell (Key.tray user tray) = .entries [] := by
    simp [Store.cell]
  refine ⟨fun user tray _ => ⟨[], tray_empty user tray, .nil⟩, List.forall_mem_nil _,
    List.nodup_nil, List.forall_mem_nil _,
    fun task _ => Store.empty.cell_record task, fun key list shown => ?_⟩
  rcases Store.read_of_cell_eq_entries shown with ⟨_, rfl⟩ | ⟨_, _, found, _⟩
  · exact List.nodup_nil
  · cases found

end World
end Handoff
