import Handoff.Proofs.Stored.Moves
import Handoff.Workflow.Undo

/-!
# What undoing yields

A workflow is described by what it yields and by what it has noted by then.  Rolling back carries
out the noted actions, the latest first; each step that is noted right after it succeeded is undone
by the action that was noted.
-/

namespace Handoff

section
variable {conditions : Conditions} {before middle after : Scene}

namespace Undo

open Program (Leaves)

variable {budget : Nat} {noted : List Undo} {undo : Undo}

theorem leaves_rollBack_iff :
    Leaves conditions (rollBack budget noted) before after ↔
      Leaves conditions (applyEach budget noted.reverse) before after := by
  have same (world : World) : (conditions.run (rollBack budget noted) world).2.scene =
      (conditions.run (applyEach budget noted.reverse) world).2.scene := by
    rw [rollBack, Conditions.run_after]
    generalize conditions.run (applyEach budget noted.reverse) world = ran
    obtain ⟨failures, reached⟩ := ran
    by_cases none_failed : failures = 0
    · simp only [if_pos none_failed]
      rfl
    · simp only [if_neg none_failed]
      rfl
  simp only [Leaves, same]

theorem leaves_rollBack_nil : Leaves conditions (rollBack budget []) before before :=
  leaves_rollBack_iff.mpr fun _ seen => seen

/-- The action that was noted last is carried out first. -/
theorem leaves_rollBack_append (applied : Attempt.Yields conditions (undo.apply budget) before ()
    middle) (rest : Leaves conditions (rollBack budget noted) middle after) :
    Leaves conditions (rollBack budget (noted ++ [undo])) before after := by
  rw [leaves_rollBack_iff] at rest ⊢
  rw [List.reverse_append]
  exact Program.Yields.bind_leaves applied rest

theorem yields_apply_deleteRecord {task : TaskId}
    (free : conditions.barred (Key.record task) = false) :
    Attempt.Yields conditions ((Undo.deleteRecord task).apply budget) before ()
      (before.discard task) :=
  Records.yields_delete free

/-- A record that has been saved where none was can be deleted, and then all is as before. -/
theorem discard_save {task : Task} (absent : before.cells (Key.record task.id) = .value none) :
    (before.save task).discard task.id = before := by
  rw [Scene.discard, Scene.save, Scene.put_put, Scene.put_eq_self absent]

theorem yields_apply_takeOut {user : UserId} {tray : Tray} {entry : Entry}
    (free : conditions.barred (Key.tray user tray) = false)
    (removed : before.Removed user tray entry after) :
    Attempt.Yields conditions ((Undo.takeOut user tray entry.task).apply budget) before () after :=
  (Trays.yields_remove budget free removed).bind (Attempt.yields_pure ())

theorem yields_apply_putBack {user : UserId} {tray : Tray} {entry : Entry}
    (well : entry.WellLinked) (free : conditions.barred (Key.tray user tray) = false)
    (appended : before.Appended user tray entry after) :
    Attempt.Yields conditions ((Undo.putBack user tray entry).apply budget) before () after :=
  Trays.yields_append budget well free appended

end Undo

namespace Undoable

variable {α β : Type} {noted noting ended : List Undo}

/-- From the scene `before`, a workflow succeeds with a result, having noted `ended`, and leaves
the scene `after`. -/
def Yields (conditions : Conditions) (workflow : Undoable α) (noted : List Undo) (before : Scene)
    (result : α) (ended : List Undo) (after : Scene) : Prop :=
  Program.Yields conditions (workflow.run.run noted) before (.ok result, ended) after

/-- From the scene `before`, a workflow fails, having noted `ended`, and leaves the scene
`after`. -/
def Fails (conditions : Conditions) (workflow : Undoable α) (noted : List Undo) (before : Scene)
    (ended : List Undo) (after : Scene) : Prop :=
  ∀ world : World, world.scene = before → ∃ failure,
    (conditions.run (workflow.run.run noted) world).1 = (.error failure, ended) ∧
      (conditions.run (workflow.run.run noted) world).2.scene = after

theorem yields_pure (a : α) : Yields conditions (pure a) noted before a noted before :=
  Program.yields_pure _

theorem run_bind (first : Undoable α) (next : α → Undoable β) (noted : List Undo) (world : World) :
    conditions.run ((first >>= next).run.run noted) world =
      match conditions.run (first.run.run noted) world with
      | ((.ok a, noting), reached) => conditions.run ((next a).run.run noting) reached
      | ((.error failure, noting), reached) => ((.error failure, noting), reached) := by
  have split : conditions.run ((first >>= next).run.run noted) world =
      conditions.run ((ExceptT.bindCont next (conditions.run (first.run.run noted) world).1.1).run
        (conditions.run (first.run.run noted) world).1.2)
        (conditions.run (first.run.run noted) world).2 :=
    conditions.run_after (first.run.run noted)
      (fun ran => (ExceptT.bindCont next ran.1).run ran.2) world
  rw [split]
  rcases conditions.run (first.run.run noted) world with ⟨⟨_ | _, _⟩, _⟩ <;> rfl

theorem Yields.bind {first : Undoable α} {next : α → Undoable β} {a : α} {b : β}
    (ends : Yields conditions first noted before a noting middle)
    (goes : Yields conditions (next a) noting middle b ended after) :
    Yields conditions (first >>= next) noted before b ended after := by
  intro world seen
  obtain ⟨result, left⟩ := ends world seen
  rw [run_bind]
  rcases run : conditions.run (first.run.run noted) world with ⟨_, reached⟩
  rw [run] at result left
  subst result
  exact goes reached left

theorem Yields.bind_fails {first : Undoable α} {next : α → Undoable β} {a : α}
    (ends : Yields conditions first noted before a noting middle)
    (fails : Fails conditions (next a) noting middle ended after) :
    Fails conditions (first >>= next) noted before ended after := by
  intro world seen
  obtain ⟨result, left⟩ := ends world seen
  rw [run_bind]
  rcases run : conditions.run (first.run.run noted) world with ⟨_, reached⟩
  rw [run] at result left
  subst result
  exact fails reached left

theorem Fails.bind {first : Undoable α}
    (fails : Fails conditions first noted before ended after) (next : α → Undoable β) :
    Fails conditions (first >>= next) noted before ended after := by
  intro world seen
  obtain ⟨failure, result, left⟩ := fails world seen
  rw [run_bind]
  rcases run : conditions.run (first.run.run noted) world with ⟨_, reached⟩
  rw [run] at result left
  subst result
  exact ⟨failure, rfl, left⟩

theorem run_step (attempt : Attempt α) (noted : List Undo) (world : World) :
    conditions.run ((step attempt).run.run noted) world =
      (((conditions.run attempt.run world).1, noted), (conditions.run attempt.run world).2) :=
  conditions.run_after attempt.run (fun ran => pure (ran, noted)) world

theorem yields_step {attempt : Attempt α} {a : α}
    (ends : Attempt.Yields conditions attempt before a after) :
    Yields conditions (step attempt) noted before a noted after :=
  Program.Yields.bind ends (Program.yields_pure _)

theorem fails_step {attempt : Attempt α} (fails : Attempt.Fails conditions attempt before after) :
    Fails conditions (step attempt) noted before noted after := by
  intro world seen
  obtain ⟨failure, failed, left⟩ := fails world seen
  rw [run_step]
  exact ⟨failure, congrArg (·, noted) failed, left⟩

theorem yields_note (undo : Undo) :
    Yields conditions (note undo) noted before () (noted ++ [undo]) before :=
  Program.yields_pure _

theorem yields_settle {budget : Nat} {workflow : Undoable α} {a : α}
    (ends : Yields conditions workflow [] before a ended after) :
    Attempt.Yields conditions (settle budget workflow) before a after :=
  Program.Yields.bind ends ((Program.yields_note _).bind (Program.yields_pure _))

theorem fails_settle {budget : Nat} {workflow : Undoable α}
    (fails : Fails conditions workflow [] before ended middle)
    (undone : Program.Leaves conditions (Undo.rollBack budget ended) middle after) :
    Attempt.Fails conditions (settle budget workflow) before after := by
  intro world seen
  obtain ⟨failure, failed, left⟩ := fails world seen
  rw [settle, ExceptT.run_mk, Conditions.run_after, failed]
  simp only [Conditions.run_after]
  exact ⟨failure, rfl, undone _ left⟩

/-! ## Workflows that fail or succeed -/

variable {budget : Nat} {back : Scene → Prop} {undo : Undo}

/-- Rolling back the noted actions leaves a scene of the kind `back`. -/
def Recovers (conditions : Conditions) (budget : Nat) (noted : List Undo) (scene : Scene)
    (back : Scene → Prop) : Prop :=
  ∃ after, Program.Leaves conditions (Undo.rollBack budget noted) scene after ∧ back after

theorem recovers_nil (kind : back before) : Recovers conditions budget [] before back :=
  ⟨before, Undo.leaves_rollBack_nil, kind⟩

/-- The action that was noted last leads to where the earlier ones can be rolled back. -/
theorem Recovers.append (covered : Recovers conditions budget noted middle back)
    (applied : Attempt.Yields conditions (undo.apply budget) before () middle) :
    Recovers conditions budget (noted ++ [undo]) before back :=
  covered.imp fun _ recovered => recovered.imp_left (Undo.leaves_rollBack_append applied)

/-- The workflow fails and rolling back leaves a scene of the kind `back`, or it succeeds as
`good` tells. -/
def Settles (conditions : Conditions) (budget : Nat) (workflow : Undoable α) (noted : List Undo)
    (before : Scene) (back : Scene → Prop) (good : α → List Undo → Scene → Prop) : Prop :=
  (∃ ended middle, Fails conditions workflow noted before ended middle ∧
      Recovers conditions budget ended middle back) ∨
    ∃ a ended after, Yields conditions workflow noted before a ended after ∧ good a ended after

section
variable {good : β → List Undo → Scene → Prop}

theorem settles_pure {b : β} (reached : good b noted before) :
    Settles conditions budget (pure b) noted before back good :=
  .inr ⟨b, noted, before, yields_pure b, reached⟩

theorem Settles.bind {first : Undoable α} {next : α → Undoable β}
    (settles : Settles conditions budget first noted before back fun a noting middle =>
      Settles conditions budget (next a) noting middle back good) :
    Settles conditions budget (first >>= next) noted before back good := by
  rcases settles with ⟨ended, middle, fails, covered⟩ | ⟨a, noting, middle, ends, goes⟩
  · exact .inl ⟨ended, middle, fails.bind next, covered⟩
  · rcases goes with ⟨ended, left, fails, covered⟩ | ⟨b, ended, after, done, reached⟩
    · exact .inl ⟨ended, left, ends.bind_fails fails, covered⟩
    · exact .inr ⟨b, ended, after, ends.bind done, reached⟩

theorem Settles.mono {workflow : Undoable α} {first second : α → List Undo → Scene → Prop}
    (settles : Settles conditions budget workflow noted before back first)
    (follows : ∀ a ended after, first a ended after → second a ended after) :
    Settles conditions budget workflow noted before back second :=
  settles.imp_right fun ⟨a, ended, after, ends, reached⟩ =>
    ⟨a, ended, after, ends, follows a ended after reached⟩

theorem settles_step_bind {attempt : Attempt α} {next : α → Undoable β}
    (covered : Recovers conditions budget noted before back)
    (settles : Attempt.Fails conditions attempt before before ∨
      ∃ a after, Attempt.Yields conditions attempt before a after ∧
        Settles conditions budget (next a) noted after back good) :
    Settles conditions budget (step attempt >>= next) noted before back good := by
  rcases settles with fails | ⟨a, after, ends, goes⟩
  · exact .inl ⟨noted, before, (fails_step fails).bind next, covered⟩
  · exact Settles.bind (.inr ⟨a, noted, after, yields_step ends, goes⟩)

theorem Settles.after_step {attempt : Attempt α} {next : α → Undoable β} {a : α}
    (settles : Settles conditions budget (next a) noted after back good)
    (ends : Attempt.Yields conditions attempt before a after) :
    Settles conditions budget (step attempt >>= next) noted before back good :=
  Settles.bind (.inr ⟨a, noted, after, yields_step ends, settles⟩)

theorem Settles.after_note {next : Unit → Undoable β}
    (settles : Settles conditions budget (next ()) (noted ++ [undo]) before back good) :
    Settles conditions budget (note undo >>= next) noted before back good :=
  Settles.bind (.inr ⟨(), noted ++ [undo], before, yields_note undo, settles⟩)

/-- What is settled fails with a scene of the kind `back`, or succeeds as `good` tells. -/
theorem Settles.cases {workflow : Undoable β} {good : β → Scene → Prop}
    (settles : Settles conditions budget workflow [] before back fun b _ after => good b after) :
    (∃ after, Attempt.Fails conditions (settle budget workflow) before after ∧ back after) ∨
      ∃ b after, Attempt.Yields conditions (settle budget workflow) before b after ∧
        good b after := by
  rcases settles with ⟨ended, middle, fails, after, left, kind⟩ | ⟨b, ended, after, ends, reached⟩
  · exact .inl ⟨after, fails_settle fails left, kind⟩
  · exact .inr ⟨b, after, yields_settle ends, reached⟩

/-! ## Steps together with what undoes them -/

/-- A record is saved where none is stored, and it is noted that this is undone by deleting it. -/
theorem settles_save {task : Task} {next : Unit → Undoable β}
    (covered : Recovers conditions budget noted before back)
    (absent : before.cells (Key.record task.id) = .value none)
    (goes : conditions.barred (Key.record task.id) = false →
      Recovers conditions budget (noted ++ [.deleteRecord task.id]) (before.save task) back →
      Settles conditions budget (next ()) (noted ++ [.deleteRecord task.id]) (before.save task) back
        good) :
    Settles conditions budget
      (step (Records.save task) >>= fun _ => note (.deleteRecord task.id) >>= next)
      noted before back good := by
  refine settles_step_bind covered ((Records.save_cases ..).imp_right fun free => ?_)
  have deleted : Attempt.Yields conditions ((Undo.deleteRecord task.id).apply budget)
      (before.save task) () ((before.save task).discard task.id) :=
    Undo.yields_apply_deleteRecord free
  rw [Undo.discard_save absent] at deleted
  exact ⟨(), _, Records.yields_save free, .after_note (goes free (covered.append deleted))⟩

/-- An entry is appended, and it is noted that this is undone by taking it out. -/
theorem settles_append {user : UserId} {tray : Tray} {entry : Entry} {next : Unit → Undoable β}
    (well : entry.WellLinked) (covered : Recovers conditions budget noted before back)
    (goes : ∀ after, conditions.barred (Key.tray user tray) = false →
      before.Appended user tray entry after →
      Recovers conditions budget (noted ++ [.takeOut user tray entry.task]) after back →
      Settles conditions budget (next ()) (noted ++ [.takeOut user tray entry.task]) after back
        good) :
    Settles conditions budget
      (step (Trays.append budget user tray entry) >>= fun _ =>
        note (.takeOut user tray entry.task) >>= next)
      noted before back good := by
  refine settles_step_bind covered ((Trays.append_cases _ _ _ _ _ well).imp_right ?_)
  rintro ⟨free, after, appended, ends⟩
  exact ⟨(), after, ends, .after_note (goes after free appended (covered.append
    (Undo.yields_apply_takeOut free appended.removed)))⟩

end

end Undoable
end

end Handoff
