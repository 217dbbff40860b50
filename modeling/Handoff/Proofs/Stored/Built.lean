import Handoff.Workflow.Undo

/-!
# Programs built from the operations on trays and records

A program is built from the operations on trays and records if it reaches the store through them
only.  All workflows are, so what such a program does is shown once: for each operation, and for one
program after another.
-/

namespace Handoff

/-- A program that reaches the store only through operations on trays and records. -/
inductive Program.Built : {α : Type} → Program α → Prop
  | pure {α : Type} (a : α) : Built (pure a : Program α)
  | bind {α β : Type} {p : Program α} {f : α → Program β} (first : Built p)
      (goes : ∀ a, Built (f a)) : Built (p >>= f)
  | newTaskId : Built (perform .newTaskId)
  | now : Built (perform .now)
  | nameOf (user : UserId) : Built (perform (.nameOf user))
  | note (event : Event) : Built (perform (.note event))
  | entries (user : UserId) (tray : Tray) : Built (Trays.entries user tray).run
  | append (budget : Nat) (user : UserId) (tray : Tray) (entry : Entry) :
      Built (Trays.append budget user tray entry).run
  | remove (budget : Nat) (user : UserId) (tray : Tray) (task : TaskId) :
      Built (Trays.remove budget user tray task).run
  | pop (budget : Nat) (user : UserId) (tray : Tray) : Built (Trays.pop budget user tray).run
  | bump (budget : Nat) (user : UserId) (tray : Tray) (task : TaskId) :
      Built (Trays.bump budget user tray task).run
  | load (task : TaskId) : Built (Records.load task).run
  | save (task : Task) : Built (Records.save task).run
  | delete (task : TaskId) : Built (Records.delete task).run

variable {α β : Type}

namespace Attempt

/-- An attempt that reaches the store only through operations on trays and records. -/
def Built (attempt : Attempt α) : Prop := Program.Built attempt.run

theorem built_pure (a : α) : Built (pure a) := Program.Built.pure _

theorem built_throw (failure : Failure) : Built (throw failure : Attempt α) := Program.Built.pure _

theorem Built.bind {first : Attempt α} {next : α → Attempt β} (begins : Built first)
    (goes : ∀ a, Built (next a)) : Built (first >>= next) := by
  refine Program.Built.bind begins fun result => ?_
  cases result with
  | ok a => exact goes a
  | error failure => exact built_throw failure

theorem built_lift {p : Program α} (built : p.Built) : Built (ExceptT.lift p) :=
  built.bind fun _ => .pure _

theorem built_note (event : Event) : Built (note event) := built_lift (.note event)

theorem built_newTaskId : Built newTaskId := built_lift .newTaskId

theorem built_now : Built now := built_lift .now

theorem Built.map {attempt : Attempt α} (built : Built attempt) (f : α → β) :
    Built (f <$> attempt) := by
  rw [← bind_pure_comp]
  exact built.bind fun a => built_pure (f a)

end Attempt

namespace Undo

theorem built_apply (budget : Nat) (undo : Undo) : Attempt.Built (undo.apply budget) := by
  cases undo with
  | deleteRecord task => exact .delete task
  | takeOut user tray task =>
      exact Attempt.Built.bind (.remove budget user tray task) fun _ => Attempt.built_pure ()
  | putBack user tray entry => exact .append budget user tray entry

theorem built_applyEach (budget : Nat) (undos : List Undo) : (applyEach budget undos).Built := by
  induction undos with
  | nil => exact .pure 0
  | cons undo rest induction =>
      refine Program.Built.bind (undo.built_apply budget) fun result => ?_
      cases result with
      | ok => exact induction
      | error failure =>
          exact .bind (.note .undoFailed) fun _ => induction.bind fun _ => .pure _

theorem built_rollBack (budget : Nat) (noted : List Undo) : (rollBack budget noted).Built := by
  refine (built_applyEach budget noted.reverse).bind fun failures => ?_
  dsimp only
  split
  · exact .bind (.note .undone) fun _ => .pure failures
  · exact .pure failures

end Undo

namespace Undoable

/-- A workflow that reaches the store only through operations on trays and records, whatever has
been noted before. -/
def Built (workflow : Undoable α) : Prop := ∀ noted, (workflow.run.run noted).Built

theorem built_pure (a : α) : Built (pure a) := fun _ => .pure _

theorem built_step {attempt : Attempt α} (built : attempt.Built) : Built (step attempt) :=
  fun _ => Program.Built.bind built fun _ => .pure _

theorem built_note (undo : Undo) : Built (note undo) := fun _ => .pure _

theorem Built.bind {first : Undoable α} {next : α → Undoable β} (begins : Built first)
    (goes : ∀ a, Built (next a)) : Built (first >>= next) := by
  refine fun noted => Program.Built.bind (begins noted) ?_
  rintro ⟨failure | a, later⟩
  · exact .pure _
  · exact goes a later

/-- A workflow that is undone if it fails is built from the same operations. -/
theorem built_settle {workflow : Undoable α} (budget : Nat) (built : Built workflow) :
    Attempt.Built (settle budget workflow) := by
  refine Program.Built.bind (built []) ?_
  rintro ⟨failure | a, noted⟩
  · refine .bind (.note .undoing) fun _ => ?_
    exact (Undo.built_rollBack budget noted).bind fun _ => .pure _
  · exact .bind (.note .committed) fun _ => .pure _

end Undoable
end Handoff
