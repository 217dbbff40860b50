import Handoff.Stored.Records
import Handoff.Stored.Trays

/-!
# Undoing

A workflow that writes several keys notes after each step what would undo it.  If a later step
fails, the noted actions are carried out, the latest first; one that fails does not keep the others
from being carried out, and the workflow ends with the failure that stopped it.
-/

namespace Handoff

/-- What undoes a step of a workflow. -/
inductive Undo
  /-- Deletes a record that was saved. -/
  | deleteRecord (task : TaskId)
  /-- Takes out an entry that was put in. -/
  | takeOut (user : UserId) (tray : Tray) (task : TaskId)
  /-- Puts back an entry that was taken out, at the end of its tray. -/
  | putBack (user : UserId) (tray : Tray) (entry : Entry)
deriving DecidableEq, Repr

namespace Undo

/-- Carries out an undo action. -/
def apply (budget : Nat) : Undo → Attempt Unit
  | .deleteRecord task => Records.delete task
  | .takeOut user tray task => do
    let _ ← Trays.remove budget user tray task
  | .putBack user tray entry => Trays.append budget user tray entry

/-- Carries out undo actions in order, and counts those that fail. -/
def applyEach (budget : Nat) : List Undo → Program Nat
  | [] => return 0
  | undo :: rest => do
    match ← (undo.apply budget).run with
    | .ok () => applyEach budget rest
    | .error _ =>
      Program.perform (.note .undoFailed)
      return (← applyEach budget rest) + 1

/-- Carries out the noted actions, the latest first, and counts those that fail. -/
def rollBack (budget : Nat) (noted : List Undo) : Program Nat := do
  let failures ← applyEach budget noted.reverse
  if failures = 0 then Program.perform (.note .undone)
  return failures

end Undo

/-- A workflow that notes how to undo its steps, in the order of the steps. -/
abbrev Undoable (α : Type) := ExceptT Failure (StateT (List Undo) Program) α

namespace Undoable

/-- A step that needs no undoing. -/
def step {α : Type} (attempt : Attempt α) : Undoable α :=
  ExceptT.mk (StateT.lift attempt.run)

/-- Notes what undoes the step before. -/
def note (undo : Undo) : Undoable Unit :=
  ExceptT.lift (modify fun noted => noted ++ [undo])

/-- A workflow that is undone if it fails. -/
def settle {α : Type} (budget : Nat) (workflow : Undoable α) : Attempt α := ExceptT.mk do
  match ← workflow.run.run [] with
  | (.ok result, _) =>
    Program.perform (.note .committed)
    return .ok result
  | (.error failure, noted) =>
    Program.perform (.note .undoing)
    let _ ← Undo.rollBack budget noted
    return .error failure

end Undoable
end Handoff
