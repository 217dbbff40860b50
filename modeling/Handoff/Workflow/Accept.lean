import Handoff.Workflow.Policy
import Handoff.Workflow.Undo

/-!
# Accepting tasks

Accepting moves an entry from the received tray to the owned tray of the same user.  Its link stays.
-/

namespace Handoff

/-- What is told about an accepted task. -/
structure Acceptance where
  /-- The message of the task. -/
  message : String
  /-- Who sent it. -/
  partner : Option UserId
deriving DecidableEq, Repr

namespace Workflow

/-- Moves an entry from the received tray to the owned tray. -/
def moveToOwned (policy : Policy) (user : UserId) (entry : Entry) : Undoable Unit := do
  Undoable.step (Trays.append policy.budget user .owned entry)
  Undoable.note (.takeOut user .owned entry.task)
  let _ ← Undoable.step (Trays.remove policy.budget user .received entry.task)

/-- Accepts a task that the user has received. -/
def accept (policy : Policy) (user : UserId) (task : TaskId) : Attempt Acceptance := do
  match ← Trays.find? user .received task with
  | none => throw (.notReceived task user)
  | some (entry, _) =>
    let content ← Records.load task
    Undoable.settle policy.budget (moveToOwned policy user entry)
    Attempt.note .taskAccepted
    return ⟨content.message, entry.partner⟩

end Workflow
end Handoff
