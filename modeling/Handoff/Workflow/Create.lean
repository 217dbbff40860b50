import Handoff.Workflow.Policy
import Handoff.Workflow.Undo

/-!
# Adding and sending tasks

A record is saved before any entry names it.  A sent task has two records and two entries, each of
which is linked to the other side.
-/

namespace Handoff

/-- The two records of a task that has been sent. -/
structure Dispatch where
  /-- The sender's record. -/
  senderTask : TaskId
  /-- The receiver's record. -/
  receiverTask : TaskId
deriving DecidableEq, Repr

namespace Workflow

/-- Adds a task to the user's owned tray. -/
def add (policy : Policy) (user : UserId) (message description : String) (origin : Option String) :
    Attempt Task :=
  Undoable.settle policy.budget do
    let id ← Undoable.step Attempt.newTaskId
    let now ← Undoable.step Attempt.now
    let task := Task.create id now message description origin
    Undoable.step (Records.save task)
    Undoable.note (.deleteRecord task.id)
    Undoable.step (Trays.append policy.budget user .owned (.unlinked task.id))
    Undoable.step (Attempt.note .taskAdded)
    return task

/-- Sends a new task to another user. -/
def send (policy : Policy) (sender receiver : UserId) (message description : String)
    (origin : Option String) : Attempt Dispatch :=
  Undoable.settle policy.budget do
    let id ← Undoable.step Attempt.newTaskId
    let now ← Undoable.step Attempt.now
    let senderTask := Task.create id now message description origin
    let copyId ← Undoable.step Attempt.newTaskId
    let copyNow ← Undoable.step Attempt.now
    let receiverTask := senderTask.copy copyId copyNow
    Undoable.step (Records.save senderTask)
    Undoable.note (.deleteRecord senderTask.id)
    Undoable.step (Records.save receiverTask)
    Undoable.note (.deleteRecord receiverTask.id)
    Undoable.step (Trays.append policy.budget sender .sent
      (.linked senderTask.id receiver receiverTask.id))
    Undoable.note (.takeOut sender .sent senderTask.id)
    Undoable.step (Trays.append policy.budget receiver .received
      (.linked receiverTask.id sender senderTask.id))
    Undoable.step (Attempt.note .taskSent)
    return ⟨senderTask.id, receiverTask.id⟩

end Workflow
end Handoff
