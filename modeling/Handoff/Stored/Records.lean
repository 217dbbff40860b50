import Handoff.Program.Attempt
import Handoff.Store.Key
import Handoff.Task.Encoding

/-!
# Stored task records

A record belongs to one user, and whoever saves it replaces it as a whole.
-/

namespace Handoff.Records

def save (task : Task) : Attempt Unit := Attempt.set (Key.record task.id) task.encode

def load (task : TaskId) : Attempt Task := do
  match ← Attempt.get (Key.record task) with
  | none => throw (.taskMissing task)
  | some bytes =>
    match Task.decode bytes with
    | .ok task => return task
    | .error cause => throw (.unreadableTask cause)

/-- Deletes a task.  Nothing happens if there is none. -/
def delete (task : TaskId) : Attempt Unit := Attempt.delete (Key.record task)

/-- Reads a task and deletes it.  A task that cannot be read is not deleted. -/
def take (task : TaskId) : Attempt Task := do
  let content ← load task
  delete task
  return content

end Handoff.Records
