import Handoff.Workflow.Accept
import Handoff.Workflow.Assign
import Handoff.Workflow.Bump
import Handoff.Workflow.Create
import Handoff.Workflow.Edit
import Handoff.Workflow.Finish

/-!
# Operations

An operation is one of the workflows that write, with its arguments.
-/

namespace Handoff

/-- A workflow that writes, with its arguments. -/
inductive Operation
  | add (user : UserId) (message description : String) (origin : Option String)
  | send (sender receiver : UserId) (message description : String) (origin : Option String)
  | accept (user : UserId) (task : TaskId)
  | complete (user : UserId) (task : TaskId)
  | remove (user : UserId) (task : TaskId)
  | pop (user : UserId)
  /-- Brings a sent task to the front of the receiver's tray. -/
  | bump (user : UserId) (task : TaskId)
  | edit (user : UserId) (task : TaskId) (message description : String)
  | assign (user : UserId) (task : TaskId) (assignee : UserId)
deriving DecidableEq, Repr

namespace Operation

/-- The workflow of an operation.  What it tells is left out. -/
def attempt (policy : Policy) : Operation → Attempt Unit
  | .add user message description origin => do
    let _ ← Workflow.add policy user message description origin
  | .send sender receiver message description origin => do
    let _ ← Workflow.send policy sender receiver message description origin
  | .accept user task => do
    let _ ← Workflow.accept policy user task
  | .complete user task => do
    let _ ← Workflow.complete policy user task
  | .remove user task => do
    let _ ← Workflow.remove policy user task
  | .pop user => do
    let _ ← Workflow.pop policy user
  | .bump user task => do
    let _ ← Workflow.bump policy user task
  | .edit user task message description => do
    let _ ← Workflow.edit user task message description
  | .assign user task assignee => do
    let _ ← Workflow.assign policy user task assignee

def users : Operation → List UserId
  | .add user .. | .accept user _ | .complete user _ | .remove user _ | .pop user | .bump user _
  | .edit user .. => [user]
  | .send sender receiver .. => [sender, receiver]
  | .assign user _ assignee => [user, assignee]

/-- The record that is named among the arguments. -/
def task? : Operation → Option TaskId
  | .add .. | .send .. | .pop _ => none
  | .accept _ task | .complete _ task | .remove _ task | .bump _ task | .edit _ task ..
  | .assign _ task _ => some task

/-- Whether an operation makes a new task. -/
def creates : Operation → Bool
  | .add .. | .send .. => true
  | .accept .. | .complete .. | .remove .. | .pop _ | .bump .. | .edit .. | .assign .. => false

/-- Whether an operation undoes its steps if it fails. -/
def isUndone : Operation → Bool
  | .add .. | .send .. | .accept .. | .assign .. => true
  | .complete .. | .remove .. | .pop _ | .bump .. | .edit .. => false

end Operation
end Handoff
