import Handoff.Proofs.Pool.Basic
import Handoff.Proofs.Workflow.Built
import Handoff.Proofs.Workflow.Operation

/-!
# Requests

A request is anything that can be asked of the workflows or of the trays, with its arguments.  The
reply is all that is told.
-/

namespace Handoff

/-- What is told about a request that succeeds. -/
inductive Reply
  | added (task : Task)
  | sent (dispatch : Dispatch)
  | accepted (acceptance : Acceptance)
  | completed (completion : Completion)
  | removed (removal : Removal)
  | bumped (promotion : Promotion)
  | edited (revision : Revision)
  | assigned (assignment : Assignment)
  | shown (views : List TaskView)
  | counted (tally : Tally)
  | named (name : String)
  /-- A tray has been changed, and an entry may have been taken out. -/
  | changed (entry : Option Entry)
  | listed (entries : List Entry)
  | found (entry : Option (Entry × Nat))
  | located (located : Option Located)
deriving DecidableEq

/-- The workflow of an operation, with what it tells. -/
def Operation.reply (policy : Policy) : Operation → Attempt Reply
  | .add user message description origin =>
    .added <$> Workflow.add policy user message description origin
  | .send sender receiver message description origin =>
    .sent <$> Workflow.send policy sender receiver message description origin
  | .accept user task => .accepted <$> Workflow.accept policy user task
  | .complete user task => .completed <$> Workflow.complete policy user task
  | .remove user task => .removed <$> Workflow.remove policy user task
  | .pop user => .completed <$> Workflow.pop policy user
  | .bump user task => .bumped <$> Workflow.bump policy user task
  | .edit user task message description => .edited <$> Workflow.edit user task message description
  | .assign user task assignee => .assigned <$> Workflow.assign policy user task assignee

theorem Operation.attempt_eq_reply (policy : Policy) (operation : Operation) :
    operation.attempt policy = operation.reply policy >>= fun _ => pure () := by
  cases operation <;> simp [attempt, reply]

theorem Operation.built_reply (policy : Policy) (operation : Operation) :
    Attempt.Built (operation.reply policy) := by
  cases operation with
  | add => exact (Workflow.built_add ..).map _
  | send => exact (Workflow.built_send ..).map _
  | accept => exact (Workflow.built_accept ..).map _
  | complete => exact (Workflow.built_complete ..).map _
  | remove => exact (Workflow.built_remove ..).map _
  | pop => exact (Workflow.built_pop ..).map _
  | bump => exact (Workflow.built_bump ..).map _
  | edit => exact (Workflow.built_edit ..).map _
  | assign => exact (Workflow.built_assign ..).map _

theorem TrayCall.built_attempt (call : TrayCall) : Attempt.Built call.attempt := by
  cases call with
  | append budget user tray entry => exact Attempt.Built.map (.append budget user tray entry) _
  | remove budget user tray task => exact Attempt.Built.map (.remove budget user tray task) _
  | pop budget user tray => exact Attempt.Built.map (.pop budget user tray) _
  | bump budget user tray task => exact Attempt.Built.map (.bump budget user tray task) _

/-- What can be asked of the workflows and of the trays. -/
inductive Request
  | write (policy : Policy) (operation : Operation)
  /-- Shows a tray. -/
  | list (policy : Policy) (user : UserId) (tray : Tray)
  | count (user : UserId)
  | name (policy : Policy) (user : UserId)
  | change (call : TrayCall)
  | entries (user : UserId) (tray : Tray)
  | find (user : UserId) (tray : Tray) (task : TaskId)
  | locate (user : UserId) (task : TaskId)
deriving DecidableEq, Repr

namespace Request

def attempt : Request → Attempt Reply
  | .write policy operation => operation.reply policy
  | .list policy user tray => .shown <$> Workflow.list policy user tray
  | .count user => .counted <$> Workflow.count user
  | .name policy user => .named <$> ExceptT.lift (Workflow.nameOf policy user)
  | .change call => .changed <$> call.attempt
  | .entries user tray => .listed <$> Trays.entries user tray
  | .find user tray task => .found <$> Trays.find? user tray task
  | .locate user task => .located <$> Trays.locate? user task

/-- Whether a request asks for nothing but reading. -/
def isReading : Request → Bool
  | .write .. | .change _ => false
  | .list .. | .count _ | .name .. | .entries .. | .find .. | .locate .. => true

theorem built_attempt (request : Request) : Attempt.Built request.attempt := by
  cases request with
  | write policy operation => exact operation.built_reply policy
  | list policy user tray => exact (Workflow.built_list policy user tray).map _
  | count user => exact (Workflow.built_count user).map _
  | name policy user => exact (Attempt.built_lift (Workflow.built_nameOf policy user)).map _
  | change call => exact call.built_attempt.map _
  | entries user tray => exact Attempt.Built.map (.entries user tray) _
  | find user tray task => exact (Trays.built_find? user tray task).map _
  | locate user task => exact (Trays.built_locate? user task).map _

/-- Requests one after another, each of them whatever became of those before. -/
def inTurn : List Request → Program (List (Except Failure Reply))
  | [] => return []
  | request :: requests => do
    let reply ← request.attempt.run
    return reply :: (← inTurn requests)

theorem built_inTurn (requests : List Request) : (inTurn requests).Built := by
  induction requests with
  | nil => exact .pure []
  | cons request requests induction =>
      exact Program.Built.bind request.built_attempt fun _ => induction.bind fun _ => .pure _

end Request
end Handoff
