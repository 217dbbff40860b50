import Handoff.Stored.Records
import Handoff.Stored.Trays
import Handoff.Workflow.Policy

/-!
# Bumping tasks

A sender can bring a task to the front of the receiver's received tray, as long as it has not been
accepted.
-/

namespace Handoff

/-- What is told about a bumped task. -/
structure Promotion where
  /-- The message of the task, if one of the copies could be read. -/
  message : Option String
  /-- The receiver. -/
  partner : UserId
  /-- The receiver's record. -/
  partnerTask : TaskId
deriving DecidableEq, Repr

namespace Workflow

/-- The message of a task, from the receiver's record or else from the sender's. -/
def messageOfEither (receiverTask senderTask : TaskId) : Program (Option String) := do
  match ← (Records.load receiverTask).run with
  | .ok task => return some task.message
  | .error _ =>
    Program.perform (.note .receiverCopyUnreadable)
    match ← (Records.load senderTask).run with
    | .ok task => return some task.message
    | .error _ =>
      Program.perform (.note .senderCopyUnreadable)
      return none

/-- Brings a sent task to the front of the receiver's received tray. -/
def bump (policy : Policy) (user : UserId) (task : TaskId) : Attempt Promotion := do
  match ← Trays.find? user .sent task with
  | none => throw (.notSent task user)
  | some (entry, _) =>
    match entry.link with
    | none => throw (.noReceiver task)
    | some link =>
      Trays.bump policy.budget link.user .received link.task
      let message ← ExceptT.lift (messageOfEither link.task task)
      Attempt.note .taskBumped
      return ⟨message, link.user, link.task⟩

end Workflow
end Handoff
