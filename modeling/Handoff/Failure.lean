import Handoff.Json.Error
import Handoff.Task.Basic
import Handoff.Tray.Basic

/-!
# Why an operation fails

`Failure` has a constructor for each cause.  Callers see the kind of a failure and a message.
-/

namespace Handoff

inductive FailureKind
  /-- A task, or an entry for it, is absent. -/
  | notFound
  /-- The task is already in the tray. -/
  | duplicateEntry
  /-- Other writers came first on every attempt. -/
  | conflict
  /-- The store failed, or holds something that cannot be read. -/
  | storageFailure
  /-- The operation is not allowed on this task. -/
  | invalidOperation
deriving DecidableEq, Repr

/-- How the message of a failure starts. -/
def FailureKind.label : FailureKind → String
  | .notFound => "not found"
  | .duplicateEntry => "duplicate entry"
  | .conflict => "conflict"
  | .storageFailure => "storage failure"
  | .invalidOperation => "invalid operation"

/-- A message of a given kind. -/
def FailureKind.describe (kind : FailureKind) (detail : String) : String :=
  kind.label ++ ": " ++ detail

/-- Why an operation fails. -/
inductive Failure
  | taskMissing (task : TaskId)
  | entryMissing (task : TaskId) (tray : Tray) (user : UserId)
  | trayEmpty (tray : Tray) (user : UserId)
  | notReceived (task : TaskId) (user : UserId)
  | notSent (task : TaskId) (user : UserId)
  | notListed (task : TaskId) (user : UserId)
  | alreadyListed (task : TaskId) (tray : Tray) (user : UserId)
  | contended (key : String) (attempts : Nat)
  | outage (reason : String)
  | unreadableTask (cause : Json.Error)
  | unreadableTray (cause : Json.Error)
  | unreadableTime (key : String)
  | noReceiver (task : TaskId)
  | notOwner (task : TaskId) (user : UserId)
deriving DecidableEq, Repr

namespace Failure

def kind : Failure → FailureKind
  | .taskMissing _ | .entryMissing .. | .trayEmpty .. | .notReceived .. | .notSent ..
  | .notListed .. => .notFound
  | .alreadyListed .. => .duplicateEntry
  | .contended .. => .conflict
  | .outage _ | .unreadableTask _ | .unreadableTray _ | .unreadableTime _ => .storageFailure
  | .noReceiver _ | .notOwner .. => .invalidOperation

/-- What is said when a stored task cannot be read. -/
def recordDetail (reason : String) : String := "serialization error: " ++ reason

/-- What is said when a stored tray cannot be read. -/
def trayDetail (reason : String) : String := "unrecognized list encoding: " ++ reason

/-- What a failure says after its kind. -/
def detail : Failure → String
  | .taskMissing task => "task " ++ task
  | .entryMissing task tray user =>
    "task " ++ task ++ " not in " ++ tray.name ++ " list of " ++ user
  | .trayEmpty tray user => tray.name ++ " list of " ++ user ++ " is empty"
  | .notReceived task user => "task " ++ task ++ " not received by " ++ user
  | .notSent task user => "task " ++ task ++ " not sent by " ++ user
  | .notListed task user => "task " ++ task ++ " not in any list of " ++ user
  | .alreadyListed task tray user =>
    "task " ++ task ++ " already in " ++ tray.name ++ " list of " ++ user
  | .contended key attempts => key ++ " changed on each of " ++ toString attempts ++ " attempts"
  | .outage reason => "backend error: " ++ reason
  | .unreadableTask cause => recordDetail cause.message
  | .unreadableTray cause => trayDetail cause.message
  | .unreadableTime key => key ++ " is not a timestamp"
  | .noReceiver task => "sent task " ++ task ++ " has no receiver"
  | .notOwner task user => "task " ++ task ++ " is not owned by " ++ user

def message (failure : Failure) : String := failure.kind.describe failure.detail

end Failure
end Handoff
