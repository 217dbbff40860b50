import Handoff.Stored.Records
import Handoff.Stored.Trays
import Handoff.Workflow.Policy

/-!
# Completing and removing tasks

The user's own entry is taken out first, and that decides whether the operation succeeds.  What is
left of the task is cleaned up afterwards as far as possible: the user's record, the entry on the
other side and its record.  An entry on the other side that is not linked back belongs to another
task and stays, together with its record.
-/

namespace Handoff

/-- What is told about a completed task. -/
structure Completion where
  /-- The deleted content, if one of the copies could be read. -/
  task : Option Task
  partner : Option UserId
  /-- The tray that held the user's entry. -/
  tray : Tray
deriving DecidableEq, Repr

/-- What is told about a removed task. -/
structure Removal where
  /-- The deleted content, if one of the copies could be read. -/
  task : Option Task
  partner : Option UserId
  /-- The tray that held the user's entry. -/
  tray : Tray
  /-- The tray that held the entry on the other side. -/
  partnerTray : Option Tray
deriving DecidableEq, Repr

namespace Removal

/-- The user withdrew a task that they had sent. -/
def isWithdrawn (removal : Removal) : Bool := removal.tray == .sent

/-- The user declined a task that was sent to them. -/
def isDeclined (removal : Removal) : Bool := removal.partnerTray == some .sent

end Removal

namespace Workflow

/-- The entry for a task in the first of the user's trays that has one; one of them must. -/
def locate (user : UserId) (task : TaskId) : Attempt Located := do
  match ← Trays.locate? user task with
  | some located => return located
  | none => throw (.notListed task user)

/-- Deletes a record as far as possible, and returns what was deleted. -/
def dropRecord (task : TaskId) : Program (Option Task) := do
  match ← (Records.take task).run with
  | .ok content => return some content
  | .error _ =>
    Program.perform (.note .recordNotDeleted)
    return none

/-- What a cleanup could remove. -/
structure Cleanup where
  /-- The deleted content, if one of the copies could be read. -/
  task : Option Task
  partner : Option UserId
  /-- The tray that held the entry on the other side. -/
  partnerTray : Option Tray
deriving DecidableEq, Repr

/-- Takes out the entry on the other side as far as possible. -/
def dropEntry (budget : Nat) (link : Link) (tray : Tray) : Program Unit := do
  match ← (Trays.remove budget link.user tray link.task).run with
  | .ok _ => return ()
  | .error _ => Program.perform (.note .counterpartNotRemoved)

/-- Cleans up the other side of a task of which the user's entry is gone. -/
def cleanUpOther (budget : Nat) (user : UserId) (task : TaskId) (link : Link) :
    Program (Option Tray × Option Task) := do
  match ← (Trays.locate? link.user link.task).run with
  | .ok (some located) =>
    if located.entry.linksTo user task then
      dropEntry budget link located.tray
      return (some located.tray, ← dropRecord link.task)
    else
      Program.perform (.note .counterpartElsewhere)
      return (none, none)
  | .ok none =>
    Program.perform (.note .counterpartGone)
    return (none, ← dropRecord link.task)
  | .error _ =>
    Program.perform (.note .counterpartUnreadable)
    return (none, none)

/-- Cleans up after an entry of the user is gone. -/
def cleanUp (budget : Nat) (user : UserId) (entry : Entry) : Program Cleanup := do
  let own ← dropRecord entry.task
  match entry.link with
  | none => return ⟨own, none, none⟩
  | some link =>
    let (partnerTray, other) ← cleanUpOther budget user entry.task link
    return ⟨own.or other, some link.user, partnerTray⟩

/-- Takes a task out of whichever tray of the user holds it, and cleans up. -/
def takeOut (policy : Policy) (user : UserId) (task : TaskId) (event : Event) :
    Attempt (Tray × Cleanup) := do
  let located ← locate user task
  let _ ← Trays.remove policy.budget user located.tray task
  let cleanup ← ExceptT.lift (cleanUp policy.budget user located.entry)
  Attempt.note event
  return (located.tray, cleanup)

def complete (policy : Policy) (user : UserId) (task : TaskId) : Attempt Completion := do
  let (tray, cleanup) ← takeOut policy user task .taskCompleted
  return ⟨cleanup.task, cleanup.partner, tray⟩

def remove (policy : Policy) (user : UserId) (task : TaskId) : Attempt Removal := do
  let (tray, cleanup) ← takeOut policy user task .taskRemoved
  return ⟨cleanup.task, cleanup.partner, tray, cleanup.partnerTray⟩

/-- Completes the first task of the user's owned tray. -/
def pop (policy : Policy) (user : UserId) : Attempt Completion := do
  let entry ← Trays.pop policy.budget user .owned
  let cleanup ← ExceptT.lift (cleanUp policy.budget user entry)
  Attempt.note .taskPopped
  return ⟨cleanup.task, cleanup.partner, .owned⟩

end Workflow
end Handoff
