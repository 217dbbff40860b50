import Handoff.Stored.Records
import Handoff.Stored.Trays
import Handoff.Task.View
import Handoff.Workflow.Policy

/-!
# Showing trays

Nothing is written here.  An entry whose record cannot be read is left out; what cannot be found
out about the other copy of a task is left open.
-/

namespace Handoff.Workflow

/-- What a user is called, or the placeholder. -/
def nameOf (policy : Policy) (user : UserId) : Program String := do
  match ← Program.perform (.nameOf user) with
  | some name => return name
  | none =>
    Program.perform (.note .placeholderUsed)
    return policy.placeholder

/-- Where the entry on the other side is, if that can be found out. -/
def otherPlace (link : Link) : Program (Option Located) := do
  match ← (Trays.locate? link.user link.task).run with
  | .ok located => return located
  | .error _ =>
    Program.perform (.note .counterpartNotLocated)
    return none

/-- A task as it is shown to its user. -/
def viewOf (policy : Policy) (task : Task) : Option Link → Program TaskView
  | none => return .unshared task
  | some link => do
    let located ← otherPlace link
    let name ← nameOf policy link.user
    return ⟨task, some name, located.map Located.tray, located.map Located.position⟩

/-- The tasks of entries as they are shown to their user. -/
def viewsOf (policy : Policy) : List Entry → Program (List TaskView)
  | [] => return []
  | entry :: entries => do
    match ← (Records.load entry.task).run with
    | .error _ =>
      Program.perform (.note .entrySkipped)
      viewsOf policy entries
    | .ok task =>
      let view ← viewOf policy task entry.link
      return view :: (← viewsOf policy entries)

/-- A user's tray as it is shown. -/
def list (policy : Policy) (user : UserId) (tray : Tray) : Attempt (List TaskView) := do
  let entries ← Trays.entries user tray
  ExceptT.lift (viewsOf policy entries)

/-- How many entries each of a user's trays holds. -/
def count (user : UserId) : Attempt Tally := do
  let owned ← Trays.entries user .owned
  let sent ← Trays.entries user .sent
  let received ← Trays.entries user .received
  return ⟨owned.length, sent.length, received.length⟩

end Handoff.Workflow
