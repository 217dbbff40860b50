import Handoff.Workflow.Finish

/-!
# Editing tasks

An edit replaces the texts of the user's record, and of the other copy as far as possible.
-/

namespace Handoff

/-- What is told about an edited task. -/
structure Revision where
  partner : Option UserId
  /-- The tray that holds the user's entry. -/
  tray : Tray
  /-- The message before the edit. -/
  previousMessage : String
deriving DecidableEq, Repr

namespace Workflow

/-- Replaces the texts of a record, and returns its message before. -/
def revise (task : TaskId) (message description : String) : Attempt String := do
  let content ← Records.load task
  Records.save (content.withContent message description)
  return content.message

/-- Replaces the texts of the other copy as far as possible. -/
def reviseOther (message description : String) : Option Link → Program Unit
  | none => return ()
  | some link => do
    match ← (revise link.task message description).run with
    | .ok _ => return ()
    | .error _ => Program.perform (.note .counterpartNotUpdated)

def edit (user : UserId) (task : TaskId) (message description : String) : Attempt Revision := do
  let located ← locate user task
  let previous ← revise task message description
  ExceptT.lift (reviseOther message description located.entry.link)
  return ⟨located.entry.partner, located.tray, previous⟩

end Workflow
end Handoff
