import Handoff.Workflow.Finish
import Handoff.Workflow.Undo

/-!
# Assigning tasks

A user can hand a task of their own to somebody, hand it to somebody else, or take it back.  The
entry of the previous assignee goes first, as a step that can be undone; their record goes last,
when everything else has succeeded.
-/

namespace Handoff

/-- What is told about an assigned task. -/
structure Assignment where
  /-- The message of the task. -/
  message : String
  /-- Who had the task before, if it has been taken from them. -/
  previous : Option UserId
deriving DecidableEq, Repr

namespace Workflow

/-- Whether the task of an entry is the user's own: it is in their owned tray without a link, or
they sent it. -/
def isOutright (tray : Tray) (entry : Entry) : Bool :=
  match tray with
  | .owned => entry.link.isNone
  | .sent => true
  | .received => false

/-- Takes out the entry of the previous assignee, unless it is linked to another task, and tells
whether their record has lost its entry. -/
def withdraw (policy : Policy) (user : UserId) (task : TaskId) (link : Link) : Undoable Bool := do
  match ← Undoable.step (Trays.locate? link.user link.task) with
  | none =>
    Undoable.step (Attempt.note .assigneeGone)
    return true
  | some located =>
    if located.entry.linksTo user task then
      let _ ← Undoable.step (Trays.remove policy.budget link.user located.tray link.task)
      Undoable.note (.putBack link.user located.tray located.entry)
      return true
    else
      Undoable.step (Attempt.note .assigneeElsewhere)
      return false

/-- Moves the user's entry to their owned tray, where it has no link. -/
def takeBack (policy : Policy) (user : UserId) (located : Located) : Undoable Unit := do
  let task := located.entry.task
  let _ ← Undoable.step (Trays.remove policy.budget user located.tray task)
  Undoable.note (.putBack user located.tray located.entry)
  Undoable.step (Trays.append policy.budget user .owned (.unlinked task))

/-- Makes a copy for the new assignee and moves the user's entry to their sent tray, with a link to
the copy. -/
def handOver (policy : Policy) (user assignee : UserId) (task : Task) (located : Located) :
    Undoable Unit := do
  let id ← Undoable.step Attempt.newTaskId
  let now ← Undoable.step Attempt.now
  let copy := task.copy id now
  Undoable.step (Records.save copy)
  Undoable.note (.deleteRecord copy.id)
  Undoable.step (Trays.append policy.budget assignee .received (.linked copy.id user task.id))
  Undoable.note (.takeOut assignee .received copy.id)
  let _ ← Undoable.step (Trays.remove policy.budget user located.tray task.id)
  Undoable.note (.putBack user located.tray located.entry)
  Undoable.step (Trays.append policy.budget user .sent (.linked task.id assignee copy.id))

/-- Takes a task from its previous assignee and hands it to the next, and tells whether the record
of the previous assignee has lost its entry. -/
def moveTo (policy : Policy) (user assignee : UserId) (task : Task) (located : Located) :
    Undoable Bool := do
  let orphaned ←
    match located.entry.link with
    | some link => withdraw policy user task.id link
    | none => pure false
  if assignee = user then takeBack policy user located
  else handOver policy user assignee task located
  return orphaned

/-- Deletes the record of the previous assignee as far as possible, if it has lost its entry. -/
def dropOrphan (orphaned : Bool) : Option Link → Program Unit
  | none => return ()
  | some link => do
    if orphaned then
      let _ ← dropRecord link.task

/-- Hands a task of the user's own to an assignee, who may be the user. -/
def assign (policy : Policy) (user : UserId) (task : TaskId) (assignee : UserId) :
    Attempt Assignment := do
  let located ← locate user task
  unless isOutright located.tray located.entry do throw (.notOwner task user)
  let content ← Records.load task
  if located.entry.partner.getD user = assignee then
    return ⟨content.message, none⟩
  let orphaned ← Undoable.settle policy.budget (moveTo policy user assignee content located)
  ExceptT.lift (dropOrphan orphaned located.entry.link)
  Attempt.note .taskReassigned
  return ⟨content.message, located.entry.partner⟩

end Workflow
end Handoff
