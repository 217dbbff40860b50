import Handoff.Program.World
import Handoff.Reminder.Basic
import Handoff.Workflow.Accept
import Handoff.Workflow.Assign
import Handoff.Workflow.Bump
import Handoff.Workflow.Create
import Handoff.Workflow.Edit
import Handoff.Workflow.Finish
import Handoff.Workflow.Overview

/-!
# Steps of a rehearsal

A rehearsal is a script of operations on one store, with rules that interfere with the store calls:
calls fail, lose a race, or find that another client has acted just before them.
-/

namespace Handoff.Rehearsal

/-- Which calls a rule is about. -/
inductive CallFilter
  | any
  | get
  | set
  | compareAndSet
  | delete
deriving DecidableEq, Repr

/-- When a rule takes effect. -/
structure Trigger where
  calls : CallFilter
  /-- The key, if only one is meant. -/
  key : Option String
  /-- What the key starts with, if only some are meant. -/
  keyStart : Option String
  /-- How many fitting calls pass before the rule takes effect. -/
  skip : Nat
  /-- On how many calls the rule takes effect. -/
  times : Nat
deriving DecidableEq, Repr

inductive Step
  | add (user : UserId) (message description : String) (origin : Option String)
  | send (user receiver : UserId) (message description : String) (origin : Option String)
  | list (user : UserId) (tray : Tray)
  | count (user : UserId)
  | accept (user : UserId) (task : TaskId)
  | complete (user : UserId) (task : TaskId)
  | remove (user : UserId) (task : TaskId)
  | pop (user : UserId)
  | bump (user : UserId) (task : TaskId)
  | edit (user : UserId) (task : TaskId) (message description : String)
  | assign (user : UserId) (task : TaskId) (assignee : UserId)
  | nameUser (user : UserId)
  | appendEntry (user : UserId) (tray : Tray) (entry : Entry)
  | removeEntry (user : UserId) (tray : Tray) (task : TaskId)
  | popEntry (user : UserId) (tray : Tray)
  | bumpEntry (user : UserId) (tray : Tray) (task : TaskId)
  | findEntry (user : UserId) (tray : Tray) (task : TaskId)
  | locateEntry (user : UserId) (task : TaskId)
  | entries (user : UserId) (tray : Tray)
  | saveTask (task : Task)
  | loadTask (task : TaskId)
  | takeTask (task : TaskId)
  | deleteTask (task : TaskId)
  /-- Notes undo actions, and then drops them or carries them out. -/
  | undo (noted : List Undo) (commit : Bool)
  | lastReminder (user : UserId)
  | recordReminder (user : UserId) (moment : Instant)
  | claimReminder (user : UserId) (moment : Instant) (offset : Int)
  | getKey (key : String)
  | setKey (key : String) (value : Bytes)
  | swapKey (key : String) (expected : Option Bytes) (value : Bytes)
  | deleteKey (key : String)
  | inspectKey (key : String)
  | setClock (moment : Instant)
  | clearRules
  /-- Adds a rule that makes calls fail. -/
  | failCalls (trigger : Trigger) (reason : String)
  /-- Adds a rule that makes compare-and-set calls lose a race. -/
  | loseRaces (trigger : Trigger)
  /-- Adds a rule that has another client act before calls. -/
  | actBefore (trigger : Trigger) (steps : List Step)

inductive Outcome
  | nothing
  | task (task : Task)
  | sent (sent : Dispatch)
  | views (views : List TaskView)
  | counts (counts : Tally)
  | accepted (accepted : Acceptance)
  | completed (completed : Completion)
  | removed (removed : Removal)
  | bumped (bumped : Promotion)
  | edited (edited : Revision)
  | assigned (assigned : Assignment)
  | name (name : String)
  | entry (entry : Entry)
  | found (found : Option (Entry × Nat))
  | located (located : Option Located)
  | entries (entries : List Entry)
  /-- The number of noted actions, and how many of them failed if they were carried out. -/
  | undone (noted : Nat) (failures : Option Nat)
  | moment (moment : Option Instant)
  | claimed (claimed : Bool) (key : String)
  | value (value : Option Bytes)
  | swapped (swapped : Bool)
  /-- The number of keys, whether the key has a value, and the number of keys it starts. -/
  | inspected (size : Nat) (present : Bool) (starting : Nat)
deriving DecidableEq, Repr

abbrev Result := Except Failure Outcome

/-- How the operations of a rehearsal are carried out. -/
structure Setup where
  /-- How workflows are carried out. -/
  policy : Policy
  /-- How often a change of a tray is tried outside workflows. -/
  budget : Nat
  /-- What programs meet besides the store. -/
  around : Surroundings

/-- Notes undo actions, and then drops them or carries them out. -/
def undoAll (budget : Nat) (noted : List Undo) (commit : Bool) : Attempt Outcome :=
  ExceptT.lift do
    if commit then
      Program.perform (.note .committed)
      return .undone noted.length none
    else
      return .undone noted.length (some (← Undo.rollBack budget noted))

/-- The operation that a step carries out, if it is an operation. -/
def Step.operation? (setup : Setup) : Step → Option (Attempt Outcome)
  | .add user message description origin =>
    some (.task <$> Workflow.add setup.policy user message description origin)
  | .send user receiver message description origin =>
    some (.sent <$> Workflow.send setup.policy user receiver message description origin)
  | .list user tray => some (.views <$> Workflow.list setup.policy user tray)
  | .count user => some (.counts <$> Workflow.count user)
  | .accept user task => some (.accepted <$> Workflow.accept setup.policy user task)
  | .complete user task => some (.completed <$> Workflow.complete setup.policy user task)
  | .remove user task => some (.removed <$> Workflow.remove setup.policy user task)
  | .pop user => some (.completed <$> Workflow.pop setup.policy user)
  | .bump user task => some (.bumped <$> Workflow.bump setup.policy user task)
  | .edit user task message description =>
    some (.edited <$> Workflow.edit user task message description)
  | .assign user task assignee =>
    some (.assigned <$> Workflow.assign setup.policy user task assignee)
  | .nameUser user => some (.name <$> ExceptT.lift (Workflow.nameOf setup.policy user))
  | .appendEntry user tray entry =>
    some ((fun _ => .nothing) <$> Trays.append setup.budget user tray entry)
  | .removeEntry user tray task => some (.entry <$> Trays.remove setup.budget user tray task)
  | .popEntry user tray => some (.entry <$> Trays.pop setup.budget user tray)
  | .bumpEntry user tray task =>
    some ((fun _ => .nothing) <$> Trays.bump setup.budget user tray task)
  | .findEntry user tray task => some (.found <$> Trays.find? user tray task)
  | .locateEntry user task => some (.located <$> Trays.locate? user task)
  | .entries user tray => some (.entries <$> Trays.entries user tray)
  | .saveTask task => some ((fun _ => .nothing) <$> Records.save task)
  | .loadTask task => some (.task <$> Records.load task)
  | .takeTask task => some (.task <$> Records.take task)
  | .deleteTask task => some ((fun _ => .nothing) <$> Records.delete task)
  | .undo noted commit => some (undoAll setup.budget noted commit)
  | .lastReminder user => some (.moment <$> Reminder.last user)
  | .recordReminder user moment => some ((fun _ => .nothing) <$> Reminder.record user moment)
  | .claimReminder user moment offset =>
    some ((.claimed · (Key.reminder user)) <$> Reminder.claim user moment offset)
  | .getKey _ | .setKey .. | .swapKey .. | .deleteKey _ | .inspectKey _ | .setClock _ | .clearRules
  | .failCalls .. | .loseRaces _ | .actBefore .. => none

mutual

/-- How many rules a step can add, and how often these can take effect, at most. -/
def Step.load : Step → Nat
  | .failCalls trigger _ | .loseRaces trigger => 1 + trigger.times
  | .actBefore trigger steps => 1 + trigger.times * (1 + loadOf steps)
  | _ => 0

/-- The same for several steps. -/
def loadOf : List Step → Nat
  | [] => 0
  | step :: steps => step.load + loadOf steps

end

end Handoff.Rehearsal
