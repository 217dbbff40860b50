import Handoff.Proofs.Stored.Built
import Handoff.Workflow.Accept
import Handoff.Workflow.Assign
import Handoff.Workflow.Bump
import Handoff.Workflow.Create
import Handoff.Workflow.Edit
import Handoff.Workflow.Overview

/-!
# Workflows are built from operations on trays and records

No workflow calls the store itself, whatever its arguments are and whatever it reads.
-/

namespace Handoff

open Attempt (Built built_pure built_throw built_lift built_note built_newTaskId built_now)
open Undoable (built_step built_settle)

namespace Trays

theorem built_find? (user : UserId) (tray : Tray) (task : TaskId) :
    Built (find? user tray task) :=
  Built.bind (.entries user tray) fun _ => built_pure _

theorem built_locateIn (user : UserId) (task : TaskId) (trays : List Tray) :
    Built (locateIn user task trays) := by
  induction trays with
  | nil => exact built_pure none
  | cons tray trays induction =>
      refine (built_find? user tray task).bind fun found => ?_
      cases found with
      | some pair => exact built_pure _
      | none => exact induction

theorem built_locate? (user : UserId) (task : TaskId) : Built (locate? user task) :=
  built_locateIn user task Tray.all

end Trays

namespace Records

theorem built_take (task : TaskId) : Built (take task) :=
  Built.bind (.load task) fun content =>
    Built.bind (.delete task) fun _ => built_pure content

end Records

namespace Workflow

variable (policy : Policy)

/-! ## Adding, sending and accepting -/

theorem built_add (user : UserId) (message description : String) (origin : Option String) :
    Built (add policy user message description origin) := by
  refine built_settle policy.budget ?_
  refine (built_step built_newTaskId).bind fun id => ?_
  refine (built_step built_now).bind fun now => ?_
  refine (built_step (.save _)).bind fun _ => ?_
  refine (Undoable.built_note _).bind fun _ => ?_
  refine (built_step (.append policy.budget user .owned (.unlinked _))).bind fun _ => ?_
  exact (built_step (built_note .taskAdded)).bind fun _ => Undoable.built_pure _

theorem built_send (sender receiver : UserId) (message description : String)
    (origin : Option String) :
    Built (send policy sender receiver message description origin) := by
  refine built_settle policy.budget ?_
  refine (built_step built_newTaskId).bind fun id => ?_
  refine (built_step built_now).bind fun now => ?_
  refine (built_step built_newTaskId).bind fun copyId => ?_
  refine (built_step built_now).bind fun copyNow => ?_
  refine (built_step (.save _)).bind fun _ => ?_
  refine (Undoable.built_note _).bind fun _ => ?_
  refine (built_step (.save _)).bind fun _ => ?_
  refine (Undoable.built_note _).bind fun _ => ?_
  refine (built_step (.append policy.budget sender .sent _)).bind fun _ => ?_
  refine (Undoable.built_note _).bind fun _ => ?_
  refine (built_step (.append policy.budget receiver .received _)).bind fun _ => ?_
  exact (built_step (built_note .taskSent)).bind fun _ => Undoable.built_pure _

theorem built_moveToOwned (user : UserId) (entry : Entry) :
    Undoable.Built (moveToOwned policy user entry) := by
  refine (built_step (.append policy.budget user .owned entry)).bind fun _ => ?_
  refine (Undoable.built_note _).bind fun _ => ?_
  exact (built_step (.remove policy.budget user .received entry.task)).bind fun _ =>
    Undoable.built_pure ()

theorem built_accept (user : UserId) (task : TaskId) : Built (accept policy user task) := by
  refine (Trays.built_find? user .received task).bind fun found => ?_
  cases found with
  | none => exact built_throw _
  | some pair =>
      refine Built.bind (.load task) fun content => ?_
      refine (built_settle policy.budget (built_moveToOwned policy user pair.1)).bind fun _ => ?_
      exact (built_note .taskAccepted).bind fun _ => built_pure _

theorem built_locate (user : UserId) (task : TaskId) : Built (locate user task) := by
  refine (Trays.built_locate? user task).bind fun found => ?_
  cases found with
  | some located => exact built_pure located
  | none => exact built_throw _

/-! ## Completing and removing -/

theorem built_dropRecord (task : TaskId) : (dropRecord task).Built := by
  refine Program.Built.bind (Records.built_take task) fun result => ?_
  cases result with
  | ok content => exact .pure _
  | error failure => exact .bind (.note .recordNotDeleted) fun _ => .pure _

theorem built_dropEntry (budget : Nat) (link : Link) (tray : Tray) :
    (dropEntry budget link tray).Built := by
  refine Program.Built.bind (.remove budget link.user tray link.task) fun result => ?_
  cases result with
  | ok entry => exact .pure ()
  | error failure => exact .note .counterpartNotRemoved

theorem built_cleanUpOther (budget : Nat) (user : UserId) (task : TaskId) (link : Link) :
    (cleanUpOther budget user task link).Built := by
  refine Program.Built.bind (Trays.built_locate? link.user link.task) fun result => ?_
  rcases result with failure | _ | located
  · exact .bind (.note .counterpartUnreadable) fun _ => .pure _
  · refine .bind (.note .counterpartGone) fun _ => ?_
    exact (built_dropRecord link.task).bind fun _ => .pure _
  · dsimp only
    split
    · refine (built_dropEntry budget link located.tray).bind fun _ => ?_
      exact (built_dropRecord link.task).bind fun _ => .pure _
    · exact .bind (.note .counterpartElsewhere) fun _ => .pure _

theorem built_cleanUp (budget : Nat) (user : UserId) (entry : Entry) :
    (cleanUp budget user entry).Built := by
  refine (built_dropRecord entry.task).bind fun own => ?_
  cases entry.link with
  | none => exact .pure _
  | some link => exact (built_cleanUpOther budget user entry.task link).bind fun _ => .pure _

theorem built_takeOut (user : UserId) (task : TaskId) (event : Event) :
    Built (takeOut policy user task event) := by
  refine (built_locate user task).bind fun located => ?_
  refine Built.bind (.remove policy.budget user located.tray task) fun _ => ?_
  refine (built_lift (built_cleanUp policy.budget user located.entry)).bind fun _ => ?_
  exact (built_note event).bind fun _ => built_pure _

theorem built_complete (user : UserId) (task : TaskId) : Built (complete policy user task) :=
  (built_takeOut policy user task .taskCompleted).bind fun _ => built_pure _

theorem built_remove (user : UserId) (task : TaskId) : Built (remove policy user task) :=
  (built_takeOut policy user task .taskRemoved).bind fun _ => built_pure _

theorem built_pop (user : UserId) : Built (pop policy user) := by
  refine Built.bind (.pop policy.budget user .owned) fun entry => ?_
  refine (built_lift (built_cleanUp policy.budget user entry)).bind fun _ => ?_
  exact (built_note .taskPopped).bind fun _ => built_pure _

/-! ## Bumping and editing -/

theorem built_messageOfEither (receiverTask senderTask : TaskId) :
    (messageOfEither receiverTask senderTask).Built := by
  refine Program.Built.bind (.load receiverTask) fun first => ?_
  cases first with
  | ok task => exact .pure _
  | error failure =>
      refine .bind (.note .receiverCopyUnreadable) fun _ => ?_
      refine Program.Built.bind (.load senderTask) fun second => ?_
      cases second with
      | ok task => exact .pure _
      | error failure => exact .bind (.note .senderCopyUnreadable) fun _ => .pure none

theorem built_bump (user : UserId) (task : TaskId) : Built (bump policy user task) := by
  refine (Trays.built_find? user .sent task).bind fun found => ?_
  rcases found with _ | ⟨⟨own, _ | link⟩, position⟩
  · exact built_throw _
  · exact built_throw _
  · refine Built.bind (.bump policy.budget link.user .received link.task) fun _ => ?_
    refine (built_lift (built_messageOfEither link.task task)).bind fun _ => ?_
    exact (built_note .taskBumped).bind fun _ => built_pure _

theorem built_revise (task : TaskId) (message description : String) :
    Built (revise task message description) :=
  Built.bind (.load task) fun _ => Built.bind (.save _) fun _ => built_pure _

theorem built_edit (user : UserId) (task : TaskId) (message description : String) :
    Built (edit user task message description) := by
  refine (built_locate user task).bind fun located => ?_
  refine (built_revise task message description).bind fun previous => ?_
  have other : (reviseOther message description located.entry.link).Built := by
    cases located.entry.link with
    | none => exact .pure ()
    | some link =>
        refine Program.Built.bind (built_revise link.task message description) fun result => ?_
        cases result with
        | ok _ => exact .pure ()
        | error failure => exact .note .counterpartNotUpdated
  exact (built_lift other).bind fun _ => built_pure _

/-! ## Assigning -/

theorem built_withdraw (user : UserId) (task : TaskId) (link : Link) :
    Undoable.Built (withdraw policy user task link) := by
  refine (built_step (Trays.built_locate? link.user link.task)).bind fun found => ?_
  cases found with
  | none => exact (built_step (built_note .assigneeGone)).bind fun _ => Undoable.built_pure true
  | some located =>
      dsimp only
      split
      · refine (built_step (.remove policy.budget link.user located.tray link.task)).bind
          fun _ => ?_
        exact (Undoable.built_note _).bind fun _ => Undoable.built_pure true
      · exact (built_step (built_note .assigneeElsewhere)).bind fun _ => Undoable.built_pure false

theorem built_takeBack (user : UserId) (located : Located) :
    Undoable.Built (takeBack policy user located) := by
  refine (built_step (.remove policy.budget user located.tray located.entry.task)).bind
    fun _ => ?_
  refine (Undoable.built_note _).bind fun _ => ?_
  exact built_step (.append policy.budget user .owned _)

theorem built_handOver (user assignee : UserId) (task : Task) (located : Located) :
    Undoable.Built (handOver policy user assignee task located) := by
  refine (built_step built_newTaskId).bind fun id => ?_
  refine (built_step built_now).bind fun now => ?_
  refine (built_step (.save _)).bind fun _ => ?_
  refine (Undoable.built_note _).bind fun _ => ?_
  refine (built_step (.append policy.budget assignee .received _)).bind fun _ => ?_
  refine (Undoable.built_note _).bind fun _ => ?_
  refine (built_step (.remove policy.budget user located.tray task.id)).bind fun _ => ?_
  refine (Undoable.built_note _).bind fun _ => ?_
  exact built_step (.append policy.budget user .sent _)

theorem built_moveTo (user assignee : UserId) (task : Task) (located : Located) :
    Undoable.Built (moveTo policy user assignee task located) := by
  have moving (orphaned : Bool) : Undoable.Built
      (if assignee = user then takeBack policy user located >>= fun _ => pure orphaned
        else handOver policy user assignee task located >>= fun _ => pure orphaned) := by
    split
    · exact (built_takeBack policy user located).bind fun _ => Undoable.built_pure orphaned
    · exact (built_handOver policy user assignee task located).bind fun _ =>
        Undoable.built_pure orphaned
  unfold moveTo
  cases located.entry.link with
  | none => exact moving false
  | some link => exact (built_withdraw policy user task.id link).bind fun _ => moving _

theorem built_dropOrphan (orphaned : Bool) (link : Option Link) :
    (dropOrphan orphaned link).Built := by
  cases link with
  | none => exact .pure ()
  | some link =>
      cases orphaned with
      | false => exact .pure ()
      | true => exact (built_dropRecord link.task).bind fun _ => .pure ()

theorem built_assign (user : UserId) (task : TaskId) (assignee : UserId) :
    Built (assign policy user task assignee) := by
  refine (built_locate user task).bind fun located => ?_
  cases isOutright located.tray located.entry with
  | false => exact built_throw (.notOwner task user)
  | true =>
      refine Built.bind (.load task) fun content => ?_
      split
      · exact built_pure _
      · have moving := built_moveTo policy user assignee content located
        refine (built_settle policy.budget moving).bind fun orphaned => ?_
        refine (built_lift (built_dropOrphan orphaned located.entry.link)).bind fun _ => ?_
        exact (built_note .taskReassigned).bind fun _ => built_pure _

/-! ## Showing -/

theorem built_nameOf (user : UserId) : (nameOf policy user).Built := by
  refine Program.Built.bind (.nameOf user) fun name => ?_
  cases name with
  | some name => exact .pure name
  | none => exact .bind (.note .placeholderUsed) fun _ => .pure _

theorem built_viewOf (task : Task) (link : Option Link) : (viewOf policy task link).Built := by
  cases link with
  | none => exact .pure _
  | some link =>
      have placing : (otherPlace link).Built := by
        refine Program.Built.bind (Trays.built_locate? link.user link.task) fun result => ?_
        cases result with
        | ok located => exact .pure located
        | error failure => exact .bind (.note .counterpartNotLocated) fun _ => .pure none
      exact placing.bind fun _ => (built_nameOf policy link.user).bind fun _ => .pure _

theorem built_viewsOf (entries : List Entry) : (viewsOf policy entries).Built := by
  induction entries with
  | nil => exact .pure []
  | cons entry entries induction =>
      refine Program.Built.bind (.load entry.task) fun result => ?_
      cases result with
      | error failure => exact .bind (.note .entrySkipped) fun _ => induction
      | ok task =>
          exact (built_viewOf policy task entry.link).bind fun _ => induction.bind fun _ => .pure _

theorem built_list (user : UserId) (tray : Tray) : Built (list policy user tray) :=
  Built.bind (.entries user tray) fun entries => built_lift (built_viewsOf policy entries)

theorem built_count (user : UserId) : Built (count user) :=
  Built.bind (.entries user .owned) fun _ =>
    Built.bind (.entries user .sent) fun _ =>
      Built.bind (.entries user .received) fun _ => built_pure _

end Workflow
end Handoff
