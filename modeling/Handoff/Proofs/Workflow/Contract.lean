import Handoff.Proofs.Stored.Contract
import Handoff.Proofs.Workflow.Request

/-!
# Contracts that workflows honour

Every workflow honours every contract that suits it: it swaps a tray only after it has read it, puts
in only entries that it has read or made, and writes and deletes only records that it has read or
named.  The same holds of what undoes its steps.
-/

namespace Handoff

/-- The users that an operation may link to each other. -/
def Operation.linked : Operation → List UserId
  | .send sender receiver .. => [sender, receiver]
  | .assign user _ assignee => [user, assignee]
  | .add .. | .accept .. | .complete .. | .remove .. | .pop _ | .bump .. | .edit .. => []

section
variable {contract : Contract} {named : TaskId → Prop} {known : UserId → Prop}
  {fits : Entry → Prop} (suits : contract.Suits named known fits) {budget : Nat}

/-- An entry that is put back fits, and a record that is deleted has a right name. -/
def Undo.Fits (named : TaskId → Prop) (fits : Entry → Prop) : Undo → Prop
  | .putBack _ _ entry => fits entry
  | .deleteRecord task => named task
  | .takeOut .. => True

include suits

theorem Undo.honours_apply (undo : Undo) (fit : undo.Fits named fits) :
    Attempt.Honours contract (fun _ => True) (undo.apply budget) := by
  cases undo with
  | deleteRecord task => exact suits.delete fit
  | takeOut user tray task => exact suits.remove.forget
  | putBack user tray entry => exact suits.append fit

theorem Undoable.honours_settle_of_suits {α : Type} {ends : α → Prop} {workflow : Undoable α}
    (honours : Honours contract (Undo.Fits named fits) ends workflow) :
    Attempt.Honours contract ends (settle budget workflow) :=
  honours_settle honours (Undo.honours_apply suits)

namespace Workflow

open Attempt (Honours honours_pure honours_throw honours_note honours_lift)
open Undoable (honours_step honours_settle_of_suits)

variable (policy : Policy)

theorem honours_add (user : UserId) (message description : String) (origin : Option String) :
    Honours contract (fun _ => True) (add policy user message description origin) := by
  refine honours_settle_of_suits suits ?_
  refine (honours_step suits.newTaskId_named).bind fun id id_named => ?_
  refine (honours_step Attempt.honours_now).bind fun now _ => ?_
  refine Undoable.Honours.bind (honours_step (suits.save id_named)) fun _ _ => ?_
  refine Undoable.Honours.bind (Undoable.honours_note id_named) fun _ _ => ?_
  refine (honours_step (suits.append (suits.unlinked id))).bind fun _ _ => ?_
  exact (honours_step (honours_note _)).bind fun _ _ => Undoable.honours_pure trivial

theorem honours_send {sender receiver : UserId} (sender_known : known sender)
    (receiver_known : known receiver) (message description : String) (origin : Option String) :
    Honours contract (fun _ => True)
      (send policy sender receiver message description origin) := by
  refine honours_settle_of_suits suits ?_
  refine (honours_step suits.newTaskId_named).bind fun id id_named => ?_
  refine (honours_step Attempt.honours_now).bind fun now _ => ?_
  refine (honours_step suits.newTaskId_named).bind fun copyId copy_named => ?_
  refine (honours_step Attempt.honours_now).bind fun copyNow _ => ?_
  refine Undoable.Honours.bind (honours_step (suits.save id_named)) fun _ _ => ?_
  refine Undoable.Honours.bind (Undoable.honours_note id_named) fun _ _ => ?_
  refine Undoable.Honours.bind (honours_step (suits.save copy_named)) fun _ _ => ?_
  refine Undoable.Honours.bind (Undoable.honours_note copy_named) fun _ _ => ?_
  have sent := suits.linked id receiver copyId receiver_known copy_named
  refine (honours_step (suits.append sent)).bind fun _ _ => ?_
  refine (Undoable.honours_note trivial).bind fun _ _ => ?_
  have received := suits.linked copyId sender id sender_known id_named
  refine (honours_step (suits.append received)).bind fun _ _ => ?_
  exact (honours_step (honours_note _)).bind fun _ _ => Undoable.honours_pure trivial

theorem honours_accept (user : UserId) (task : TaskId) :
    Honours contract (fun _ => True) (accept policy user task) := by
  refine suits.find?.bind fun found fit => ?_
  split
  · exact honours_throw _
  · rename_i entry position
    refine suits.load.bind fun content _ => ?_
    have moving : Undoable.Honours contract (Undo.Fits named fits) (fun _ => True)
        (moveToOwned policy user entry) := by
      refine (honours_step (suits.append (fit entry position rfl))).bind fun _ _ => ?_
      refine (Undoable.honours_note trivial).bind fun _ _ => ?_
      exact (honours_step suits.remove).bind fun _ _ => Undoable.honours_pure trivial
    refine (honours_settle_of_suits suits moving).bind fun _ _ => ?_
    exact (honours_note _).bind fun _ _ => honours_pure trivial

theorem honours_locate (user : UserId) (task : TaskId) :
    Honours contract (fun located => fits located.entry) (locate user task) := by
  refine suits.locate?.bind fun found fit => ?_
  split
  · rename_i located
    exact honours_pure (fit located rfl)
  · exact honours_throw _

/-! ## Cleaning up -/

theorem honours_dropRecord (task : TaskId) :
    (dropRecord task).Honours contract fun _ => True := by
  refine Program.Honours.bind suits.take fun result _ => ?_
  cases result with
  | ok content => exact Program.honours_pure trivial
  | error failure => exact ⟨trivial, fun _ _ => trivial⟩

theorem honours_dropEntry (link : Link) (tray : Tray) :
    (dropEntry budget link tray).Honours contract fun _ => True := by
  refine Program.Honours.bind suits.remove fun result _ => ?_
  cases result with
  | ok entry => exact Program.honours_pure trivial
  | error failure => exact ⟨trivial, fun _ _ => trivial⟩

theorem honours_cleanUp (user : UserId) (entry : Entry) :
    (cleanUp budget user entry).Honours contract fun _ => True := by
  refine (honours_dropRecord suits entry.task).bind fun own _ => ?_
  cases entry.link with
  | none => exact Program.honours_pure trivial
  | some link =>
      have other : (cleanUpOther budget user entry.task link).Honours contract fun _ => True := by
        refine Program.Honours.bind suits.locate? fun result _ => ?_
        split
        · split
          · refine (honours_dropEntry suits link _).bind fun _ _ => ?_
            exact (honours_dropRecord suits link.task).bind fun _ _ => Program.honours_pure trivial
          · exact ⟨trivial, fun _ _ => trivial⟩
        · refine ⟨trivial, fun _ _ => (honours_dropRecord suits link.task).bind fun _ _ => ?_⟩
          exact Program.honours_pure trivial
        · exact ⟨trivial, fun _ _ => trivial⟩
      exact other.bind fun _ _ => Program.honours_pure trivial

theorem honours_takeOut (user : UserId) (task : TaskId) (event : Event) :
    Honours contract (fun _ => True) (takeOut policy user task event) := by
  refine (honours_locate suits user task).bind fun located _ => ?_
  refine suits.remove.bind fun _ _ => ?_
  refine (honours_lift (honours_cleanUp suits user located.entry)).bind fun _ _ => ?_
  exact (honours_note event).bind fun _ _ => honours_pure trivial

theorem honours_complete (user : UserId) (task : TaskId) :
    Honours contract (fun _ => True) (complete policy user task) :=
  (honours_takeOut suits policy user task _).bind fun _ _ => honours_pure trivial

theorem honours_remove (user : UserId) (task : TaskId) :
    Honours contract (fun _ => True) (remove policy user task) :=
  (honours_takeOut suits policy user task _).bind fun _ _ => honours_pure trivial

theorem honours_pop (user : UserId) :
    Honours contract (fun _ => True) (pop policy user) := by
  refine suits.pop.bind fun entry _ => ?_
  refine (honours_lift (honours_cleanUp suits user entry)).bind fun _ _ => ?_
  exact (honours_note _).bind fun _ _ => honours_pure trivial

/-! ## Bumping and editing -/

theorem honours_bump (user : UserId) (task : TaskId) :
    Honours contract (fun _ => True) (bump policy user task) := by
  refine suits.find?.bind fun found _ => ?_
  split
  · exact honours_throw _
  · split
    · exact honours_throw _
    · rename_i link _
      refine suits.bump.bind fun _ _ => ?_
      have message : (messageOfEither link.task task).Honours contract fun _ => True := by
        refine suits.load.run.bind fun first _ => ?_
        split
        · exact Program.honours_pure trivial
        · refine ⟨trivial, fun _ _ => suits.load.run.bind fun second _ => ?_⟩
          split
          · exact Program.honours_pure trivial
          · exact ⟨trivial, fun _ _ => trivial⟩
      refine (honours_lift message).bind fun _ _ => ?_
      exact (honours_note _).bind fun _ _ => honours_pure trivial

theorem honours_revise (task : TaskId) (message description : String) :
    Honours contract (fun _ => True) (revise task message description) := by
  refine suits.load.bind fun content own => ?_
  have right : named (content.withContent message description).id := own.1.symm ▸ own.2
  exact (suits.save right).bind fun _ _ => honours_pure trivial

theorem honours_edit (user : UserId) (task : TaskId) (message description : String) :
    Honours contract (fun _ => True) (edit user task message description) := by
  refine (honours_locate suits user task).bind fun located _ => ?_
  refine (honours_revise suits task message description).bind fun _ _ => ?_
  have other : (reviseOther message description located.entry.link).Honours contract
      fun _ => True := by
    cases located.entry.link with
    | none => exact Program.honours_pure trivial
    | some link =>
        refine Program.Honours.bind (honours_revise suits link.task message description)
          fun result _ => ?_
        cases result with
        | ok previous => exact Program.honours_pure trivial
        | error failure => exact ⟨trivial, fun _ _ => trivial⟩
  exact (honours_lift other).bind fun _ _ => honours_pure trivial

/-! ## Assigning -/

theorem honours_withdraw (user : UserId) (task : TaskId) (link : Link) :
    Undoable.Honours contract (Undo.Fits named fits) (fun _ => True)
      (withdraw policy user task link) := by
  refine (honours_step suits.locate?).bind fun found fit => ?_
  split
  · exact (honours_step (honours_note _)).bind fun _ _ => Undoable.honours_pure trivial
  · rename_i located
    split
    · refine (honours_step suits.remove).bind fun _ _ => ?_
      refine Undoable.Honours.bind (Undoable.honours_note (fit located rfl)) fun _ _ => ?_
      exact Undoable.honours_pure trivial
    · exact (honours_step (honours_note _)).bind fun _ _ => Undoable.honours_pure trivial

theorem honours_takeBack (user : UserId) {located : Located} (fit : fits located.entry) :
    Undoable.Honours contract (Undo.Fits named fits) (fun _ => True)
      (takeBack policy user located) := by
  refine (honours_step suits.remove).bind fun _ _ => ?_
  refine Undoable.Honours.bind (Undoable.honours_note fit) fun _ _ => ?_
  exact honours_step (suits.append (suits.unlinked _))

theorem honours_handOver {user assignee : UserId} (user_known : known user)
    (assignee_known : known assignee) {task : Task} (task_named : named task.id)
    {located : Located} (fit : fits located.entry) :
    Undoable.Honours contract (Undo.Fits named fits) (fun _ => True)
      (handOver policy user assignee task located) := by
  refine (honours_step suits.newTaskId_named).bind fun id copy_named => ?_
  refine (honours_step Attempt.honours_now).bind fun now _ => ?_
  refine Undoable.Honours.bind (honours_step (suits.save copy_named)) fun _ _ => ?_
  refine Undoable.Honours.bind (Undoable.honours_note copy_named) fun _ _ => ?_
  have received := suits.linked id user task.id user_known task_named
  refine (honours_step (suits.append received)).bind fun _ _ => ?_
  refine (Undoable.honours_note trivial).bind fun _ _ => ?_
  refine (honours_step suits.remove).bind fun _ _ => ?_
  refine Undoable.Honours.bind (Undoable.honours_note fit) fun _ _ => ?_
  exact honours_step (suits.append (suits.linked task.id assignee id assignee_known copy_named))

theorem honours_moveTo {user assignee : UserId} (user_known : known user)
    (assignee_known : known assignee) {task : Task} (task_named : named task.id)
    {located : Located} (fit : fits located.entry) :
    Undoable.Honours contract (Undo.Fits named fits) (fun _ => True)
      (moveTo policy user assignee task located) := by
  have moving (orphaned : Bool) : Undoable.Honours contract (Undo.Fits named fits) (fun _ => True)
      (if assignee = user then takeBack policy user located >>= fun _ => pure orphaned
        else handOver policy user assignee task located >>= fun _ => pure orphaned) := by
    split
    · exact (honours_takeBack suits policy user fit).bind fun _ _ => Undoable.honours_pure trivial
    · exact (honours_handOver suits policy user_known assignee_known task_named fit).bind
        fun _ _ => Undoable.honours_pure trivial
  unfold moveTo
  cases located.entry.link with
  | none => exact moving false
  | some link =>
      exact (honours_withdraw suits policy user task.id link).bind fun _ _ => moving _

theorem honours_assign {user assignee : UserId} (user_known : known user)
    (assignee_known : known assignee) (task : TaskId) :
    Honours contract (fun _ => True) (assign policy user task assignee) := by
  refine (honours_locate suits user task).bind fun located fit => ?_
  by_cases outright : isOutright located.tray located.entry = true
  · simp only [outright, if_true]
    refine suits.load.bind fun content own => ?_
    split
    · exact honours_pure trivial
    · have task_named : named content.id := own.1.symm ▸ own.2
      have moving := honours_moveTo suits policy user_known assignee_known task_named fit
      refine (honours_settle_of_suits suits moving).bind fun orphaned _ => ?_
      have dropping : (dropOrphan orphaned located.entry.link).Honours contract fun _ => True := by
        cases located.entry.link with
        | none => exact Program.honours_pure trivial
        | some link =>
            cases orphaned with
            | false => exact Program.honours_pure trivial
            | true => exact (honours_dropRecord suits link.task).bind fun _ _ =>
                Program.honours_pure trivial
      refine (honours_lift dropping).bind fun _ _ => ?_
      exact (honours_note _).bind fun _ _ => honours_pure trivial
  · simp only [outright]
    have refused : Honours contract (fun _ : PUnit => False) (throw (.notOwner task user)) :=
      honours_throw _
    exact refused.bind fun _ never => never.elim

end Workflow

/-- An operation honours a contract that suits it if it links only users that may be linked. -/
theorem Operation.honours_reply (policy : Policy) (operation : Operation)
    (all_known : ∀ user ∈ operation.linked, known user) :
    Attempt.Honours contract (fun _ => True) (operation.reply policy) := by
  cases operation with
  | add => exact (Workflow.honours_add suits ..).map _
  | send sender receiver =>
      have sender_known := all_known sender List.mem_cons_self
      have receiver_known := all_known receiver (List.mem_cons_of_mem _ List.mem_cons_self)
      exact (Workflow.honours_send suits policy sender_known receiver_known ..).map _
  | accept => exact (Workflow.honours_accept suits ..).map _
  | complete => exact (Workflow.honours_complete suits ..).map _
  | remove => exact (Workflow.honours_remove suits ..).map _
  | pop => exact (Workflow.honours_pop suits ..).map _
  | bump => exact (Workflow.honours_bump suits ..).map _
  | edit => exact (Workflow.honours_edit suits ..).map _
  | assign user task assignee =>
      have user_known := all_known user List.mem_cons_self
      have assignee_known := all_known assignee (List.mem_cons_of_mem _ List.mem_cons_self)
      exact (Workflow.honours_assign suits policy user_known assignee_known task).map _

theorem Operation.honours_attempt (policy : Policy) (operation : Operation)
    (all_known : ∀ user ∈ operation.linked, known user) :
    Attempt.Honours contract (fun _ => True) (operation.attempt policy) := by
  rw [operation.attempt_eq_reply policy]
  exact (operation.honours_reply suits policy all_known).forget

theorem TrayCall.honours_attempt {call : TrayCall} (fit : ∀ entry ∈ call.added, fits entry) :
    Attempt.Honours contract (fun _ => True) call.attempt := by
  cases call with
  | append budget user tray entry => exact (suits.append (fit entry rfl)).map _
  | remove => exact suits.remove.map _
  | pop => exact suits.pop.map _
  | bump => exact suits.bump.map _

end
end Handoff
