import Handoff.Proofs.Stored.Contract
import Handoff.Proofs.Workflow.Request

/-!
# Reading

Showing and counting trays, and looking for entries in them, makes no calls but those that read.
-/

namespace Handoff

namespace Contract

/-- Nothing is written. -/
def reading : Contract where
  allows
    | .get _ => True
    | .set .. | .compareAndSet .. | .delete _ => False
  promises := fun _ _ => True

/-- A program that only reads leaves the store as it was. -/
theorem store_run_of_reading {α : Type} {ends : α → Prop} {p : Program α}
    (honours : p.Honours reading ends) (around : Surroundings) (world : World) :
    (p.run around world).2.store = world.store := by
  have answers (action : Action) (reached : World) (permitted : reading.Permits action)
      (same : reached.store = world.store) :
      reading.promises action (World.answer around action reached).1 ∧
        (World.answer around action reached).2.store = world.store := by
    cases action with
    | newTaskId | now | nameOf | note => exact ⟨trivial, same⟩
    | call request =>
        cases request with
        | get key => exact ⟨trivial, same⟩
        | set | compareAndSet | delete => exact permitted.elim
  exact (honours.runWith answers rfl).2

end Contract

section
variable {policy : Policy}

theorem Contract.allows_reading (key : String) : Contract.reading.allows (.get key) := trivial

open Contract (reading allows_reading)
open Attempt (Honours honours_pure honours_lift)

namespace Trays

theorem honours_reading_entries (user : UserId) (tray : Tray) :
    Honours reading (fun _ => True) (entries user tray) :=
  (honours_entries (allows_reading _)).mono fun _ _ => trivial

theorem honours_reading_find? (user : UserId) (tray : Tray) (task : TaskId) :
    Honours reading (fun _ => True) (find? user tray task) :=
  (honours_find? (allows_reading _)).mono fun _ _ => trivial

theorem honours_reading_locate? (user : UserId) (task : TaskId) :
    Honours reading (fun _ => True) (locate? user task) :=
  (honours_locate? fun _ => allows_reading _).mono fun _ _ => trivial

end Trays

namespace Workflow

theorem honours_reading_nameOf (user : UserId) :
    (nameOf policy user).Honours reading fun _ => True := by
  refine ⟨trivial, fun name _ => ?_⟩
  cases name with
  | some name => trivial
  | none => exact ⟨trivial, fun _ _ => trivial⟩

theorem honours_reading_viewOf (task : Task) (link : Option Link) :
    (viewOf policy task link).Honours reading fun _ => True := by
  cases link with
  | none => trivial
  | some link =>
      have placing : (otherPlace link).Honours reading fun _ => True := by
        refine (Trays.honours_reading_locate? link.user link.task).run.bind fun result _ => ?_
        cases result with
        | ok located => trivial
        | error failure => exact ⟨trivial, fun _ _ => trivial⟩
      refine placing.bind fun located _ => ?_
      exact (honours_reading_nameOf link.user).bind fun _ _ => Program.honours_pure trivial

theorem honours_reading_viewsOf (entries : List Entry) :
    (viewsOf policy entries).Honours reading fun _ => True := by
  induction entries with
  | nil => trivial
  | cons entry entries induction =>
      have loading : (Records.load entry.task).run.Honours reading fun _ => True :=
        (Records.honours_load (allows_reading _)).run
      refine loading.bind fun result _ => ?_
      cases result with
      | error failure => exact ⟨trivial, fun _ _ => induction⟩
      | ok task =>
          refine (honours_reading_viewOf task entry.link).bind fun view _ => ?_
          exact induction.bind fun _ _ => Program.honours_pure trivial

theorem honours_reading_list (user : UserId) (tray : Tray) :
    Honours reading (fun _ => True) (list policy user tray) :=
  (Trays.honours_reading_entries user tray).bind fun entries _ =>
    honours_lift (honours_reading_viewsOf entries)

theorem honours_reading_count (user : UserId) : Honours reading (fun _ => True) (count user) :=
  (Trays.honours_reading_entries user .owned).bind fun _ _ =>
    (Trays.honours_reading_entries user .sent).bind fun _ _ =>
      (Trays.honours_reading_entries user .received).bind fun _ _ => honours_pure trivial

end Workflow

theorem Request.honours_reading {request : Request} (reads : request.isReading = true) :
    Honours reading (fun _ => True) request.attempt := by
  cases request with
  | write | change => cases reads
  | list policy user tray => exact (Workflow.honours_reading_list user tray).map _
  | count user => exact (Workflow.honours_reading_count user).map _
  | name policy user => exact (honours_lift (Workflow.honours_reading_nameOf user)).map _
  | entries user tray => exact (Trays.honours_reading_entries user tray).map _
  | find user tray task => exact (Trays.honours_reading_find? user tray task).map _
  | locate user task => exact (Trays.honours_reading_locate? user task).map _

/-- A request that asks for nothing but reading leaves the store as it was. -/
theorem Request.store_run_of_isReading {request : Request} (reads : request.isReading = true)
    (around : Surroundings) (world : World) :
    (request.attempt.run.run around world).2.store = world.store :=
  Contract.store_run_of_reading (honours_reading reads) around world

end
end Handoff
