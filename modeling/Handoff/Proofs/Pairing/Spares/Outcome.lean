import Handoff.Proofs.Pairing.Residue
import Handoff.Proofs.Pairing.Spares.Assigning
import Handoff.Proofs.Workflow.Equivalent

/-!
# A user touches only what is linked to them

Whatever is asked of the workflows on behalf of a user, and whether it succeeds or fails, the trays
and the records of any other user stay as they are, except for entries that are linked to the first.
-/

namespace Handoff

def Operation.caller : Operation → UserId
  | .add user .. | .send user .. | .accept user _ | .complete user _ | .remove user _ | .pop user
  | .bump user _ | .edit user .. | .assign user .. => user

namespace Request

/-- The user that a workflow is asked for. -/
def caller? : Request → Option UserId
  | .write _ operation => some operation.caller
  | .list _ user _ | .count user | .name _ user => some user
  | .change _ | .entries .. | .find .. | .locate .. => none

def users : Request → List UserId
  | .write _ operation => operation.users
  | .list _ user _ | .count user | .name _ user => [user]
  | .change _ | .entries .. | .find .. | .locate .. => []

end Request

theorem Operation.caller_mem_users (operation : Operation) :
    operation.caller ∈ operation.users := by
  cases operation <;> simp [caller, users]

namespace Scene.Comprises

variable {community : Community} {around : Surroundings} {world : World} {holdings : List Holding}
  {other : UserId}

/-- Every operation spares everybody but its caller. -/
theorem spares_reply (comprises : Comprises community around holdings world.scene)
    (fresh : around.Fresh) (policy : Policy) (operation : Operation)
    (members : ∀ user ∈ operation.users, community.member user)
    (other_member : community.member other) (differs : other ≠ operation.caller) :
    (operation.reply policy).run.Spares around operation.caller other world.scene := by
  have member := members _ operation.caller_mem_users
  cases operation with
  | add user message description origin =>
      exact (comprises.spares_add member other_member differs policy fresh message description
        origin).map _
  | send sender receiver message description origin =>
      exact (comprises.spares_send member other_member differs policy fresh
        (members receiver (by simp [Operation.users])) message description origin).map _
  | accept user task =>
      exact (comprises.spares_accept member other_member differs policy task).map _
  | complete user task =>
      exact (comprises.spares_complete fresh member other_member differs policy task).map _
  | remove user task =>
      exact (comprises.spares_remove fresh member other_member differs policy task).map _
  | pop user => exact (comprises.spares_pop fresh member other_member differs policy).map _
  | bump user task => exact (comprises.spares_bump member other_member differs policy task).map _
  | edit user task message description =>
      exact (comprises.spares_edit member other_member differs fresh task message description).map _
  | assign user task assignee =>
      exact (comprises.spares_assign member other_member differs policy fresh
        (members assignee (by simp [Operation.users])) task).map _

end Scene.Comprises

namespace World

/-- In a world that operations of members reach from an empty store, whatever is asked of the
workflows for a member, and whether it succeeds or fails, touches nothing of another member but what
is linked to the first. -/
theorem spares_of_served {community : Community} {around : Surroundings} (fresh : around.Fresh)
    {policy : Policy} {world : World} (reached : world.Reached community around policy)
    (turn : Instant × Request) {caller other : UserId} (asks : turn.2.caller? = some caller)
    (members : ∀ user ∈ turn.2.users, community.member user) (member : community.member other)
    (differs : other ≠ caller) :
    world.scene.Spares caller other (world.serve around turn).2.scene := by
  obtain ⟨holdings, comprises⟩ := reached.exists_comprises fresh
  obtain ⟨clock, request⟩ := turn
  have reads (reading : request.isReading = true) :
      world.scene.Spares caller other (world.serve around (clock, request)).2.scene := by
    refine comprises.spares_of_same_cells member ?_
    exact congrArg Store.cell (Request.store_run_of_isReading reading around _)
  cases request with
  | write writing operation =>
      cases asks
      have now : Scene.Comprises community around holdings (World.scene { world with clock }) :=
        comprises.at_clock clock
      obtain ⟨after, leaves, spares⟩ :=
        now.spares_reply fresh writing operation members member differs
      have left := leaves { world with clock } rfl
      rw [Conditions.run_calm] at left
      exact left ▸ ⟨spares.trays, spares.records⟩
  | list | count | name => exact reads rfl
  | change | entries | find | locate => cases asks

/-- When a task is taken from its assignee and given to somebody else, the first assignee keeps the
task of another sender. -/
theorem spares_of_reassigned :
    let world := (World.mk .empty ⟨0⟩ 0).steps .strokes .standard
      [(⟨1⟩, .send "carl" "bob" "Rest" "" none), (⟨2⟩, .send "ann" "bob" "Call" "" none)]
    let served := world.serve .strokes (⟨3⟩, .write .standard (.assign "ann" "|||" "carl"))
    served.1 = .ok (.assigned ⟨"Call", some "bob"⟩) ∧
      served.2.scene.cells (Key.tray "bob" .received) = .entries [.linked "||" "carl" "|"] ∧
      world.scene.Spares "ann" "bob" served.2.scene := by
  intro world served
  have reached : world.Reached .plain .strokes .standard :=
    ⟨_, ⟨0⟩, 0, by simp [Operation.users, Community.plain, UserId.Plain], rfl⟩
  refine ⟨by decide +kernel, by decide +kernel,
    spares_of_served Surroundings.fresh_strokes reached _ rfl ?_ ?_ (by decide)⟩
  · simp [Request.users, Operation.users, Community.plain, UserId.Plain]
  · simp [Community.plain, UserId.Plain]

end World
end Handoff
