import Handoff.Proofs.Race.Outage
import Handoff.Proofs.Stored.Unrepeated
import Handoff.Proofs.Workflow.Request

/-!
# No tray repeats a task

Players make requests of all kinds over one store, which may refuse any of their calls.  Whatever
they are asked to undo, and however their calls follow one another, no tray comes to have two
entries for a task.
-/

namespace Handoff.Race

variable {ι : Type} [DecidableEq ι]

/-- If no tray repeats a task when players begin with their requests, none does at any moment of the
race. -/
theorem unrepeated_runAmid_inTurn (around : Surroundings) {world : World}
    (begins : world.store.Unrepeated) (requests : ι → List Request) (schedule : List (Turn ι)) :
    ((start world fun player => Request.inTurn (requests player)).runAmid around
      schedule).world.store.Unrepeated := by
  have honours (player : ι) : (Request.inTurn (requests player)).Honours .swaps
      fun _ => True := (Request.built_inTurn (requests player)).honours_swaps
  have refuses (request : Call) (outage : Outage) :
      Contract.swaps.promises (.call request) (.error outage) := trivial
  have answers (action : Action) (world : World) (permitted : Contract.swaps.Permits action)
      (kept : world.store.Unrepeated) :
      Contract.swaps.promises action (World.answer around action world).1 ∧
        (World.answer around action world).2.store.Unrepeated :=
    ⟨trivial, Contract.answer_swaps action world permitted kept⟩
  exact (runAmid_keeps Store.Unrepeated refuses answers schedule begins honours).1

/-- Of two players who read a tray and put in the same task, the one who swaps first succeeds.  The
store is out when the other reads again, and the next time the task is already there. -/
theorem unrepeated_of_two_appends :
    let call : Request := .change (.append 3 "ann" .owned (.unlinked "t"))
    let turn (player : Bool) : Turn Bool := ⟨⟨0⟩, player, none⟩
    let reached := (start ⟨.empty, ⟨0⟩, 0⟩ fun player =>
        Request.inTurn (if player then [call] else [call, call])).runAmid .strokes
      [turn true, turn false, turn true, turn false, turn false, ⟨⟨0⟩, false, some ⟨"out"⟩⟩,
        turn false]
    reached.world.store.Unrepeated ∧
      reached.result? true = some [.ok (.changed none)] ∧
      reached.result? false =
        some [.error (.outage "out"), .error (.alreadyListed "t" .owned "ann")] := by
  intro call turn reached
  exact ⟨unrepeated_runAmid_inTurn .strokes Store.unrepeated_empty _ _, by decide +kernel⟩

end Handoff.Race
