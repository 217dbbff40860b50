import Handoff.Proofs.Program.Contract

/-!
# What a program does

The deeds of a program are the actions that it takes in a world, in order, with what each of them
makes of the world.
-/

namespace Handoff

/-- An action that has been taken. -/
structure Deed where
  before : World
  action : Action
  answer : action.Answer
  after : World

namespace Program

variable {α : Type} {around : Surroundings}

/-- The actions that a program takes in a world. -/
def deeds (around : Surroundings) : Program α → World → List Deed
  | .done _, _ => []
  | .act action next, world =>
    let (answer, after) := World.answer around action world
    ⟨world, action, answer, after⟩ :: (next answer).deeds around after

/-- Every deed of a program is an action that is allowed by a contract which the program honours,
and it has the effect of the action. -/
theorem Honours.of_mem_deeds {contract : Contract} {ends : α → Prop} {p : Program α}
    (honours : p.Honours contract ends)
    (promised : ∀ action answer, contract.promises action answer) {world : World} {deed : Deed}
    (mem : deed ∈ p.deeds around world) :
    contract.Permits deed.action ∧
      World.answer around deed.action deed.before = (deed.answer, deed.after) := by
  induction p generalizing world with
  | done result => cases mem
  | act action next induction =>
      rcases List.mem_cons.mp mem with rfl | later
      · exact ⟨honours.1, rfl⟩
      · exact induction _ (honours.2 _ (promised action _)) later

end Program
end Handoff
