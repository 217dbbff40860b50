import Handoff.Program.Basic

/-!
# Running programs on a store

A world is a store with a clock and a supply of record names.  All calls reach the store and none of
them fails.
-/

namespace Handoff

/-- What a program meets besides the store. -/
structure Surroundings where
  /-- What a user is called, if it is known. -/
  nameOf : UserId → Option String
  /-- The names that are given to new records, one after another. -/
  newTaskId : Nat → TaskId

/-- The state in which a program runs. -/
structure World where
  store : Store
  clock : Instant
  /-- How many record names have been given out. -/
  issued : Nat

def World.answer (around : Surroundings) (action : Action) (world : World) :
    action.Answer × World :=
  match action with
  | .call request =>
    let (reply, store) := world.store.perform request
    (.ok reply, { world with store })
  | .newTaskId => (around.newTaskId world.issued, { world with issued := world.issued + 1 })
  | .now => (world.clock, world)
  | .nameOf user => (around.nameOf user, world)
  | .note _ => ((), world)

def Program.run {α : Type} (around : Surroundings) (p : Program α) (world : World) : α × World :=
  p.runWith (World.answer around) world

end Handoff
