import Handoff.Proofs.Program.Contract
import Handoff.Proofs.Race.Basic

/-!
# Races in which the store may be out

At each turn the store may refuse the call that the player makes.  A call that is refused has no
effect, and the player goes on with the refusal.
-/

namespace Handoff

theorem Program.Honours.of_result? {α : Type} {contract : Contract} {ends : α → Prop}
    {p : Program α} (honours : p.Honours contract ends) {result : α}
    (ended : p.result? = some result) : ends result := by
  cases p with
  | done a =>
      cases ended
      exact honours
  | act action next => cases ended

/-- Answers an action.  If the store is out, it refuses a call. -/
def World.answerAmid (around : Surroundings) (outage : Option Outage) (action : Action)
    (world : World) : action.Answer × World :=
  match action with
  | .call request =>
    match outage with
    | some outage => (.error outage, world)
    | none => World.answer around (.call request) world
  | action => World.answer around action world

theorem World.answerAmid_none (around : Surroundings) :
    World.answerAmid around none = World.answer around := by
  funext action world
  cases action <;> rfl

/-- A turn of a player, at a time. -/
structure Turn (ι : Type) where
  clock : Instant
  player : ι
  /-- Why the store refuses a call, if it does. -/
  outage : Option Outage

namespace Race

variable {ι α : Type} [DecidableEq ι]

/-- Lets a player take an action, unless its program has ended. -/
def moveAmid (around : Surroundings) (race : Race ι α) (turn : Turn ι) : Race ι α :=
  match race.programs turn.player with
  | .done _ => race
  | .act action next =>
    let (answer, world) :=
      World.answerAmid around turn.outage action { race.world with clock := turn.clock }
    { world
      programs := Function.update race.programs turn.player (next answer)
      accesses := race.accesses ++ (action.access? answer).toList.map (turn.player, ·) }

/-- Lets players move one after another. -/
def runAmid (around : Surroundings) (schedule : List (Turn ι)) (race : Race ι α) : Race ι α :=
  schedule.foldl (moveAmid around) race

/-- A race without outages is one in which the store could have been out. -/
theorem runAmid_map (around : Surroundings) (schedule : List (Instant × ι)) (race : Race ι α) :
    race.runAmid around (schedule.map fun turn => ⟨turn.1, turn.2, none⟩) =
      race.run around schedule := by
  rw [runAmid, List.foldl_map]
  congr 1
  funext race turn
  unfold moveAmid move
  cases race.programs turn.2 with
  | done _ => rfl
  | act action next => simp only [World.answerAmid_none]

variable {contract : Contract} {holds : Store → Prop} {ends : α → Prop} {around : Surroundings}

/-- Answers as a contract promises them keep a property of the store, unless a call is refused. -/
theorem answerAmid_keeps
    (refuses : ∀ request outage, contract.promises (.call request) (.error outage))
    (answers : ∀ action world, contract.Permits action → holds world.store →
      contract.promises action (World.answer around action world).1 ∧
        holds (World.answer around action world).2.store)
    (outage : Option Outage) {action : Action} (permitted : contract.Permits action) {world : World}
    (begins : holds world.store) :
    contract.promises action (World.answerAmid around outage action world).1 ∧
      holds (World.answerAmid around outage action world).2.store := by
  cases outage with
  | none =>
      rw [World.answerAmid_none]
      exact answers action world permitted begins
  | some outage =>
      cases action with
      | call request => exact ⟨refuses request outage, begins⟩
      | newTaskId | now | nameOf | note => exact answers _ world permitted begins

/-- What the calls that a contract allows keep true of the store, a player keeps true that honours
the contract; and what is left of its program honours it. -/
theorem moveAmid_keeps
    (refuses : ∀ request outage, contract.promises (.call request) (.error outage))
    (answers : ∀ action world, contract.Permits action → holds world.store →
      contract.promises action (World.answer around action world).1 ∧
        holds (World.answer around action world).2.store)
    (turn : Turn ι) {race : Race ι α} (begins : holds race.world.store)
    (honours : ∀ player, (race.programs player).Honours contract ends) :
    holds (race.moveAmid around turn).world.store ∧
      ∀ player, ((race.moveAmid around turn).programs player).Honours contract ends := by
  unfold moveAmid
  cases going : race.programs turn.player with
  | done result => exact ⟨begins, honours⟩
  | act action next =>
      have own := honours turn.player
      rw [going] at own
      let world : World := { race.world with clock := turn.clock }
      have begins_now : holds world.store := begins
      obtain ⟨promised, kept⟩ := answerAmid_keeps refuses answers turn.outage own.1 begins_now
      refine ⟨kept, fun player => ?_⟩
      by_cases same : player = turn.player
      · subst same
        simpa using own.2 _ promised
      · simpa [same] using honours player

variable (holds) in
/-- What the calls that a contract allows keep true of the store, a race keeps true if all players
honour the contract; and each player that has ended has ended as described. -/
theorem runAmid_keeps
    (refuses : ∀ request outage, contract.promises (.call request) (.error outage))
    (answers : ∀ action world, contract.Permits action → holds world.store →
      contract.promises action (World.answer around action world).1 ∧
        holds (World.answer around action world).2.store)
    (schedule : List (Turn ι)) {race : Race ι α} (begins : holds race.world.store)
    (honours : ∀ player, (race.programs player).Honours contract ends) :
    holds (race.runAmid around schedule).world.store ∧
      ∀ player, ((race.runAmid around schedule).programs player).Honours contract ends := by
  induction schedule generalizing race with
  | nil => exact ⟨begins, honours⟩
  | cons turn schedule induction =>
      obtain ⟨kept, remaining⟩ := moveAmid_keeps refuses answers turn begins honours
      exact induction kept remaining

end Race
end Handoff
