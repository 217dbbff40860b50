import Handoff.Proofs.Pool.Round

/-!
# Races

In a race several programs are run over one store.  A schedule tells whose turn it is and at what
time, and at its turn a player takes one action of its program.  It is noted who reads a key and who
swaps its value, in the order in which this happens.
-/

namespace Handoff

/-- What a call has done with the value of a key. -/
inductive Access
  | read (key : String)
  /-- The value has been swapped for another. -/
  | swap (key : String)
deriving DecidableEq, Repr

/-- The access that an action makes, if its answer shows one. -/
def Action.access? : (action : Action) → action.Answer → Option Access
  | .call (.get key), _ => some (.read key)
  | .call (.compareAndSet key ..), .ok true => some (.swap key)
  | _, _ => none

/-- Programs that are run over one store. -/
structure Race (ι α : Type) where
  /-- The common store. -/
  world : World
  /-- What each player has still to do. -/
  programs : ι → Program α
  /-- Who has read or swapped what, in order. -/
  accesses : List (ι × Access)

namespace Race

variable {ι α : Type} [DecidableEq ι]

def start (world : World) (programs : ι → Program α) : Race ι α := ⟨world, programs, []⟩

/-- Lets a player take an action at a time, unless its program has ended. -/
def move (around : Surroundings) (race : Race ι α) (turn : Instant × ι) : Race ι α :=
  match race.programs turn.2 with
  | .done _ => race
  | .act action next =>
    let (answer, world) := World.answer around action { race.world with clock := turn.1 }
    { world
      programs := Function.update race.programs turn.2 (next answer)
      accesses := race.accesses ++ (action.access? answer).toList.map (turn.2, ·) }

/-- Lets players move one after another. -/
def run (around : Surroundings) (schedule : List (Instant × ι)) (race : Race ι α) : Race ι α :=
  schedule.foldl (move around) race

/-- How the program of a player has ended, if it has. -/
def result? (race : Race ι α) (player : ι) : Option α := (race.programs player).result?

variable {race : Race ι α} {player : ι} {action : Action} {next : action.Answer → Program α}

theorem programs_move (program : race.programs player = .act action next)
    (around : Surroundings) (clock : Instant) :
    (race.move around (clock, player)).programs player =
      next (World.answer around action { race.world with clock }).1 := by
  simp [move, program]

theorem result?_move (program : race.programs player = .act action next)
    (around : Surroundings) (clock : Instant) (other : ι) :
    (race.move around (clock, player)).result? other = if other = player then
      (next (World.answer around action { race.world with clock }).1).result?
    else race.result? other := by
  simp only [result?, move, program, Function.update_apply]
  split <;> rfl

end Race

/-- Of two accesses one is made before the other after any more, or the other is just being
made. -/
theorem pair_sublist_append_singleton {β : Type} {first second last : β} {list : List β} :
    [first, second].Sublist (list ++ [last]) ↔
      [first, second].Sublist list ∨ first ∈ list ∧ second = last := by
  have back (others : List β) :
      [second, first].Sublist others.reverse ↔ [first, second].Sublist others := by
    rw [← List.reverse_sublist, List.reverse_reverse]
    rfl
  rw [← back, List.reverse_append, List.reverse_singleton, List.singleton_append,
    List.sublist_cons_iff, back]
  simp [and_comm]

end Handoff
