import Handoff.Proofs.Race.Basic
import Mathlib.Data.Fintype.Order

/-!
# Fair races

If every player has a turn again and again, every program comes to its end: it is a tree of actions,
and each turn of its player leads one step down.
-/

namespace Handoff.Race

variable {ι α : Type} [DecidableEq ι] {around : Surroundings} {race : Race ι α} {player : ι}
  {turns : Nat → Instant × ι}

/-- Every player has a turn again and again. -/
def Fair (turns : Nat → Instant × ι) : Prop := ∀ player n, ∃ m, n ≤ m ∧ (turns m).2 = player

/-- The race after some turns of a schedule without end. -/
def after (around : Surroundings) (race : Race ι α) (turns : Nat → Instant × ι) (n : Nat) :
    Race ι α := race.run around ((List.range n).map turns)

theorem after_succ (n : Nat) :
    race.after around turns (n + 1) = (race.after around turns n).move around (turns n) := by
  simp [after, run, List.range_succ]

/-- A program stays as it is at the turns of other players. -/
theorem programs_move_of_ne (around : Surroundings) {turn : Instant × ι}
    (other : turn.2 ≠ player) : (race.move around turn).programs player = race.programs player := by
  cases program : race.programs turn.2 with
  | done result => simp [move, program]
  | act action next => simp [move, program, Function.update_of_ne other.symm]

theorem programs_after_of_ne {n m : Nat} (later : n ≤ m)
    (others : ∀ k, n ≤ k → k < m → (turns k).2 ≠ player) :
    (race.after around turns m).programs player = (race.after around turns n).programs player := by
  induction m, later using Nat.le_induction with
  | base => rfl
  | succ m later induction =>
      rw [after_succ, programs_move_of_ne around (others m later m.lt_succ_self)]
      exact induction fun k from_n below => others k from_n (below.trans m.lt_succ_self)

theorem programs_after_of_done {n m : Nat} {result : α} (later : n ≤ m)
    (ended : (race.after around turns n).programs player = .done result) :
    (race.after around turns m).programs player = .done result := by
  induction m, later using Nat.le_induction with
  | base => exact ended
  | succ m _ induction =>
      rw [after_succ]
      by_cases mine : (turns m).2 = player
      · subst mine
        simp [move, induction]
      · rw [programs_move_of_ne around mine, induction]

/-- A player who has a turn again and again comes to the end of its program. -/
theorem exists_done (recurs : ∀ n, ∃ m, n ≤ m ∧ (turns m).2 = player) (n : Nat) :
    ∃ m result, (race.after around turns m).programs player = .done result := by
  classical
  generalize program : (race.after around turns n).programs player = p
  induction p generalizing n with
  | done result => exact ⟨n, result, program⟩
  | act action next induction =>
      let first := Nat.find (recurs n)
      obtain ⟨later, mine⟩ := Nat.find_spec (recurs n)
      have waiting : (race.after around turns first).programs player = .act action next := by
        rw [programs_after_of_ne later fun k from_n below here =>
          Nat.find_min (recurs n) below ⟨from_n, here⟩, program]
      have turn_eq : turns first = ((turns first).1, player) := Prod.ext rfl mine
      let before := (race.after around turns first).world
      refine induction (World.answer around action { before with clock := (turns first).1 }).1
        (first + 1) ?_
      rw [after_succ, turn_eq]
      exact programs_move waiting around _

/-- In a fair race of finitely many players all of them come to an end. -/
theorem Fair.exists_ended [Finite ι] (fair : Fair turns) (around : Surroundings)
    (race : Race ι α) :
    ∃ n, ∀ m, n ≤ m → ∀ player, ∃ result,
      (race.after around turns m).result? player = some result := by
  have each (player : ι) : ∃ m result,
      (race.after around turns m).programs player = .done result := exists_done (fair player) 0
  choose moment result ended using each
  obtain ⟨n, last⟩ := Finite.exists_le moment
  refine ⟨n, fun m later player => ⟨result player, ?_⟩⟩
  have ended_by := programs_after_of_done ((last player).trans later) (ended player)
  rw [result?, ended_by]
  rfl

end Handoff.Race
