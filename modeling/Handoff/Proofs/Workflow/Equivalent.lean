import Handoff.Proofs.Program.Deeds
import Handoff.Proofs.Race.Basic
import Handoff.Proofs.Stored.Equivalent
import Handoff.Proofs.Stored.Unrepeated
import Handoff.Proofs.Workflow.Reading

/-!
# The form in which trays and records are stored does not matter

Requests that are made one after another of equivalent stores get the same replies and leave
equivalent stores.  A tray that is stored in the older form stays so until it is changed, and is
then written in the newer form.
-/

namespace Handoff

/-- A deed swaps the value of a key, as it was stored, for entries in the newer form. -/
def Deed.Swaps (deed : Deed) (key : String) : Prop :=
  ∃ list, deed.action =
      .call (.compareAndSet key (deed.before.store.get? key) (EntryList.encode list)) ∧
    deed.action.access? deed.answer = some (.swap key) ∧
    deed.after.store.get? key = some (EntryList.encode list)

/-- What a program that is built from operations on trays and records does to a tray is to swap
it. -/
theorem Program.Built.swaps_of_mem_deeds {α : Type} {p : Program α} (built : p.Built)
    {around : Surroundings} {world : World} {deed : Deed} (mem : deed ∈ p.deeds around world)
    {user : UserId} {tray : Tray}
    (differs : deed.after.store.get? (Key.tray user tray) ≠
      deed.before.store.get? (Key.tray user tray)) : deed.Swaps (Key.tray user tray) := by
  obtain ⟨permitted, effect⟩ := built.honours_swaps.of_mem_deeds (fun _ _ => trivial) mem
  obtain ⟨before, action, answer, after⟩ := deed
  dsimp only at permitted effect differs
  cases action with
  | newTaskId | now | nameOf | note =>
      cases effect
      exact absurd rfl differs
  | call request =>
      cases request with
      | get key =>
          cases effect
          exact absurd rfl differs
      | set key value =>
          cases effect
          refine absurd (before.store.get?_insert_of_ne value ?_) differs
          rintro rfl
          cases permitted.symm.trans (Key.isTray_tray user tray)
      | delete key =>
          cases effect
          refine absurd (before.store.get?_erase_of_ne ?_) differs
          rintro rfl
          cases permitted.symm.trans (Key.isTray_tray user tray)
      | compareAndSet key expected value =>
          obtain ⟨_, _, list, changed, _, _, rfl, _⟩ := permitted
          simp only [World.answer, Store.perform] at effect
          split at effect
          · rename_i found
            cases effect
            by_cases here : Key.tray user tray = key
            · subst here
              exact ⟨changed, by rw [found], rfl, before.store.get?_insert_self _ _⟩
            · exact absurd (before.store.get?_insert_of_ne _ here) differs
          · cases effect
            exact absurd rfl differs

namespace World

variable {around : Surroundings}

/-- The reply to a request that is made at a time, and the world after it. -/
def serve (around : Surroundings) (world : World) (turn : Instant × Request) :
    Except Failure Reply × World :=
  turn.2.attempt.run.run around { world with clock := turn.1 }

/-- The replies to requests that are made one after another, and the world after them. -/
def serveAll (around : Surroundings) :
    List (Instant × Request) → World → List (Except Failure Reply) × World
  | [], world => ([], world)
  | turn :: turns, world =>
    let (reply, reached) := world.serve around turn
    let (replies, last) := serveAll around turns reached
    (reply :: replies, last)

/-- What is done for requests that are made one after another. -/
def deedsFor (around : Surroundings) : List (Instant × Request) → World → List Deed
  | [], _ => []
  | turn :: turns, world =>
    turn.2.attempt.run.deeds around { world with clock := turn.1 } ++
      deedsFor around turns (world.serve around turn).2

theorem Equivalent.serve {left right : World} (alike : left.Equivalent right)
    (turn : Instant × Request) :
    (left.serve around turn).1 = (right.serve around turn).1 ∧
      (left.serve around turn).2.Equivalent (right.serve around turn).2 :=
  Program.Built.blind turn.2.built_attempt around _ _ ⟨alike.store, rfl, alike.issued⟩

theorem Equivalent.serveAll {left right : World} (alike : left.Equivalent right)
    (turns : List (Instant × Request)) :
    (left.serveAll around turns).1 = (right.serveAll around turns).1 ∧
      (left.serveAll around turns).2.Equivalent (right.serveAll around turns).2 := by
  induction turns generalizing left right with
  | nil => exact ⟨rfl, alike⟩
  | cons turn turns induction =>
      obtain ⟨same_reply, reached⟩ := alike.serve turn
      obtain ⟨same_replies, last⟩ := induction reached
      exact ⟨congrArg₂ List.cons same_reply same_replies, last⟩

theorem swaps_of_mem_deedsFor {turns : List (Instant × Request)} {world : World} {deed : Deed}
    (mem : deed ∈ world.deedsFor around turns) {user : UserId} {tray : Tray}
    (differs : deed.after.store.get? (Key.tray user tray) ≠
      deed.before.store.get? (Key.tray user tray)) : deed.Swaps (Key.tray user tray) := by
  induction turns generalizing world with
  | nil => cases mem
  | cons turn turns induction =>
      rcases List.mem_append.mp mem with now | later
      · exact Program.Built.swaps_of_mem_deeds turn.2.built_attempt now differs
      · exact induction later

/-- Requests that are made one after another of equivalent stores, at the same times and with the
same names for new records, get the same replies and leave equivalent stores.  No tray changes but
by being swapped for entries in the newer form, so requests that read leave it as it is. -/
theorem same_replies_of_equivalent (around : Surroundings) {left right : Store}
    (alike : left.Equivalent right) (clock : Instant) (issued : Nat)
    (turns : List (Instant × Request)) :
    let mine : World := ⟨left, clock, issued⟩
    let other : World := ⟨right, clock, issued⟩
    (mine.serveAll around turns).1 = (other.serveAll around turns).1 ∧
      (mine.serveAll around turns).2.store.Equivalent (other.serveAll around turns).2.store ∧
      (∀ deed ∈ mine.deedsFor around turns ++ other.deedsFor around turns, ∀ user tray,
        deed.after.store.get? (Key.tray user tray) ≠ deed.before.store.get? (Key.tray user tray) →
          deed.Swaps (Key.tray user tray)) ∧
      ∀ world : World, ∀ turn ∈ turns, turn.2.isReading = true →
        (world.serve around turn).2.store = world.store := by
  intro mine other
  have equivalent : mine.Equivalent other := ⟨alike, rfl, rfl⟩
  obtain ⟨same, last⟩ := equivalent.serveAll turns
  refine ⟨same, last.store, fun deed mem user tray differs => ?_, fun world turn _ reads => ?_⟩
  · rcases List.mem_append.mp mem with first | second
    · exact swaps_of_mem_deedsFor first differs
    · exact swaps_of_mem_deedsFor second differs
  · exact Request.store_run_of_isReading reads around _

/-- A tray in the older form and one in the newer form are shown alike, and a task that is added
comes after the same entries. -/
theorem same_replies_of_older_form :
    let older := Store.empty.insert (Key.tray "ann" .owned) (Utf8.encode "[\"t\", \"s\"]")
    let newer := Store.empty.insert (Key.tray "ann" .owned)
      (EntryList.encode [.unlinked "t", .unlinked "s"])
    let turns : List (Instant × Request) :=
      [(⟨1⟩, .entries "ann" .owned), (⟨2⟩, .write .standard (.add "ann" "Rest" "" none)),
        (⟨3⟩, .entries "ann" .owned)]
    older.get? (Key.tray "ann" .owned) ≠ newer.get? (Key.tray "ann" .owned) ∧
      (serveAll .strokes turns ⟨older, ⟨0⟩, 0⟩).1 = (serveAll .strokes turns ⟨newer, ⟨0⟩, 0⟩).1 ∧
      (serveAll .strokes turns ⟨older, ⟨0⟩, 0⟩).1 =
        [.ok (.listed [.unlinked "t", .unlinked "s"]),
          .ok (.added ⟨"|", "Rest", "", ⟨2⟩, none⟩),
          .ok (.listed [.unlinked "t", .unlinked "s", .unlinked "|"])] := by
  intro older newer turns
  have alike : older.Equivalent newer :=
    (Store.Equivalent.refl Store.empty).insert_tray (by decide +kernel)
  refine ⟨by decide +kernel, ?_, by decide +kernel⟩
  exact (same_replies_of_equivalent .strokes alike ⟨0⟩ 0 turns).1

end World
end Handoff
