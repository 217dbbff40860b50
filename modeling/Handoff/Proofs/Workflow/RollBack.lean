import Handoff.Proofs.Stored.Moves
import Handoff.Proofs.Stored.Refusal
import Handoff.Workflow.Undo

/-!
# Rolling back on a store that refuses calls

Whatever has been noted and whichever calls are refused, every noted action is carried out once, the
latest first.  An action that fails changes nothing and is counted, and the next one goes on from
there.  The workflow ends with the failure that stopped it, however many actions have failed.
-/

namespace Handoff

theorem Change.toOption_remove (user : UserId) (tray : Tray) (task : TaskId) (list : List Entry) :
    (remove user tray task list).toOption.map Prod.snd =
      if ∃ entry ∈ list, entry.task = task then some (EntryList.erase task list) else none := by
  unfold remove
  cases found : EntryList.find? task list with
  | none => simpa [Except.toOption] using EntryList.find?_eq_none_iff.mp found
  | some entry =>
      rw [if_pos ⟨entry, EntryList.mem_of_find? found, EntryList.task_eq_of_find? found⟩]
      rfl

theorem Change.toOption_append (user : UserId) (tray : Tray) (entry : Entry) (list : List Entry) :
    (append user tray entry list).toOption.map Prod.snd =
      if ∃ other ∈ list, other.task = entry.task then none else some (list ++ [entry]) := by
  unfold append
  cases found : EntryList.find? entry.task list with
  | none => simpa [Except.toOption] using EntryList.find?_eq_none_iff.mp found
  | some other =>
      rw [if_pos ⟨other, EntryList.mem_of_find? found, EntryList.task_eq_of_find? found⟩]
      rfl

/-- The store with other entries in a tray, if the tray can be read and its entries can be
revised. -/
def Store.revise? (store : Store) (user : UserId) (tray : Tray)
    (revise : List Entry → Option (List Entry)) : Option Store :=
  match store.cell (Key.tray user tray) with
  | .entries list => (revise list).map fun revised =>
    store.insert (Key.tray user tray) (EntryList.encode revised)
  | .value _ => none

/-- The store after an undo action, if the action can be carried out. -/
def Undo.effect (store : Store) : Undo → Option Store
  | .deleteRecord task => some (store.erase (Key.record task))
  | .takeOut user tray task => store.revise? user tray fun list =>
    if ∃ entry ∈ list, entry.task = task then some (EntryList.erase task list) else none
  | .putBack user tray entry => store.revise? user tray fun list =>
    if ∃ other ∈ list, other.task = entry.task then none else some (list ++ [entry])

variable {store after : Store} {exchanges : List Exchange}

open Attempt (Runs)

namespace Trays

variable {β : Type} {budget : Nat} {user : UserId} {tray : Tray} {change : Change β}
  {ended : Except Failure β}

/-- A change of a tray revises its entries, or it fails without effect, because a call is refused or
the entries cannot be revised. -/
theorem of_runs_alter_revise {revise : List Entry → Option (List Entry)}
    (revises : ∀ list, (change list).toOption.map Prod.snd = revise list)
    (runs : Runs (alter budget user tray change) store exchanges ended after) :
    (∃ failure, ended = .error failure ∧ after = store ∧
        ((∃ exchange ∈ exchanges, exchange.isRefused = true) ∨
          store.revise? user tray revise = none)) ∨
      ∃ result, ended = .ok result ∧ (∀ exchange ∈ exchanges, exchange.isRefused = false) ∧
        store.revise? user tray revise = some after := by
  obtain ⟨failure, ends, same, cause⟩ | ⟨list, result, changed, ends, served, shown, done, rfl⟩ :=
    of_runs_alter runs
  · refine .inl ⟨failure, ends, same, cause.imp_right fun fails => ?_⟩
    unfold Store.revise?
    cases shown : store.cell (Key.tray user tray) with
    | value bytes => rfl
    | entries list =>
        obtain ⟨cause, failed⟩ := fails list shown
        simp [← revises, failed, Except.toOption]
  · refine .inr ⟨result, ends, served, ?_⟩
    rw [Store.revise?, shown]
    simp [← revises, done, Except.toOption]

end Trays

namespace Undo

variable {budget : Nat} {undo : Undo} {ended : Except Failure Unit}

/-- An undo action has its effect, or it fails without effect, because a call is refused or it
cannot be carried out. -/
theorem of_runs_apply (runs : Runs (undo.apply budget) store exchanges ended after) :
    (∃ failure, ended = .error failure ∧ after = store ∧
        ((∃ exchange ∈ exchanges, exchange.isRefused = true) ∨ undo.effect store = none)) ∨
      (ended = .ok () ∧ (∀ exchange ∈ exchanges, exchange.isRefused = false) ∧
        undo.effect store = some after) := by
  cases undo with
  | deleteRecord task =>
      obtain ⟨outage, rfl, ends, same⟩ | ⟨rfl, ends, same⟩ := runs.of_call
      · exact .inl ⟨_, ends, same, .inl ⟨_, List.mem_singleton_self _, rfl⟩⟩
      · refine .inr ⟨ends, ?_, congrArg some same.symm⟩
        simp [Exchange.isRefused]
  | takeOut user tray task =>
      obtain ⟨result, rfl, removing⟩ := runs.of_bind_pure
      obtain ⟨failure, rfl, same, cause⟩ | ⟨entry, rfl, served, effect⟩ :=
        Trays.of_runs_alter_revise (Change.toOption_remove user tray task) removing
      · exact .inl ⟨failure, rfl, same, cause⟩
      · exact .inr ⟨rfl, served, effect⟩
  | putBack user tray entry =>
      obtain ⟨failure, rfl, same, cause⟩ | ⟨_, rfl, served, effect⟩ :=
        Trays.of_runs_alter_revise (Change.toOption_append user tray entry) runs
      · exact .inl ⟨failure, rfl, same, cause⟩
      · exact .inr ⟨rfl, served, effect⟩

/-- Undo actions are carried out one after another, whatever becomes of them, and those that fail
are counted.  One that succeeds has its effect.  One that fails changes nothing, and it fails
because a call of it is refused or because it cannot be carried out. -/
inductive CarriedOut (budget : Nat) : Store → List Undo → List Exchange → Nat → Store → Prop
  | nil (store : Store) : CarriedOut budget store [] [] 0 store
  | succeeds {store middle after : Store} {undo : Undo} {undos : List Undo}
    {said exchanges : List Exchange} {failures : Nat}
    (runs : Runs (undo.apply budget) store said (.ok ()) middle)
    (served : ∀ exchange ∈ said, exchange.isRefused = false)
    (effect : undo.effect store = some middle)
    (rest : CarriedOut budget middle undos exchanges failures after) :
    CarriedOut budget store (undo :: undos) (said ++ exchanges) failures after
  | fails {store after : Store} {undo : Undo} {undos : List Undo} {said exchanges : List Exchange}
    {failures : Nat} {failure : Failure}
    (runs : Runs (undo.apply budget) store said (.error failure) store)
    (cause : (∃ exchange ∈ said, exchange.isRefused = true) ∨ undo.effect store = none)
    (rest : CarriedOut budget store undos exchanges failures after) :
    CarriedOut budget store (undo :: undos) (said ++ exchanges) (failures + 1) after

theorem carriedOut_of_runs_applyEach {undos : List Undo} {failures : Nat}
    (runs : (applyEach budget undos).Runs store exchanges failures after) :
    CarriedOut budget store undos exchanges failures after := by
  induction undos generalizing store exchanges failures with
  | nil =>
      obtain ⟨rfl, rfl, rfl⟩ := runs.of_pure
      exact .nil _
  | cons undo undos induction =>
      obtain ⟨ended, said, later, middle, rfl, applied, goes⟩ := runs.of_bind
      obtain ⟨failure, rfl, rfl, cause⟩ | ⟨rfl, served, effect⟩ := of_runs_apply applied
      · obtain ⟨failures, rfl, others⟩ := goes.of_note_bind.of_bind_pure
        exact .fails applied cause (induction others)
      · exact .succeeds applied served effect (induction goes)

theorem carriedOut_of_runs_rollBack {noted : List Undo} {failures : Nat}
    (runs : (rollBack budget noted).Runs store exchanges failures after) :
    CarriedOut budget store noted.reverse exchanges failures after := by
  obtain ⟨failed, said, later, middle, rfl, applied, goes⟩ := runs.of_bind
  have quiet : later = [] ∧ failures = failed ∧ after = middle := by
    split at goes
    · exact goes.of_note_bind.of_pure
    · exact goes.of_pure
  obtain ⟨rfl, rfl, rfl⟩ := quiet
  rw [List.append_nil]
  exact carriedOut_of_runs_applyEach applied

end Undo

namespace Undoable

variable {α : Type} {budget : Nat}

/-- How a workflow ends that has come to a result, with what it has noted. -/
def finish (budget : Nat) : Except Failure α × List Undo → Program (Except Failure α)
  | (.ok a, _) => do
    Program.perform (.note .committed)
    return .ok a
  | (.error failure, noted) => do
    Program.perform (.note .undoing)
    let _ ← Undo.rollBack budget noted
    return .error failure

theorem run_settle (budget : Nat) (workflow : Undoable α) :
    (settle budget workflow).run = workflow.run.run [] >>= finish budget := by
  unfold settle
  rw [ExceptT.run_mk]
  congr

/-- A workflow that fails ends with its own failure, after the noted actions. -/
theorem of_runs_finish_error {failure : Failure} {noted : List Undo} {ended : Except Failure α}
    (runs : (finish budget (.error failure, noted)).Runs store exchanges ended after) :
    ended = .error failure ∧
      ∃ failures, Undo.CarriedOut budget store noted.reverse exchanges failures after := by
  obtain ⟨failures, rfl, undone⟩ := runs.of_note_bind.of_bind_pure
  exact ⟨rfl, failures, Undo.carriedOut_of_runs_rollBack undone⟩

end Undoable

namespace Undo

/-- Whichever calls the store refuses, rolling back carries out every noted action, the latest first,
and tells how many of them have failed.  A workflow that fails is rolled back and ends with its own
failure, and nothing of one that succeeds is undone. -/
theorem carriedOut_of_outages (around : Surroundings) (outages : List Exchange → Option Outage)
    (budget : Nat) (world : World) :
    (∀ noted : List Undo,
      let ended := (rollBack budget noted).runListed around outages world
      CarriedOut budget world.store noted.reverse ended.2.2 ended.1 ended.2.1.store) ∧
    ∀ (α : Type) (workflow : Undoable α),
      let ran := (workflow.run.run []).runListed around outages world
      let settled := (Undoable.settle budget workflow).run.runListed around outages world
      match ran.1 with
      | (.ok a, _) => settled.1 = .ok a ∧ settled.2 = ran.2
      | (.error failure, noted) => settled.1 = .error failure ∧
        ∃ failures exchanges, settled.2.2 = ran.2.2 ++ exchanges ∧
          CarriedOut budget ran.2.1.store noted.reverse exchanges failures settled.2.1.store := by
  constructor
  · intro noted
    exact carriedOut_of_runs_rollBack (Program.runs_runListed around outages _ world)
  · intro α workflow ran settled
    have settled_eq : settled = (Undoable.finish budget ran.1).runWith
        (World.answerListed around outages) ran.2 := by
      have split := Program.runWith_bind (World.answerListed around outages) (workflow.run.run [])
        (Undoable.finish budget) (world, [])
      rwa [← Undoable.run_settle] at split
    clear_value settled
    subst settled_eq
    obtain ⟨⟨failure | a, noted⟩, reached, said⟩ := ran
    · obtain ⟨exchanges, listed, runs⟩ := Program.exists_runs_runWith around outages
        (Undoable.finish budget (.error failure, noted)) reached said
      obtain ⟨failed, failures, carried⟩ := Undoable.of_runs_finish_error runs
      exact ⟨failed, failures, exchanges, listed, carried⟩
    · exact ⟨rfl, congrArg (Prod.mk reached) (List.append_nil said)⟩

/-- What could not be put back cannot be taken out: one refused call makes two actions fail. -/
example :
    let noted := [takeOut "ann" .owned "a", putBack "ann" .owned (.unlinked "a")]
    let world : World := ⟨Store.empty, ⟨0⟩, 0⟩
    let served := (rollBack 0 noted).runListed .strokes (fun _ => none) world
    let refused := (rollBack 0 noted).runListed .strokes
      (fun said => if said.length = 1 then some ⟨"lost"⟩ else none) world
    served.1 = 0 ∧ refused.1 = 2 := by
  decide +kernel

end Undo
end Handoff
