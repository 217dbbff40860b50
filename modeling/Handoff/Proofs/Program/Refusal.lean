import Handoff.Proofs.Program.Dialogue
import Handoff.Proofs.Race.Outage

/-!
# Programs on a store that refuses calls

A store may refuse any call of a program, and a call that is refused has no effect.  A run is told
by its exchanges: they lead the program to its end, and the store answers all that it does not
refuse.  A run of a program that is put together falls into runs of its parts.
-/

namespace Handoff

namespace Store

/-- What becomes of a store in some exchanges, of which it may refuse any. -/
def Undergoes : Store → List Exchange → Store → Prop
  | store, [], after => after = store
  | store, ⟨_, .error _⟩ :: exchanges, after => store.Undergoes exchanges after
  | store, ⟨request, .ok answer⟩ :: exchanges, after =>
    answer = (store.perform request).1 ∧ (store.perform request).2.Undergoes exchanges after

theorem undergoes_append_iff {store after : Store} {earlier later : List Exchange} :
    store.Undergoes (earlier ++ later) after ↔
      ∃ middle, store.Undergoes earlier middle ∧ middle.Undergoes later after := by
  induction earlier generalizing store with
  | nil => simp [Undergoes]
  | cons exchange earlier induction =>
      obtain ⟨request, outage | answer⟩ := exchange
      · exact induction
      · simp only [List.cons_append, Undergoes, induction, and_assoc, exists_and_left]

end Store

variable {α β : Type} {store after : Store} {exchanges : List Exchange}

namespace Program

/-- A program comes to its end on a store that may refuse calls. -/
structure Runs (p : Program α) (store : Store) (exchanges : List Exchange) (result : α)
    (after : Store) : Prop where
  leads : p.Leads exchanges (.done result)
  undergoes : store.Undergoes exchanges after

theorem Runs.of_pure {a result : α}
    (runs : (pure a : Program α).Runs store exchanges result after) :
    exchanges = [] ∧ result = a ∧ after = store := by
  obtain ⟨leads, undergoes⟩ := runs
  obtain ⟨rfl, ⟨⟩⟩ := leads.of_done
  exact ⟨rfl, rfl, undergoes⟩

theorem Runs.of_bind {p : Program α} {f : α → Program β} {result : β}
    (runs : (p >>= f).Runs store exchanges result after) :
    ∃ a earlier later middle, exchanges = earlier ++ later ∧ p.Runs store earlier a middle ∧
      (f a).Runs middle later result after := by
  obtain ⟨leads, undergoes⟩ := runs
  obtain ⟨a, earlier, later, rfl, first, second⟩ := leads.of_bind
  obtain ⟨middle, before, behind⟩ := Store.undergoes_append_iff.mp undergoes
  exact ⟨a, earlier, later, middle, rfl, ⟨first, before⟩, ⟨second, behind⟩⟩

theorem Runs.of_bind_pure {p : Program α} {f : α → β} {result : β}
    (runs : (p >>= fun a => pure (f a)).Runs store exchanges result after) :
    ∃ a, result = f a ∧ p.Runs store exchanges a after := by
  obtain ⟨a, earlier, later, middle, rfl, begins, goes⟩ := runs.of_bind
  obtain ⟨rfl, rfl, rfl⟩ := goes.of_pure
  rw [List.append_nil]
  exact ⟨a, rfl, begins⟩

theorem Runs.of_note {event : Event} {result : Unit}
    (runs : (perform (.note event)).Runs store exchanges result after) :
    exchanges = [] ∧ after = store := by
  obtain ⟨leads, undergoes⟩ := runs
  obtain ⟨_, later, rfl, rest⟩ := leads.exists_of_act
  obtain ⟨rfl, _⟩ := rest.of_done
  exact ⟨rfl, undergoes⟩

/-- A note does nothing to the store. -/
theorem Runs.of_note_bind {event : Event} {f : Unit → Program α} {result : α}
    (runs : (perform (.note event) >>= f).Runs store exchanges result after) :
    (f ()).Runs store exchanges result after := by
  obtain ⟨_, _, _, _, rfl, noted, goes⟩ := runs.of_bind
  obtain ⟨rfl, rfl⟩ := noted.of_note
  exact goes

end Program

namespace Attempt

/-- An attempt comes to its end on a store that may refuse calls. -/
def Runs (attempt : Attempt α) (store : Store) (exchanges : List Exchange)
    (ended : Except Failure α) (after : Store) : Prop :=
  Program.Runs attempt.run store exchanges ended after

variable {ended : Except Failure α}

theorem Runs.of_pure {a : α} (runs : Runs (pure a) store exchanges ended after) :
    exchanges = [] ∧ ended = .ok a ∧ after = store :=
  Program.Runs.of_pure runs

theorem Runs.of_throw {failure : Failure}
    (runs : Runs (throw failure) store exchanges ended after) :
    exchanges = [] ∧ ended = .error failure ∧ after = store :=
  Program.Runs.of_pure runs

/-- The first of two attempts fails, or the second one goes on. -/
theorem Runs.of_bind {first : Attempt α} {next : α → Attempt β} {ended : Except Failure β}
    (runs : Runs (first >>= next) store exchanges ended after) :
    (∃ failure, ended = .error failure ∧ Runs first store exchanges (.error failure) after) ∨
      ∃ a earlier later middle, exchanges = earlier ++ later ∧
        Runs first store earlier (.ok a) middle ∧ Runs (next a) middle later ended after := by
  obtain ⟨failure | a, earlier, later, middle, rfl, begins, goes⟩ := Program.Runs.of_bind runs
  · obtain ⟨rfl, rfl, rfl⟩ := Program.Runs.of_pure goes
    rw [List.append_nil]
    exact .inl ⟨failure, rfl, begins⟩
  · exact .inr ⟨a, earlier, later, middle, rfl, begins, goes⟩

theorem Runs.of_bind_pure {attempt : Attempt α} {f : α → β} {ended : Except Failure β}
    (runs : Runs (attempt >>= fun a => pure (f a)) store exchanges ended after) :
    ∃ result, ended = result.map f ∧ Runs attempt store exchanges result after := by
  obtain ⟨failure, rfl, begins⟩ | ⟨a, earlier, later, middle, rfl, begins, goes⟩ := runs.of_bind
  · exact ⟨_, rfl, begins⟩
  · obtain ⟨rfl, rfl, rfl⟩ := Runs.of_pure goes
    rw [List.append_nil]
    exact ⟨_, rfl, begins⟩

theorem Runs.of_map {attempt : Attempt α} {f : α → β} {ended : Except Failure β}
    (runs : Runs (f <$> attempt) store exchanges ended after) :
    ∃ result, ended = result.map f ∧ Runs attempt store exchanges result after := by
  rw [← bind_pure_comp] at runs
  exact Runs.of_bind_pure runs

theorem Runs.of_lift_bind {p : Program α} {next : α → Attempt β} {ended : Except Failure β}
    (runs : Runs (ExceptT.lift p >>= next) store exchanges ended after) :
    ∃ a earlier later middle, exchanges = earlier ++ later ∧ p.Runs store earlier a middle ∧
      Runs (next a) middle later ended after := by
  obtain ⟨failure, rfl, lifted⟩ | ⟨a, earlier, later, middle, rfl, lifted, goes⟩ := runs.of_bind
  · obtain ⟨_, ⟨⟩, _⟩ := Program.Runs.of_bind_pure lifted
  · obtain ⟨_, ⟨⟩, begins⟩ := Program.Runs.of_bind_pure lifted
    exact ⟨a, earlier, later, middle, rfl, begins, goes⟩

theorem Runs.of_note_bind {event : Event} {next : Unit → Attempt α}
    (runs : Runs (note event >>= next) store exchanges ended after) :
    Runs (next ()) store exchanges ended after := by
  obtain ⟨_, _, _, _, rfl, noted, goes⟩ := Runs.of_lift_bind runs
  obtain ⟨rfl, rfl⟩ := noted.of_note
  exact goes

/-- A call is refused without effect, or carried out. -/
theorem Runs.of_call {request : Call} {ended : Except Failure request.Answer}
    (runs : Runs (call request) store exchanges ended after) :
    (∃ outage, exchanges = [⟨request, .error outage⟩] ∧ ended = .error (.outage outage.reason) ∧
        after = store) ∨
      (exchanges = [⟨request, .ok (store.perform request).1⟩] ∧
        ended = .ok (store.perform request).1 ∧ after = (store.perform request).2) := by
  obtain ⟨leads, undergoes⟩ := runs
  obtain ⟨outage | answer, later, rfl, rest⟩ := Program.Leads.exists_of_act leads
  · obtain ⟨rfl, ⟨⟩⟩ := rest.of_done
    exact .inl ⟨outage, rfl, rfl, undergoes⟩
  · obtain ⟨rfl, ⟨⟩⟩ := rest.of_done
    obtain ⟨rfl, same⟩ := undergoes
    exact .inr ⟨rfl, rfl, same⟩

end Attempt

/-! ## Runs in a world -/

namespace World

/-- Answers the actions of a program and lists the exchanges.  It depends on what has been said so
far whether the store is out. -/
def answerListed (around : Surroundings) (outages : List Exchange → Option Outage)
    (action : Action) (state : World × List Exchange) : action.Answer × (World × List Exchange) :=
  let (answer, world) := answerAmid around (outages state.2) action state.1
  (answer, world, state.2 ++ (action.exchange? answer).toList)

/-- A store that is out undergoes no change, and one that is not performs the call. -/
theorem undergoes_answerAmid (around : Surroundings) (outage : Option Outage) (action : Action)
    (world : World) :
    world.store.Undergoes (action.exchange? (answerAmid around outage action world).1).toList
      (answerAmid around outage action world).2.store := by
  cases action with
  | newTaskId | now | nameOf | note => rfl
  | call request =>
      cases outage with
      | none => exact ⟨rfl, rfl⟩
      | some outage => rfl

end World

namespace Program

/-- Runs a program in a world where the store may be out, and lists the exchanges. -/
def runListed (around : Surroundings) (outages : List Exchange → Option Outage) (p : Program α)
    (world : World) : α × World × List Exchange :=
  p.runWith (World.answerListed around outages) (world, [])

/-- A program goes on in a world where the store may be out, after what has been said before. -/
theorem exists_runs_runWith (around : Surroundings) (outages : List Exchange → Option Outage)
    (p : Program α) (world : World) (past : List Exchange) :
    let ended := p.runWith (World.answerListed around outages) (world, past)
    ∃ exchanges, ended.2.2 = past ++ exchanges ∧
      p.Runs world.store exchanges ended.1 ended.2.1.store := by
  intro ended
  obtain ⟨exchanges, listed, leads⟩ := exists_leads_runWith
    (World.answerListed around outages) Prod.snd (fun _ _ => rfl) p (world, past)
  let told (state : World × List Exchange) : Prop :=
    ∃ said, state.2 = past ++ said ∧ world.store.Undergoes said state.1.store
  have keeps (action : Action) (state : World × List Exchange) (begins : told state) :
      told (World.answerListed around outages action state).2 := by
    obtain ⟨said, listed, undergoes⟩ := begins
    refine ⟨said ++ _, ?_, Store.undergoes_append_iff.mpr
      ⟨_, undergoes, World.undergoes_answerAmid around (outages state.2) action state.1⟩⟩
    rw [← List.append_assoc, ← listed]
    rfl
  have begins : told (world, past) := ⟨[], (List.append_nil past).symm, rfl⟩
  obtain ⟨said, again, undergoes⟩ : told ended.2 := runWith_keeps keeps p begins
  obtain rfl := List.append_cancel_left (again.symm.trans listed)
  exact ⟨said, again, leads, undergoes⟩

theorem runs_runListed (around : Surroundings) (outages : List Exchange → Option Outage)
    (p : Program α) (world : World) :
    let ended := p.runListed around outages world
    p.Runs world.store ended.2.2 ended.1 ended.2.1.store := by
  intro ended
  obtain ⟨exchanges, listed, runs⟩ := exists_runs_runWith around outages p world []
  have whole : ended.2.2 = exchanges := listed
  exact whole ▸ runs

end Program
end Handoff
