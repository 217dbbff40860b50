import Handoff.Proofs.Pool.Dialogue

/-!
# What clients have said to their store

All clients talk to one store, which answers each call as it is at that moment.  The exchanges of
one client are a dialogue of its call, as far as the client has come.
-/

namespace Handoff

namespace Store

/-- A store after some calls. -/
def replay (store : Store) (exchanges : List Exchange) : Store :=
  exchanges.foldl (fun store exchange => (store.perform exchange.call).2) store

/-- All answers are those of the store. -/
def Explains (store : Store) (exchanges : List Exchange) : Prop :=
  ∀ index (exchange : Exchange), exchanges[index]? = some exchange →
    exchange.answer = .ok ((store.replay (exchanges.take index)).perform exchange.call).1

variable {store : Store} {exchanges : List Exchange} {exchange : Exchange}

theorem replay_take_succ {index : Nat} (said : exchanges[index]? = some exchange) :
    store.replay (exchanges.take (index + 1)) =
      ((store.replay (exchanges.take index)).perform exchange.call).2 := by
  simp only [replay, List.take_add_one, said, Option.toList_some, List.foldl_append,
    List.foldl_cons, List.foldl_nil]

theorem replay_append (earlier later : List Exchange) :
    store.replay (earlier ++ later) = (store.replay earlier).replay later :=
  List.foldl_append

theorem Explains.append (explains : store.Explains exchanges) {made : Option Exchange}
    (answered : ∀ exchange ∈ made,
      exchange.answer = .ok ((store.replay exchanges).perform exchange.call).1) :
    store.Explains (exchanges ++ made.toList) := by
  intro index other said
  rcases Nat.lt_or_ge index exchanges.length with inside | outside
  · rw [List.getElem?_append_left inside] at said
    rw [List.take_append_of_le_length inside.le]
    exact explains index other said
  · rw [List.getElem?_append_right outside] at said
    cases made with
    | none => cases said
    | some exchange =>
        obtain rfl : index = exchanges.length := by
          have last := (List.getElem?_eq_some_iff.mp said).1
          simp only [Option.toList_some, List.length_cons, List.length_nil] at last
          omega
        rw [Nat.sub_self] at said
        obtain rfl := Option.some.inj said
        rw [List.take_left]
        exact answered _ rfl

end Store

namespace World

theorem answer_store (around : Surroundings) (action : Action) (world : World) :
    (World.answer around action world).2.store =
      world.store.replay (action.exchange? (World.answer around action world).1).toList := by
  cases action <;> rfl

theorem answer_of_exchange? (around : Surroundings) {action : Action} {world : World}
    {exchange : Exchange}
    (made : action.exchange? (World.answer around action world).1 = some exchange) :
    exchange.answer = .ok (world.store.perform exchange.call).1 := by
  cases action with
  | call request =>
      cases made
      rfl
  | newTaskId | now | nameOf | note => cases made

end World

/-- A program whose result is known has ended. -/
theorem Program.eq_done_of_result? {α : Type} {p : Program α} {result : α}
    (ended : p.result? = some result) : p = .done result := by
  cases p with
  | done other =>
      cases ended
      rfl
  | act action next => cases ended

theorem Exchange.map_snd_toList {κ : Type} (client : κ) (made : Option Exchange) :
    (made.map (client, ·)).toList.map Prod.snd = made.toList := by
  cases made <;> rfl

variable {κ : Type} [DecidableEq κ] {client other : κ}

namespace Moment

/-- The store call that has been made, and who has made it. -/
def exchange? (moment : Moment κ) : Option (κ × Exchange) :=
  (moment.action.exchange? moment.answer).map (moment.client, ·)

end Moment

namespace Exchange

/-- The exchanges of one client. -/
def ofClient (client : κ) (exchanges : List (κ × Exchange)) : List Exchange :=
  exchanges.filterMap fun exchange => if exchange.1 = client then some exchange.2 else none

theorem ofClient_append (earlier later : List (κ × Exchange)) :
    ofClient client (earlier ++ later) = ofClient client earlier ++ ofClient client later :=
  List.filterMap_append

theorem ofClient_self (made : Option Exchange) :
    ofClient client (made.map (client, ·)).toList = made.toList := by
  cases made <;> simp [ofClient]

theorem ofClient_of_ne (differs : client ≠ other) (made : Option Exchange) :
    ofClient other (made.map (client, ·)).toList = [] := by
  cases made <;> simp [ofClient, differs]

end Exchange

namespace Pool

/-- All store calls that have been made, in order. -/
def exchanges (pool : Pool κ) : List (κ × Exchange) := pool.moments.filterMap Moment.exchange?

/-- A call of the client has ended. -/
def Returns (pool : Pool κ) (client : κ) (ended : Except Failure (Option Entry)) : Prop :=
  ∃ moment ∈ pool.moments, moment.client = client ∧ moment.result = some ended

/-! ## One action more -/

/-- The pool after one more action of a client. -/
def acted (pool : Pool κ) (world : World) (current : Client) (moment : Moment κ) : Pool κ :=
  ⟨world, Function.update pool.clients moment.client current, pool.moments ++ [moment]⟩

variable {pool : Pool κ} {world : World} {current : Client} {moment : Moment κ}

theorem exchanges_acted :
    (pool.acted world current moment).exchanges = pool.exchanges ++ moment.exchange?.toList := by
  rw [exchanges, acted, List.filterMap_append, ← exchanges]
  cases made : moment.exchange? <;> simp [made]

theorem returns_acted {ended : Except Failure (Option Entry)} :
    (pool.acted world current moment).Returns client ended ↔
      pool.Returns client ended ∨ moment.client = client ∧ moment.result = some ended := by
  simp only [Returns, acted, List.mem_append, List.mem_singleton, or_and_right, exists_or,
    exists_eq_left]

variable {store : Store} {calls : κ → TrayCall} {call : TrayCall} {action : Action}
  {next : action.Answer → Program (Except Failure (Option Entry))} {seen : Option Store}

/-- A client has come so far with its only call. -/
def Speaks (pool : Pool κ) (client : κ) (call : TrayCall) : Prop :=
  ∃ rest, call.attempt.run.Leads (Exchange.ofClient client pool.exchanges) rest ∧
    (pool.clients client = .idle ∨ ∃ seen, pool.clients client = .busy call rest seen []) ∧
    ∀ ended, pool.Returns client ended → rest = .done ended

theorem Speaks.update {clients : κ → Client} (speaks : pool.Speaks client call)
    (same : clients client = .idle ∨ clients client = pool.clients client) :
    ({ pool with clients } : Pool κ).Speaks client call := by
  obtain ⟨rest, leads, current, returned⟩ := speaks
  refine ⟨rest, leads, ?_, returned⟩
  rcases same with idle | same
  · exact .inl idle
  · exact current.imp same.trans fun ⟨seen, busy⟩ => ⟨seen, same.trans busy⟩

theorem Speaks.acted_self (speaks : pool.Speaks client call)
    (busy : pool.clients client = .busy call (.act action next) seen []) (answer : action.Answer)
    (world : World) (now : Option Store) :
    (pool.acted world (.busy call (next answer) now [])
      ⟨client, call, action, answer, now, (next answer).result?⟩).Speaks client call := by
  obtain ⟨rest, leads, idle | ⟨_, same⟩, returned⟩ := speaks
  · cases idle.symm.trans busy
  · cases same.symm.trans busy
    refine ⟨next answer, ?_, .inr ⟨now, Function.update_self ..⟩, fun ended returns => ?_⟩
    · rw [exchanges_acted, Exchange.ofClient_append, Moment.exchange?, Exchange.ofClient_self]
      exact leads.snoc answer
    · rcases returns_acted.mp returns with before | ⟨_, result⟩
      · cases returned ended before
      · exact Program.eq_done_of_result? result

/-- The other clients stay where they are. -/
theorem Speaks.acted_of_ne (speaks : pool.Speaks other call) (differs : moment.client ≠ other) :
    (pool.acted world current moment).Speaks other call := by
  obtain ⟨rest, leads, place, returned⟩ := speaks
  have same : (pool.acted world current moment).clients other = pool.clients other :=
    Function.update_of_ne differs.symm ..
  refine ⟨rest, ?_, ?_, fun ended returns => ?_⟩
  · rw [exchanges_acted, Exchange.ofClient_append, Moment.exchange?,
      Exchange.ofClient_of_ne differs, List.append_nil]
    exact leads
  · rwa [same]
  · rcases returns_acted.mp returns with before | ⟨is_client, _⟩
    · exact returned ended before
    · exact absurd is_client differs

/-! ## Clients with one call each -/

/-- All clients talk to one store, each of them for its only call. -/
structure Told (store : Store) (calls : κ → TrayCall) (pool : Pool κ) : Prop where
  explains : store.Explains (pool.exchanges.map Prod.snd)
  replays : pool.world.store = store.replay (pool.exchanges.map Prod.snd)
  speaks : ∀ client, pool.Speaks client (calls client)

theorem told_start (world : World) (calls : κ → TrayCall) :
    Told world.store calls (start world fun client => [calls client]) where
  explains := by rintro _ _ ⟨⟩
  replays := rfl
  speaks client := ⟨_, .refl _, .inr ⟨none, rfl⟩, by rintro _ ⟨_, ⟨⟩, _⟩⟩

theorem Told.acted (told : Told store calls pool) (around : Surroundings)
    (busy : pool.clients client = .busy (calls client) (.act action next) seen [])
    {answer : action.Answer} (answered : World.answer around action pool.world = (answer, world))
    (now : Option Store) :
    Told store calls (pool.acted world (.busy (calls client) (next answer) now [])
      ⟨client, calls client, action, answer, now, (next answer).result?⟩) := by
  have speaks (other : κ) : (pool.acted world (.busy (calls client) (next answer) now [])
      ⟨client, calls client, action, answer, now, (next answer).result?⟩).Speaks other
        (calls other) := by
    by_cases same : client = other
    · subst same
      exact (told.speaks client).acted_self busy answer world now
    · exact (told.speaks other).acted_of_ne same
  let made := action.exchange? answer
  have said : ((pool.acted world (.busy (calls client) (next answer) now [])
      ⟨client, calls client, action, answer, now, (next answer).result?⟩).exchanges.map Prod.snd) =
        pool.exchanges.map Prod.snd ++ made.toList := by
    rw [exchanges_acted, List.map_append, Moment.exchange?, Exchange.map_snd_toList]
  refine ⟨?_, ?_, speaks⟩
  · rw [said]
    refine told.explains.append fun exchange mem => ?_
    rw [← told.replays]
    exact World.answer_of_exchange? around (by rwa [answered])
  · rw [said, Store.replay_append, ← told.replays]
    have stored := World.answer_store around action pool.world
    rwa [answered] at stored

theorem Told.move (told : Told store calls pool) (around : Surroundings) (client : κ) :
    Told store calls (pool.move around client) := by
  obtain ⟨rest, leads, idle | ⟨seen, busy⟩, returned⟩ := told.speaks client
  · simpa [Pool.move, idle] using told
  · cases rest with
    | done ended =>
        simp only [Pool.move, busy]
        refine ⟨told.explains, told.replays, fun other => (told.speaks other).update ?_⟩
        by_cases same : other = client
        · subst same
          exact .inl (Function.update_self ..)
        · exact .inr (Function.update_of_ne same ..)
    | act action next =>
        simp only [Pool.move, busy]
        exact told.acted around busy rfl _

/-- Whatever the schedule, clients talk to one store. -/
theorem told_run (around : Surroundings) (world : World) (calls : κ → TrayCall)
    (schedule : List κ) :
    Told world.store calls ((start world fun client => [calls client]).run around schedule) :=
  run_keeps around (fun _ client told => told.move around client) schedule (told_start world calls)

end Pool
end Handoff
