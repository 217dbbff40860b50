import Handoff.Proofs.Pool.History
import Mathlib.Data.Fintype.Card

/-!
# Contention

Clients that change one tray may lose rounds to each other.  A round is lost only when another
client has succeeded since its reading, and each client succeeds once: with as many rounds as there
are clients no call gives up.
-/

namespace Handoff

theorem exists_change {α : Type} (value : Nat → α) {first last : Nat} (ordered : first ≤ last)
    (differs : value last ≠ value first) :
    ∃ index, first ≤ index ∧ index < last ∧ value (index + 1) ≠ value index := by
  induction last, ordered using Nat.le_induction with
  | base => exact absurd rfl differs
  | succ last ordered induction =>
      by_cases same : value last = value first
      · exact ⟨last, ordered, Nat.lt_succ_self last, same ▸ differs⟩
      · obtain ⟨index, after, before, changed⟩ := induction same
        exact ⟨index, after, Nat.lt_succ_of_lt before, changed⟩

theorem Store.swapped_of_get?_ne {store : Store} {key : String} {exchange : Exchange}
    (trying : exchange.call = .get key ∨
      ∃ version entries, exchange.call = .compareAndSet key version (EntryList.encode entries))
    (answered : exchange.answer = .ok (store.perform exchange.call).1)
    (changed : (store.perform exchange.call).2.get? key ≠ store.get? key) :
    ∃ version entries, exchange = .swap key version entries (.ok true) := by
  obtain ⟨request, answer⟩ := exchange
  obtain rfl | ⟨version, entries, rfl⟩ := trying
  · exact absurd rfl changed
  · by_cases same : store.get? key = version
    · simp only [Store.perform, if_pos same] at answered
      exact ⟨version, entries, by rw [Exchange.swap, answered]⟩
    · simp [Store.perform, if_neg same] at changed

theorem TrayCall.rounds_pos (call : TrayCall) : 0 < call.rounds := by
  cases call <;> simp [rounds, Trays.rounds]

variable {κ : Type} [DecidableEq κ]

namespace Exchange

variable {client : κ} {exchanges : List (κ × Exchange)} {index : Nat} {exchange : Exchange}

theorem ofClient_eq_append (said : exchanges[index]? = some (client, exchange)) :
    ofClient client exchanges = ofClient client (exchanges.take index) ++
      exchange :: ofClient client (exchanges.drop (index + 1)) := by
  obtain ⟨inside, said⟩ := List.getElem?_eq_some_iff.mp said
  conv_lhs => rw [← List.take_append_drop index exchanges, List.drop_eq_getElem_cons inside, said]
  simp [ofClient]

theorem getElem?_ofClient (said : exchanges[index]? = some (client, exchange))
    (later : List Exchange) :
    (ofClient client exchanges ++ later)[(ofClient client (exchanges.take index)).length]? =
      some exchange := by
  simp [ofClient_eq_append said]

theorem exists_of_mem_ofClient (mem : exchange ∈ ofClient client exchanges) :
    ∃ place : Nat, exchanges[place]? = some (client, exchange) := by
  obtain ⟨made, said, same⟩ := List.mem_filterMap.mp mem
  obtain ⟨place, said⟩ := List.mem_iff_getElem?.mp said
  refine ⟨place, said.trans ?_⟩
  split at same
  · rename_i by_client
    cases same
    rw [← by_client]
  · cases same

/-- What a client has said last before some place was said at an earlier place, and the client has
said nothing in between. -/
theorem exists_place {earlier : List Exchange}
    (said : ofClient client (exchanges.take index) = earlier ++ [exchange]) :
    ∃ place < index, exchanges[place]? = some (client, exchange) ∧
      ∀ between other, place < between → between < index →
        exchanges[between]? ≠ some (client, other) := by
  obtain ⟨front, back, split, _, said⟩ := List.filterMap_eq_append_iff.mp said
  obtain ⟨before, found, after, rfl, _, same, silent⟩ := List.filterMap_eq_cons_iff.mp said
  obtain rfl : found = (client, exchange) := by
    split at same
    · rename_i by_client
      cases same
      rw [← by_client]
    · cases same
  rw [← List.append_assoc] at split
  have taken (place : Nat) (inside : place < index) :
      exchanges[place]? = (front ++ before ++ (client, exchange) :: after)[place]? := by
    rw [← split, List.getElem?_take_of_lt inside]
  have place_lt : (front ++ before).length < index := by
    have lengths := congrArg List.length split
    simp only [List.length_take, List.length_append, List.length_cons] at lengths ⊢
    omega
  refine ⟨_, place_lt, (taken _ place_lt).trans (by simp), ?_⟩
  intro between other later earlier found
  rw [taken between earlier, List.getElem?_append_right later.le,
    List.getElem?_cons, if_neg (by omega)] at found
  have none := List.filterMap_eq_nil_iff.mp silent _ (List.mem_of_getElem? found)
  simp at none

end Exchange

namespace Pool

variable {pool : Pool κ} {store : Store} {calls : κ → TrayCall} {client rival : κ} {key : String}
  {index : Nat} {exchange : Exchange}

/-- The exchanges of a client are the beginning of a dialogue of its call, and the whole of it if
the call has ended. -/
theorem Told.exists_retries (told : Told store calls pool) (client : κ) :
    ∃ later ended, Trays.Retries (calls client).key (calls client).change (calls client).rounds
        (Exchange.ofClient client pool.exchanges ++ later) ended ∧
      ∀ result, pool.Returns client result → later = [] ∧ ended = result := by
  obtain ⟨rest, leads, _, returned⟩ := told.speaks client
  obtain ⟨later, ended, goes⟩ := rest.exists_leads_done
  refine ⟨later, ended, TrayCall.retries_of_leads (leads.trans goes), fun result returns => ?_⟩
  cases returned result returns
  obtain ⟨rfl, ⟨⟩⟩ := goes.of_done
  exact ⟨rfl, rfl⟩

/-- A client reads and swaps under the key of its call. -/
theorem Told.call_cases (told : Told store calls pool)
    (said : pool.exchanges[index]? = some (client, exchange)) :
    exchange.call = .get (calls client).key ∨ ∃ version entries,
      exchange.call = .compareAndSet (calls client).key version (EntryList.encode entries) := by
  obtain ⟨later, ended, retries, _⟩ := told.exists_retries client
  have here := Exchange.getElem?_ofClient said later
  generalize (Exchange.ofClient client (pool.exchanges.take index)).length = place at here
  rcases Nat.even_or_odd' place with ⟨half, rfl | rfl⟩
  · exact .inl (retries.reads _ _ here (by omega))
  · obtain ⟨version, list, result, changed, _, _, _, called⟩ :=
      retries.swaps _ _ here (by omega)
    exact .inr ⟨version, changed, called⟩

/-- Right before a client tries to swap it has read what it expects. -/
theorem Told.exists_read (told : Told store calls pool)
    (said : pool.exchanges[index]? = some (client, exchange)) (swaps : exchange.isSwap = true) :
    ∃ read version entries, read < index ∧
      pool.exchanges[read]? = some (client, .read (calls client).key (.ok version)) ∧
      exchange.call = .compareAndSet (calls client).key version (EntryList.encode entries) ∧
      ∀ between other, read < between → between < index →
        pool.exchanges[between]? ≠ some (client, other) := by
  obtain ⟨later, ended, retries, _⟩ := told.exists_retries client
  have here := Exchange.getElem?_ofClient said later
  rcases Nat.even_or_odd' (Exchange.ofClient client (pool.exchanges.take index)).length with
    ⟨half, even | odd⟩
  · rw [even] at here
    have reads := retries.reads _ _ here (by omega)
    obtain ⟨request, answer⟩ := exchange
    cases reads
    cases swaps
  · rw [odd] at here
    obtain ⟨version, list, result, changed, read, _, _, called⟩ :=
      retries.swaps _ _ here (by omega)
    obtain ⟨earlier, split⟩ : ∃ earlier, Exchange.ofClient client (pool.exchanges.take index) =
        earlier ++ [.read (calls client).key (.ok version)] := by
      rw [Exchange.ofClient_eq_append said, List.append_assoc,
        List.getElem?_append_left (by omega)] at read
      rw [← List.getLast?_eq_some_iff, List.getLast?_eq_getElem?, odd]
      exact read
    obtain ⟨place, before, found, alone⟩ := Exchange.exists_place split
    exact ⟨place, version, changed, before, found, called, alone⟩

theorem Told.le_of_swapped (told : Told store calls pool) {won : Nat}
    (success : pool.exchanges[won]? = some (client, exchange)) (swapped : exchange.isSwapped = true)
    {other : Exchange} (said : pool.exchanges[index]? = some (client, other)) : index ≤ won := by
  obtain ⟨later, ended, retries, _⟩ := told.exists_retries client
  have silent : Exchange.ofClient client (pool.exchanges.drop (won + 1)) ++ later = [] :=
    retries.stops _ exchange _
      (by rw [Exchange.ofClient_eq_append success, List.append_assoc, List.cons_append]) swapped
  by_contra after
  have mem : (client, other) ∈ pool.exchanges.drop (won + 1) := by
    refine List.mem_of_getElem? (i := index - (won + 1)) ?_
    rw [List.getElem?_drop, Nat.add_sub_cancel' (by omega)]
    exact said
  have unsaid := List.filterMap_eq_nil_iff.mp (List.append_eq_nil_iff.mp silent).1 _ mem
  simp at unsaid

/-- The client has lost a round with the exchange at this place. -/
def Loses (pool : Pool κ) (client : κ) (lost : Nat) : Prop :=
  ∃ exchange, pool.exchanges[lost]? = some (client, exchange) ∧ exchange.isLost = true

/-- A round that a client has lost, and the success of a rival that it was lost to. -/
structure Contention (pool : Pool κ) (key : String) (client rival : κ) (read won lost : Nat) :
    Prop where
  /-- What the client has read is what it expects, and it has said nothing in between. -/
  round : ∃ version entries, pool.exchanges[read]? = some (client, .read key (.ok version)) ∧
    pool.exchanges[lost]? = some (client, .swap key version entries (.ok false)) ∧
    ∀ between other, read < between → between < lost →
      pool.exchanges[between]? ≠ some (client, other)
  success : ∃ version entries,
    pool.exchanges[won]? = some (rival, .swap key version entries (.ok true))
  after : read < won
  before : won < lost
  rival_ne : rival ≠ client

/-- The common store before an exchange. -/
def before (pool : Pool κ) (store : Store) (index : Nat) : Store :=
  store.replay ((pool.exchanges.map Prod.snd).take index)

theorem Told.answered (told : Told store calls pool)
    (said : pool.exchanges[index]? = some (client, exchange)) :
    exchange.answer = .ok ((pool.before store index).perform exchange.call).1 :=
  told.explains index exchange (by simp [said])

omit [DecidableEq κ] in
theorem before_succ (said : pool.exchanges[index]? = some (client, exchange)) :
    pool.before store (index + 1) = ((pool.before store index).perform exchange.call).2 :=
  Store.replay_take_succ (by simp [said])

/-- Each round that is lost is lost to a rival. -/
theorem Told.exists_contention (told : Told store calls pool)
    (shared : ∀ client, (calls client).key = key) {lost : Nat}
    (loses : pool.Loses client lost) :
    ∃ rival read won, pool.Contention key client rival read won lost := by
  obtain ⟨exchange, said, loses⟩ := loses
  obtain ⟨read, version, entries, ordered, found, tried, alone⟩ :=
    told.exists_read said (Exchange.isSwap_of_isLost loses)
  obtain rfl := Exchange.eq_swap_of_isLost loses tried
  rw [shared client] at said found tried
  have was : (pool.before store read).get? key = version := by
    have answered : Except.ok version = .ok ((pool.before store read).get? key) :=
      told.answered found
    exact (Except.ok.inj answered).symm
  have is_not : (pool.before store lost).get? key ≠ version := by
    intro same
    have answered := told.answered said
    simp [Exchange.swap, Store.perform, same] at answered
  obtain ⟨won, after, before, changed⟩ :=
    exists_change (fun index => (pool.before store index).get? key) ordered.le (by rwa [was])
  obtain ⟨⟨rival, success⟩, winning⟩ : ∃ made, pool.exchanges[won]? = some made := by
    have inside := (List.getElem?_eq_some_iff.mp said).1
    exact ⟨_, List.getElem?_eq_getElem (by omega)⟩
  rw [before_succ winning] at changed
  have trying := told.call_cases winning
  rw [shared rival] at trying
  obtain ⟨expected, replacing, rfl⟩ :=
    Store.swapped_of_get?_ne trying (told.answered winning) changed
  have differs : read ≠ won := by
    rintro rfl
    cases found.symm.trans winning
  have later : read < won := by omega
  refine ⟨rival, read, won, ⟨version, entries, found, said, alone⟩,
    ⟨expected, replacing, winning⟩, later, before, ?_⟩
  rintro rfl
  exact alone won _ later before winning

/-- Two rounds of a client that are lost to one rival are not lost one after the other. -/
theorem Contention.lost_le (told : Told store calls pool) {read won lost reading wins loses : Nat}
    (first : pool.Contention key client rival read won lost)
    (second : pool.Contention key client rival reading wins loses) : loses ≤ lost := by
  obtain ⟨version, entries, _, said, _⟩ := first.round
  obtain ⟨_, _, _, _, alone⟩ := second.round
  obtain ⟨_, _, success⟩ := first.success
  obtain ⟨_, _, again⟩ := second.success
  have once : wins ≤ won := told.le_of_swapped success rfl again
  have later := second.after
  have earlier := first.before
  by_contra after
  exact alone lost _ (by omega) (by omega) said

/-- The rounds that a client loses are lost to different rivals. -/
theorem Told.exists_charge (told : Told store calls pool)
    (shared : ∀ client, (calls client).key = key) (client : κ) :
    ∃ charge : Nat → κ, Set.InjOn charge {lost | pool.Loses client lost} ∧
      ∀ lost, pool.Loses client lost →
        ∃ read won, pool.Contention key client (charge lost) read won lost := by
  have : Nonempty κ := ⟨client⟩
  have contended (lost : Nat) (loses : pool.Loses client lost) :
      ∃ rival read won, pool.Contention key client rival read won lost :=
    told.exists_contention shared loses
  choose! charge contention using contended
  refine ⟨charge, fun left loses right also same => ?_, contention⟩
  obtain ⟨_, _, first⟩ := contention left loses
  obtain ⟨_, _, second⟩ := contention right also
  rw [same] at first
  exact Nat.le_antisymm (second.lost_le told first) (first.lost_le told second)

/-- A call that gives up has lost as many rounds as it may make. -/
theorem Told.countP_isLost (told : Told store calls pool) {failure : Failure}
    (returns : pool.Returns client (.error failure)) (conflict : failure.kind = .conflict) :
    (Exchange.ofClient client pool.exchanges).countP Exchange.isLost = (calls client).rounds := by
  obtain ⟨later, ended, retries, whole⟩ := told.exists_retries client
  obtain ⟨rfl, rfl⟩ := whole _ returns
  rw [List.append_nil] at retries
  obtain ⟨all, lost⟩ := retries.gives_up.mp ⟨failure, rfl, conflict⟩
  rw [← all]
  exact List.countP_congr fun exchange mem => ⟨Exchange.isSwap_of_isLost, lost exchange mem⟩

theorem Told.isLost_of_isSwap (told : Told store calls pool) {failure : Failure}
    (returns : pool.Returns client (.error failure)) (conflict : failure.kind = .conflict)
    (said : pool.exchanges[index]? = some (client, exchange)) (swaps : exchange.isSwap = true) :
    exchange.isLost = true := by
  obtain ⟨later, ended, retries, whole⟩ := told.exists_retries client
  obtain ⟨rfl, rfl⟩ := whole _ returns
  obtain ⟨_, lost⟩ := retries.gives_up.mp ⟨failure, rfl, conflict⟩
  exact lost exchange (List.mem_of_getElem? (Exchange.getElem?_ofClient said [])) swaps

/-- A call that gives up has fewer rounds than there are clients. -/
theorem Told.rounds_lt_card [Fintype κ] (told : Told store calls pool)
    (shared : ∀ client, (calls client).key = key) {failure : Failure}
    (returns : pool.Returns client (.error failure)) (conflict : failure.kind = .conflict) :
    (calls client).rounds < Fintype.card κ := by
  obtain ⟨charge, distinct, contention⟩ := told.exists_charge shared client
  let loses (made : κ × Exchange) : Bool := decide (made.1 = client) && made.2.isLost
  let places := pool.exchanges.findIdxs loses
  have is_lost (place : Nat) (mem : place ∈ places) : pool.Loses client place := by
    obtain ⟨inside, loses⟩ := List.mem_findIdxs_iff_exists_getElem_pos.mp mem
    obtain ⟨by_client, lost⟩ := Bool.and_eq_true_iff.mp loses
    exact ⟨_, by rw [List.getElem?_eq_getElem inside, ← of_decide_eq_true by_client], lost⟩
  have charged : (client :: places.map charge).Nodup := by
    refine List.nodup_cons.mpr ⟨fun mem => ?_, ?_⟩
    · obtain ⟨place, mem, same⟩ := List.mem_map.mp mem
      obtain ⟨_, _, contended⟩ := contention place (is_lost place mem)
      exact contended.rival_ne same
    · exact List.nodup_findIdxs.map_on fun left mem right also same =>
        distinct (is_lost left mem) (is_lost right also) same
  have many := charged.length_le_card
  have count : places.length = (calls client).rounds := by
    rw [← told.countP_isLost returns conflict, List.length_findIdxs, Exchange.ofClient,
      List.countP_filterMap]
    refine List.countP_congr fun made _ => ?_
    by_cases by_client : made.1 = client
    · simp [loses, by_client]
    · simp [loses, by_client]
  simp only [List.length_cons, List.length_map, count] at many
  omega

/-- Some call does not give up: whoever loses a round has a rival that has succeeded. -/
theorem Told.exists_spared [Nonempty κ] (told : Told store calls pool)
    (shared : ∀ client, (calls client).key = key) :
    ∃ client, ∀ failure, pool.Returns client (.error failure) → failure.kind ≠ .conflict := by
  by_contra! all
  obtain ⟨client⟩ := ‹Nonempty κ›
  obtain ⟨failure, returns, conflict⟩ := all client
  obtain ⟨exchange, mem, lost⟩ : ∃ exchange ∈ Exchange.ofClient client pool.exchanges,
      exchange.isLost = true := by
    rw [← List.countP_pos_iff, told.countP_isLost returns conflict]
    exact (calls client).rounds_pos
  obtain ⟨place, said⟩ := Exchange.exists_of_mem_ofClient mem
  obtain ⟨rival, _, won, contended⟩ := told.exists_contention shared ⟨exchange, said, lost⟩
  obtain ⟨version, entries, success⟩ := contended.success
  obtain ⟨failure, returns, conflict⟩ := all rival
  have given_up := told.isLost_of_isSwap returns conflict success rfl
  cases given_up

/-- What is known of clients that change one tray, with one call each. -/
structure Contends (pool : Pool κ) (key : String) (calls : κ → TrayCall) [Fintype κ] : Prop where
  /-- Each lost round of a client can be charged to the success of a rival between its reading and
  its swap, and different rounds are charged to different rivals. -/
  charged : ∀ client, ∃ charge : Nat → κ, Set.InjOn charge {lost | pool.Loses client lost} ∧
    ∀ lost, pool.Loses client lost →
      ∃ read won, pool.Contention key client (charge lost) read won lost
  /-- No call gives up that may make as many rounds as there are clients. -/
  spared : ∀ client, Fintype.card κ ≤ (calls client).rounds →
    ∀ failure, pool.Returns client (.error failure) → failure.kind ≠ .conflict
  /-- Some call does not give up. -/
  exists_spared : ∃ client, ∀ failure, pool.Returns client (.error failure) →
    failure.kind ≠ .conflict

/-- Whatever the schedule, calls give up only because others have succeeded. -/
theorem contends_run [Fintype κ] [Nonempty κ] (around : Surroundings) (world : World)
    (calls : κ → TrayCall) (shared : ∀ client, (calls client).key = key) (schedule : List κ) :
    ((start world fun client => [calls client]).run around schedule).Contends key calls := by
  have told := told_run around world calls schedule
  refine ⟨told.exists_charge shared, fun client enough failure returns conflict => ?_,
    told.exists_spared shared⟩
  exact absurd (told.rounds_lt_card shared returns conflict) (by omega)

/-- With one round each, the client that swaps second gives up. -/
theorem contends_of_race :
    let around : Surroundings := ⟨fun _ => none, fun _ => ""⟩
    let calls : Bool → TrayCall := fun client => .append 1 "ann" .owned
      (.unlinked (bif client then "1" else "2"))
    let pool := (start ⟨.empty, ⟨0⟩, 0⟩ fun client => [calls client]).run around
      [true, false, true, false, false, false]
    (∀ client, (calls client).key = Key.tray "ann" .owned) ∧
      pool.Contends (Key.tray "ann" .owned) calls ∧
      pool.moments.filterMap (fun moment => moment.result.map (moment.client, ·)) =
        [(true, .ok none), (false, .error (.contended (Key.tray "ann" .owned) 1))] := by
  intro around calls pool
  have shared (client : Bool) : (calls client).key = Key.tray "ann" .owned := rfl
  exact ⟨shared, contends_run around ⟨.empty, ⟨0⟩, 0⟩ calls shared _, by decide +kernel⟩

end Pool
end Handoff
