import Handoff.Proofs.Pool.Basic

/-!
# Calls take effect one after another

However the actions of the clients are interleaved, each tray ends as if the calls that have
succeeded had been made one after another, in the order in which they have swapped its value.
-/

namespace Handoff

namespace EntryList

theorem perm_cons_erase {list : List Entry} {task : TaskId} {entry : Entry}
    (found : find? task list = some entry) : list.Perm (entry :: erase task list) := by
  induction list with
  | nil => cases found
  | cons first rest induction =>
      by_cases same : first.task = task
      · obtain rfl : first = entry := by simpa [find?, same] using found
        simp [erase, same]
      · have later : find? task rest = some entry := by simpa [find?, same] using found
        have stays : erase task (first :: rest) = first :: erase task rest := by
          simp [erase, same]
        rw [stays]
        exact ((induction later).cons first).trans (.swap entry first _)

end EntryList

namespace TrayCall

/-- What a call takes out was there or was put in, and the rest is left. -/
theorem perm_of_change {call : TrayCall} {list changed : List Entry} {value : Option Entry}
    (done : call.change list = .ok (value, changed)) :
    (list ++ call.added.toList).Perm (changed ++ value.toList) := by
  cases call with
  | append budget user tray entry =>
      obtain ⟨_, appended, rfl⟩ := (Change.map_eq_ok_iff (f := fun _ => none)).mp done
      obtain ⟨_, rfl⟩ := (Change.append_eq_ok_iff user tray).mp appended
      simp [added]
  | remove budget user tray task =>
      obtain ⟨entry, removed, rfl⟩ := Change.map_eq_ok_iff.mp done
      obtain ⟨found, rfl⟩ := (Change.remove_eq_ok_iff user tray task).mp removed
      have taken :=
        (EntryList.perm_cons_erase found).trans (List.perm_append_singleton entry _).symm
      simpa [added] using taken
  | pop budget user tray =>
      obtain ⟨entry, popped, rfl⟩ := Change.map_eq_ok_iff.mp done
      cases list with
      | nil => cases popped
      | cons first rest =>
          cases popped
          simpa [added] using (List.perm_append_singleton entry changed).symm
  | bump budget user tray task =>
      obtain ⟨_, bumped, rfl⟩ := (Change.map_eq_ok_iff (f := fun _ => none)).mp done
      obtain ⟨entry, found, rfl⟩ := (Change.bump_eq_ok_iff user tray task).mp bumped
      simpa [added] using EntryList.perm_cons_erase found

end TrayCall

namespace EntryList

/-- The entries of a tray after calls one after another, if each of them yields the given value. -/
def replay (list : List Entry) (calls : List (TrayCall × Option Entry)) : Option (List Entry) :=
  calls.foldlM (fun list made =>
    match made.1.change list with
    | .ok (value, changed) => if value = made.2 then some changed else none
    | .error _ => none) list

/-- The first call yields its value, and the others go on from what it leads to. -/
theorem replay_cons_eq_some_iff {list final : List Entry} {calls : List (TrayCall × Option Entry)}
    {call : TrayCall} {value : Option Entry} :
    replay list ((call, value) :: calls) = some final ↔
      ∃ changed, call.change list = .ok (value, changed) ∧ replay changed calls = some final := by
  unfold replay
  rw [List.foldlM_cons]
  rcases call.change list with failure | ⟨result, changed⟩
  · simp
  · by_cases same : result = value <;> simp [same]

theorem replay_concat {list final changed : List Entry} {calls : List (TrayCall × Option Entry)}
    {call : TrayCall} {value : Option Entry} (replayed : replay list calls = some final)
    (done : call.change final = .ok (value, changed)) :
    replay list (calls ++ [(call, value)]) = some changed := by
  unfold replay at replayed ⊢
  rw [List.foldlM_append, replayed]
  simp [done]

/-- Calls one after another neither lose an entry nor hand it out twice. -/
theorem perm_of_replay {list final : List Entry} {calls : List (TrayCall × Option Entry)}
    (replayed : replay list calls = some final) :
    (list ++ calls.filterMap fun made => made.1.added).Perm
      (final ++ calls.filterMap Prod.snd) := by
  induction calls generalizing list with
  | nil =>
      obtain rfl := Option.some.inj replayed
      exact .refl _
  | cons made calls induction =>
      obtain ⟨call, value⟩ := made
      obtain ⟨changed, done, rest⟩ := replay_cons_eq_some_iff.mp replayed
      let added := calls.filterMap fun made => made.1.added
      let taken := calls.filterMap Prod.snd
      have added_eq : ((call, value) :: calls).filterMap (fun made => made.1.added) =
          call.added.toList ++ added := by
        cases puts : call.added <;> simp [puts, added]
      have taken_eq : ((call, value) :: calls).filterMap Prod.snd = value.toList ++ taken := by
        cases value <;> simp [taken]
      rw [added_eq, taken_eq]
      calc
        (list ++ (call.added.toList ++ added)).Perm (list ++ call.added.toList ++ added) := by simp
        List.Perm _ (changed ++ value.toList ++ added) :=
          (TrayCall.perm_of_change done).append_right added
        List.Perm _ (value.toList ++ (changed ++ added)) := by
          rw [List.append_assoc]
          exact List.perm_append_comm_assoc ..
        List.Perm _ (value.toList ++ (final ++ taken)) := (induction rest).append_left _
        List.Perm _ (final ++ (value.toList ++ taken)) := List.perm_append_comm_assoc ..

end EntryList

namespace Client

/-- A client whose call is being made as calls are. -/
def Going : Client → Prop
  | .idle => True
  | .busy call program seen waiting =>
    (∀ other ∈ call :: waiting, other.WellLinked) ∧
      Trays.Phase call.rounds call.key call.change seen program

theorem going_ofCalls {calls : List TrayCall} (well : ∀ call ∈ calls, call.WellLinked) :
    (ofCalls calls).Going := by
  cases calls with
  | nil => trivial
  | cons call waiting =>
      refine ⟨well, ?_⟩
      rw [TrayCall.attempt_eq]
      exact Trays.phase_changeWithin none call.rounds

end Client

namespace Moment

variable {κ : Type} {moment : Moment κ} {key : String}

/-- How an action ends the call that it belongs to, if it does. -/
structure Explained (moment : Moment κ) : Prop where
  /-- A call succeeds with the action that swaps the value of the tray, and with no other. -/
  swapped : moment.swapped = true ↔ ∃ value, moment.result = some (.ok value)
  /-- A call that misses an entry, or finds one for its task, fails as its change fails for the
  entries that were read last. -/
  refused : ∀ failure, moment.result = some (.error failure) →
    failure.kind = .notFound ∨ failure.kind = .duplicateEntry →
      ∃ store list, moment.seen = some store ∧ store.cell moment.call.key = .entries list ∧
        moment.call.change list = .error failure

theorem success?_of_unfinished (unfinished : ∀ value, moment.result ≠ some (.ok value)) :
    moment.success? key = none := by
  unfold success?
  split
  · rename_i value finished
    exact absurd finished (unfinished value)
  · rfl

theorem success?_of_ne (differs : moment.call.key ≠ key) : moment.success? key = none := by
  unfold success?
  split
  · exact if_neg differs
  · rfl

theorem success?_of_finished {value : Option Entry} (finished : moment.result = some (.ok value)) :
    moment.success? moment.call.key = some (moment.call, value) := by
  simp [success?, finished]

end Moment

namespace Pool

variable {κ : Type} {pool before after : Pool κ} {moment : Moment κ} {key : String}

/-- What a move does. -/
inductive Moved (before after : Pool κ) : Prop
  /-- Nothing to the store. -/
  | still (same : after.world.store = before.world.store) (noted : after.moments = before.moments)
  /-- What an action of a change does. -/
  | acted (moment : Moment κ) (noted : after.moments = before.moments ++ [moment])
    (effect : Trays.Effect moment.call.key moment.call.change before.world.store after.world.store
      moment.swapped moment.result)
    (cause : ∀ failure, moment.result = some (.error failure) →
      Trays.Cause moment.call.rounds moment.call.key moment.call.change moment.seen failure)

namespace Moved

theorem successes_eq (noted : after.moments = before.moments ++ [moment]) (key : String) :
    after.successes key = before.successes key ++ (moment.success? key).toList := by
  unfold successes
  rw [noted, List.filterMap_append]
  cases succeeds : moment.success? key <;> simp [succeeds]

theorem explained (moved : Moved before after)
    (all : ∀ moment ∈ before.moments, moment.Explained) :
    ∀ moment ∈ after.moments, moment.Explained := by
  cases moved with
  | still same noted => rwa [noted]
  | acted latest noted effect cause =>
      rw [noted]
      intro moment mem
      rcases List.mem_append.mp mem with old | new
      · exact all moment old
      · obtain rfl := List.mem_singleton.mp new
        constructor
        · cases effect with
          | quiet same not_swapped unfinished => simp [not_swapped, unfinished]
          | applied list changed result is_swapped finished shown done cells =>
              simp [is_swapped, finished]
        · intro failure failed kind
          exact (cause failure failed).exists_of_kind kind

/-- The entries of a tray are those that the successful calls lead to. -/
theorem trays (moved : Moved before after) {list : List Entry}
    (held : ∃ final, before.world.store.cell key = .entries final ∧
      EntryList.replay list (before.successes key) = some final) :
    ∃ final, after.world.store.cell key = .entries final ∧
      EntryList.replay list (after.successes key) = some final := by
  obtain ⟨final, shown, replayed⟩ := held
  cases moved with
  | still same noted =>
      refine ⟨final, by rw [same, shown], ?_⟩
      rw [successes, noted]
      exact replayed
  | acted moment noted effect cause =>
      rw [successes_eq noted]
      cases effect with
      | quiet same not_swapped unfinished =>
          rw [same, Moment.success?_of_unfinished unfinished, Option.toList_none, List.append_nil]
          exact ⟨final, shown, replayed⟩
      | applied list changed result is_swapped finished here done cells =>
          rw [cells]
          by_cases same : moment.call.key = key
          · subst same
            cases here.symm.trans shown
            rw [Function.update_self, Moment.success?_of_finished finished]
            exact ⟨changed, rfl, EntryList.replay_concat replayed done⟩
          · rw [Function.update_of_ne (Ne.symm same), Moment.success?_of_ne same,
              Option.toList_none, List.append_nil]
            exact ⟨final, shown, replayed⟩

/-- No call succeeds where there is no tray. -/
theorem others (moved : Moved before after) {bytes : Option Bytes}
    (held : before.world.store.cell key = .value bytes ∧ before.successes key = []) :
    after.world.store.cell key = .value bytes ∧ after.successes key = [] := by
  obtain ⟨shown, no_success⟩ := held
  cases moved with
  | still same noted =>
      refine ⟨by rw [same, shown], ?_⟩
      rw [successes, noted]
      exact no_success
  | acted moment noted effect cause =>
      rw [successes_eq noted, no_success, List.nil_append]
      cases effect with
      | quiet same not_swapped unfinished =>
          rw [same, Moment.success?_of_unfinished unfinished]
          exact ⟨shown, rfl⟩
      | applied list changed result is_swapped finished here done cells =>
          have differs : moment.call.key ≠ key := by
            rintro rfl
            cases here.symm.trans shown
          rw [cells, Function.update_of_ne differs.symm, Moment.success?_of_ne differs]
          exact ⟨shown, rfl⟩

end Moved

/-- All clients make their calls as calls are made. -/
def Going (pool : Pool κ) : Prop := ∀ client, (pool.clients client).Going

theorem going_start (world : World) {calls : κ → List TrayCall}
    (well : ∀ client, ∀ call ∈ calls client, call.WellLinked) : (start world calls).Going :=
  fun client => Client.going_ofCalls (well client)

variable [DecidableEq κ]

theorem Going.update (going : pool.Going) (client : κ) {state : Client} (goes : state.Going)
    (other : κ) : (Function.update pool.clients client state other).Going := by
  rcases eq_or_ne other client with rfl | differs
  · rwa [Function.update_self]
  · rw [Function.update_of_ne differs]
    exact going other

/-- Each move goes on with a call, and does what an action of it does. -/
theorem Going.move (going : pool.Going) (around : Surroundings) (client : κ) :
    (pool.move around client).Going ∧ Moved pool (pool.move around client) := by
  have mine := going client
  unfold Pool.move
  split
  · exact ⟨going, .still rfl rfl⟩
  · rename_i call result seen waiting state
    rw [state] at mine
    have waiting_well (later : TrayCall) (mem : later ∈ waiting) : later.WellLinked :=
      mine.1 later (List.mem_cons_of_mem _ mem)
    exact ⟨going.update client (Client.going_ofCalls waiting_well), .still rfl rfl⟩
  · rename_i call action next seen waiting state
    rw [state] at mine
    obtain ⟨well, phase⟩ := mine
    obtain ⟨reached, effect⟩ := phase.step call.isTray_key
      (TrayCall.keepsLinks_change (well call List.mem_cons_self)) around pool.world
    have goes : (Client.busy call (next (World.answer around action pool.world).1)
      (action.sees pool.world.store seen) waiting).Going := ⟨well, reached⟩
    exact ⟨going.update client goes,
      .acted _ rfl effect fun failure failed => reached.cause failed⟩

/-- No call is made twice or left out. -/
theorem ended_move (around : Surroundings) (pool : Pool κ) (client other : κ) :
    (pool.move around client).ended other ++ ((pool.move around client).clients other).pending =
      pool.ended other ++ (pool.clients other).pending := by
  unfold Pool.move
  split
  · rfl
  · rename_i call result seen waiting state
    rcases eq_or_ne other client with rfl | differs
    · simp [ended, state]
    · simp [ended, differs]
  · rename_i call action next seen waiting state
    rcases eq_or_ne other client with rfl | differs
    · cases continues : next (World.answer around action pool.world).1 with
      | done result => simp [ended, state, continues, Program.result?]
      | act later rest => simp [ended, state, continues, Program.result?]
    · simp [ended, differs, differs.symm]

/-- However the actions of the clients were interleaved, the calls that have succeeded took effect
one after another. -/
structure Linear (initial : Store) (calls : κ → List TrayCall) (pool : Pool κ) : Prop where
  /-- Each client makes its calls in order, each of them once. -/
  made : ∀ client, pool.ended client ++ (pool.clients client).pending = calls client
  /-- Calls succeed where they swap, and are refused for what they have read. -/
  explained : ∀ moment ∈ pool.moments, moment.Explained
  /-- A tray has the entries that the successful calls lead to one after another, in the order of
  their swaps, and each of them has yielded what it yields at its turn. -/
  trays : ∀ key list, initial.cell key = .entries list → ∃ final,
    pool.world.store.cell key = .entries final ∧
      EntryList.replay list (pool.successes key) = some final
  /-- No call succeeds where there is no tray, and what is there stays. -/
  others : ∀ key bytes, initial.cell key = .value bytes →
    pool.world.store.cell key = .value bytes ∧ pool.successes key = []
  /-- No entry is lost or handed out twice. -/
  conserved : ∀ key list final, initial.cell key = .entries list →
    pool.world.store.cell key = .entries final →
      (list ++ (pool.successes key).filterMap fun made => made.1.added).Perm
        (final ++ (pool.successes key).filterMap Prod.snd)

variable {initial : Store} {calls : κ → List TrayCall}

/-- What is conserved follows from the order in which calls took effect. -/
theorem linear_of_trays
    (made : ∀ client, pool.ended client ++ (pool.clients client).pending = calls client)
    (explained : ∀ moment ∈ pool.moments, moment.Explained)
    (trays : ∀ key list, initial.cell key = .entries list → ∃ final,
      pool.world.store.cell key = .entries final ∧
        EntryList.replay list (pool.successes key) = some final)
    (others : ∀ key bytes, initial.cell key = .value bytes →
      pool.world.store.cell key = .value bytes ∧ pool.successes key = []) :
    Linear initial calls pool := by
  refine ⟨made, explained, trays, others, fun key list final shown final_shown => ?_⟩
  obtain ⟨found, found_shown, replayed⟩ := trays key list shown
  cases found_shown.symm.trans final_shown
  exact EntryList.perm_of_replay replayed

theorem linear_start (world : World) (calls : κ → List TrayCall) :
    Linear world.store calls (start world calls) := by
  have no_moment (moment : Moment κ) : moment ∉ (start world calls).moments := List.not_mem_nil
  exact linear_of_trays (fun client => Client.pending_ofCalls (calls client))
    (fun moment mem => absurd mem (no_moment moment)) (fun key list shown => ⟨list, shown, rfl⟩)
    fun key bytes shown => ⟨shown, rfl⟩

theorem Linear.move (linear : Linear initial calls pool) (going : pool.Going)
    (around : Surroundings) (client : κ) : Linear initial calls (pool.move around client) := by
  have moved := (going.move around client).2
  exact linear_of_trays
    (fun other => (ended_move around pool client other).trans (linear.made other))
    (moved.explained linear.explained)
    (fun key list shown => moved.trays (linear.trays key list shown))
    fun key bytes shown => moved.others (linear.others key bytes shown)

/-- Whatever the schedule, calls take effect one after another. -/
theorem linear_run (around : Surroundings) (world : World) (calls : κ → List TrayCall)
    (well : ∀ client, ∀ call ∈ calls client, call.WellLinked) (schedule : List κ) :
    Linear world.store calls ((start world calls).run around schedule) := by
  have begins : (start world calls).Going ∧ Linear world.store calls (start world calls) :=
    ⟨going_start world well, linear_start world calls⟩
  have keeps (pool : Pool κ) (client : κ) (held : pool.Going ∧ Linear world.store calls pool) :
      (pool.move around client).Going ∧ Linear world.store calls (pool.move around client) :=
    ⟨(held.1.move around client).1, held.2.move held.1 around client⟩
  exact (run_keeps around keeps schedule begins).2

/-- Both clients have read the empty tray when the first one puts its entry in; the second one reads
again and takes that entry out later. -/
theorem linear_of_race :
    let around : Surroundings := ⟨fun _ => none, fun _ => ""⟩
    let calls : Bool → List TrayCall := fun client =>
      bif client then [.append 1 "ann" .owned (.linked "1" "bob" "2")]
      else [.append 2 "ann" .owned (.unlinked "3"), .pop 1 "ann" .owned]
    let pool := (start ⟨.empty, ⟨0⟩, 0⟩ calls).run around
      [true, false, true, false, false, false, false, false, false, false]
    Linear .empty calls pool ∧ pool.successes (Key.tray "ann" .owned) =
      [(.append 1 "ann" .owned (.linked "1" "bob" "2"), none),
        (.append 2 "ann" .owned (.unlinked "3"), none),
        (.pop 1 "ann" .owned, some (.linked "1" "bob" "2"))] := by
  intro around calls pool
  have well (client : Bool) (call : TrayCall) (mem : call ∈ calls client) : call.WellLinked := by
    have linked := Entry.wellLinked_linked "1" (by decide : "bob" ≠ "") (by decide : "2" ≠ "")
    have unlinked := Entry.wellLinked_unlinked "3"
    cases client with
    | false =>
        rcases List.mem_pair.mp mem with rfl | rfl
        · simpa [TrayCall.WellLinked, TrayCall.added] using unlinked
        · simp [TrayCall.WellLinked, TrayCall.added]
    | true =>
        obtain rfl := List.mem_singleton.mp mem
        simpa [TrayCall.WellLinked, TrayCall.added] using linked
  exact ⟨linear_run around ⟨.empty, ⟨0⟩, 0⟩ calls well _, by decide +kernel⟩

end Pool
end Handoff
