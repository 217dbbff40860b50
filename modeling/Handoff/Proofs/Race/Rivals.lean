import Handoff.Proofs.Race.Fairness
import Handoff.Proofs.Race.Pair
import Handoff.Proofs.Race.Undo
import Handoff.Workflow.Accept

/-!
# Accepting a task several times at once

Any number of players accept one task that waits for one user.  The player who gets the entry into
the owned tray takes it out of the received tray as well, and nobody can prevent that.  All other
players fail before they have written anything, so that there is nothing to undo.
-/

namespace Handoff

/-- A task that waits for a user and can be accepted. -/
structure Offer (store : Store) where
  user : UserId
  entry : Entry
  owned : List Entry
  received : List Entry
  owned_shown : store.cell (Key.tray user .owned) = .entries owned
  received_shown : store.cell (Key.tray user .received) = .entries received
  absent : EntryList.find? entry.task owned = none
  waits : EntryList.find? entry.task received = some entry
  /-- There is no other entry for the task. -/
  once : EntryList.find? entry.task (EntryList.erase entry.task received) = none
  content : Task
  recorded : store.Records entry.task content

namespace Offer

variable {store : Store} (offer : Offer store)

def ownedKey : String := Key.tray offer.user .owned

def receivedKey : String := Key.tray offer.user .received

theorem ownedKey_ne_receivedKey : offer.ownedKey ≠ offer.receivedKey := by
  intro same
  cases Key.tray_injective same

theorem wellLinked : offer.entry.WellLinked :=
  Store.wellLinked_of_cell_eq_entries offer.received_shown offer.entry
    (EntryList.mem_of_find? offer.waits)

end Offer

namespace Rivals

/-- How far the players are. -/
inductive Progress (ι : Type)
  | waiting
  /-- A player has put the entry into the owned tray. -/
  | put (winner : ι)
  /-- The same player has taken it out of the received tray. -/
  | moved (winner : ι)

section
variable {ι : Type} {store : Store}

namespace Progress

/-- The player who has put the entry into the owned tray. -/
def winner? : Progress ι → Option ι
  | waiting => none
  | put winner | moved winner => some winner

def owned (offer : Offer store) : Progress ι → List Entry
  | waiting => offer.owned
  | put _ | moved _ => offer.owned ++ [offer.entry]

def received (offer : Offer store) : Progress ι → List Entry
  | waiting | put _ => offer.received
  | moved _ => EntryList.erase offer.entry.task offer.received

end Progress

variable (offer : Offer store)

/-- The two trays hold what the progress says, and nothing else has changed. -/
structure Holds (progress : Progress ι) (now : Store) : Prop where
  owned : now.cell offer.ownedKey = .entries (progress.owned offer)
  received : now.cell offer.receivedKey = .entries (progress.received offer)
  kept : ∀ key, key ≠ offer.ownedKey → key ≠ offer.receivedKey → now.get? key = store.get? key

/-- The steps of a player. -/
inductive Step (me : ι) : Option String → Progress ι → Progress ι → Prop
  | put {key : Option String} (here : key = some offer.ownedKey) : Step me key .waiting (.put me)
  | move {key : Option String} (here : key = some offer.receivedKey) :
    Step me key (.put me) (.moved me)

/-- Whoever has put the entry into the owned tray takes it out of the received tray. -/
def protocol : Protocol ι (Progress ι) where
  Valid stage := Holds offer stage.state stage.store
  Step := Step offer

variable {offer} {progress : Progress ι} {now : Store}

theorem holds_start : Holds offer (.waiting : Progress ι) store :=
  ⟨offer.owned_shown, offer.received_shown, fun _ _ _ => rfl⟩

/-- The record of the task can be read all the time. -/
theorem Holds.records (holds : Holds offer progress now) :
    now.Records offer.entry.task offer.content := by
  obtain ⟨bytes, found, decoded⟩ := offer.recorded
  refine ⟨bytes, ?_, decoded⟩
  rw [holds.kept _ (Key.record_ne_tray _ _ _) (Key.record_ne_tray _ _ _), found]

theorem Holds.put (holds : Holds offer (.waiting : Progress ι) now) (me : ι) :
    Holds offer (.put me)
      (now.insert offer.ownedKey (EntryList.encode (offer.owned ++ [offer.entry]))) where
  owned := by
    have well : EntryList.WellLinked (offer.owned ++ [offer.entry]) :=
      Change.keepsLinks_append offer.user .owned offer.wellLinked _ _ _
        (Store.wellLinked_of_cell_eq_entries holds.owned)
        ((Change.append_eq_ok_iff offer.user .owned).mpr ⟨offer.absent, rfl⟩)
    rw [Offer.ownedKey, now.cell_insert_encode (Key.isTray_tray _ _) well, Function.update_self]
    rfl
  received := by
    rw [Store.cell_congr (now.get?_insert_of_ne _ offer.ownedKey_ne_receivedKey.symm)]
    exact holds.received
  kept key other_owned other_received := by
    rw [now.get?_insert_of_ne _ other_owned]
    exact holds.kept key other_owned other_received

theorem Holds.move {me : ι} (holds : Holds offer (.put me) now) :
    Holds offer (.moved me) (now.insert offer.receivedKey
      (EntryList.encode (EntryList.erase offer.entry.task offer.received))) where
  owned := by
    rw [Store.cell_congr (now.get?_insert_of_ne _ offer.ownedKey_ne_receivedKey)]
    exact holds.owned
  received := by
    have well : EntryList.WellLinked (EntryList.erase offer.entry.task offer.received) :=
      Change.keepsLinks_remove offer.user .received offer.entry.task _ _ _
        (Store.wellLinked_of_cell_eq_entries holds.received)
        ((Change.remove_eq_ok_iff offer.user .received offer.entry.task).mpr ⟨offer.waits, rfl⟩)
    rw [Offer.receivedKey, now.cell_insert_encode (Key.isTray_tray _ _) well,
      Function.update_self]
    rfl
  kept key other_owned other_received := by
    rw [now.get?_insert_of_ne _ other_received]
    exact holds.kept key other_owned other_received

/-- As long as the owned tray has no entry for the task, nobody has put it there. -/
theorem eq_waiting_of_owned
    (absent : EntryList.find? offer.entry.task (progress.owned offer) = none) :
    progress = .waiting := by
  cases progress with
  | waiting => rfl
  | put | moved => cases (EntryList.find?_append_of_absent offer.absent).symm.trans absent

/-! ## What a player knows -/

/-- A player has not put the entry into the owned tray. -/
def Idle (me : ι) (progress : Progress ι) : Prop := progress.winner? ≠ some me

/-- Another player has put the entry into the owned tray. -/
def Lost (me : ι) (progress : Progress ι) : Prop :=
  ∃ winner, progress.winner? = some winner ∧ winner ≠ me

theorem Lost.ne {me winner : ι} (lost : Lost me progress)
    (won : progress.winner? = some winner) : winner ≠ me := by
  obtain ⟨other, other_won, differs⟩ := lost
  cases won.symm.trans other_won
  exact differs

/-- Another player has put the entry into the owned tray, and the failure says so in one way or
another. -/
def Refused (me : ι) (failure : Failure) (progress : Progress ι) : Prop :=
  Lost me progress ∧ failure.kind ∈ [.notFound, .duplicateEntry, .conflict]

variable {me : ι}

variable (offer me) in
theorem stable_idle : (protocol offer).Stable me (Idle me) := by
  intro other differs key before after step idle
  cases step with
  | put => exact fun same => differs (Option.some.inj same)
  | move => exact idle

variable (offer me) in
theorem stable_lost : (protocol offer).Stable me (Lost me) := by
  rintro other differs key before after step ⟨winner, won, other_won⟩
  cases step with
  | put => cases won
  | move => exact ⟨winner, won, other_won⟩

variable (offer me) in
theorem stable_refused (failure : Failure) : (protocol offer).Stable me (Refused me failure) :=
  (stable_lost offer me).and (Protocol.stable_const _)

variable (offer me) in
theorem stable_put : (protocol offer).Stable me (· = .put me) := by
  rintro other differs key before after step rfl
  cases step with
  | move => exact absurd rfl differs

variable (offer me) in
theorem stable_moved : (protocol offer).Stable me (· = .moved me) := by
  rintro other differs key before after step rfl
  cases step

/-- If the owned tray has an entry for the task, somebody else has put it there. -/
theorem Idle.lost_of_owned (idle : Idle me progress)
    (there : EntryList.find? offer.entry.task (progress.owned offer) ≠ none) :
    Lost me progress := by
  cases progress with
  | waiting => exact absurd offer.absent there
  | put winner | moved winner => exact ⟨winner, rfl, fun same => idle (congrArg some same)⟩

theorem Idle.lost_of_received (idle : Idle me progress)
    (gone : EntryList.find? offer.entry.task (progress.received offer) = none) :
    Lost me progress := by
  cases progress with
  | waiting | put => cases offer.waits.symm.trans gone
  | moved winner => exact ⟨winner, rfl, fun same => idle (congrArg some same)⟩

theorem eq_entry_of_found {entry : Entry}
    (found : EntryList.find? offer.entry.task (progress.received offer) = some entry) :
    entry = offer.entry := by
  cases progress with
  | waiting | put => exact Option.some.inj (found.symm.trans offer.waits)
  | moved => cases found.symm.trans offer.once

/-! ## What a player does -/

variable {around : Surroundings} {budget : Nat} {policy : Policy}

theorem moves_read {stage : Stage ι (Progress ι)} (valid : (protocol offer).Valid stage)
    (key : String) :
    (protocol offer).Moves me stage (stage.afterRead me stage.state key) :=
  ⟨valid, .inl ⟨rfl, rfl⟩⟩

/-- Swapping a tray makes a step, if the trays then hold what the new progress says. -/
theorem moves_swap {stage : Stage ι (Progress ι)} {after : Progress ι} {key : String}
    {value : Bytes} (step : Step offer me (some key) stage.state after)
    (holds : Holds offer after (stage.store.insert key value)) :
    (protocol offer).Moves me stage (stage.afterSwap me after key value) :=
  ⟨holds, .inr ⟨some key, step, fun _ other =>
    stage.store.get?_insert_of_ne value fun same => other (congrArg some same.symm)⟩⟩

theorem tries_put :
    (protocol offer).Tries around me (Idle me)
      (Trays.append budget offer.user .owned offer.entry) (fun _ => (· = .put me))
      (Refused me) := by
  have seen_stable (list : List Entry) : (protocol offer).Stable me fun progress =>
      Idle me progress ∧ (EntryList.find? offer.entry.task list ≠ none → Lost me progress) :=
    (stable_idle offer me).and (.of_fact fun _ => stable_lost offer me)
  have rounds : (protocol offer).Rounds me offer.ownedKey
      (.append offer.user .owned offer.entry) (Idle me)
      (fun list progress => Idle me progress ∧
        (EntryList.find? offer.entry.task list ≠ none → Lost me progress))
      (Lost me) (fun _ => (· = .put me)) (Refused me) := by
    refine ⟨stable_idle offer me, seen_stable, stable_lost offer me,
      fun _ => stable_put offer me, stable_refused offer me, ?_, ?_, ?_, ?_,
      fun _ _ seen _ => seen.1, fun _ _ _ lost => ⟨lost, by simp [Failure.kind]⟩⟩
    · intro list other differs before after step _
      cases step with
      | put => exact ⟨other, rfl, differs⟩
      | move here => exact absurd (Option.some.inj here) offer.ownedKey_ne_receivedKey
    · intro stage valid idle
      exact ⟨_, stage.state, valid.owned, moves_read valid _, idle, idle.lost_of_owned⟩
    · intro list failure progress seen refused
      obtain ⟨there, rfl⟩ := (Change.append_eq_error_iff offer.user .owned).mp refused
      exact ⟨seen.2 there, by simp [Failure.kind]⟩
    · intro stage list result changed valid seen shown done
      obtain ⟨missing, rfl⟩ := (Change.append_eq_ok_iff offer.user .owned).mp done
      obtain ⟨store, issued, accesses, progress⟩ := stage
      cases shown.symm.trans valid.owned
      obtain rfl := eq_waiting_of_owned missing
      exact ⟨.put me, moves_swap (.put rfl) (valid.put me), rfl⟩
  exact rounds.tries_alter

/-- The entry is still there for the player who has put it into the owned tray. -/
theorem tries_move :
    (protocol offer).Tries around me (· = .put me)
      (Trays.remove budget offer.user .received offer.entry.task) (fun _ => (· = .moved me))
      fun _ _ => False := by
  have rounds : (protocol offer).Rounds me offer.receivedKey
      (.remove offer.user .received offer.entry.task) (· = .put me)
      (fun list progress => list = offer.received ∧ progress = .put me) (fun _ => False)
      (fun _ => (· = .moved me)) fun _ _ => False := by
    refine ⟨stable_put offer me, fun _ => (Protocol.stable_const _).and (stable_put offer me),
      Protocol.stable_const False, fun _ => stable_moved offer me,
      fun _ => Protocol.stable_const False, ?_, ?_, ?_, ?_, fun _ _ seen _ => seen.2,
      fun _ _ _ => id⟩
    · rintro list other differs before after step ⟨_, rfl⟩
      cases step with
      | move => exact differs rfl
    · intro stage valid begun
      refine ⟨_, stage.state, valid.received, moves_read valid _, ?_, begun⟩
      rw [begun]
      rfl
    · rintro list failure progress ⟨rfl, _⟩ refused
      have missing := (Change.remove_eq_error_iff offer.user .received offer.entry.task).mp refused
      cases offer.waits.symm.trans missing.1
    · rintro stage list result changed valid ⟨rfl, begun⟩ shown done
      obtain ⟨_, rfl⟩ := (Change.remove_eq_ok_iff offer.user .received offer.entry.task).mp done
      obtain ⟨store, issued, accesses, progress⟩ := stage
      obtain rfl : progress = .put me := begun
      exact ⟨.moved me, moves_swap (.move rfl) valid.move, rfl⟩
  exact rounds.tries_alter

/-- The entry is moved, or it is refused before anything has been noted. -/
theorem tries_moveToOwned :
    (protocol offer).Tries around me (Idle me)
      (Undoable.settle budget (Workflow.moveToOwned policy offer.user offer.entry))
      (fun _ => (· = .moved me)) (Refused me) := by
  refine Protocol.tries_settle_of_unnoted (fun _ => stable_moved offer me)
    (stable_refused offer me) ?_
  unfold Workflow.moveToOwned
  rw [Undoable.run_step_bind]
  refine Protocol.Leads.bind tries_put fun put => ?_
  cases put with
  | error failure =>
      exact Protocol.leads_pure ((Protocol.stable_const _).and (stable_refused offer me failure))
        fun _ refused => ⟨rfl, refused⟩
  | ok =>
      -- From here on there would be something to undo, but nothing can fail any more.
      change (protocol offer).Leads around me _ ((Undoable.step
        (Trays.remove policy.budget offer.user .received offer.entry.task) >>= fun _ =>
          pure ()).run.run [.takeOut offer.user .owned offer.entry.task]) _
      rw [Undoable.run_step_bind]
      refine Protocol.Leads.bind tries_move fun taken => ?_
      cases taken with
      | error failure => exact fun _ _ never => never.elim
      | ok => exact Protocol.leads_pure (stable_moved offer me) fun _ => id

/-- The record of the task is loaded. -/
theorem tries_load :
    (protocol offer).Tries around me (Idle me) (Records.load offer.entry.task)
      (fun _ => Idle me) fun _ _ => False := by
  have reading : (protocol offer).Tries around me (Idle me)
      (Attempt.get (Key.record offer.entry.task))
      (fun value progress => (∃ bytes, value = some bytes ∧
        Task.decode bytes = .ok offer.content) ∧ Idle me progress) fun _ _ => False := by
    refine Protocol.tries_get (stable_idle offer me)
      (fun _ => (Protocol.stable_const _).and (stable_idle offer me)) fun stage valid idle => ?_
    obtain ⟨bytes, found, decoded⟩ := Holds.records valid
    exact ⟨stage.state, moves_read valid _, ⟨bytes, found, decoded⟩, idle⟩
  refine reading.bind (fun _ => Protocol.stable_const False) fun value => ?_
  refine Protocol.tries_of_fact ?_
  rintro ⟨bytes, rfl, decoded⟩
  simp only [decoded]
  exact Protocol.tries_pure (stable_idle offer me) fun _ => id

/-- A player moves the entry, or is refused since another player has got it. -/
theorem tries_accept :
    (protocol offer).Tries around me (Idle me)
      (Workflow.accept policy offer.user offer.entry.task) (fun _ => (· = .moved me))
      (Refused me) := by
  have seen_stable (found : Option (Entry × Nat)) : (protocol offer).Stable me fun progress =>
      (∀ pair ∈ found, pair.1 = offer.entry) ∧ Idle me progress ∧
        (found = none → Lost me progress) :=
    (Protocol.stable_const _).and
      ((stable_idle offer me).and (.of_fact fun _ => stable_lost offer me))
  have finding : (protocol offer).Tries around me (Idle me)
      (Trays.find? offer.user .received offer.entry.task)
      (fun found progress => (∀ pair ∈ found, pair.1 = offer.entry) ∧ Idle me progress ∧
        (found = none → Lost me progress)) fun _ _ => False := by
    refine Protocol.tries_find? (stable_idle offer me) seen_stable fun stage valid idle => ?_
    refine ⟨_, stage.state, valid.received, moves_read valid _, ?_, idle, ?_⟩
    · intro pair located
      obtain ⟨entry, found, rfl⟩ := Option.map_eq_some_iff.mp located
      exact eq_entry_of_found found
    · intro missing
      exact idle.lost_of_received (Option.map_eq_none_iff.mp missing)
  have failed {failure : Failure} {progress : Progress ι} (never : False) :
      Refused me failure progress := never.elim
  refine (finding.mono (fun _ _ => id) fun _ _ => failed).bind (stable_refused offer me)
    fun found => ?_
  cases found with
  | none =>
      exact Protocol.tries_throw (stable_refused offer me _) fun _ seen =>
        ⟨seen.2.2 rfl, by simp [Failure.kind]⟩
  | some pair =>
      obtain ⟨entry, position⟩ := pair
      refine Protocol.tries_of_fact fun same => ?_
      obtain rfl : entry = offer.entry := same _ rfl
      refine ((tries_load.weaken fun _ seen => seen.1).mono (fun _ _ => id)
        fun _ _ => failed).bind (stable_refused offer me) fun content => ?_
      refine tries_moveToOwned.bind (stable_refused offer me) fun _ => ?_
      exact (Protocol.tries_note (stable_moved offer me) _).bind (stable_refused offer me)
        fun _ => Protocol.tries_pure (stable_moved offer me) fun _ => id

/-! ## The race -/

/-- How accepting ends. -/
def Ends (player : ι) : Except Failure Acceptance → Progress ι → Prop
  | .ok _ => (· = .moved player)
  | .error failure => Refused player failure

theorem follows_start {world : World} (offer : Offer world.store) (around : Surroundings)
    (policies : ι → Policy) :
    (Race.start world fun player =>
      (Workflow.accept (policies player) offer.user offer.entry.task).run).Follows
        (protocol offer) around Ends .waiting := by
  have begins : (protocol offer).Valid
      ((Race.start world fun player => (Workflow.accept (policies player) offer.user
        offer.entry.task).run).stage (.waiting : Progress ι)) := holds_start
  refine ⟨begins, fun player => ?_⟩
  have leads : (protocol offer).Leads around player (Idle player)
      (Workflow.accept (policies player) offer.user offer.entry.task).run (Ends player) := by
    refine Protocol.Leads.mono tries_accept fun result => ?_
    cases result with
    | ok => exact fun _ => id
    | error => exact fun _ => id
  exact leads _ begins fun won => by cases won

/-- Once all have ended, one player has moved the entry and all others have been refused. -/
theorem exists_winner [Nonempty ι] {results : ι → Except Failure Acceptance}
    (ended : ∀ player, Ends player (results player) progress) :
    ∃ winner, progress = .moved winner ∧ (∃ acceptance, results winner = .ok acceptance) ∧
      ∀ player, player ≠ winner → ∃ failure, results player = .error failure ∧
        failure.kind ∈ [.notFound, .duplicateEntry, .conflict] := by
  have moved_or_lost (player : ι) : progress = .moved player ∧
      (∃ acceptance, results player = .ok acceptance) ∨
        Lost player progress ∧ ∃ failure, results player = .error failure ∧
          failure.kind ∈ [.notFound, .duplicateEntry, .conflict] := by
    have ends := ended player
    cases result : results player with
    | ok acceptance =>
        rw [result] at ends
        exact .inl ⟨ends, acceptance, rfl⟩
    | error failure =>
        rw [result] at ends
        exact .inr ⟨ends.1, failure, rfl, ends.2⟩
  cases progress with
  | waiting =>
      rcases moved_or_lost (Classical.arbitrary ι) with ⟨moved, _⟩ | ⟨lost, _⟩
      · cases moved
      · obtain ⟨_, won, _⟩ := lost
        cases won
  | put winner =>
      rcases moved_or_lost winner with ⟨moved, _⟩ | ⟨lost, _⟩
      · cases moved
      · exact absurd rfl (lost.ne rfl)
  | moved winner =>
      refine ⟨winner, rfl, ?_, fun player other => ?_⟩
      · rcases moved_or_lost winner with ⟨_, accepted⟩ | ⟨lost, _⟩
        · exact accepted
        · exact absurd rfl (lost.ne rfl)
      · rcases moved_or_lost player with ⟨moved, _⟩ | ⟨_, refused⟩
        · cases moved
          exact absurd rfl other
        · exact refused

end
end Rivals

/-- An entry has moved from a user's received tray to the end of their owned tray, which had none
for the task.  All other entries stand in their old order, and nothing else has changed. -/
structure Store.Accepted (before : Store) (user : UserId) (entry : Entry) (after : Store) :
    Prop where
  owned : ∃ list, before.cell (Key.tray user .owned) = .entries list ∧
    (∀ held ∈ list, held.task ≠ entry.task) ∧
    after.cell (Key.tray user .owned) = .entries (list ++ [entry])
  received : ∃ list, before.cell (Key.tray user .received) = .entries list ∧
    after.cell (Key.tray user .received) = .entries (list.filter (·.task != entry.task))
  kept : ∀ key, key ≠ Key.tray user .owned → key ≠ Key.tray user .received →
    after.get? key = before.get? key

variable {ι : Type} {community : Community} {around : Surroundings} {world : World}
  {user : UserId} {entry : Entry}

/-- What is in a member's received tray can be accepted. -/
theorem Store.Paired.exists_offer {store : Store} (paired : store.Paired community)
    (member : community.member user) (listed : store.Lists user .received entry) :
    ∃ offer : Offer store, offer.user = user ∧ offer.entry = entry := by
  obtain ⟨owned, owned_shown⟩ := paired.readable user .owned member
  obtain ⟨received, received_shown, mem⟩ := listed
  have unrepeated := paired.unrepeated user .received received member received_shown
  obtain ⟨content, recorded⟩ :=
    paired.exists_records member ⟨received, received_shown, mem⟩
  refine ⟨⟨user, entry, owned, received, owned_shown, received_shown, ?_, ?_,
    unrepeated.find?_erase entry.task, content, recorded⟩, rfl, rfl⟩
  · refine EntryList.find?_eq_none_iff.mpr fun held held_mem same => ?_
    have places := paired.one_place user user .owned .received held entry member member
      ⟨owned, owned_shown, held_mem⟩ ⟨received, received_shown, mem⟩ same
    cases places.2
  · exact unrepeated.find?_eq_some_iff.mpr ⟨mem, rfl⟩

/-- Any number of calls accept a task that waits for a user, in whatever way they are interleaved.
Once all have returned, one of them has succeeded and has moved the entry, and all others say that
it is not there, or already moved, or that others came first.  If each call is continued again and
again, all return. -/
theorem accepted_by_one [DecidableEq ι] [Finite ι] [Nonempty ι] (fresh : around.Fresh)
    {policy : Policy} (reached : world.Reached community around policy)
    (member : community.member user) (listed : world.store.Lists user .received entry)
    (policies : ι → Policy) :
    let race := Race.start world fun player =>
      (Workflow.accept (policies player) user entry.task).run
    (∀ (schedule : List (Instant × ι)) (results : ι → Except Failure Acceptance),
      (∀ player, (race.run around schedule).result? player = some (results player)) →
        world.store.Accepted user entry (race.run around schedule).world.store ∧
          ∃ winner, (∃ acceptance, results winner = .ok acceptance) ∧
            ∀ player, player ≠ winner → ∃ failure, results player = .error failure ∧
              failure.kind ∈ [.notFound, .duplicateEntry, .conflict]) ∧
      ∀ turns, Race.Fair turns → ∃ n, ∀ m, n ≤ m → ∀ player, ∃ result,
        (race.after around turns m).result? player = some result := by
  intro race
  refine ⟨fun schedule results all_ended => ?_, fun turns fair => fair.exists_ended around race⟩
  obtain ⟨offer, rfl, rfl⟩ := (reached.paired fresh).exists_offer member listed
  obtain ⟨progress, follows⟩ := (Rivals.follows_start offer around policies).run schedule
  obtain ⟨winner, rfl, accepted, refused⟩ :=
    Rivals.exists_winner fun player => follows.ended (all_ended player)
  obtain ⟨owned, received, kept⟩ : Rivals.Holds offer _ (race.run around schedule).world.store :=
    follows.1
  refine ⟨⟨⟨offer.owned, offer.owned_shown, ?_, owned⟩, ⟨offer.received, offer.received_shown, ?_⟩,
    kept⟩, winner, accepted, refused⟩
  · exact EntryList.find?_eq_none_iff.mp offer.absent
  · have unrepeated := (reached.paired fresh).unrepeated offer.user .received offer.received member
      offer.received_shown
    rw [← unrepeated.erase_eq_filter]
    exact received

/-- What `ann` has sent `bob` is accepted by two calls, each taking one action at a time.  The
second one finds the entry in the owned tray after its first round was in vain. -/
theorem accepted_by_one_of_two :
    let world := (World.mk .empty ⟨0⟩ 0).steps .strokes .standard
      [(⟨1⟩, .send "ann" "bob" "Call" "" none)]
    let results (first : Bool) : Except Failure Acceptance :=
      if first then .ok ⟨"Call", some "ann"⟩ else .error (.alreadyListed "||" .owned "bob")
    let schedule := (List.replicate 20 [(⟨2⟩, true), (⟨2⟩, false)]).flatten
    let race := (Race.start world fun _ => (Workflow.accept .standard "bob" "||").run).run
      .strokes schedule
    (∀ player, race.result? player = some (results player)) ∧
      world.store.Accepted "bob" (.linked "||" "ann" "|") race.world.store := by
  intro world results schedule race
  have reached : world.Reached .plain .strokes .standard :=
    ⟨[(⟨1⟩, .send "ann" "bob" "Call" "" none)], ⟨0⟩, 0,
      by simp [Operation.users, Community.plain, UserId.Plain], rfl⟩
  have bob : Community.plain.member "bob" := by simp [Community.plain, UserId.Plain]
  have waits : world.store.Lists "bob" .received (.linked "||" "ann" "|") :=
    ⟨[.linked "||" "ann" "|"], by decide +kernel, by decide⟩
  have ended : ∀ player, race.result? player = some (results player) := by decide +kernel
  refine ⟨ended, ?_⟩
  clear_value results schedule world
  exact ((accepted_by_one Surroundings.fresh_strokes reached bob waits
    fun _ => .standard).1 schedule results ended).1

end Handoff
