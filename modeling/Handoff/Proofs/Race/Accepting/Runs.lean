import Handoff.Proofs.Race.Accepting.Steps
import Handoff.Proofs.Race.Finish
import Handoff.Proofs.Race.Undo
import Handoff.Workflow.Accept

/-!
# Accepting and finishing

What the accepter and the finisher of a task lead to.
-/

namespace Handoff.Accepting

variable {community : Community} {around : Surroundings} {world : World}
  {pair : Pair community around world} {budget : Nat} {policy : Policy}

variable (pair) in
theorem stable_progress (progress : Progress) :
    (sharing pair).protocol.Stable .accepter fun state => state.progress = progress := by
  intro other differs key before after step holds
  obtain rfl := eq_finisher differs
  exact (Step.finisher step).1.trans holds

variable (pair) in
theorem stable_lost :
    (sharing pair).protocol.Stable .accepter fun state => state.taken = some .received := by
  intro other differs key before after step holds
  obtain rfl := eq_finisher differs
  exact ((Step.finisher step).2 (by simp [holds])).trans holds

/-! ## Accepting -/

theorem tries_put :
    (sharing pair).protocol.Tries around .accepter (fun state => state.progress = .waiting)
      (Trays.append budget pair.receiver .owned pair.received)
      (fun _ state => state.progress = .put) fun _ state => state.progress = .waiting := by
  have appending : (sharing pair).Appending .accepter pair.receiver .owned pair.received
      (fun state => state.progress = .waiting) (fun _ state => state.progress = .waiting)
      (fun _ => False) (fun state => state.progress = .put)
      (fun state => state.progress = .waiting) := by
    refine ⟨stable_progress pair _, fun _ => stable_progress pair _, Protocol.stable_const False,
      stable_progress pair _, stable_progress pair _, ?_, ?_, fun _ _ => id, ?_,
      fun _ _ _ => False.elim, fun _ _ => False.elim⟩
    · intro _ other differs before after step waiting
      obtain rfl := eq_finisher differs
      simpa [waiting] using ((Step.finisher_at step).1 rfl).2
    · intro state accesses notes waiting
      exact ⟨state, (silent_accepter _).looked notes, waiting⟩
    · intro state accesses notes waiting _
      exact ⟨_, swapped_put notes waiting, rfl⟩
  exact appending.tries_append pair.receiver_member pair.copy_mine pair.received_wellLinked

theorem tries_move :
    (sharing pair).protocol.Tries around .accepter (fun state => state.progress = .put)
      (Trays.remove budget pair.receiver .received pair.copy)
      (fun _ state => state.progress = .moved)
      fun _ state => state.progress = .put ∧ state.taken = some .received := by
  have stable := stable_progress pair .put
  have removing : (sharing pair).Removing .accepter pair.receiver .received pair.copy
      (fun state => state.progress = .put)
      (fun found state => state.progress = .put ∧ (found = none → state.taken = some .received))
      (fun state => state.taken = some .received) (fun _ state => state.progress = .moved)
      (fun state => state.progress = .put ∧ state.taken = some .received) := by
    refine ⟨stable, fun found => ?_, (stable_lost pair), fun _ => stable_progress pair _,
      stable.and (stable_lost pair), ?_, ?_, fun state seen => ⟨seen.1, seen.2 rfl⟩, ?_,
      fun _ _ seen _ => seen.1, fun _ => And.intro⟩
    · cases found with
      | none => simpa using stable.and (stable_lost pair)
      | some entry => simpa using stable
    · intro _ other differs before after step _
      obtain rfl := eq_finisher differs
      exact (Step.finisher_at step).2 rfl
    · intro state accesses notes begun
      refine ⟨state, (silent_accepter _).looked notes, begun, fun missing => ?_⟩
      rw [find?_received] at missing
      simpa [State.isReceived, begun] using missing
    · intro state accesses entry notes seen found
      rw [find?_received] at found
      have free : state.taken ≠ some .received := by
        intro lost
        simp [State.isReceived, lost] at found
      rw [erase_received]
      exact ⟨_, swapped_move notes seen.1 free, rfl⟩
  exact removing.tries_remove pair.receiver_member pair.copy_mine

theorem tries_undo :
    (sharing pair).protocol.Tries around .accepter
      (fun state => state.progress = .put ∧ state.taken = some .received)
      ((Undo.takeOut pair.receiver .owned pair.copy).apply budget)
      (fun _ state => state.progress = .undone) fun _ state => state.progress = .undone := by
  have stable := (stable_progress pair .put).and (stable_lost pair)
  have removing : (sharing pair).Removing .accepter pair.receiver .owned pair.copy
      (fun state => state.progress = .put ∧ state.taken = some .received)
      (fun found state => (state.progress = .put ∧ state.taken = some .received) ∧ found ≠ none)
      (fun _ => False) (fun _ state => state.progress = .undone)
      (fun state => state.progress = .undone) := by
    refine ⟨stable, fun found => stable.and (Protocol.stable_const _), Protocol.stable_const False,
      fun _ => stable_progress pair _, stable_progress pair _, ?_, ?_,
      fun _ seen => absurd rfl seen.2, ?_, fun _ _ _ => False.elim, fun _ _ => False.elim⟩
    · intro _ other differs before after step seen
      obtain rfl := eq_finisher differs
      simpa [seen.1.2] using ((Step.finisher_at step).1 rfl).1
    · intro state accesses notes begun
      refine ⟨state, (silent_accepter _).looked notes, begun, ?_⟩
      rw [find?_owned]
      simp [State.isOwned, begun.1, begun.2]
    · intro state accesses entry notes seen found
      rw [erase_owned]
      exact ⟨_, swapped_undo notes seen.1.1 seen.1.2, rfl⟩
  have removes : (sharing pair).protocol.Tries around .accepter _
      (Trays.remove budget pair.receiver .owned pair.copy) _ _ :=
    removing.tries_remove pair.receiver_member pair.copy_mine
  exact removes.bind (fun _ => stable_progress pair _) fun _ =>
    Protocol.tries_pure (stable_progress pair _) fun _ => id

/-- The entry is moved to the owned tray, or it is not there any more. -/
theorem tries_moveToOwned :
    (sharing pair).protocol.Tries around .accepter (fun state => state.progress = .waiting)
      (Undoable.settle budget (Workflow.moveToOwned policy pair.receiver pair.received))
      (fun _ state => state.progress = .moved)
      fun _ state => state.progress = .waiting ∨ state.progress = .undone := by
  let takeOut : Undo := .takeOut pair.receiver .owned pair.copy
  let fails (noted : List Undo) (state : State) : Prop :=
    (noted = [] ∧ state.progress = .waiting) ∨
      (noted = [takeOut] ∧ state.progress = .put ∧ state.taken = some .received)
  have lost_stable := (stable_progress pair .put).and (stable_lost pair)
  have fails_stable (noted : List Undo) : (sharing pair).protocol.Stable .accepter (fails noted) :=
    ((Protocol.stable_const _).and (stable_progress pair _)).or
      ((Protocol.stable_const _).and lost_stable)
  have failed_stable := (stable_progress pair .waiting).or (stable_progress pair .undone)
  have works : (sharing pair).protocol.Works around .accepter
      (fun state => state.progress = .waiting) []
      (Workflow.moveToOwned policy pair.receiver pair.received)
      (fun _ _ state => state.progress = .moved) fails := by
    refine Protocol.works_step_bind (fails_stable []) (tries_put.mono (fun _ _ => id) ?_)
      fun _ => Protocol.works_note_bind ?_
    · exact fun _ state waiting => .inl ⟨rfl, waiting⟩
    · refine Protocol.works_step_bind (fails_stable _) (tries_move.mono (fun _ _ => id) ?_)
        fun _ => Protocol.works_pure (stable_progress pair _) fun _ => id
      exact fun _ state lost => .inr ⟨rfl, lost⟩
  have undoes (noted : List Undo) : (sharing pair).protocol.Leads around .accepter (fails noted)
      (Undo.applyEach budget noted.reverse)
      fun _ state => state.progress = .waiting ∨ state.progress = .undone := by
    refine Protocol.Leads.or (Protocol.leads_of_fact ?_) (Protocol.leads_of_fact ?_)
    · rintro rfl
      exact Protocol.leads_applyEach_nil failed_stable fun _ => .inl
    · rintro rfl
      exact Protocol.leads_applyEach_cons (stable_progress pair .undone) failed_stable tries_undo
        (Protocol.leads_applyEach_nil failed_stable fun _ => .inr)
  refine (works.settle (fun _ _ => stable_progress pair _) fails_stable failed_stable
    fun noted => Protocol.leads_rollBack failed_stable (undoes noted)).mono ?_ fun _ _ => id
  rintro _ state ⟨_, moved⟩
  exact moved

/-- Accepting moves the entry, or leaves none in the owned tray. -/
theorem tries_accept :
    (sharing pair).protocol.Tries around .accepter (fun state => state.progress = .waiting)
      (Workflow.accept policy pair.receiver pair.copy)
      (fun _ state => state.progress = .moved)
      fun _ state => state.progress = .waiting ∨ state.progress = .undone := by
  let sees (found : Option Entry) (state : State) : Prop :=
    (∀ entry ∈ found, entry = pair.received) ∧ state.progress = .waiting
  have waiting_stable := stable_progress pair .waiting
  have failed_stable := waiting_stable.or (stable_progress pair .undone)
  have finding : (sharing pair).protocol.Tries around .accepter
      (fun state => state.progress = .waiting) (Trays.find? pair.receiver .received pair.copy)
      (fun found => sees (found.map Prod.fst)) fun _ _ => False := by
    refine Sharing.tries_find? pair.receiver_member pair.copy_mine waiting_stable
      (fun _ => (Protocol.stable_const _).and waiting_stable) fun state accesses notes waiting => ?_
    refine ⟨state, (silent_accepter _).looked notes, fun entry found => ?_, waiting⟩
    rw [find?_received] at found
    split at found
    · exact (Option.some.inj found).symm
    · cases found
  refine (finding.mono (fun _ _ => id) fun _ _ => False.elim).bind (fun _ => failed_stable)
    fun found => ?_
  cases found with
  | none => exact Protocol.tries_throw failed_stable fun _ seen => .inl seen.2
  | some found =>
      refine Protocol.tries_of_fact fun same => ?_
      obtain ⟨entry, position⟩ := found
      obtain rfl : entry = pair.received := same entry rfl
      have loading : (sharing pair).protocol.Tries around .accepter
          (fun state => state.progress = .waiting) (Records.load pair.copy)
          (fun content state => content.id = pair.copy ∧ state.progress = .waiting)
          fun _ state => state.progress = .waiting :=
        Sharing.tries_load_record pair.copy_mine waiting_stable waiting_stable waiting_stable
          fun state accesses notes waiting =>
            ⟨state, (silent_accepter _).looked notes, fun _ => waiting, fun _ => waiting⟩
      refine (loading.mono (fun _ _ => id) fun _ _ => .inl).bind (fun _ => failed_stable)
        fun content => ?_
      refine (tries_moveToOwned.weaken fun _ loaded => loaded.2).bind (fun _ => failed_stable)
        fun _ => ?_
      exact (Protocol.tries_note (stable_progress pair _) _).bind (fun _ => failed_stable)
        fun _ => Protocol.tries_pure (stable_progress pair _) fun _ => id

theorem stable_of_step {holds : State → Prop}
    (keeps : ∀ key before after, Step pair .accepter key before after → holds before →
      holds after) : (sharing pair).protocol.Stable .finisher holds := by
  intro other differs key before after step
  obtain rfl := eq_accepter differs
  exact keeps key before after step

/-! ## Finishing -/

namespace State

/-- The sender's entry and record are gone. -/
def Released (state : State) : Prop := state.sent = false ∧ state.stored = false

/-- The finisher has seen the receiver's entry in the owned tray. -/
def Seen (state : State) : Prop :=
  state.Released ∧ state.late = true ∧ state.taken = none ∧
    (state.progress = .put ∨ state.progress = .moved)

/-- The finisher has looked into the owned tray before the receiver's entry was put there. -/
def Unseen (state : State) : Prop := state.Released ∧ state.late = false ∧ state.taken = none

/-- What is known when the finisher has found the receiver's entry in a tray. -/
def Located : Tray → State → Prop
  | .owned => Seen
  | .received => Unseen
  | .sent => fun _ => False

/-- The finisher has looked for the receiver's entry in one tray and then, when it had been moved,
in the other. -/
def Missed (state : State) : Prop := state.Unseen ∧ state.progress = .moved

/-- The receiver's entry has been taken out, or has been missed because it was moved. -/
def Settled (state : State) : Prop :=
  state.Released ∧ ((state.taken = some .owned ∧ state.late = true) ∨
    state.taken = some .received ∨ state.Missed)

end State

variable (pair) in
theorem stable_released : (sharing pair).protocol.Stable .finisher State.Released :=
  stable_of_step fun _ _ _ step holds =>
    ⟨step.forward.sent.trans holds.1, step.forward.stored.trans holds.2⟩

variable (pair) in
theorem stable_sent (sent : Bool) :
    (sharing pair).protocol.Stable .finisher fun state => state.sent = sent :=
  stable_of_step fun _ _ _ step holds => step.forward.sent.trans holds

variable (pair) in
theorem stable_taken (taken : Option Tray) :
    (sharing pair).protocol.Stable .finisher fun state => state.taken = taken :=
  stable_of_step fun _ _ _ step holds => step.forward.taken.trans holds

variable (pair) in
theorem stable_late (late : Bool) :
    (sharing pair).protocol.Stable .finisher fun state => state.late = late :=
  stable_of_step fun _ _ _ step holds => step.forward.late.trans holds

variable (pair) in
theorem stable_copied (copied : Bool) :
    (sharing pair).protocol.Stable .finisher fun state => state.copied = copied :=
  stable_of_step fun _ _ _ step holds => step.forward.copied.trans holds

variable (pair) in
theorem stable_moved :
    (sharing pair).protocol.Stable .finisher fun state => state.progress = .moved :=
  stable_of_step fun _ _ _ step moved => absurd moved step.forward.unfinished

variable (pair) in
theorem stable_free (sent : Bool) : (sharing pair).protocol.Stable .finisher
    fun state => state.sent = sent ∧ state.taken = none :=
  (stable_sent pair sent).and (stable_taken pair none)

variable (pair) in
/-- An entry in the owned tray stays there if it has not been taken out of the received tray. -/
theorem stable_seen : (sharing pair).protocol.Stable .finisher State.Seen := by
  have owned_stable : (sharing pair).protocol.Stable .finisher fun state =>
      state.taken = none ∧ (state.progress = .put ∨ state.progress = .moved) :=
    stable_of_step fun _ _ after step holds => by
      have forward := step.forward
      refine ⟨forward.taken.trans holds.1, ?_⟩
      cases reached : after.progress with
      | waiting => exact absurd reached forward.begun
      | put => exact .inl rfl
      | moved => exact .inr rfl
      | undone => cases holds.1.symm.trans (forward.undone reached)
  exact (stable_released pair).and ((stable_late pair true).and owned_stable)

variable (pair) in
theorem stable_unseen : (sharing pair).protocol.Stable .finisher State.Unseen :=
  (stable_released pair).and ((stable_late pair false).and (stable_taken pair none))

variable (pair) in
theorem stable_located (tray : Tray) :
    (sharing pair).protocol.Stable .finisher (State.Located tray) := by
  cases tray with
  | owned => exact stable_seen pair
  | sent => exact Protocol.stable_const False
  | received => exact stable_unseen pair

variable (pair) in
theorem stable_missed : (sharing pair).protocol.Stable .finisher State.Missed :=
  (stable_unseen pair).and (stable_moved pair)

variable (pair) in
theorem stable_settled : (sharing pair).protocol.Stable .finisher State.Settled :=
  (stable_released pair).and <| ((stable_taken pair _).and (stable_late pair _)).or <|
    (stable_taken pair _).or (stable_missed pair)

theorem tries_locate_sent :
    (sharing pair).protocol.Tries around .finisher
      (fun state => state.sent = true ∧ state.taken = none)
      (Trays.locate? pair.sender pair.task)
      (Sharing.Located (fun tray entry state => (tray = .sent ∧ entry = pair.sent) ∧
        state.sent = true ∧ state.taken = none) fun _ => False) fun _ _ => False := by
  have stable := stable_free pair true
  refine Sharing.tries_locate? pair.sender_member pair.task_mine stable stable
    (Protocol.stable_const False) (Protocol.stable_const False)
    (fun _ _ => (Protocol.stable_const _).and stable) ?_ ?_ fun _ _ _ => False.elim
  · intro state accesses notes holds
    obtain ⟨late, looked⟩ := exists_looked _ notes
    refine ⟨_, looked, ?_⟩
    rw [find?_task_owned]
    exact holds
  · intro state accesses notes holds
    obtain ⟨late, looked⟩ := exists_looked _ notes
    refine ⟨_, looked, ?_⟩
    rw [find?_task_sent, if_pos holds.1]
    exact ⟨⟨rfl, rfl⟩, holds⟩

theorem tries_release :
    (sharing pair).protocol.Tries around .finisher
      (fun state => state.sent = true ∧ state.taken = none)
      (Trays.remove budget pair.sender .sent pair.task)
      (fun _ state => state.sent = false ∧ state.taken = none) fun _ _ => False := by
  have stable := stable_free pair true
  have removing : (sharing pair).Removing .finisher pair.sender .sent pair.task
      (fun state => state.sent = true ∧ state.taken = none)
      (fun found state => found ≠ none ∧ state.sent = true ∧ state.taken = none)
      (fun _ => False) (fun _ state => state.sent = false ∧ state.taken = none)
      (fun _ => False) := by
    refine ⟨stable, fun _ => (Protocol.stable_const _).and stable, Protocol.stable_const False,
      fun _ => stable_free pair false, Protocol.stable_const False, ?_, ?_,
      fun _ seen => absurd rfl seen.1, ?_, fun _ _ _ => False.elim, fun _ _ => False.elim⟩
    · intro _ other differs before after step _
      obtain rfl := eq_accepter differs
      exact (Step.accepter_at step).1 rfl
    · intro state accesses notes holds
      obtain ⟨late, looked⟩ := exists_looked _ notes
      refine ⟨_, looked, ?_, holds⟩
      rw [find?_task_sent, if_pos holds.1]
      simp
    · intro state accesses entry notes seen _
      rw [erase_sent]
      exact ⟨_, swapped_release notes, rfl, seen.2.2⟩
  exact removing.tries_remove pair.sender_member pair.task_mine

theorem leads_drop :
    (sharing pair).protocol.Leads around .finisher
      (fun state => state.sent = false ∧ state.taken = none) (Workflow.dropRecord pair.task)
      fun _ state => state.Released ∧ state.taken = none := by
  have stable := stable_free pair false
  refine Sharing.leads_dropRecord pair.task_mine stable stable
    ((stable_released pair).and (stable_taken pair none)) ?_ ?_
  · intro state accesses notes holds
    refine ⟨state, (silent_finisher (Key.record_ne_tray _ _ _)).looked notes, fun _ => holds,
      fun missing => ⟨⟨holds.1, ?_⟩, holds.2⟩⟩
    simpa [sharing, State.share, pair.differs] using missing
  · intro state accesses notes holds
    exact ⟨_, recorded_drop notes, ⟨holds.1, rfl⟩, holds.2⟩

/-- The finisher finds the receiver's entry, or misses it because it was moved in between. -/
theorem tries_locate_received :
    (sharing pair).protocol.Tries around .finisher
      (fun state => state.Released ∧ state.taken = none)
      (Trays.locate? pair.receiver pair.copy)
      (Sharing.Located (fun tray entry state => entry = pair.received ∧ state.Located tray)
        State.Missed) fun _ _ => False := by
  have free_stable := (stable_released pair).and (stable_taken pair none)
  refine Sharing.tries_locate? pair.receiver_member pair.copy_mine free_stable (stable_unseen pair)
    (stable_unseen pair) (stable_missed pair)
    (fun tray _ => (Protocol.stable_const _).and (stable_located pair tray)) ?_ ?_ ?_
  · intro state accesses notes holds
    refine ⟨_, looked_owned notes, ?_⟩
    rw [find?_owned]
    cases there : state.isOwned with
    | true =>
        have begun : state.progress = .put ∨ state.progress = .moved := by
          simpa [State.isOwned, holds.2] using there
        refine ⟨rfl, holds.1, ?_, holds.2, begun⟩
        rcases begun with begun | begun <;> simp [begun]
    | false =>
        have waiting := notes.waiting_of_not_isOwned holds.2 there
        exact ⟨holds.1, by simp [waiting, notes.early waiting], holds.2⟩
  · intro state accesses notes holds
    have other : Key.tray pair.receiver .sent ≠ pair.ownedKey :=
      fun same => absurd (Key.tray_injective same) (by simp)
    refine ⟨state, (silent_finisher other).looked notes, ?_⟩
    rw [find?_copy_sent]
    exact holds
  · intro state accesses notes holds
    refine ⟨state, (silent_finisher pair.receivedKey_ne_ownedKey).looked notes, ?_⟩
    rw [find?_received]
    cases there : state.isReceived with
    | true => exact ⟨rfl, holds⟩
    | false =>
        have moved : state.progress = .moved := by
          simpa [State.isReceived, holds.2.2] using there
        exact ⟨holds, moved⟩

theorem tries_takeOwned :
    (sharing pair).protocol.Tries around .finisher State.Seen
      (Trays.remove budget pair.receiver .owned pair.copy) (fun _ => State.Settled)
      fun _ => State.Settled := by
  have removing : (sharing pair).Removing .finisher pair.receiver .owned pair.copy State.Seen
      (fun found state => found ≠ none ∧ state.Seen) (fun _ => False) (fun _ => State.Settled)
      State.Settled := by
    refine ⟨stable_seen pair, fun _ => (Protocol.stable_const _).and (stable_seen pair),
      Protocol.stable_const False, fun _ => stable_settled pair, stable_settled pair, ?_, ?_,
      fun _ seen => absurd rfl seen.1, ?_, fun _ _ _ => False.elim, fun _ _ => False.elim⟩
    · rintro _ other differs before after step ⟨_, _, _, free, begun⟩
      obtain rfl := eq_accepter differs
      rcases (Step.accepter_at step).2.1 rfl with waiting | lost
      · rcases begun with begun | begun <;> cases waiting.symm.trans begun
      · cases free.symm.trans lost
    · rintro state accesses notes ⟨released, late, free, begun⟩
      refine ⟨_, looked_owned notes, ?_, released, by simp [late], free, begun⟩
      rw [find?_owned]
      simp [State.isOwned, begun, free]
    · rintro state accesses entry notes ⟨_, released, late, free, begun⟩ _
      rw [erase_owned]
      exact ⟨_, swapped_takeOwned notes free begun, released, .inl ⟨rfl, late⟩⟩
  exact removing.tries_remove pair.receiver_member pair.copy_mine

/-- Where the finisher has found the entry in the received tray, it takes it out or misses it. -/
theorem tries_takeReceived :
    (sharing pair).protocol.Tries around .finisher State.Unseen
      (Trays.remove budget pair.receiver .received pair.copy) (fun _ => State.Settled)
      fun _ => State.Settled := by
  have settled_of_missed (state : State) (missed : state.Missed) : state.Settled :=
    ⟨missed.1.1, .inr (.inr missed)⟩
  have removing : (sharing pair).Removing .finisher pair.receiver .received pair.copy State.Unseen
      (fun found state => state.Unseen ∧ (found = none → state.progress = .moved))
      (fun state => state.progress = .moved) (fun _ => State.Settled) State.Settled := by
    refine ⟨stable_unseen pair, fun found => ?_, stable_moved pair, fun _ => stable_settled pair,
      stable_settled pair, ?_, ?_, fun state seen => settled_of_missed state ⟨seen.1, seen.2 rfl⟩,
      ?_, fun _ _ seen _ => seen.1,
      fun state unseen moved => settled_of_missed state ⟨unseen, moved⟩⟩
    · cases found with
      | none => simpa using (stable_unseen pair).and (stable_moved pair)
      | some entry => simpa using stable_unseen pair
    · intro _ other differs before after step _
      obtain rfl := eq_accepter differs
      exact (Step.accepter_at step).2.2 rfl
    · intro state accesses notes unseen
      refine ⟨state, (silent_finisher pair.receivedKey_ne_ownedKey).looked notes, unseen,
        fun missing => ?_⟩
      rw [find?_received] at missing
      simpa [State.isReceived, unseen.2.2] using missing
    · rintro state accesses entry notes ⟨⟨released, _, free⟩, _⟩ found
      rw [find?_received] at found
      have unmoved : state.progress ≠ .moved := by
        intro moved
        simp [State.isReceived, moved] at found
      rw [erase_received]
      exact ⟨_, swapped_takeReceived notes free (notes.waiting_or_put free unmoved), released,
        .inr (.inl rfl)⟩
  exact removing.tries_remove pair.receiver_member pair.copy_mine

/-- The receiver's record is dropped. -/
theorem leads_dropCopy :
    (sharing pair).protocol.Leads around .finisher State.Settled (Workflow.dropRecord pair.copy)
      fun _ state => state.Settled ∧ state.copied = false := by
  refine Sharing.leads_dropRecord pair.copy_mine (stable_settled pair) (stable_settled pair)
    ((stable_settled pair).and (stable_copied pair false)) ?_ ?_
  · intro state accesses notes settled
    refine ⟨state, (silent_finisher (Key.record_ne_tray _ _ _)).looked notes, fun _ => settled,
      fun missing => ⟨settled, ?_⟩⟩
    simpa [sharing, State.share, pair.differs.symm] using missing
  · intro state accesses notes settled
    exact ⟨_, recorded_dropCopy notes, settled, rfl⟩

theorem leads_cleanUpOther :
    (sharing pair).protocol.Leads around .finisher
      (fun state => state.Released ∧ state.taken = none)
      (Workflow.cleanUpOther budget pair.sender pair.task ⟨pair.receiver, pair.copy⟩)
      fun _ state => state.Settled ∧ state.copied = false := by
  have stable := (stable_settled pair).and (stable_copied pair false)
  refine Sharing.leads_cleanUpOther (stable_missed pair)
    (fun tray _ => (Protocol.stable_const _).and (stable_located pair tray)) (stable_settled pair)
    stable tries_locate_received (fun tray entry _ => Protocol.tries_of_fact fun _ => ?_) ?_
    leads_dropCopy (leads_dropCopy.weaken fun _ missed => ⟨missed.1.1, .inr (.inr missed)⟩)
  · cases tray with
    | owned => exact tries_takeOwned
    | received => exact tries_takeReceived
    | sent => exact fun _ _ never => never.elim
  · rintro tray entry state unlinked ⟨rfl, _⟩
    simp [Pair.received, Entry.linksTo] at unlinked

/-- The finisher takes its entry out and leaves none of the two records. -/
theorem tries_finish {operation : Operation}
    (finishes : operation = .complete pair.sender pair.task ∨
      operation = .remove pair.sender pair.task) :
    (sharing pair).protocol.Tries around .finisher
      (fun state => state.sent = true ∧ state.taken = none) (operation.attempt policy)
      (fun _ state => state.Settled ∧ state.copied = false) fun _ _ => False := by
  have stable := (stable_settled pair).and (stable_copied pair false)
  have cleaning (entry : Entry) : (sharing pair).protocol.Leads around .finisher
      (fun state => entry = pair.sent ∧ state.sent = false ∧ state.taken = none)
      (Workflow.cleanUp policy.budget pair.sender entry)
      fun _ state => state.Settled ∧ state.copied = false := by
    refine Protocol.leads_of_fact ?_
    rintro rfl
    exact Sharing.leads_cleanUp rfl stable leads_drop leads_cleanUpOther
  refine Sharing.tries_finish finishes stable (Protocol.stable_const False) fun event => ?_
  refine Sharing.tries_takeOut (Protocol.stable_const False)
    (fun _ _ => (Protocol.stable_const _).and (stable_free pair true)) stable tries_locate_sent
    (fun _ => False.elim) (fun tray entry => Protocol.tries_of_fact ?_) cleaning
  rintro ⟨rfl, rfl⟩
  exact tries_release.mono (fun _ _ holds => ⟨rfl, holds⟩) fun _ _ => id

end Handoff.Accepting
