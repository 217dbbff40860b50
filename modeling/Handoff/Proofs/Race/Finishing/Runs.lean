import Handoff.Proofs.Race.Finish
import Handoff.Proofs.Race.Finishing.Steps
import Handoff.Proofs.Workflow.Request

/-!
# Finishing from one side

What a player leads to that completes or removes the task on its side.  If the player fails, then
somebody has taken the entry of its side out before it.  If it succeeds, it is the player who has,
and both sides are cleaned up; and if it tells no content, it is others who have deleted the
records.
-/

namespace Handoff

/-- The content of a task that has been completed or removed, if it is told. -/
def Reply.content? : Reply → Option Task
  | .completed completion => completion.task
  | .removed removal => removal.task
  | _ => none

namespace Finishing

variable {ι : Type} {community : Community} {around : Surroundings} {world : World}
  {pair : Pair community around world} {me : ι} {known : State ι → Prop} {budget : Nat}

/-! ## What is known of a player -/

/-- A player has neither taken out an entry nor been the first to delete a record. -/
def Idle (me : ι) (state : State ι) : Prop :=
  ∀ side, state.taken side ≠ some me ∧ state.dropped side ≠ some me

/-- The record of a side has been deleted, and if the player has no content of it to tell, somebody
else has been the first to do so. -/
structure Cleared (pair : Pair community around world) (me : ι) (side : Side)
    (content : Option Task) (state : State ι) : Prop where
  dropped : state.dropped side ≠ none
  mine : state.dropped side = some me → content ≠ none
  named : ∀ task ∈ content, task.id = side.record pair

/-- A player has taken out the entry of its side and is not the one who has deleted the record of
the other. -/
def Halfway (me : ι) (side : Side) (state : State ι) : Prop :=
  state.taken side = some me ∧ state.dropped side.other ≠ some me

/-- A player has taken out the entry of its side, and both sides are cleaned up. -/
structure Finished (pair : Pair community around world) (me : ι) (side : Side)
    (own next : Option Task) (state : State ι) : Prop where
  taken : state.taken side = some me
  other_taken : state.taken side.other ≠ none
  own : Cleared pair me side own state
  next : Cleared pair me side.other next state

section
variable {side : Side} {content : Option Task} {state : State ι}

theorem Halfway.take_other (halfway : Halfway me side state) (player : ι) :
    Halfway me side (state.take side.other player) := by
  refine ⟨?_, halfway.2⟩
  rw [State.taken_take, Function.update_of_ne side.ne_other]
  exact halfway.1

theorem Cleared.take (cleared : Cleared pair me side content state) (place : Side) (player : ι) :
    Cleared pair me side content (state.take place player) :=
  ⟨cleared.dropped, cleared.mine, cleared.named⟩

theorem Cleared.drop_other (cleared : Cleared pair me side content state) (player : ι) :
    Cleared pair me side content (state.drop side.other player) := by
  have kept := state.dropped_drop_of_ne player side.ne_other
  exact ⟨kept ▸ cleared.dropped, kept ▸ cleared.mine, cleared.named⟩

end

section
variable (pair me)

theorem stable_idle : (sharing pair ι).protocol.Stable me (Idle me) :=
  fun other differs key before after step idle side =>
    ⟨stable_not_taken pair me side other differs key before after step (idle side).1,
      stable_not_dropped pair me side other differs key before after step (idle side).2⟩

theorem stable_halfway (side : Side) : (sharing pair ι).protocol.Stable me (Halfway me side) :=
  (stable_taken pair me side).and (stable_not_dropped pair me side.other)

theorem stable_cleared (side : Side) (content : Option Task) :
    (sharing pair ι).protocol.Stable me (Cleared pair me side content) := by
  rintro other differs key before after step ⟨dropped, mine, named⟩
  refine ⟨stable_dropped pair me side other differs key before after step dropped, ?_, named⟩
  rcases Step.dropped step side with same | ⟨there, _⟩
  · rwa [same]
  · exact absurd there dropped

theorem stable_finished (side : Side) (own next : Option Task) :
    (sharing pair ι).protocol.Stable me (Finished pair me side own next) :=
  fun other differs key before after step finished =>
    ⟨stable_taken pair me side other differs key before after step finished.taken,
      stable_gone pair me side.other other differs key before after step finished.other_taken,
      stable_cleared pair me side own other differs key before after step finished.own,
      stable_cleared pair me side.other next other differs key before after step finished.next⟩

end

/-! ## Entries -/

/-- The entry of a side is found in its tray, unless somebody has taken it out. -/
theorem tries_locate? (side : Side) (stable : (sharing pair ι).protocol.Stable me known) :
    (sharing pair ι).protocol.Tries around me known
      (Trays.locate? (side.user pair) (side.record pair))
      (Sharing.Located (fun tray entry state => tray = side.tray pair ∧ entry = side.entry pair ∧
        known state) fun state => known state ∧ state.taken side ≠ none) fun _ _ => False := by
  let found (tray : Tray) (entry : Entry) (state : State ι) : Prop :=
    tray = side.tray pair ∧ entry = side.entry pair ∧ known state
  let missing (searched : Prop) (state : State ι) : Prop :=
    known state ∧ (searched → state.taken side ≠ none)
  have found_stable (tray : Tray) (entry : Entry) :
      (sharing pair ι).protocol.Stable me (found tray entry) :=
    (Protocol.stable_const _).and ((Protocol.stable_const _).and stable)
  have missing_stable (searched : Prop) : (sharing pair ι).protocol.Stable me (missing searched) :=
    stable.and (Protocol.Stable.of_fact fun _ => stable_gone pair me side)
  have finds (tray : Tray) {searched more : Prop}
      (covers : more → searched ∨ tray = side.tray pair) :
      (sharing pair ι).Finds me (side.user pair) tray (side.record pair) (missing searched) found
        (missing more) := by
    rintro state accesses - ⟨holds, gone⟩
    refine ⟨state, looked _, ?_⟩
    by_cases here : tray = side.tray pair
    · subst here
      rw [find?_tray]
      cases shown : state.entryAt pair side with
      | none => exact ⟨holds, fun _ => (state.entryAt_eq_none_iff pair).mp shown⟩
      | some entry => exact ⟨rfl, state.eq_entry_of_entryAt pair shown, holds⟩
    · rw [find?_share, if_neg fun place => here place.2]
      exact ⟨holds, fun searched => gone ((covers searched).resolve_right here)⟩
  have places : side.tray pair = .owned ∨ side.tray pair = .sent ∨ side.tray pair = .received := by
    cases side.tray pair <;> simp
  have locating : (sharing pair ι).protocol.Tries around me (missing False)
      (Trays.locate? (side.user pair) (side.record pair)) (Sharing.Located found (missing True))
      fun _ _ => False :=
    Sharing.tries_locate? (side.user_member pair) (side.record_mine pair) (missing_stable _)
      (missing_stable (side.tray pair = .owned))
      (missing_stable (side.tray pair = .owned ∨ side.tray pair = .sent)) (missing_stable _)
      found_stable (finds .owned fun here => .inr here.symm)
      (finds .sent fun here => here.imp_right Eq.symm)
      (finds .received fun _ => or_assoc.mpr (places.imp_right (Or.imp_right Eq.symm)))
  refine (locating.weaken fun state holds => ⟨holds, False.elim⟩).mono ?_ fun _ _ => id
  intro located state holds
  cases located with
  | none => exact ⟨holds.1, holds.2 trivial⟩
  | some located => exact holds

theorem tries_remove (side : Side) {takes : State ι → Prop}
    (stable : (sharing pair ι).protocol.Stable me known)
    (takes_stable : (sharing pair ι).protocol.Stable me takes)
    (take : ∀ state, known state → state.taken side = none → takes (state.take side me)) :
    (sharing pair ι).protocol.Tries around me known
      (Trays.remove budget (side.user pair) (side.tray pair) (side.record pair))
      (fun _ => takes) fun _ state => known state ∧ state.taken side ≠ none := by
  have gone_stable := stable_gone pair me side
  have removing : (sharing pair ι).Removing me (side.user pair) (side.tray pair) (side.record pair)
      known (fun found state => known state ∧ (found = none → state.taken side ≠ none))
      (fun state => state.taken side ≠ none) (fun _ => takes)
      fun state => known state ∧ state.taken side ≠ none := by
    refine ⟨stable, fun _ => stable.and (Protocol.Stable.of_fact fun _ => gone_stable), gone_stable,
      fun _ => takes_stable, stable.and gone_stable, ?_, ?_, fun _ seen => ⟨seen.1, seen.2 rfl⟩, ?_,
      fun _ _ seen _ => seen.1, fun _ => And.intro⟩
    · intro _ other differs before after step _
      rw [Step.taken_of_trayKey step]
      exact Option.some_ne_none other
    · intro state accesses _ holds
      refine ⟨state, looked _, holds, fun missing => (state.entryAt_eq_none_iff pair).mp ?_⟩
      rwa [find?_tray] at missing
    · intro state accesses entry _ seen found
      rw [find?_tray] at found
      have there : state.taken side = none := by
        by_contra gone
        cases found.symm.trans ((state.entryAt_eq_none_iff pair).mpr gone)
      rw [erase_tray]
      exact ⟨state.take side me, swapped_take there, take state seen.1 there⟩
  exact removing.tries_remove (side.user_member pair) (side.record_mine pair)

/-! ## Records -/

theorem leads_dropRecord (side : Side) (stable : (sharing pair ι).protocol.Stable me known)
    (drop : ∀ state, known state → known (state.drop side me)) :
    (sharing pair ι).protocol.Leads around me
      (fun state => known state ∧ state.dropped side ≠ some me)
      (Workflow.dropRecord (side.record pair))
      fun content state => known state ∧ Cleared pair me side content state := by
  have open_stable := stable.and (stable_not_dropped pair me side)
  have dropped_stable := stable_dropped pair me side
  refine (Sharing.leads_dropRecord_content (side.record_mine pair) open_stable open_stable
    (stable.and dropped_stable) (open_stable.and dropped_stable) ?_ ?_).mono ?_
  · intro state accesses _ holds
    refine ⟨state, looked _, fun _ => holds, fun missing => ⟨holds, fun kept => missing ?_⟩⟩
    exact (state.share_stored pair side).mpr kept
  · intro state accesses _ holds
    refine ⟨state.drop side me, recorded_drop side, drop state holds.1, ?_⟩
    simp
  · intro content state holds
    cases content with
    | none => exact ⟨holds.1.1, holds.2, fun mine => absurd mine holds.1.2, by simp⟩
    | some content =>
        exact ⟨holds.2.1, holds.2.2, fun _ => Option.some_ne_none content, by simp [holds.1]⟩

theorem leads_dropOwn (side : Side) :
    (sharing pair ι).protocol.Leads around me
      (fun state => Halfway me side state ∧ state.dropped side ≠ some me)
      (Workflow.dropRecord (side.record pair))
      fun own state => Halfway me side state ∧ Cleared pair me side own state := by
  refine leads_dropRecord side (stable_halfway pair me side) fun state halfway => ?_
  refine ⟨halfway.1, ?_⟩
  rw [state.dropped_drop_of_ne me side.ne_other.symm]
  exact halfway.2

/-! ## Cleaning up and finishing -/

/-- A player that has cleaned up its side cleans up the other. -/
theorem leads_cleanUpOther (side : Side) (own : Option Task) :
    (sharing pair ι).protocol.Leads around me
      (fun state => Halfway me side state ∧ Cleared pair me side own state)
      (Workflow.cleanUpOther budget (side.user pair) (side.record pair)
        ⟨side.other.user pair, side.other.record pair⟩)
      fun result => Finished pair me side own result.2 := by
  have stable := (stable_halfway pair me side).and (stable_cleared pair me side own)
  have gone_stable := stable.and (stable_gone pair me side.other)
  have dropping : (sharing pair ι).protocol.Leads around me
      (fun state => (Halfway me side state ∧ Cleared pair me side own state) ∧
        state.taken side.other ≠ none)
      (Workflow.dropRecord (side.other.record pair)) (Finished pair me side own) := by
    have kept_stable := ((stable_taken pair me side).and (stable_cleared pair me side own)).and
      (stable_gone pair me side.other)
    refine ((leads_dropRecord side.other kept_stable ?_).weaken ?_).mono ?_
    · exact fun state holds => ⟨⟨holds.1.1, holds.1.2.drop_other me⟩, holds.2⟩
    · exact fun state holds => ⟨⟨⟨holds.1.1.1, holds.1.2⟩, holds.2⟩, holds.1.1.2⟩
    · exact fun next state holds => ⟨holds.1.1.1, holds.1.2, holds.1.1.2, holds.2⟩
  refine Sharing.leads_cleanUpOther_content gone_stable
    (fun _ _ => (Protocol.stable_const _).and ((Protocol.stable_const _).and stable)) gone_stable
    (stable_finished pair me side own) (tries_locate? side.other stable)
    (fun tray entry _ => Protocol.tries_of_fact ?_) ?_ dropping dropping
  · rintro rfl
    refine Protocol.tries_of_fact fun _ => tries_remove side.other stable gone_stable ?_
    exact fun state holds _ => ⟨⟨holds.1.take_other me, holds.2.take _ me⟩, by simp⟩
  · rintro tray entry state unlinked ⟨_, rfl, _⟩
    cases side <;> simp [Side.entry, Side.other, Entry.linksTo] at unlinked

/-- What a player knows that has finished and tells a content. -/
def Done (pair : Pair community around world) (me : ι) (side : Side) (content : Option Task)
    (state : State ι) : Prop :=
  ∃ own next, content = own.or next ∧ Finished pair me side own next state

variable (pair me) in
theorem stable_done (side : Side) (content : Option Task) :
    (sharing pair ι).protocol.Stable me (Done pair me side content) :=
  Protocol.Stable.exists fun own => Protocol.Stable.exists fun next =>
    (Protocol.stable_const _).and (stable_finished pair me side own next)

/-- A player takes out the entry of its side and cleans up, or somebody has been faster. -/
theorem tries_takeOut (side : Side) (policy : Policy) (event : Event) :
    (sharing pair ι).protocol.Tries around me (Idle me)
      (Workflow.takeOut policy (side.user pair) (side.record pair) event)
      (fun result => Done pair me side result.2.task)
      fun _ state => Idle me state ∧ state.taken side ≠ none := by
  have stable := stable_idle pair me
  have begun_stable := (stable_halfway pair me side).and (stable_not_dropped pair me side)
  have cleaning (entry : Entry) : (sharing pair ι).protocol.Leads around me
      (fun state => entry = side.entry pair ∧ Halfway me side state ∧
        state.dropped side ≠ some me)
      (Workflow.cleanUp policy.budget (side.user pair) entry)
      fun cleanup => Done pair me side cleanup.task := by
    refine Protocol.leads_of_fact ?_
    rintro rfl
    exact Sharing.leads_cleanUp_content rfl (stable_finished pair me side) (leads_dropOwn side)
      (leads_cleanUpOther side)
  refine Sharing.tries_takeOut_content (stable.and (stable_gone pair me side))
    (fun _ _ => (Protocol.stable_const _).and ((Protocol.stable_const _).and stable))
    (stable_done pair me side) (tries_locate? side stable) (fun _ => id)
    (fun tray entry => Protocol.tries_of_fact ?_) cleaning
  rintro rfl
  refine Protocol.tries_of_fact fun entry_eq => ?_
  refine (tries_remove side stable begun_stable ?_).mono ?_ fun _ _ => id
  · intro state idle _
    exact ⟨⟨by simp, (idle side.other).2⟩, (idle side).2⟩
  · exact fun _ state holds => ⟨entry_eq, holds⟩

/-- Whoever finishes a task on a side takes the entry out and cleans up, or somebody has been
faster. -/
theorem tries_reply (side : Side) (policy : Policy) {operation : Operation}
    (finishes : operation = .complete (side.user pair) (side.record pair) ∨
      operation = .remove (side.user pair) (side.record pair)) :
    (sharing pair ι).protocol.Tries around me (Idle me) (operation.reply policy)
      (fun reply => Done pair me side reply.content?)
      fun _ state => Idle me state ∧ state.taken side ≠ none := by
  have stable := stable_done pair me side
  have failed_stable (failure : Failure) : (sharing pair ι).protocol.Stable me
      fun state => Idle me state ∧ state.taken side ≠ none :=
    (stable_idle pair me).and (stable_gone pair me side)
  rcases finishes with rfl | rfl
  · refine Protocol.Tries.map (fun _ => stable _) failed_stable ?_
    exact (tries_takeOut side policy .taskCompleted).bind failed_stable fun _ =>
      Protocol.tries_pure (stable _) fun _ => id
  · refine Protocol.Tries.map (fun _ => stable _) failed_stable ?_
    exact (tries_takeOut side policy .taskRemoved).bind failed_stable fun _ =>
      Protocol.tries_pure (stable _) fun _ => id

end Finishing
end Handoff
