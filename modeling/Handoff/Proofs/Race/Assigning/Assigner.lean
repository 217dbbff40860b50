import Handoff.Proofs.Race.Assigning.Trays
import Handoff.Proofs.Race.Finish
import Handoff.Proofs.Race.Undo
import Handoff.Workflow.Assign

/-!
# Assigning while the task is finished

The assigner hands the task over to the assignee, or fails, because the finisher has taken out the
sender's entry, and puts back what it had taken from the receiver.
-/

namespace Handoff.Assigning

namespace State

/-- The assigner has not changed anything. -/
def Untouched (state : State) : Prop :=
  state.phase = .waiting ∧ state.withdrawn = false ∧ state.restored = false

/-- The assigner has undone what it had done. -/
def Undone (state : State) : Prop :=
  (state.phase = .waiting ∨ state.phase = .named) ∧ state.restored = state.withdrawn

/-- The assigner has handed the task over to the assignee. -/
def Handed (state : State) : Prop :=
  state.phase = .linked ∧ state.restored = false ∧
    (state.withdrawn = true ∨ state.taken .receiver = true)

theorem Untouched.undone {state : State} (untouched : state.Untouched) : state.Undone :=
  ⟨.inl untouched.1, untouched.2.2.trans untouched.2.1.symm⟩

end State

variable {community : Community} {around : Surroundings} {world : World}
  {plan : Plan community around world} {budget : Nat} {policy : Policy}

/-- The receiver's entry is away, and it is noted if it has to be put back. -/
def Away (plan : Plan community around world) (noted : List Undo) (phase : Phase) (state : State) :
    Prop :=
  state.phase = phase ∧ state.restored = false ∧
    ((noted = [] ∧ state.withdrawn = false ∧ state.taken .receiver = true) ∨
      (noted = [.putBack plan.receiver (plan.tray .receiver) plan.received] ∧
        state.withdrawn = true))

/-! ## What stays known -/

variable (plan) in
/-- The finisher leaves how far assigning is. -/
theorem stable_own (own : Phase → Bool → Bool → Prop) : (sharing plan).protocol.Stable .assigner
    fun state => own state.phase state.withdrawn state.restored := by
  refine stable_of_change fun side differs spot before after change => ?_
  obtain rfl := eq_finisher differs
  cases change with
  | drop | take | look => exact id

variable (plan) in
theorem stable_untouched : (sharing plan).protocol.Stable .assigner State.Untouched :=
  stable_own plan fun phase withdrawn restored =>
    phase = .waiting ∧ withdrawn = false ∧ restored = false

variable (plan) in
theorem stable_undone : (sharing plan).protocol.Stable .assigner State.Undone :=
  stable_own plan fun phase withdrawn restored =>
    (phase = .waiting ∨ phase = .named) ∧ restored = withdrawn

variable (plan) in
theorem stable_handed : (sharing plan).protocol.Stable .assigner State.Handed :=
  (stable_own plan fun phase _ _ => phase = .linked).and <|
    (stable_own plan fun _ _ restored => restored = false).and <|
      (stable_own plan fun _ withdrawn _ => withdrawn = true).or (stable_taken plan .receiver)

variable (plan) in
theorem stable_away (noted : List Undo) (phase : Phase) :
    (sharing plan).protocol.Stable .assigner (Away plan noted phase) :=
  (stable_own plan fun now _ _ => now = phase).and <|
    (stable_own plan fun _ _ restored => restored = false).and <|
      ((Protocol.stable_const _).and <| (stable_own plan fun _ withdrawn _ =>
        withdrawn = false).and (stable_taken plan .receiver)).or <|
          (Protocol.stable_const _).and (stable_own plan fun _ withdrawn _ => withdrawn = true)

variable (plan) in
/-- The assigner fails because the finisher has taken out the sender's entry, and knows what it has
done so far. -/
def Fails (noted : List Undo) (state : State) : Prop :=
  (noted = [] ∧ state.Untouched) ∨ ∃ first, noted =
    first ++ [.deleteRecord plan.next, .takeOut plan.assignee .received plan.next] ∧
      Away plan first .handed state ∧ state.taken .sender = true

variable (plan) in
theorem stable_fails (noted : List Undo) :
    (sharing plan).protocol.Stable .assigner (Fails plan noted) :=
  ((Protocol.stable_const _).and (stable_untouched plan)).or <| .exists fun first =>
    (Protocol.stable_const _).and ((stable_away plan first .handed).and (stable_taken plan .sender))

/-! ## Taking the task from the receiver -/

theorem tries_locate :
    (sharing plan).protocol.Tries around .assigner State.Untouched
      (Workflow.locate (plan.user .sender) (plan.record .sender))
      (fun located state => (located.tray = .sent ∧ located.entry = plan.sent) ∧ state.Untouched)
      fun _ => State.Untouched := by
  have stable := stable_untouched plan
  have locating : (sharing plan).protocol.Tries around .assigner State.Untouched
      (Trays.locate? (plan.user .sender) (plan.record .sender))
      (Sharing.Located (fun tray entry state => tray = .sent ∧ entry = plan.sent ∧
        state.Untouched) State.Untouched) fun _ _ => False := by
    refine tries_locate? .sender stable (fun _ => (Protocol.stable_const _).and stable) stable
      ?_ ?_ ?_
    · exact fun key state accesses _ notes untouched =>
        ⟨state, (silent_assigner key).looked notes, untouched⟩
    · intro state accesses notes untouched
      refine ⟨state, (silent_assigner _).looked notes, fun entry found => ?_, fun _ => untouched⟩
      simp only [State.entryAt, untouched.1] at found
      split at found
      · cases found
      · exact ⟨(Option.some.inj found).symm, untouched⟩
    · exact fun key state accesses _ notes untouched =>
        ⟨state, (silent_assigner key).looked notes, untouched⟩
  refine (locating.mono (fun _ _ => id) fun _ _ => False.elim).bind (fun _ => stable)
    fun found => ?_
  cases found with
  | none => exact Protocol.tries_throw stable fun _ => id
  | some located =>
      exact Protocol.tries_pure ((Protocol.stable_const _).and stable) fun _ seen =>
        ⟨⟨seen.1, seen.2.1⟩, seen.2.2⟩

theorem tries_locate_receiver :
    (sharing plan).protocol.Tries around .assigner State.Untouched
      (Trays.locate? (plan.user .receiver) (plan.record .receiver))
      (Sharing.Located (fun tray entry state => tray = plan.tray .receiver ∧
        entry = plan.received ∧ state.Untouched) (Away plan [] .waiting)) fun _ _ => False := by
  have stable := stable_untouched plan
  refine tries_locate? .receiver stable (fun _ => (Protocol.stable_const _).and stable)
    (stable_away plan [] .waiting) ?_ ?_ ?_
  · exact fun key state accesses _ notes untouched =>
      ⟨state, (silent_assigner key).looked notes, untouched⟩
  · intro state accesses notes untouched
    refine ⟨state, (silent_assigner _).looked notes, fun entry found => ?_, fun missing => ?_⟩
    · simp only [State.entryAt] at found
      split at found
      · exact ⟨(Option.some.inj found).symm, untouched⟩
      · cases found
    · have taken : state.taken .receiver = true := by
        simpa [State.entryAt, State.isListed, untouched.2.1] using missing
      exact ⟨untouched.1, untouched.2.2, .inl ⟨rfl, untouched.2.1, taken⟩⟩
  · exact fun key state accesses _ notes away =>
      ⟨state, (silent_assigner key).looked notes, away⟩

theorem tries_withdraw :
    (sharing plan).protocol.Tries around .assigner State.Untouched
      (Trays.remove budget (plan.user .receiver) (plan.tray .receiver) (plan.record .receiver))
      (fun _ => Away plan [.putBack plan.receiver (plan.tray .receiver) plan.received] .waiting)
      fun _ => State.Untouched := by
  have stable := stable_untouched plan
  have lost_stable : (sharing plan).protocol.Stable .assigner fun state =>
      state.taken .receiver = true := stable_taken plan .receiver
  have taking : Taking plan .assigner .receiver State.Untouched
      (fun found state => state.Untouched ∧ (found = none → state.taken .receiver = true))
      (fun state => state.taken .receiver = true)
      (Away plan [.putBack plan.receiver (plan.tray .receiver) plan.received] .waiting)
      State.Untouched := by
    refine ⟨stable, fun found => ?_, lost_stable, stable_away plan _ _, stable, ?_, ?_,
      fun _ seen => seen.1, ?_, fun _ _ seen _ => seen.1, fun _ untouched _ => untouched⟩
    · cases found with
      | none => simpa using stable.and lost_stable
      | some entry => simpa using stable
    · intro _ other differs before after change _
      obtain rfl := eq_finisher differs
      cases change with
      | take => simp
    · intro state accesses notes untouched
      refine ⟨state, (silent_assigner _).looked notes, untouched, fun missing => ?_⟩
      simpa [State.entryAt, State.isListed, untouched.2.1] using missing
    · rintro state accesses entry notes ⟨⟨waiting, kept, unrestored⟩, _⟩ found
      have there : state.taken .receiver = false := by
        by_contra taken
        simp [State.entryAt, State.isListed, taken] at found
      refine ⟨_, .withdraw waiting there kept, ?_, waiting, unrestored, .inr ⟨rfl, rfl⟩⟩
      simp [State.entryAt, State.isListed, unrestored]
  exact taking.tries_remove

/-- The receiver's entry is withdrawn, or the finisher has taken it out. -/
theorem works_withdraw :
    (sharing plan).protocol.Works around .assigner State.Untouched []
      (Workflow.withdraw policy (plan.user .sender) (plan.record .sender)
        ⟨plan.user .receiver, plan.record .receiver⟩)
      (fun orphaned noted state => orphaned = true ∧ Away plan noted .waiting state)
      (Fails plan) := by
  have ends_stable (noted : List Undo) : (sharing plan).protocol.Stable .assigner fun state =>
      true = true ∧ Away plan noted .waiting state :=
    (Protocol.stable_const _).and (stable_away plan noted .waiting)
  refine Protocol.works_step_bind (stable_fails plan [])
    (tries_locate_receiver.mono (fun _ _ => id) fun _ _ => False.elim) fun found => ?_
  cases found with
  | none =>
      refine Protocol.works_step_bind (stable_fails plan [])
        (Protocol.tries_note (stable_away plan [] .waiting) _) fun _ => ?_
      exact Protocol.works_pure (ends_stable []) fun _ away => ⟨rfl, away⟩
  | some located =>
      refine Protocol.leads_of_fact fun place => Protocol.leads_of_fact fun same => ?_
      have linked : located.entry.linksTo (plan.user .sender) (plan.record .sender) = true := by
        simp [same, Pair.received, Entry.linksTo, Plan.user, Plan.record]
      simp only [linked, if_true]
      rw [place, same]
      refine Protocol.works_step_bind (stable_fails plan [])
        (tries_withdraw.mono (fun _ _ => id) fun _ _ untouched => .inl ⟨rfl, untouched⟩) fun _ => ?_
      exact Protocol.works_note_bind (Protocol.works_pure (ends_stable _) fun _ away => ⟨rfl, away⟩)

/-! ## Handing the task over -/

section
variable {first : List Undo}

theorem tries_name :
    (sharing plan).protocol.Tries around .assigner (Away plan first .waiting) Attempt.newTaskId
      (fun id state => id = plan.next ∧ Away plan first .named state) fun _ _ => False := by
  refine Protocol.tries_newTaskId (stable_away plan first .waiting)
    (fun _ => (Protocol.stable_const _).and (stable_away plan first .named)) ?_
  rintro stage valid ⟨waiting, away⟩
  obtain ⟨named, moves⟩ := moves_name valid waiting
  exact ⟨_, moves, named, rfl, away⟩

theorem tries_save {content : Task} (own : content.id = plan.record .assignee)
    (named : content.OriginNamed) :
    (sharing plan).protocol.Tries around .assigner (Away plan first .named) (Records.save content)
      (fun _ => Away plan first .saved) fun _ _ => False := by
  refine Sharing.tries_save_record (own ▸ plan.record_mine .assignee) named
    (stable_away plan first .named) (stable_away plan first .saved) ?_
  rintro state accesses notes ⟨phase, away⟩
  rw [own]
  refine ⟨_, recorded_of_change notes (.save phase) ?_, rfl, away⟩
  have undropped := (notes.proper.unlinked (by simp [phase])).2
  simp [State.stores, Phase.isSaved, undropped]

theorem tries_hand :
    (sharing plan).protocol.Tries around .assigner (Away plan first .saved)
      (Trays.append budget (plan.user .assignee) (plan.tray .assignee) plan.given)
      (fun _ => Away plan first .handed) fun _ _ => False := by
  have putting : Putting plan .assigner .assignee plan.given (Away plan first .saved)
      (Away plan first .handed) := by
    refine ⟨stable_away plan first .saved, stable_away plan first .handed, ?_, ?_, ?_, ?_⟩
    · rintro other differs before after change ⟨phase, _⟩
      obtain rfl := eq_finisher differs
      cases change with
      | take _ _ _ linked => cases phase.symm.trans (linked rfl)
    · exact fun state accesses notes _ => (silent_assigner _).looked notes
    · rintro state accesses notes ⟨phase, _⟩
      simp [State.entryAt, State.isGiven, phase, Phase.isHanded]
    · rintro state accesses notes ⟨phase, away⟩
      refine ⟨_, .hand phase, ?_, rfl, away⟩
      have untaken := (notes.proper.unlinked (by simp [phase])).1
      simp [State.entryAt, State.isGiven, Phase.isHanded, untaken]
  exact putting.tries_append rfl plan.given_wellLinked

/-- The assigner takes out the sender's entry, unless the finisher has taken it out. -/
theorem tries_lift :
    (sharing plan).protocol.Tries around .assigner (Away plan first .handed)
      (Trays.remove budget (plan.user .sender) (plan.tray .sender) (plan.record .sender))
      (fun _ => Away plan first .lifted)
      fun _ state => Away plan first .handed state ∧ state.taken .sender = true := by
  have stable := stable_away plan first .handed
  have lost_stable : (sharing plan).protocol.Stable .assigner fun state =>
      state.taken .sender = true := stable_taken plan .sender
  have taking : Taking plan .assigner .sender (Away plan first .handed)
      (fun found state => Away plan first .handed state ∧
        (found = none → state.taken .sender = true))
      (fun state => state.taken .sender = true) (Away plan first .lifted)
      fun state => Away plan first .handed state ∧ state.taken .sender = true := by
    refine ⟨stable, fun found => ?_, lost_stable, stable_away plan first .lifted,
      stable.and lost_stable, ?_, ?_, fun _ seen => ⟨seen.1, seen.2 rfl⟩, ?_,
      fun _ _ seen _ => seen.1, fun _ => And.intro⟩
    · cases found with
      | none => simpa using stable.and lost_stable
      | some entry => simpa using stable
    · intro _ other differs before after change _
      obtain rfl := eq_finisher differs
      cases change with
      | take => simp
    · intro state accesses notes away
      refine ⟨state, (silent_assigner _).looked notes, away, fun missing => ?_⟩
      simpa [State.entryAt, away.1] using missing
    · rintro state accesses entry notes ⟨⟨phase, away⟩, _⟩ found
      have there : state.taken .sender = false := by
        by_contra taken
        simp [State.entryAt, taken] at found
      exact ⟨_, .lift phase there, by simp [State.entryAt], rfl, away⟩
  exact taking.tries_remove

theorem tries_link :
    (sharing plan).protocol.Tries around .assigner (Away plan first .lifted)
      (Trays.append budget (plan.user .sender) (plan.tray .sender) plan.renewed)
      (fun _ => Away plan first .linked) fun _ _ => False := by
  have putting : Putting plan .assigner .sender plan.renewed (Away plan first .lifted)
      (Away plan first .linked) := by
    refine ⟨stable_away plan first .lifted, stable_away plan first .linked, ?_, ?_, ?_, ?_⟩
    · rintro other differs before after change ⟨phase, _⟩
      obtain rfl := eq_finisher differs
      cases change with
      | take _ unlifted => exact unlifted rfl phase
    · exact fun state accesses notes _ => (silent_assigner _).looked notes
    · rintro state accesses notes ⟨phase, _⟩
      simp [State.entryAt, phase]
    · rintro state accesses notes ⟨phase, away⟩
      refine ⟨_, .link phase, ?_, rfl, away⟩
      simp [State.entryAt, notes.proper.lifted phase]
  exact putting.tries_append rfl plan.renewed_wellLinked

/-- The task is handed over, or the sender's entry has been taken out by the finisher. -/
theorem works_handOver {content : Task} (own : content.id = plan.record .sender) (position : Nat) :
    (sharing plan).protocol.Works around .assigner (Away plan first .waiting) first
      (Workflow.handOver policy (plan.user .sender) (plan.user .assignee) content
        ⟨.sent, plan.sent, position⟩)
      (fun _ _ => State.Handed) (Fails plan) := by
  refine Protocol.works_step_bind (stable_fails plan first)
    (tries_name.mono (fun _ _ => id) fun _ _ => False.elim) fun id => Protocol.leads_of_fact ?_
  rintro rfl
  refine Protocol.works_step_bind (stable_fails plan first)
    (Protocol.tries_now (stable_away plan first .named)) fun now => ?_
  have named := Task.originNamed_copy content plan.next now
  refine Protocol.works_step_bind (stable_fails plan first)
    ((tries_save rfl named).mono (fun _ _ => id) fun _ _ => False.elim) fun _ => ?_
  rw [own]
  refine Protocol.works_note_bind <| Protocol.works_step_bind (stable_fails plan _)
    (tries_hand.mono (fun _ _ => id) fun _ _ => False.elim) fun _ => ?_
  refine Protocol.works_note_bind <| Protocol.works_step_bind (stable_fails plan _)
    (tries_lift.mono (fun _ _ => id) fun _ _ lost => .inr ⟨first, ?_, lost⟩) fun _ => ?_
  · rw [List.append_assoc]
    rfl
  refine Protocol.works_note_bind <| Protocol.works_step (fun _ => stable_handed plan)
    (stable_fails plan _) (tries_link.mono (fun _ _ linked => ?_) fun _ _ => False.elim)
  obtain ⟨phase, unrestored, ⟨_, _, taken⟩ | ⟨_, withdrawn⟩⟩ := linked
  · exact ⟨phase, unrestored, .inr taken⟩
  · exact ⟨phase, unrestored, .inl withdrawn⟩

/-! ## Undoing it -/

variable (plan first) in
theorem stable_lost (phase : Phase) : (sharing plan).protocol.Stable .assigner fun state =>
    Away plan first phase state ∧ state.taken .sender = true :=
  (stable_away plan first phase).and (stable_taken plan .sender)

theorem tries_retract :
    (sharing plan).protocol.Tries around .assigner
      (fun state => Away plan first .handed state ∧ state.taken .sender = true)
      ((Undo.takeOut plan.assignee .received plan.next).apply budget)
      (fun _ state => Away plan first .saved state ∧ state.taken .sender = true)
      fun _ state => Away plan first .saved state ∧ state.taken .sender = true := by
  have stable := stable_lost plan first .handed
  have after_stable := stable_lost plan first .saved
  have taking : Taking plan .assigner .assignee
      (fun state => Away plan first .handed state ∧ state.taken .sender = true)
      (fun found state => found ≠ none ∧
        Away plan first .handed state ∧ state.taken .sender = true) (fun _ => False)
      (fun state => Away plan first .saved state ∧ state.taken .sender = true)
      fun state => Away plan first .saved state ∧ state.taken .sender = true := by
    refine ⟨stable, fun _ => (Protocol.stable_const _).and stable, Protocol.stable_const False,
      after_stable, after_stable, ?_, ?_, fun _ seen => absurd rfl seen.1, ?_,
      fun _ _ _ => False.elim, fun _ _ => False.elim⟩
    · rintro _ other differs before after change ⟨_, ⟨phase, _⟩, _⟩
      obtain rfl := eq_finisher differs
      cases change with
      | take _ _ _ linked => cases phase.symm.trans (linked rfl)
    · rintro state accesses notes ⟨⟨phase, away⟩, lost⟩
      refine ⟨state, (silent_assigner _).looked notes, ?_, ⟨phase, away⟩, lost⟩
      have untaken := (notes.proper.unlinked (by simp [phase])).1
      simp [State.entryAt, State.isGiven, Phase.isHanded, phase, untaken]
    · rintro state accesses entry notes ⟨_, ⟨phase, away⟩, lost⟩ _
      refine ⟨_, .retract phase lost, ?_, ⟨rfl, away⟩, lost⟩
      simp [State.entryAt, State.isGiven, Phase.isHanded]
  exact taking.tries_remove.bind (fun _ => after_stable) fun _ =>
    Protocol.tries_pure after_stable fun _ => id

theorem tries_discard :
    (sharing plan).protocol.Tries around .assigner
      (fun state => Away plan first .saved state ∧ state.taken .sender = true)
      (Records.delete (plan.record .assignee))
      (fun _ state => Away plan first .named state ∧ state.taken .sender = true)
      fun _ _ => False := by
  refine Sharing.tries_delete_record (plan.record_mine .assignee) (stable_lost plan first .saved)
    (stable_lost plan first .named) ?_
  rintro state accesses notes ⟨⟨phase, away⟩, lost⟩
  refine ⟨_, recorded_of_change notes (.discard phase lost) ?_, ⟨rfl, away⟩, lost⟩
  simp [State.stores, Phase.isSaved]

end

/-- The receiver's entry is put back. -/
theorem tries_restore :
    (sharing plan).protocol.Tries around .assigner
      (fun state => state.phase = .named ∧ state.withdrawn = true ∧ state.restored = false)
      (Trays.append budget (plan.user .receiver) (plan.tray .receiver) plan.received)
      (fun _ => State.Undone) fun _ _ => False := by
  have putting : Putting plan .assigner .receiver plan.received
      (fun state => state.phase = .named ∧ state.withdrawn = true ∧ state.restored = false)
      State.Undone := by
    refine ⟨stable_own plan fun phase withdrawn restored =>
      phase = .named ∧ withdrawn = true ∧ restored = false, stable_undone plan, ?_, ?_, ?_, ?_⟩
    · rintro other differs before after change ⟨_, withdrawn, unrestored⟩
      obtain rfl := eq_finisher differs
      cases change with
      | take _ _ listed =>
          have there := listed rfl
          simp [State.isListed, withdrawn, unrestored] at there
    · exact fun state accesses notes _ => (silent_assigner _).looked notes
    · rintro state accesses notes ⟨_, withdrawn, unrestored⟩
      simp [State.entryAt, State.isListed, withdrawn, unrestored]
    · rintro state accesses notes ⟨phase, withdrawn, unrestored⟩
      refine ⟨_, .restore phase withdrawn unrestored, ?_, .inr phase, withdrawn.symm⟩
      simp [State.entryAt, State.isListed, notes.proper.away withdrawn unrestored]
  exact putting.tries_append rfl plan.received_wellLinked

/-- What has been done is undone. -/
theorem leads_rollBack (noted : List Undo) :
    (sharing plan).protocol.Leads around .assigner (Fails plan noted) (Undo.rollBack budget noted)
      fun _ => State.Undone := by
  have stable := stable_undone plan
  refine Protocol.leads_rollBack stable (Protocol.Leads.or ?_ ?_)
  · refine Protocol.leads_of_fact ?_
    rintro rfl
    exact Protocol.leads_applyEach_nil stable fun _ => State.Untouched.undone
  · refine Protocol.leads_of_exists fun first => Protocol.leads_of_fact ?_
    rintro rfl
    rw [List.reverse_append]
    refine Protocol.leads_applyEach_cons (stable_lost plan first .saved) stable tries_retract ?_
    refine Protocol.leads_applyEach_cons (stable_lost plan first .named) stable
      (tries_discard.mono (fun _ _ => id) fun _ _ => False.elim) ?_
    -- What is left to be undone is known from what has been noted first.
    intro state valid lost
    obtain ⟨⟨phase, unrestored, ⟨rfl, kept, _⟩ | ⟨rfl, withdrawn⟩⟩, _⟩ := lost
    · have nothing : (sharing plan).protocol.Leads around .assigner State.Undone
          (Undo.applyEach budget []) fun _ => State.Undone :=
        Protocol.leads_applyEach_nil stable fun _ => id
      exact nothing state valid ⟨.inr phase, unrestored.trans kept.symm⟩
    · have putting : (sharing plan).protocol.Leads around .assigner
          (fun state => state.phase = .named ∧ state.withdrawn = true ∧ state.restored = false)
          (Undo.applyEach budget
            [.putBack plan.receiver (plan.tray .receiver) plan.received])
          fun _ => State.Undone :=
        Protocol.leads_applyEach_cons stable stable
          (tries_restore.mono (fun _ _ => id) fun _ _ => False.elim)
          (Protocol.leads_applyEach_nil stable fun _ => id)
      exact putting state valid ⟨phase, withdrawn, unrestored⟩

/-! ## Assigning -/

/-- The task is moved to the assignee, or all is undone. -/
theorem tries_moveTo {content : Task} (own : content.id = plan.record .sender) (position : Nat) :
    (sharing plan).protocol.Tries around .assigner State.Untouched
      (Undoable.settle policy.budget (Workflow.moveTo policy (plan.user .sender)
        (plan.user .assignee) content ⟨.sent, plan.sent, position⟩))
      (fun orphaned state => orphaned = true ∧ state.Handed) fun _ => State.Undone := by
  have ends_stable (orphaned : Bool) : (sharing plan).protocol.Stable .assigner fun state =>
      orphaned = true ∧ state.Handed := (Protocol.stable_const _).and (stable_handed plan)
  have works : (sharing plan).protocol.Works around .assigner State.Untouched []
      (Workflow.moveTo policy (plan.user .sender) (plan.user .assignee) content
        ⟨.sent, plan.sent, position⟩)
      (fun orphaned _ state => orphaned = true ∧ state.Handed) (Fails plan) := by
    have withdrawing : (sharing plan).protocol.Works around .assigner State.Untouched []
        (Workflow.withdraw policy (plan.user .sender) content.id
          ⟨plan.user .receiver, plan.record .receiver⟩)
        (fun orphaned noted state => orphaned = true ∧ Away plan noted .waiting state)
        (Fails plan) := by
      rw [own]
      exact works_withdraw
    have other : ¬plan.user .assignee = plan.user .sender := plan.assignee_ne_sender
    refine withdrawing.bind (stable_fails plan) fun orphaned noted => ?_
    refine Protocol.leads_of_fact fun same => ?_
    simp only [other, if_false]
    exact (works_handOver own position).bind (stable_fails plan) fun _ _ =>
      Protocol.works_pure (ends_stable orphaned) fun _ handed => ⟨same, handed⟩
  refine (works.settle (fun orphaned _ => ends_stable orphaned) (stable_fails plan)
    (stable_undone plan) leads_rollBack).mono ?_ fun _ _ => id
  rintro orphaned state ⟨_, handed⟩
  exact handed

theorem leads_dropOrphan :
    (sharing plan).protocol.Leads around .assigner State.Handed
      (Workflow.dropOrphan true plan.sent.link)
      fun _ state => state.Handed ∧ state.dropped .receiver = true := by
  have stable := (stable_handed plan).and (stable_dropped plan .receiver)
  have dropping : (sharing plan).protocol.Leads around .assigner State.Handed
      (Workflow.dropRecord (plan.record .receiver))
      fun _ state => state.Handed ∧ state.dropped .receiver = true := by
    refine Sharing.leads_dropRecord (plan.record_mine .receiver) (stable_handed plan)
      (stable_handed plan) stable ?_ ?_
    · intro state accesses notes handed
      refine ⟨state, (silent_assigner _).looked notes, fun _ => handed, fun missing => ⟨handed, ?_⟩⟩
      have unstored := mt (state.share_stored plan .receiver).mpr missing
      simpa [State.stores] using unstored
    · intro state accesses notes handed
      refine ⟨_, recorded_of_change notes (.drop .receiver (fun _ => rfl) (by simp)) ?_, handed, ?_⟩
      · simp [State.stores]
      · simp
  exact dropping.bind fun _ => Protocol.leads_pure stable fun _ => id

/-- Assigning hands the task over and leaves nothing of the receiver, or fails and is undone. -/
theorem tries_assign :
    (sharing plan).protocol.Tries around .assigner State.Untouched
      (Workflow.assign policy (plan.user .sender) (plan.record .sender) (plan.user .assignee))
      (fun _ state => state.Handed ∧ state.dropped .receiver = true) fun _ => State.Undone := by
  have stable := (stable_handed plan).and (stable_dropped plan .receiver)
  have undone_stable := stable_undone plan
  refine (tries_locate.mono (fun _ _ => id) fun _ _ => State.Untouched.undone).bind
    (fun _ => undone_stable) fun located => Protocol.tries_of_fact ?_
  obtain ⟨tray, entry, position⟩ := located
  rintro ⟨rfl, rfl⟩
  have loading : (sharing plan).protocol.Tries around .assigner State.Untouched
      (Records.load (plan.record .sender))
      (fun content state => content.id = plan.record .sender ∧ state.Untouched)
      fun _ => State.Undone :=
    Sharing.tries_load_record (plan.record_mine .sender) (stable_untouched plan)
      (stable_untouched plan) undone_stable fun state accesses notes untouched =>
        ⟨state, (silent_assigner _).looked notes, fun _ => untouched, fun _ => untouched.undone⟩
  have other : ¬plan.sent.partner.getD (plan.user .sender) = plan.user .assignee :=
    plan.assignee_ne_receiver.symm
  refine loading.bind (fun _ => undone_stable) fun content => Protocol.tries_of_fact fun own => ?_
  simp only [other, if_false]
  refine (tries_moveTo own position).bind (fun _ => undone_stable) fun orphaned =>
    Protocol.tries_of_fact ?_
  rintro rfl
  refine (Protocol.tries_lift (fun _ => stable) leads_dropOrphan).bind (fun _ => undone_stable)
    fun _ => ?_
  exact (Protocol.tries_note stable _).bind (fun _ => undone_stable) fun _ =>
    Protocol.tries_pure stable fun _ => id

end Handoff.Assigning
