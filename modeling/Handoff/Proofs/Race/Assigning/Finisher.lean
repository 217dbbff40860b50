import Handoff.Proofs.Race.Assigning.Trays
import Handoff.Proofs.Race.Finish

/-!
# Finishing while the task is assigned

The finisher follows the link of the sender's entry as it has seen it first, be it linked to the
receiver's entry or already to the assignee's.
-/

namespace Handoff.Assigning

namespace State

/-- The finisher has seen the sender's entry before the assigner changed it. -/
def Early (state : State) : Prop :=
  state.read = true ∧ (state.phase = .lifted ∨ state.phase = .linked → state.crossed = true)

/-- The finisher has seen the sender's entry after the assigner changed it. -/
def Late (state : State) : Prop := state.phase = .linked ∧ state.crossed = false

/-- The finisher has left the assignee alone. -/
def Spared (state : State) : Prop :=
  state.taken .assignee = false ∧ state.dropped .assignee = false

/-- Nothing of the sender is left. -/
def Released (state : State) : Prop :=
  state.taken .sender = true ∧ state.dropped .sender = true

/-- The receiver's entry is gone, or the assigner has had it. -/
def Parted (state : State) : Prop := state.taken .receiver = true ∨ state.withdrawn = true

/-- The finisher cleans up on the receiver's side. -/
def OnReceiver (state : State) : Prop := state.Early ∧ state.Spared ∧ state.Released

/-- The finisher cleans up on the assignee's side. -/
def OnAssignee (state : State) : Prop :=
  state.Late ∧ state.dropped .assignee = false ∧ state.Released

/-- The finisher has cleaned up on the side that it has seen. -/
def Cleaned (state : State) : Prop :=
  state.Released ∧ ((state.Early ∧ state.Spared ∧ state.Parted ∧ state.dropped .receiver = true) ∨
    (state.Late ∧ state.taken .assignee = true ∧ state.dropped .assignee = true))

end State

variable {community : Community} {around : Surroundings} {world : World}
  {plan : Plan community around world} {budget : Nat} {policy : Policy}

/-- The finisher has seen an entry of the sender. -/
def Sees (plan : Plan community around world) (entry : Entry) (state : State) : Prop :=
  ((entry = plan.sent ∧ state.Early) ∨ (entry = plan.renewed ∧ state.Late)) ∧
    state.taken .receiver = false ∧ state.Spared

/-! ## What stays known -/

variable (plan) in
/-- The assigner takes out no entries in the finisher's stead. -/
theorem stable_kept (role : Role) (taken : Bool) :
    (sharing plan).protocol.Stable .finisher fun state => state.taken role = taken := by
  refine stable_of_change fun side differs spot before after change => ?_
  obtain rfl := eq_assigner differs
  cases change with
  | _ => exact id

variable (plan) in
theorem stable_read (read : Bool) :
    (sharing plan).protocol.Stable .finisher fun state => state.read = read := by
  refine stable_of_change fun side differs spot before after change => ?_
  obtain rfl := eq_assigner differs
  cases change with
  | _ => exact id

variable (plan) in
theorem stable_spared : (sharing plan).protocol.Stable .finisher State.Spared := by
  refine (stable_kept plan .assignee false).and
    (stable_of_change fun side differs spot before after change undropped => ?_)
  obtain rfl := eq_assigner differs
  cases change with
  | drop role may =>
      obtain rfl := may rfl
      simpa [Function.update_of_ne] using undropped
  | _ => exact undropped

variable (plan) in
theorem stable_early : (sharing plan).protocol.Stable .finisher State.Early := by
  refine stable_of_change fun side differs spot before after change early => ?_
  obtain rfl := eq_assigner differs
  obtain ⟨read, crossed⟩ := early
  cases change with
  | lift | link => exact ⟨read, fun _ => by simp [read]⟩
  | name | save | hand | retract | discard => exact ⟨read, by simp⟩
  | withdraw | restore | drop => exact ⟨read, crossed⟩

variable (plan) in
theorem stable_late : (sharing plan).protocol.Stable .finisher State.Late := by
  refine stable_of_change fun side differs spot before after change late => ?_
  obtain rfl := eq_assigner differs
  obtain ⟨linked, uncrossed⟩ := late
  cases change with
  | drop => exact ⟨linked, uncrossed⟩
  | name phase | save phase | hand phase | lift phase | link phase | retract phase
  | discard phase | withdraw phase | restore phase => cases linked.symm.trans phase

variable (plan) in
theorem stable_released : (sharing plan).protocol.Stable .finisher State.Released :=
  (stable_taken plan .sender).and (stable_dropped plan .sender)

variable (plan) in
theorem stable_withdrawn :
    (sharing plan).protocol.Stable .finisher fun state => state.withdrawn = true := by
  refine stable_of_change fun side differs spot before after change withdrawn => ?_
  obtain rfl := eq_assigner differs
  cases change with
  | withdraw => rfl
  | _ => exact withdrawn

variable (plan) in
theorem stable_parted : (sharing plan).protocol.Stable .finisher State.Parted :=
  (stable_taken plan .receiver).or (stable_withdrawn plan)

variable (plan) in
theorem stable_sees (entry : Entry) : (sharing plan).protocol.Stable .finisher (Sees plan entry) :=
  (((Protocol.stable_const _).and (stable_early plan)).or
    ((Protocol.stable_const _).and (stable_late plan))).and
      ((stable_kept plan .receiver false).and (stable_spared plan))

variable (plan) in
theorem stable_cleaned : (sharing plan).protocol.Stable .finisher State.Cleaned :=
  (stable_released plan).and <|
    ((stable_early plan).and <| (stable_spared plan).and <|
      (stable_parted plan).and (stable_dropped plan .receiver)).or <|
        (stable_late plan).and <| (stable_kept plan .assignee true).and
          (stable_dropped plan .assignee)

/-! ## The sender's side -/

theorem State.Early.look {state : State} (early : state.Early) (more : Bool) :
    { state with read := state.read || more }.Early := ⟨by simp [early.1], early.2⟩

/-- The finisher sees the sender's entry. -/
theorem tries_locate_task :
    (sharing plan).protocol.Tries around .finisher
      (fun state => state.read = false ∧ state.taken .sender = false ∧
        state.taken .receiver = false ∧ state.Spared)
      (Trays.locate? (plan.user .sender) (plan.record .sender))
      (Sharing.Located (fun tray entry state => tray = plan.tray .sender ∧
        Sees plan entry state ∧ state.taken .sender = false) fun _ => True) fun _ _ => False := by
  refine tries_locate? .sender ((stable_read plan false).and <| (stable_kept plan .sender false).and
    <| (stable_kept plan .receiver false).and (stable_spared plan))
    (fun entry => (stable_sees plan entry).and (stable_kept plan .sender false))
    (Protocol.stable_const True) ?_ ?_ ?_
  · rintro key state accesses differs notes ⟨unread, intact⟩
    refine ⟨_, looked_finisher key notes, ?_, intact⟩
    simp [unread, beq_false_of_ne differs]
  · rintro state accesses notes ⟨unread, there, untaken, spared⟩
    refine ⟨_, looked_finisher _ notes, fun entry found => ⟨⟨?_, untaken, spared⟩, there⟩,
      fun _ => trivial⟩
    have uncrossed : state.crossed = false := by
      by_contra crossed
      simp [notes.proper.crossed (by simpa using crossed)] at unread
    simp only [State.entryAt, there] at found
    cases phase : state.phase with
    | waiting | named | saved | handed =>
        simp only [phase] at found
        exact .inl ⟨(Option.some.inj found).symm, by simp, by simp⟩
    | lifted => simp [phase] at found
    | linked =>
        simp only [phase] at found
        exact .inr ⟨(Option.some.inj found).symm, rfl, uncrossed⟩
  · exact fun key state accesses _ notes _ => ⟨_, looked_finisher key notes, trivial⟩

/-- The finisher takes out the sender's entry, whatever it is linked to by then. -/
theorem tries_release (entry : Entry) :
    (sharing plan).protocol.Tries around .finisher
      (fun state => Sees plan entry state ∧ state.taken .sender = false)
      (Trays.remove budget (plan.user .sender) (plan.tray .sender) (plan.record .sender))
      (fun _ state => Sees plan entry state ∧ state.taken .sender = true) fun _ _ => True := by
  have sees_stable (taken : Bool) :=
    (stable_sees plan entry).and (stable_kept plan .sender taken)
  have taking : Taking plan .finisher .sender
      (fun state => Sees plan entry state ∧ state.taken .sender = false)
      (fun _ state => Sees plan entry state ∧ state.taken .sender = false) (fun _ => True)
      (fun state => Sees plan entry state ∧ state.taken .sender = true) fun _ => True := by
    refine ⟨sees_stable false, fun _ => sees_stable false, Protocol.stable_const True,
      sees_stable true, Protocol.stable_const True, fun _ _ _ _ _ _ _ => trivial, ?_,
      fun _ _ => trivial, ?_, fun _ _ seen _ => seen, fun _ _ _ => trivial⟩
    · rintro state accesses notes ⟨⟨seen, intact⟩, there⟩
      refine ⟨_, looked_finisher _ notes, ⟨?_, intact⟩, there⟩
      exact seen.imp (fun early => ⟨early.1, early.2.look _⟩) id
    · rintro state accesses other notes ⟨⟨seen, untaken, spared⟩, there⟩ found
      have unlifted : state.phase ≠ .lifted := fun lifted => by
        simp [State.entryAt, there, lifted] at found
      refine ⟨_, .take .sender (fun _ => unlifted) (by simp) (by simp), by simp [State.entryAt],
        ⟨seen, ?_, ?_, spared.2⟩, by simp⟩
      · simpa [Function.update] using untaken
      · simpa [Function.update] using spared.1
  exact taking.tries_remove

theorem leads_drop (entry : Entry) :
    (sharing plan).protocol.Leads around .finisher
      (fun state => Sees plan entry state ∧ state.taken .sender = true)
      (Workflow.dropRecord (plan.record .sender))
      fun _ state => Sees plan entry state ∧ state.Released := by
  have stable := (stable_sees plan entry).and (stable_kept plan .sender true)
  refine Sharing.leads_dropRecord (plan.record_mine .sender) stable stable
    ((stable_sees plan entry).and (stable_released plan)) ?_ ?_
  · rintro state accesses notes ⟨⟨seen, intact⟩, taken⟩
    refine ⟨_, looked_finisher _ notes, fun _ => ⟨⟨?_, intact⟩, taken⟩,
      fun missing => ⟨⟨?_, intact⟩, taken, ?_⟩⟩
    · exact seen.imp (fun early => ⟨early.1, early.2.look _⟩) id
    · exact seen.imp (fun early => ⟨early.1, early.2.look _⟩) id
    · have unstored := mt (state.share_stored plan .sender).mpr missing
      simpa [State.stores] using unstored
  · rintro state accesses notes ⟨⟨seen, untaken, spared⟩, taken⟩
    refine ⟨_, recorded_of_change notes (.drop .sender (by simp) (by simp))
      (by simp [State.stores]), ⟨seen, untaken, spared.1, ?_⟩, taken, by simp⟩
    simpa [Function.update] using spared.2

/-! ## The receiver's side -/

variable (plan) in
theorem stable_onReceiver : (sharing plan).protocol.Stable .finisher State.OnReceiver :=
  (stable_early plan).and ((stable_spared plan).and (stable_released plan))

/-- The finisher finds the receiver's entry, unless the assigner has it. -/
theorem tries_locate_copy :
    (sharing plan).protocol.Tries around .finisher
      (fun state => state.taken .receiver = false ∧ state.OnReceiver)
      (Trays.locate? (plan.user .receiver) (plan.record .receiver))
      (Sharing.Located (fun tray entry state => tray = plan.tray .receiver ∧
        entry = plan.received ∧ state.taken .receiver = false ∧ state.OnReceiver)
        fun state => state.withdrawn = true ∧ state.OnReceiver)
      fun _ _ => False := by
  have stable := (stable_kept plan .receiver false).and (stable_onReceiver plan)
  refine tries_locate? .receiver stable (fun _ => (Protocol.stable_const _).and stable)
    ((stable_withdrawn plan).and (stable_onReceiver plan)) ?_ ?_ ?_
  · rintro key state accesses _ notes ⟨untaken, early, left⟩
    exact ⟨_, looked_finisher key notes, untaken, early.look _, left⟩
  · rintro state accesses notes ⟨untaken, early, left⟩
    refine ⟨_, looked_finisher _ notes, fun entry found => ?_, fun missing => ?_⟩
    · simp only [State.entryAt] at found
      split at found
      · exact ⟨(Option.some.inj found).symm, untaken, early.look _, left⟩
      · cases found
    · have away : state.withdrawn = true ∧ state.restored = false := by
        simpa [State.entryAt, State.isListed, untaken] using missing
      exact ⟨away.1, early.look _, left⟩
  · rintro key state accesses _ notes ⟨withdrawn, early, left⟩
    exact ⟨_, looked_finisher key notes, withdrawn, early.look _, left⟩

/-- The finisher takes out the receiver's entry, unless the assigner has it. -/
theorem tries_take_copy :
    (sharing plan).protocol.Tries around .finisher
      (fun state => state.taken .receiver = false ∧ state.OnReceiver)
      (Trays.remove budget (plan.user .receiver) (plan.tray .receiver) (plan.record .receiver))
      (fun _ state => state.Parted ∧ state.OnReceiver)
      fun _ state => state.Parted ∧ state.OnReceiver := by
  have stable := (stable_kept plan .receiver false).and (stable_onReceiver plan)
  have after_stable := (stable_parted plan).and (stable_onReceiver plan)
  have taking : Taking plan .finisher .receiver
      (fun state => state.taken .receiver = false ∧ state.OnReceiver)
      (fun found state => (state.taken .receiver = false ∧ state.OnReceiver) ∧
        (found = none → state.withdrawn = true))
      (fun state => state.withdrawn = true)
      (fun state => state.Parted ∧ state.OnReceiver)
      fun state => state.Parted ∧ state.OnReceiver := by
    refine ⟨stable, fun found => ?_, stable_withdrawn plan, after_stable, after_stable, ?_, ?_,
      fun _ seen => ⟨.inr (seen.2 rfl), seen.1.2⟩, ?_, fun _ _ seen _ => seen.1,
      fun _ known withdrawn => ⟨.inr withdrawn, known.2⟩⟩
    · cases found with
      | none => simpa using stable.and (stable_withdrawn plan)
      | some entry => simpa using stable
    · intro _ other differs before after change _
      obtain rfl := eq_assigner differs
      cases change with
      | withdraw => rfl
      | restore _ withdrawn => exact withdrawn
    · rintro state accesses notes ⟨untaken, early, left⟩
      refine ⟨_, looked_finisher _ notes, ⟨untaken, early.look _, left⟩, fun missing => ?_⟩
      have away : state.withdrawn = true ∧ state.restored = false := by
        simpa [State.entryAt, State.isListed, untaken] using missing
      exact away.1
    · rintro state accesses entry notes ⟨⟨untaken, early, spared, released⟩, _⟩ found
      have listed : state.isListed = true := by
        by_contra missing
        simp [State.entryAt, missing] at found
      refine ⟨_, .take .receiver (by simp) (fun _ => listed) (by simp), ?_, .inl (by simp), early,
        ⟨?_, spared.2⟩, ?_, released.2⟩
      · simp [State.entryAt, State.isListed]
      · simpa [Function.update] using spared.1
      · simpa [Function.update] using released.1
  exact taking.tries_remove

theorem leads_drop_copy :
    (sharing plan).protocol.Leads around .finisher
      (fun state => state.Parted ∧ state.OnReceiver)
      (Workflow.dropRecord (plan.record .receiver)) fun _ => State.Cleaned := by
  have stable := (stable_parted plan).and (stable_onReceiver plan)
  refine Sharing.leads_dropRecord (plan.record_mine .receiver) stable stable (stable_cleaned plan)
    ?_ ?_
  · rintro state accesses notes ⟨parted, early, spared, released⟩
    refine ⟨_, looked_finisher _ notes, fun _ => ⟨parted, early.look _, spared, released⟩,
      fun missing => ⟨released, .inl ⟨early.look _, spared, parted, ?_⟩⟩⟩
    have unstored := mt (state.share_stored plan .receiver).mpr missing
    simpa [State.stores] using unstored
  · rintro state accesses notes ⟨parted, early, spared, released⟩
    refine ⟨_, recorded_of_change notes (.drop .receiver (fun _ => rfl) (by simp))
      (by simp [State.stores]), ⟨released.1, ?_⟩, .inl ⟨early, ⟨spared.1, ?_⟩, parted, by simp⟩⟩
    · simpa [Function.update] using released.2
    · simpa [Function.update] using spared.2

theorem leads_cleanUp_copy :
    (sharing plan).protocol.Leads around .finisher
      (fun state => state.taken .receiver = false ∧ state.OnReceiver)
      (Workflow.cleanUpOther budget (plan.user .sender) (plan.record .sender)
        ⟨plan.user .receiver, plan.record .receiver⟩) fun _ => State.Cleaned := by
  have stable := (stable_kept plan .receiver false).and (stable_onReceiver plan)
  refine Sharing.leads_cleanUpOther ((stable_withdrawn plan).and (stable_onReceiver plan))
    (fun _ _ => (Protocol.stable_const _).and ((Protocol.stable_const _).and stable))
    ((stable_parted plan).and (stable_onReceiver plan)) (stable_cleaned plan) tries_locate_copy
    (fun tray entry _ => Protocol.tries_of_fact ?_) ?_ leads_drop_copy
    (leads_drop_copy.weaken fun _ missed => ⟨.inr missed.1, missed.2⟩)
  · rintro rfl
    exact Protocol.tries_of_fact fun _ => tries_take_copy
  · rintro tray entry state unlinked ⟨_, rfl, _⟩
    simp [Pair.received, Entry.linksTo, Plan.user, Plan.record] at unlinked

/-! ## The assignee's side -/

variable (plan) in
theorem stable_onAssignee (taken : Bool) : (sharing plan).protocol.Stable .finisher fun state =>
    state.taken .assignee = taken ∧ state.OnAssignee := by
  have spared_stable : (sharing plan).protocol.Stable .finisher fun state =>
      state.dropped .assignee = false := by
    refine stable_of_change fun side differs spot before after change undropped => ?_
    obtain rfl := eq_assigner differs
    cases change with
    | drop role may =>
        obtain rfl := may rfl
        simpa [Function.update_of_ne] using undropped
    | _ => exact undropped
  exact (stable_kept plan .assignee taken).and <|
    (stable_late plan).and (spared_stable.and (stable_released plan))

theorem State.OnAssignee.isHanded {state : State} (following : state.OnAssignee) :
    state.phase.isHanded = true := by
  simp [following.1.1, Phase.isHanded]

theorem tries_locate_next :
    (sharing plan).protocol.Tries around .finisher
      (fun state => state.taken .assignee = false ∧ state.OnAssignee)
      (Trays.locate? (plan.user .assignee) (plan.record .assignee))
      (Sharing.Located (fun tray entry state => tray = plan.tray .assignee ∧
        entry = plan.given ∧ state.taken .assignee = false ∧ state.OnAssignee) fun _ => False)
      fun _ _ => False := by
  have stable := stable_onAssignee plan false
  refine tries_locate? .assignee stable (fun _ => (Protocol.stable_const _).and stable)
    (Protocol.stable_const False) ?_ ?_ fun _ _ _ _ _ => False.elim
  · exact fun key state accesses _ notes following => ⟨_, looked_finisher key notes, following⟩
  · rintro state accesses notes ⟨untaken, following⟩
    have given : state.isGiven = true := by
      simp [State.isGiven, untaken, following.isHanded]
    refine ⟨_, looked_finisher _ notes, fun entry found => ?_, fun missing => ?_⟩
    · simp only [State.entryAt, given, if_true] at found
      exact ⟨(Option.some.inj found).symm, untaken, following⟩
    · simp [State.entryAt, given] at missing

theorem tries_take_next :
    (sharing plan).protocol.Tries around .finisher
      (fun state => state.taken .assignee = false ∧ state.OnAssignee)
      (Trays.remove budget (plan.user .assignee) (plan.tray .assignee) (plan.record .assignee))
      (fun _ state => state.taken .assignee = true ∧ state.OnAssignee)
      fun _ state => state.taken .assignee = true ∧ state.OnAssignee := by
  have stable := stable_onAssignee plan false
  have after_stable := stable_onAssignee plan true
  have taking : Taking plan .finisher .assignee
      (fun state => state.taken .assignee = false ∧ state.OnAssignee)
      (fun found state => found ≠ none ∧ state.taken .assignee = false ∧ state.OnAssignee)
      (fun _ => False) (fun state => state.taken .assignee = true ∧ state.OnAssignee)
      fun state => state.taken .assignee = true ∧ state.OnAssignee := by
    refine ⟨stable, fun _ => (Protocol.stable_const _).and stable, Protocol.stable_const False,
      after_stable, after_stable, ?_, ?_, fun _ seen => absurd rfl seen.1, ?_,
      fun _ _ _ => False.elim, fun _ _ => False.elim⟩
    · rintro _ other differs before after change ⟨_, _, ⟨linked, _⟩, _⟩
      obtain rfl := eq_assigner differs
      cases change with
      | hand phase | retract phase => cases linked.symm.trans phase
    · rintro state accesses notes ⟨untaken, following⟩
      refine ⟨_, looked_finisher _ notes, ?_, untaken, following⟩
      simp [State.entryAt, State.isGiven, untaken, following.isHanded]
    · rintro state accesses entry notes ⟨_, untaken, late, undropped, released⟩ _
      refine ⟨_, .take .assignee (by simp) (by simp) fun _ => late.1, ?_, by simp, late, undropped,
        ?_, released.2⟩
      · simp [State.entryAt, State.isGiven]
      · simpa [Function.update] using released.1
  exact taking.tries_remove

theorem leads_drop_next :
    (sharing plan).protocol.Leads around .finisher
      (fun state => state.taken .assignee = true ∧ state.OnAssignee)
      (Workflow.dropRecord (plan.record .assignee)) fun _ => State.Cleaned := by
  have stable := stable_onAssignee plan true
  refine Sharing.leads_dropRecord (plan.record_mine .assignee) stable stable (stable_cleaned plan)
    ?_ ?_
  · rintro state accesses notes ⟨taken, following⟩
    refine ⟨_, looked_finisher _ notes, fun _ => ⟨taken, following⟩, fun missing => ?_⟩
    refine absurd ((state.share_stored plan .assignee).mpr ?_) missing
    simp [State.stores, following.1.1, following.2.1, Phase.isSaved]
  · rintro state accesses notes ⟨taken, late, undropped, released⟩
    refine ⟨_, recorded_of_change notes (.drop .assignee (by simp) fun _ => late.1)
      (by simp [State.stores]), ⟨released.1, ?_⟩, .inr ⟨late, taken, by simp⟩⟩
    simpa [Function.update] using released.2

theorem leads_cleanUp_next :
    (sharing plan).protocol.Leads around .finisher
      (fun state => state.taken .assignee = false ∧ state.OnAssignee)
      (Workflow.cleanUpOther budget (plan.user .sender) (plan.record .sender)
        ⟨plan.user .assignee, plan.record .assignee⟩) fun _ => State.Cleaned := by
  have stable := stable_onAssignee plan false
  refine Sharing.leads_cleanUpOther (Protocol.stable_const False)
    (fun _ _ => (Protocol.stable_const _).and ((Protocol.stable_const _).and stable))
    (stable_onAssignee plan true) (stable_cleaned plan) tries_locate_next
    (fun tray entry _ => Protocol.tries_of_fact ?_) ?_ leads_drop_next
    fun _ _ never => never.elim
  · rintro rfl
    exact Protocol.tries_of_fact fun _ => tries_take_next
  · rintro tray entry state unlinked ⟨_, rfl, _⟩
    simp [Plan.given, Entry.linksTo, Plan.user, Plan.record] at unlinked

/-! ## Finishing -/

theorem Plan.sent_ne_renewed : plan.sent ≠ plan.renewed := by
  intro same
  have links : some (Link.mk plan.receiver plan.copy) = some ⟨plan.assignee, plan.next⟩ :=
    congrArg Entry.link same
  exact plan.assignee_ne_receiver (congrArg Link.user (Option.some.inj links)).symm

/-- The finisher cleans up on the side that it has seen. -/
theorem leads_cleanUp (entry : Entry) :
    (sharing plan).protocol.Leads around .finisher
      (fun state => Sees plan entry state ∧ state.taken .sender = true)
      (Workflow.cleanUp budget (plan.user .sender) entry) fun _ => State.Cleaned := by
  have stable := stable_cleaned plan
  have early : (sharing plan).protocol.Leads around .finisher
      (fun state => Sees plan plan.sent state ∧ state.taken .sender = true)
      (Workflow.cleanUp budget (plan.user .sender) plan.sent) fun _ => State.Cleaned := by
    have linked : plan.sent.link = some ⟨plan.user .receiver, plan.record .receiver⟩ := rfl
    refine Sharing.leads_cleanUp linked stable (leads_drop plan.sent)
      (leads_cleanUp_copy.weaken ?_)
    rintro state ⟨⟨⟨_, early⟩ | ⟨same, _⟩, untaken, spared⟩, released⟩
    · exact ⟨untaken, early, spared, released⟩
    · exact absurd same Plan.sent_ne_renewed
  have late : (sharing plan).protocol.Leads around .finisher
      (fun state => Sees plan plan.renewed state ∧ state.taken .sender = true)
      (Workflow.cleanUp budget (plan.user .sender) plan.renewed) fun _ => State.Cleaned := by
    have linked : plan.renewed.link = some ⟨plan.user .assignee, plan.record .assignee⟩ := rfl
    refine Sharing.leads_cleanUp linked stable (leads_drop plan.renewed)
      (leads_cleanUp_next.weaken ?_)
    rintro state ⟨⟨⟨same, _⟩ | ⟨_, late⟩, _, spared⟩, released⟩
    · exact absurd same.symm Plan.sent_ne_renewed
    · exact ⟨spared.1, late, spared.2, released⟩
  intro stage valid seen
  rcases seen.1.1 with ⟨rfl, _⟩ | ⟨rfl, _⟩
  · exact early stage valid seen
  · exact late stage valid seen

/-- The finisher takes the sender's entry out and cleans up, or fails. -/
theorem tries_finish {operation : Operation}
    (finishes : operation = .complete (plan.user .sender) (plan.record .sender) ∨
      operation = .remove (plan.user .sender) (plan.record .sender)) :
    (sharing plan).protocol.Tries around .finisher
      (fun state => state.read = false ∧ state.taken .sender = false ∧
        state.taken .receiver = false ∧ state.Spared)
      (operation.attempt policy) (fun _ => State.Cleaned) fun _ _ => True := by
  refine Sharing.tries_finish finishes (stable_cleaned plan) (Protocol.stable_const True)
    fun event => ?_
  refine Sharing.tries_takeOut (Protocol.stable_const True)
    (fun _ entry => (Protocol.stable_const _).and <|
      (stable_sees plan entry).and (stable_kept plan .sender false)) (stable_cleaned plan)
    tries_locate_task (fun _ => id) (fun tray entry => Protocol.tries_of_fact ?_)
    leads_cleanUp
  rintro rfl
  exact tries_release entry

end Handoff.Assigning
