import Handoff.Proofs.Race.Pair

/-!
# The states of assigning and finishing

A sender assigns a task that they share to somebody else, and finishes it at the same time.  A state
tells how far both are, and a change is what one of them makes of it by writing under a key.
-/

namespace Handoff.Assigning

/-- Who takes part in the race. -/
inductive Side
  | assigner
  | finisher
deriving DecidableEq, Repr

/-- Whose entry or record something is. -/
inductive Role
  | sender
  | receiver
  | assignee
deriving DecidableEq, Repr

/-- A task that is shared, and somebody else to whom its sender assigns it. -/
structure Plan (community : Community) (around : Surroundings) (world : World) extends
    Pair community around world where
  assignee : UserId
  assignee_member : community.member assignee
  assignee_ne_sender : assignee ≠ sender
  assignee_ne_receiver : assignee ≠ receiver
  /-- The name of the assignee's record. -/
  next : TaskId
  next_eq : next = around.newTaskId world.issued
  next_named : next ≠ ""

namespace Plan

variable {community : Community} {around : Surroundings} {world : World}
  (plan : Plan community around world)

def user : Role → UserId
  | .sender => plan.sender
  | .receiver => plan.receiver
  | .assignee => plan.assignee

/-- The tray of an entry. -/
def tray : Role → Tray
  | .sender => .sent
  | .receiver => Holding.place plan.accepted
  | .assignee => .received

def record : Role → TaskId
  | .sender => plan.task
  | .receiver => plan.copy
  | .assignee => plan.next

def given : Entry := .linked plan.next plan.sender plan.task

/-- The sender's entry when it is linked to the assignee's. -/
def renewed : Entry := .linked plan.task plan.assignee plan.next

theorem given_wellLinked : plan.given.WellLinked :=
  Entry.wellLinked_linked _ (community.named _ plan.sender_member) plan.task_named

theorem renewed_wellLinked : plan.renewed.WellLinked :=
  Entry.wellLinked_linked _ (community.named _ plan.assignee_member) plan.next_named

theorem user_member (role : Role) : community.member (plan.user role) := by
  cases role with
  | sender => exact plan.sender_member
  | receiver => exact plan.receiver_member
  | assignee => exact plan.assignee_member

theorem record_mine (role : Role) : plan.mine (plan.record role) = true := by
  cases role with
  | sender => exact plan.task_mine
  | receiver => exact plan.copy_mine
  | assignee =>
      change plan.mine plan.next = true
      rw [plan.next_eq]
      exact plan.later_mine _ le_rfl

theorem record_injective : Function.Injective plan.record := by
  have differs := plan.differs
  have next_task : plan.next ≠ plan.task := plan.next_eq ▸ plan.later_ne_task _ le_rfl
  have next_copy : plan.next ≠ plan.copy := plan.next_eq ▸ plan.later_ne_copy _ le_rfl
  intro role other same
  cases role <;> cases other <;> simp_all [record]

theorem tray_injective {role other : Role} (user : plan.user role = plan.user other)
    (tray : plan.tray role = plan.tray other) : role = other := by
  have placed := Holding.sent_ne_place plan.accepted
  have differs := plan.assignee_ne_receiver
  cases role <;> cases other <;> simp_all [Plan.user, Plan.tray]

def trayKey (role : Role) : String := Key.tray (plan.user role) (plan.tray role)

def recordKey (role : Role) : String := Key.record (plan.record role)

theorem trayKey_injective : Function.Injective plan.trayKey := by
  intro role other same
  obtain ⟨users, trays⟩ :=
    community.distinct _ _ _ _ (plan.user_member role) (plan.user_member other) same
  exact plan.tray_injective users trays

theorem recordKey_ne_trayKey (role other : Role) : plan.recordKey role ≠ plan.trayKey other :=
  Key.record_ne_tray _ _ _

end Plan

/-- Where a side writes. -/
inductive Spot
  | nowhere
  | tray (role : Role)
  | record (role : Role)

section
variable {community : Community} {around : Surroundings} {world : World}
  (plan : Plan community around world)

def Spot.key? : Spot → Option String
  | .nowhere => none
  | .tray role => some (plan.trayKey role)
  | .record role => some (plan.recordKey role)

theorem Spot.key?_injective : Function.Injective (Spot.key? plan) := by
  intro spot other same
  cases spot with
  | nowhere =>
      cases other with
      | nowhere => rfl
      | tray | record => cases same
  | tray role =>
      cases other with
      | nowhere => cases same
      | tray another => rw [plan.trayKey_injective (Option.some.inj same)]
      | record another =>
          exact absurd (Option.some.inj same).symm (plan.recordKey_ne_trayKey another role)
  | record role =>
      cases other with
      | nowhere => cases same
      | tray another => exact absurd (Option.some.inj same) (plan.recordKey_ne_trayKey role another)
      | record another =>
          rw [plan.record_injective (Key.record_injective (Option.some.inj same))]

end

/-- How far the task has been handed over to the assignee. -/
inductive Phase
  | waiting
  /-- A name for the assignee's record has been given out. -/
  | named
  | saved
  /-- The assignee has an entry. -/
  | handed
  /-- The sender's entry has been taken out. -/
  | lifted
  /-- The sender's entry has been put back with a link to the assignee's. -/
  | linked
deriving DecidableEq, Repr

def Phase.isHanded : Phase → Bool
  | .waiting | .named | .saved => false
  | .handed | .lifted | .linked => true

def Phase.isSaved : Phase → Bool
  | .waiting | .named => false
  | .saved | .handed | .lifted | .linked => true

/-- How far assigning and finishing are. -/
structure State where
  phase : Phase
  /-- The assigner has taken out the receiver's entry. -/
  withdrawn : Bool
  /-- The assigner has put the receiver's entry back. -/
  restored : Bool
  /-- The finisher has read the sender's tray. -/
  read : Bool
  /-- The assigner has swapped the sender's tray after that. -/
  crossed : Bool
  /-- Whose entry the finisher has taken out. -/
  taken : Role → Bool
  /-- Whose record has been deleted. -/
  dropped : Role → Bool

namespace State

variable {community : Community} {around : Surroundings} {world : World}
  (plan : Plan community around world) (state : State)

/-- The receiver's entry is there. -/
def isListed : Bool := !state.taken .receiver && (!state.withdrawn || state.restored)

/-- The assignee's entry is there. -/
def isGiven : Bool := state.phase.isHanded && !state.taken .assignee

/-- The entry of a role, if it is there. -/
def entryAt : Role → Option Entry
  | .sender =>
    if state.taken .sender then none
    else match state.phase with
      | .waiting | .named | .saved | .handed => some plan.sent
      | .lifted => none
      | .linked => some plan.renewed
  | .receiver => if state.isListed then some plan.received else none
  | .assignee => if state.isGiven then some plan.given else none

/-- The record of a role is there. -/
def stores : Role → Bool
  | .sender => !state.dropped .sender
  | .receiver => !state.dropped .receiver
  | .assignee => state.phase.isSaved && !state.dropped .assignee

def entries : Placing := fun user tray =>
  [.sender, .receiver, .assignee].flatMap fun role =>
    if user = plan.user role ∧ tray = plan.tray role then (state.entryAt plan role).toList else []

def share : Share where
  entries := state.entries plan
  stored task := ∃ role, plan.record role = task ∧ state.stores role = true

theorem entries_tray (role : Role) :
    state.entries plan (plan.user role) (plan.tray role) = (state.entryAt plan role).toList := by
  have only (other : Role) : plan.user role = plan.user other ∧ plan.tray role = plan.tray other ↔
      role = other :=
    ⟨fun same => plan.tray_injective same.1 same.2, fun same => same ▸ ⟨rfl, rfl⟩⟩
  cases role <;> simp [entries, only]

variable {plan} in
theorem entries_congr {before after : State} {user : UserId} {tray : Tray}
    (same : ∀ role, user = plan.user role ∧ tray = plan.tray role →
      after.entryAt plan role = before.entryAt plan role) :
    after.entries plan user tray = before.entries plan user tray := by
  refine List.flatMap_congr fun role _ => ?_
  split
  · rename_i here
    rw [same role here]
  · rfl

variable {plan} in
theorem share_congr {before after : State}
    (entries : ∀ role, after.entryAt plan role = before.entryAt plan role)
    (stores : ∀ role, after.stores role = before.stores role) :
    after.share plan = before.share plan := by
  refine Share.eq_of_entries_of_stored ?_ fun task => exists_congr fun role => ?_
  · funext user tray
    exact entries_congr fun role _ => entries role
  · rw [stores role]

theorem mem_entries_iff {user : UserId} {tray : Tray} {entry : Entry} :
    entry ∈ state.entries plan user tray ↔ ∃ role, user = plan.user role ∧
      tray = plan.tray role ∧ state.entryAt plan role = some entry := by
  constructor
  · intro mem
    obtain ⟨role, _, here⟩ := List.mem_flatMap.mp mem
    split at here
    · rename_i place
      exact ⟨role, place.1, place.2, Option.mem_toList.mp here⟩
    · cases here
  · rintro ⟨role, rfl, rfl, here⟩
    rw [entries_tray, here]
    exact List.mem_singleton_self entry

theorem task_eq_of_entryAt {role : Role} {entry : Entry} {plan : Plan community around world}
    {state : State} (here : state.entryAt plan role = some entry) :
    entry.task = plan.record role := by
  cases role with
  | sender =>
      simp only [entryAt] at here
      split at here
      · cases here
      · split at here <;> cases here <;> rfl
  | receiver | assignee =>
      simp only [entryAt] at here
      split at here <;> cases here
      rfl

theorem share_stored (role : Role) :
    (state.share plan).stored (plan.record role) ↔ state.stores role = true := by
  constructor
  · rintro ⟨other, same, stores⟩
    exact plan.record_injective same ▸ stores
  · exact fun stores => ⟨role, rfl, stores⟩

theorem find?_entries (role : Role) (user : UserId) (tray : Tray) :
    EntryList.find? (plan.record role) (state.entries plan user tray) =
      if user = plan.user role ∧ tray = plan.tray role then state.entryAt plan role else none := by
  split
  · rename_i here
    rw [here.1, here.2, entries_tray]
    cases shown : state.entryAt plan role with
    | none => rfl
    | some entry => simp [EntryList.find?, task_eq_of_entryAt shown]
  · rename_i elsewhere
    refine List.find?_eq_none.mpr fun entry mem same => elsewhere ?_
    obtain ⟨other, rfl, rfl, shown⟩ := (mem_entries_iff plan state).mp mem
    have named : plan.record other = plan.record role :=
      (task_eq_of_entryAt shown).symm.trans (by simpa using same)
    rw [plan.record_injective named]
    exact ⟨rfl, rfl⟩

theorem erase_entries (role : Role) : EntryList.erase (plan.record role)
    (state.entries plan (plan.user role) (plan.tray role)) = [] := by
  rw [entries_tray]
  cases shown : state.entryAt plan role with
  | none => rfl
  | some entry => simp [EntryList.erase, task_eq_of_entryAt shown]

/-- The states of a race that can be reached. -/
structure Proper (state : State) : Prop where
  lifted : state.phase = .lifted → state.taken .sender = false
  restored : state.restored = true → state.withdrawn = true
  away : state.withdrawn = true → state.restored = false → state.taken .receiver = false
  unlinked : state.phase ≠ .linked →
    state.taken .assignee = false ∧ state.dropped .assignee = false
  crossed : state.crossed = true → state.read = true

end State

/-- What the sides make of a state. -/
inductive Change : Side → Spot → State → State → Prop
  | name {before : State} (waiting : before.phase = .waiting) :
    Change .assigner .nowhere before { before with phase := .named }
  | save {before : State} (named : before.phase = .named) :
    Change .assigner (.record .assignee) before { before with phase := .saved }
  | hand {before : State} (saved : before.phase = .saved) :
    Change .assigner (.tray .assignee) before { before with phase := .handed }
  | lift {before : State} (handed : before.phase = .handed) (there : before.taken .sender = false) :
    Change .assigner (.tray .sender) before
      { before with phase := .lifted, crossed := before.crossed || before.read }
  | link {before : State} (lifted : before.phase = .lifted) :
    Change .assigner (.tray .sender) before
      { before with phase := .linked, crossed := before.crossed || before.read }
  | retract {before : State} (handed : before.phase = .handed)
    (lost : before.taken .sender = true) :
    Change .assigner (.tray .assignee) before { before with phase := .saved }
  | discard {before : State} (saved : before.phase = .saved) (lost : before.taken .sender = true) :
    Change .assigner (.record .assignee) before { before with phase := .named }
  | withdraw {before : State} (waiting : before.phase = .waiting)
    (there : before.taken .receiver = false) (kept : before.withdrawn = false) :
    Change .assigner (.tray .receiver) before { before with withdrawn := true }
  | restore {before : State} (named : before.phase = .named) (away : before.withdrawn = true)
    (kept : before.restored = false) :
    Change .assigner (.tray .receiver) before { before with restored := true }
  | drop {side : Side} {before : State} (role : Role)
    (may : side = .assigner → role = .receiver)
    (linked : role = .assignee → before.phase = .linked) :
    Change side (.record role) before
      { before with dropped := Function.update before.dropped role true }
  | take {before : State} (role : Role)
    (sender : role = .sender → before.phase ≠ .lifted)
    (receiver : role = .receiver → before.isListed = true)
    (assignee : role = .assignee → before.phase = .linked) :
    Change .finisher (.tray role) before
      { before with taken := Function.update before.taken role true }
  | look {before : State} : Change .finisher .nowhere before { before with read := true }

namespace Change

variable {community : Community} {around : Surroundings} {world : World}
  {plan : Plan community around world} {side : Side} {spot : Spot} {before after : State}

theorem proper (change : Change side spot before after) (held : before.Proper) : after.Proper := by
  obtain ⟨lifted, restored, away, unlinked, crossed⟩ := held
  cases change with
  | name waiting => exact ⟨by simp, restored, away, fun _ => unlinked (by simp [waiting]), crossed⟩
  | save named => exact ⟨by simp, restored, away, fun _ => unlinked (by simp [named]), crossed⟩
  | hand saved => exact ⟨by simp, restored, away, fun _ => unlinked (by simp [saved]), crossed⟩
  | lift handed there =>
      exact ⟨fun _ => there, restored, away, fun _ => unlinked (by simp [handed]),
        fun now => ((Bool.or_eq_true _ _).mp now).elim crossed id⟩
  | link lifted =>
      exact ⟨by simp, restored, away, fun unlinked => absurd rfl unlinked,
        fun now => ((Bool.or_eq_true _ _).mp now).elim crossed id⟩
  | retract handed lost =>
      exact ⟨by simp, restored, away, fun _ => unlinked (by simp [handed]), crossed⟩
  | discard saved lost =>
      exact ⟨by simp, restored, away, fun _ => unlinked (by simp [saved]), crossed⟩
  | withdraw waiting there kept => exact ⟨lifted, fun _ => rfl, fun _ _ => there, unlinked, crossed⟩
  | restore named withdrawn kept => exact ⟨lifted, fun _ => withdrawn, by simp, unlinked, crossed⟩
  | drop role may linked =>
      refine ⟨lifted, restored, away, fun unfinished => ⟨(unlinked unfinished).1, ?_⟩, crossed⟩
      have other : Role.assignee ≠ role := fun same => unfinished (linked same.symm)
      simpa [Function.update_of_ne other] using (unlinked unfinished).2
  | take role sender receiver assignee =>
      refine ⟨fun now => ?_, restored, fun withdrawn kept => ?_, fun unfinished => ⟨?_, ?_⟩,
        crossed⟩
      · have other : Role.sender ≠ role := fun same => sender same.symm now
        simpa [Function.update_of_ne other] using lifted now
      · have other : Role.receiver ≠ role := fun same => by
          have listed := receiver same.symm
          simp_all [State.isListed]
        simpa [Function.update_of_ne other] using away withdrawn kept
      · have other : Role.assignee ≠ role := fun same => unfinished (assignee same.symm)
        simpa [Function.update_of_ne other] using (unlinked unfinished).1
      · exact (unlinked unfinished).2
  | look => exact ⟨lifted, restored, away, unlinked, fun _ => rfl⟩

/-- The entry of a role changes when its tray is written only. -/
theorem entryAt_eq (change : Change side spot before after) (role : Role)
    (elsewhere : spot ≠ .tray role) : after.entryAt plan role = before.entryAt plan role := by
  cases change with
  | name phase | save phase | hand phase | link phase | discard phase | lift phase
  | retract phase =>
      cases role <;> simp_all [State.entryAt, State.isGiven, State.isListed, Phase.isHanded]
  | withdraw | restore => cases role <;> simp_all [State.entryAt, State.isGiven]
  | drop other => cases role <;> rfl
  | take other =>
      have differs : role ≠ other := fun same => elsewhere (same ▸ rfl)
      cases role <;>
        simp [State.entryAt, State.isGiven, State.isListed, Function.update_of_ne differs]
  | look => cases role <;> rfl

theorem stores_eq (change : Change side spot before after) (role : Role)
    (elsewhere : spot ≠ .record role) : after.stores role = before.stores role := by
  cases change with
  | name phase | save phase | hand phase | link phase | discard phase | lift phase
  | retract phase => cases role <;> simp_all [State.stores, Phase.isSaved]
  | withdraw | restore | take | look => cases role <;> rfl
  | drop other =>
      have differs : role ≠ other := fun same => elsewhere (same ▸ rfl)
      cases role <;> simp [State.stores, Function.update_of_ne differs]

theorem waiting_iff (change : Change side spot before after) (written : spot ≠ .nowhere) :
    after.phase = .waiting ↔ before.phase = .waiting := by
  cases change with
  | name | look => exact absurd rfl written
  | save phase | hand phase | link phase | discard phase | lift phase | retract phase =>
      simp [phase]
  | withdraw | restore | drop | take => exact Iff.rfl

end Change

/-! ## The race -/

section
variable {community : Community} {around : Surroundings} {world : World}
  (plan : Plan community around world)

/-- What the state tells of the accesses. -/
structure Notes (state : State) (accesses : List (Side × Access)) : Prop where
  proper : state.Proper
  read : state.read = true ↔ (.finisher, .read (plan.trayKey .sender)) ∈ accesses
  crossed : state.crossed = true ↔ [(Side.finisher, Access.read (plan.trayKey .sender)),
    (Side.assigner, Access.swap (plan.trayKey .sender))].Sublist accesses
  withdrawn : state.withdrawn = true ↔ (.assigner, .swap (plan.trayKey .receiver)) ∈ accesses
  taken : state.taken .receiver = true ↔ (.finisher, .swap (plan.trayKey .receiver)) ∈ accesses

/-- The race of assigning and finishing. -/
def sharing : Sharing Side State where
  community := community
  mine := plan.mine
  old := world.scene
  share := State.share plan
  issued state := if state.phase = .waiting then world.issued else world.issued + 1
  Notes := Notes plan
  Step side key before after := ∃ spot, key = Spot.key? plan spot ∧ Change side spot before after

variable {plan} {side : Side} {spot : Spot} {role : Role} {before after state : State}
  {accesses : List (Side × Access)}

theorem eq_finisher (differs : side ≠ .assigner) : side = .finisher := by
  cases side with
  | assigner => exact absurd rfl differs
  | finisher => rfl

theorem eq_assigner (differs : side ≠ .finisher) : side = .assigner := by
  cases side with
  | assigner => rfl
  | finisher => exact absurd rfl differs

theorem change_of_step (step : (sharing plan).protocol.Step side (some (plan.trayKey role)) before
    after) : Change side (.tray role) before after := by
  obtain ⟨spot, here, change⟩ := step
  obtain rfl : Spot.tray role = spot := Spot.key?_injective plan here
  exact change

/-- What is known stays known if it does with each change that the others make. -/
theorem stable_of_change {me : Side} {known : State → Prop}
    (keeps : ∀ side, side ≠ me → ∀ spot before after, Change side spot before after →
      known before → known after) : (sharing plan).protocol.Stable me known := by
  rintro side differs key before after ⟨spot, _, change⟩
  exact keeps side differs spot before after change

variable (plan) in
theorem stable_taken {me : Side} (role : Role) :
    (sharing plan).protocol.Stable me fun state => state.taken role = true := by
  refine stable_of_change fun side differs spot before after change taken => ?_
  cases change with
  | take other =>
      by_cases same : role = other
      · simp [same]
      · simpa [Function.update_of_ne same] using taken
  | _ => exact taken

variable (plan) in
theorem stable_dropped {me : Side} (role : Role) :
    (sharing plan).protocol.Stable me fun state => state.dropped role = true := by
  refine stable_of_change fun side differs spot before after change dropped => ?_
  cases change with
  | drop other =>
      by_cases same : role = other
      · simp [same]
      · simpa [Function.update_of_ne same] using dropped
  | _ => exact dropped

theorem moves_name {stage : Stage Side State} (valid : (sharing plan).protocol.Valid stage)
    (waiting : stage.state.phase = .waiting) :
    around.newTaskId stage.issued = plan.next ∧ (sharing plan).protocol.Moves .assigner stage
      { stage with issued := stage.issued + 1, state := { stage.state with phase := .named } } := by
  obtain ⟨holds, issued, notes⟩ := valid
  have change : Change .assigner .nowhere stage.state { stage.state with phase := .named } :=
    .name waiting
  have issued_eq : stage.issued = world.issued := issued.trans (if_pos waiting)
  have same : ({ stage.state with phase := .named } : State).share plan =
      stage.state.share plan :=
    State.share_congr (fun role => change.entryAt_eq role (by simp))
      fun role => change.stores_eq role (by simp)
  refine ⟨by rw [issued_eq, plan.next_eq], ⟨⟨?_, congrArg (· + 1) issued_eq, ?_⟩, ?_⟩⟩
  · change Scene.Holds _ _ _ (State.share plan { stage.state with phase := .named })
      stage.scene.issue
    rw [same]
    exact holds.issue
  · exact ⟨change.proper notes.proper, notes.read, notes.crossed, notes.withdrawn, notes.taken⟩
  · exact .inr ⟨none, ⟨.nowhere, rfl, change⟩, fun _ _ => rfl⟩

theorem Notes.swap (notes : Notes plan before accesses)
    (change : Change side (.tray role) before after) :
    Notes plan after (accesses ++ [(side, .swap (plan.trayKey role))]) := by
  have keys (one other : Role) : plan.trayKey one = plan.trayKey other ↔ one = other :=
    plan.trayKey_injective.eq_iff
  obtain ⟨proper, read, crossed, withdrawn, taken⟩ := notes
  refine ⟨change.proper proper, ?_, ?_, ?_, ?_⟩
  · cases change <;> simp [read]
  · rw [pair_sublist_append_singleton, ← crossed, ← read]
    cases change <;> simp [keys]
  · cases change with
    | restore named away => simp [away]
    | _ => simp [withdrawn, keys]
  · cases change with
    | take => cases role <;> simp [taken, keys, Function.update]
    | _ => simp [taken]

/-- A change of a tray swaps the entry of its role for what the state says then. -/
theorem swapped_of_change (notes : Notes plan before accesses)
    (change : Change side (.tray role) before after) :
    (sharing plan).Swapped side (plan.user role) (plan.tray role)
      (after.entryAt plan role).toList accesses before after := by
  refine ⟨⟨.tray role, rfl, change⟩, after.entries_tray plan role, fun user place elsewhere => ?_,
    ?_, ?_, notes.swap change⟩
  · refine State.entries_congr fun other here => change.entryAt_eq other fun same => ?_
    cases same
    exact elsewhere here
  · funext task
    simp only [sharing, State.share]
    refine propext (exists_congr fun other => ?_)
    rw [change.stores_eq other (by simp)]
  · simp only [sharing, change.waiting_iff (by simp)]

/-- A change of a record leaves it as the state says then. -/
theorem recorded_of_change {remains : Prop} (notes : Notes plan before accesses)
    (change : Change side (.record role) before after)
    (stores : after.stores role = true ↔ remains) :
    (sharing plan).Recorded side (plan.record role) remains accesses before after := by
  refine ⟨⟨.record role, rfl, change⟩, ?_, (after.share_stored plan role).trans stores, ?_, ?_, ?_⟩
  · funext user tray
    exact State.entries_congr fun other _ => change.entryAt_eq other (by simp)
  · intro task differs
    simp only [sharing, State.share]
    refine exists_congr fun other => and_congr_right fun named => ?_
    have elsewhere : Spot.record role ≠ .record other := fun same => by
      cases same
      exact differs named.symm
    rw [change.stores_eq other elsewhere]
  · simp only [sharing, change.waiting_iff (by simp)]
  · obtain ⟨proper, read, crossed, withdrawn, taken⟩ := notes
    refine ⟨change.proper proper, ?_, ?_, ?_, ?_⟩
    · cases change <;> exact read
    · cases change <;> exact crossed
    · cases change <;> exact withdrawn
    · cases change <;> exact taken

theorem silent_assigner (key : String) : (sharing plan).Silent .assigner key := by
  intro state accesses notes
  refine ⟨notes.proper, notes.read.trans ?_, notes.crossed.trans ?_, notes.withdrawn.trans ?_,
    notes.taken.trans ?_⟩
  · simp
  · simp [pair_sublist_append_singleton]
  · simp
  · simp

theorem looked_finisher (key : String) (notes : Notes plan state accesses) :
    (sharing plan).Looked .finisher key accesses state
      { state with read := state.read || key == plan.trayKey .sender } := by
  by_cases here : key = plan.trayKey .sender
  · subst here
    simp only [beq_self_eq_true, Bool.or_true]
    refine ⟨.inr ⟨.nowhere, rfl, .look⟩, rfl, rfl, Change.look.proper notes.proper, ?_, ?_, ?_, ?_⟩
    · simp
    · simp [pair_sublist_append_singleton, notes.crossed]
    · simp [notes.withdrawn]
    · simp [notes.taken]
  · have silent : ({ state with read := state.read || key == plan.trayKey .sender } : State) =
        state := by rw [beq_false_of_ne here, Bool.or_false]
    rw [silent]
    refine ⟨.inl rfl, rfl, rfl, notes.proper, notes.read.trans ?_, notes.crossed.trans ?_,
      notes.withdrawn.trans ?_, notes.taken.trans ?_⟩
    · simp [Ne.symm here]
    · simp [pair_sublist_append_singleton]
    · simp
    · simp

/-! ## What is found -/

theorem find?_share (role : Role) (user : UserId) (tray : Tray) :
    EntryList.find? (plan.record role) (((sharing plan).share state).entries user tray) =
      if user = plan.user role ∧ tray = plan.tray role then state.entryAt plan role else none :=
  state.find?_entries plan role user tray

theorem find?_tray (role : Role) : EntryList.find? (plan.record role)
    (((sharing plan).share state).entries (plan.user role) (plan.tray role)) =
      state.entryAt plan role := by
  rw [find?_share, if_pos ⟨rfl, rfl⟩]

end
end Handoff.Assigning
