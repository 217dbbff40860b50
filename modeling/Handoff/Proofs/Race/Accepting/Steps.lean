import Handoff.Proofs.Race.Pair

/-!
# Accepting a task while it is finished

A receiver accepts a task while its sender finishes it.
-/

namespace Handoff.Accepting

/-- Who takes part in the race. -/
inductive Side
  | accepter
  | finisher
deriving DecidableEq, Repr

/-- How far accepting is. -/
inductive Progress
  | waiting
  /-- The entry is in the owned tray. -/
  | put
  /-- The entry has been taken out of the received tray as well. -/
  | moved
  /-- The entry has been taken out of the owned tray again. -/
  | undone
deriving DecidableEq, Repr

/-- How far accepting and finishing are. -/
structure State where
  progress : Progress
  /-- The sender's entry is there. -/
  sent : Bool
  /-- The sender's record is there. -/
  stored : Bool
  /-- The receiver's record is there. -/
  copied : Bool
  /-- The tray from which the finisher has taken the receiver's entry. -/
  taken : Option Tray
  /-- The finisher has read the owned tray after the entry was put there. -/
  late : Bool
deriving DecidableEq, Repr

namespace State

def isOwned (state : State) : Bool :=
  (state.progress = .put ∨ state.progress = .moved) ∧ state.taken ≠ some .owned

def isReceived (state : State) : Bool :=
  state.progress ≠ .moved ∧ state.taken ≠ some .received

variable {community : Community} {around : Surroundings} {world : World}

def entries (pair : Pair community around world) (state : State) : Placing := fun user tray =>
  match tray with
  | .sent => if user = pair.sender ∧ state.sent then [pair.sent] else []
  | .owned => if user = pair.receiver ∧ state.isOwned then [pair.received] else []
  | .received => if user = pair.receiver ∧ state.isReceived then [pair.received] else []

def share (pair : Pair community around world) (state : State) : Share where
  entries := state.entries pair
  stored task := (task = pair.task ∧ state.stored) ∨ (task = pair.copy ∧ state.copied)

/-- The states of a race that can be reached. -/
structure Proper (state : State) : Prop where
  undone : state.progress = .undone → state.taken = some .received
  moved : state.progress = .moved → state.taken ≠ some .received
  owned : state.taken = some .owned → state.progress = .put ∨ state.progress = .moved
  not_sent : state.taken ≠ some .sent

end State

section
variable {community : Community} {around : Surroundings} {world : World}
  (pair : Pair community around world)

/-- The accepter has put the entry into the owned tray. -/
def put : Side × Access := (.accepter, .swap pair.ownedKey)

/-- The finisher looks into the owned tray. -/
def look : Side × Access := (.finisher, .read pair.ownedKey)

/-- What the state tells of the accesses. -/
structure Notes (state : State) (accesses : List (Side × Access)) : Prop where
  proper : state.Proper
  begun : state.progress ≠ .waiting ↔ put pair ∈ accesses
  late : state.late = true ↔ [put pair, look pair].Sublist accesses

variable {pair} in
/-- Before the entry is put into the owned tray, nobody can have read it there. -/
theorem Notes.early {state : State} {accesses : List (Side × Access)}
    (notes : Notes pair state accesses) (waiting : state.progress = .waiting) :
    state.late = false := by
  by_contra late
  have read := notes.late.mp (by simpa using late)
  exact notes.begun.mpr (read.subset List.mem_cons_self) waiting

variable {pair} in
/-- An entry that has not been taken out is missing in the owned tray as long as it waits only. -/
theorem Notes.waiting_of_not_isOwned {state : State} {accesses : List (Side × Access)}
    (notes : Notes pair state accesses) (free : state.taken = none)
    (missing : state.isOwned = false) : state.progress = .waiting := by
  cases reached : state.progress with
  | waiting => rfl
  | put | moved => simp [State.isOwned, reached, free] at missing
  | undone => cases free.symm.trans (notes.proper.undone reached)

variable {pair} in
theorem Notes.waiting_or_put {state : State} {accesses : List (Side × Access)}
    (notes : Notes pair state accesses) (free : state.taken = none)
    (unmoved : state.progress ≠ .moved) : state.progress = .waiting ∨ state.progress = .put := by
  cases reached : state.progress with
  | waiting => exact .inl rfl
  | put => exact .inr rfl
  | moved => exact absurd reached unmoved
  | undone => cases free.symm.trans (notes.proper.undone reached)

/-- The steps of the accepter and of the finisher. -/
inductive Step : Side → Option String → State → State → Prop
  | put {key : Option String} {before after : State} (here : key = some pair.ownedKey)
    (waiting : before.progress = .waiting) (next : after = { before with progress := .put }) :
    Step .accepter key before after
  | move {key : Option String} {before after : State} (here : key = some pair.receivedKey)
    (begun : before.progress = .put) (free : before.taken ≠ some .received)
    (next : after = { before with progress := .moved }) : Step .accepter key before after
  | undo {key : Option String} {before after : State} (here : key = some pair.ownedKey)
    (begun : before.progress = .put) (lost : before.taken = some .received)
    (next : after = { before with progress := .undone }) : Step .accepter key before after
  | release {key : Option String} {before after : State} (here : key = some pair.sentKey)
    (next : after = { before with sent := false }) : Step .finisher key before after
  | drop {key : Option String} {before after : State} (here : key = some (Key.record pair.task))
    (next : after = { before with stored := false }) : Step .finisher key before after
  | dropCopy {key : Option String} {before after : State}
    (here : key = some (Key.record pair.copy))
    (next : after = { before with copied := false }) : Step .finisher key before after
  | takeOwned {key : Option String} {before after : State} (here : key = some pair.ownedKey)
    (free : before.taken = none) (there : before.progress = .put ∨ before.progress = .moved)
    (next : after = { before with taken := some .owned }) : Step .finisher key before after
  | takeReceived {key : Option String} {before after : State}
    (here : key = some pair.receivedKey) (free : before.taken = none)
    (there : before.progress = .waiting ∨ before.progress = .put)
    (next : after = { before with taken := some .received }) : Step .finisher key before after
  | look {key : Option String} {before after : State} (here : key = none)
    (next : after = { before with late := before.late || before.progress ≠ .waiting }) :
    Step .finisher key before after

/-- The race of accepting and finishing. -/
def sharing : Sharing Side State where
  community := community
  mine := pair.mine
  old := world.scene
  share := State.share pair
  issued _ := world.issued
  Notes := Notes pair
  Step := Step pair

variable {pair} {key : Option String} {before after state : State}
  {accesses : List (Side × Access)}

/-- The finisher leaves how far accepting is, and takes an entry once at most. -/
theorem Step.finisher (step : Step pair .finisher key before after) :
    after.progress = before.progress ∧ (before.taken ≠ none → after.taken = before.taken) := by
  cases step with
  | release here next | drop here next | dropCopy here next | look here next =>
      subst next
      exact ⟨rfl, fun _ => rfl⟩
  | takeOwned here free there next | takeReceived here free there next =>
      subst next
      exact ⟨rfl, fun taken => absurd free taken⟩

/-- What the accepter leaves, and how it goes forward. -/
structure Forward (before after : State) : Prop where
  sent : after.sent = before.sent
  stored : after.stored = before.stored
  copied : after.copied = before.copied
  taken : after.taken = before.taken
  late : after.late = before.late
  begun : after.progress ≠ .waiting
  unfinished : before.progress ≠ .moved
  undone : after.progress = .undone → before.taken = some .received

theorem Step.forward (step : Step pair .accepter key before after) : Forward before after := by
  cases step with
  | put here waiting next =>
      subst next
      exact ⟨rfl, rfl, rfl, rfl, rfl, by simp, by simp [waiting], by simp⟩
  | move here begun free next =>
      subst next
      exact ⟨rfl, rfl, rfl, rfl, rfl, by simp, by simp [begun], by simp⟩
  | undo here begun lost next =>
      subst next
      exact ⟨rfl, rfl, rfl, rfl, rfl, by simp, by simp [begun], fun _ => lost⟩

theorem eq_finisher {side : Side} (differs : side ≠ .accepter) : side = .finisher := by
  cases side with
  | accepter => exact absurd rfl differs
  | finisher => rfl

theorem eq_accepter {side : Side} (differs : side ≠ .finisher) : side = .accepter := by
  cases side with
  | accepter => rfl
  | finisher => exact absurd rfl differs

/-! ## What is known of the accesses -/

theorem silent_accepter (key : String) : (sharing pair).Silent .accepter key := by
  intro state accesses notes
  refine ⟨notes.proper, notes.begun.trans ?_, notes.late.trans ?_⟩
  · simp [put]
  · simp [pair_sublist_append_singleton, look]

theorem silent_finisher {key : String} (other : key ≠ pair.ownedKey) :
    (sharing pair).Silent .finisher key := by
  intro state accesses notes
  refine ⟨notes.proper, notes.begun.trans ?_, notes.late.trans ?_⟩
  · simp [put]
  · simp [pair_sublist_append_singleton, look, Ne.symm other]

theorem looked_owned (notes : Notes pair state accesses) :
    (sharing pair).Looked .finisher pair.ownedKey accesses state
      { state with late := state.late || state.progress ≠ .waiting } := by
  refine ⟨.inr (.look rfl rfl), rfl, rfl, ⟨notes.proper.undone, notes.proper.moved,
    notes.proper.owned, notes.proper.not_sent⟩, notes.begun.trans ?_, ?_⟩
  · simp [put]
  · rw [pair_sublist_append_singleton, ← notes.late, ← notes.begun]
    simp [look]

theorem exists_looked (key : String) (notes : Notes pair state accesses) :
    ∃ late, (sharing pair).Looked .finisher key accesses state { state with late } := by
  by_cases owned : key = pair.ownedKey
  · subst owned
    exact ⟨_, looked_owned notes⟩
  · exact ⟨state.late, (silent_finisher owned).looked notes⟩

/-! ## What is found -/

theorem find?_received : EntryList.find? pair.copy
    (((sharing pair).share state).entries pair.receiver .received) =
      if state.isReceived then some pair.received else none := by
  cases there : state.isReceived <;>
    simp [sharing, State.share, State.entries, there, EntryList.find?, Pair.received]

theorem find?_owned : EntryList.find? pair.copy
    (((sharing pair).share state).entries pair.receiver .owned) =
      if state.isOwned then some pair.received else none := by
  cases there : state.isOwned <;>
    simp [sharing, State.share, State.entries, there, EntryList.find?, Pair.received]

theorem erase_received : EntryList.erase pair.copy
    (((sharing pair).share state).entries pair.receiver .received) = [] := by
  cases there : state.isReceived <;>
    simp [sharing, State.share, State.entries, there, EntryList.erase, Pair.received]

theorem erase_owned : EntryList.erase pair.copy
    (((sharing pair).share state).entries pair.receiver .owned) = [] := by
  cases there : state.isOwned <;>
    simp [sharing, State.share, State.entries, there, EntryList.erase, Pair.received]

theorem find?_task_owned (user : UserId) : EntryList.find? pair.task
    (((sharing pair).share state).entries user .owned) = none := by
  by_cases there : user = pair.receiver ∧ state.isOwned = true <;>
    simp [sharing, State.share, State.entries, there, EntryList.find?, Pair.received,
      pair.differs.symm]

theorem find?_task_sent : EntryList.find? pair.task
    (((sharing pair).share state).entries pair.sender .sent) =
      if state.sent then some pair.sent else none := by
  cases there : state.sent <;>
    simp [sharing, State.share, State.entries, there, EntryList.find?, Pair.sent]

theorem erase_sent : EntryList.erase pair.task
    (((sharing pair).share state).entries pair.sender .sent) = [] := by
  cases there : state.sent <;>
    simp [sharing, State.share, State.entries, there, EntryList.erase, Pair.sent]

variable (pair) in
theorem find?_copy_sent (user : UserId) : EntryList.find? pair.copy
    (((sharing pair).share state).entries user .sent) = none := by
  by_cases there : user = pair.sender ∧ state.sent = true <;>
    simp [sharing, State.share, State.entries, there, EntryList.find?, Pair.sent, pair.differs]

/-! ## What the steps make of the trays and records -/

theorem swapped_put (notes : Notes pair state accesses) (waiting : state.progress = .waiting) :
    (sharing pair).Swapped .accepter pair.receiver .owned
      (((sharing pair).share state).entries pair.receiver .owned ++ [pair.received]) accesses state
      { state with progress := .put } := by
  have kept : state.taken ≠ some .owned := fun taken => by
    simpa [waiting] using notes.proper.owned taken
  refine ⟨.put rfl waiting rfl, ?_, ?_, rfl, rfl, ⟨⟨by simp, by simp, fun _ => .inl rfl,
    notes.proper.not_sent⟩, ?_, notes.late.trans ?_⟩⟩
  · simp [sharing, State.share, State.entries, State.isOwned, waiting, kept]
  · intro other place elsewhere
    cases place with
    | owned =>
        have theirs : other ≠ pair.receiver := fun same => elsewhere ⟨same, rfl⟩
        simp [sharing, State.share, State.entries, theirs]
    | sent => rfl
    | received =>
        simp [sharing, State.share, State.entries, State.isReceived, waiting]
  · simp [put, Pair.ownedKey]
  · simp [pair_sublist_append_singleton, look]

theorem swapped_move (notes : Notes pair state accesses) (begun : state.progress = .put)
    (free : state.taken ≠ some .received) :
    (sharing pair).Swapped .accepter pair.receiver .received [] accesses state
      { state with progress := .moved } := by
  refine ⟨.move rfl begun free rfl, ?_, ?_, rfl, rfl, ⟨⟨by simp, fun _ => free, fun _ => .inr rfl,
    notes.proper.not_sent⟩, ?_, notes.late.trans ?_⟩⟩
  · simp [sharing, State.share, State.entries, State.isReceived]
  · intro other place elsewhere
    cases place with
    | owned =>
        simp [sharing, State.share, State.entries, State.isOwned, begun]
    | sent => rfl
    | received =>
        have theirs : other ≠ pair.receiver := fun same => elsewhere ⟨same, rfl⟩
        simp [sharing, State.share, State.entries, theirs]
  · have there := notes.begun.mp (by simp [begun])
    simp [there]
  · simp [pair_sublist_append_singleton, look]

theorem swapped_undo (notes : Notes pair state accesses) (begun : state.progress = .put)
    (lost : state.taken = some .received) :
    (sharing pair).Swapped .accepter pair.receiver .owned [] accesses state
      { state with progress := .undone } := by
  refine ⟨.undo rfl begun lost rfl, ?_, ?_, rfl, rfl, ⟨⟨fun _ => lost, by simp, fun owned => ?_,
    notes.proper.not_sent⟩, ?_, notes.late.trans ?_⟩⟩
  · simp [sharing, State.share, State.entries, State.isOwned]
  · intro other place elsewhere
    cases place with
    | owned =>
        have theirs : other ≠ pair.receiver := fun same => elsewhere ⟨same, rfl⟩
        simp [sharing, State.share, State.entries, theirs]
    | sent => rfl
    | received =>
        simp [sharing, State.share, State.entries, State.isReceived, lost]
  · cases lost.symm.trans owned
  · have there := notes.begun.mp (by simp [begun])
    simp [there]
  · simp [pair_sublist_append_singleton, look]

theorem swapped_release (notes : Notes pair state accesses) :
    (sharing pair).Swapped .finisher pair.sender .sent [] accesses state
      { state with sent := false } := by
  refine ⟨.release rfl rfl, ?_, ?_, rfl, rfl, ⟨⟨notes.proper.undone, notes.proper.moved,
    notes.proper.owned, notes.proper.not_sent⟩, notes.begun.trans ?_, notes.late.trans ?_⟩⟩
  · simp [sharing, State.share, State.entries]
  · intro other place elsewhere
    cases place with
    | sent =>
        have theirs : other ≠ pair.sender := fun same => elsewhere ⟨same, rfl⟩
        simp [sharing, State.share, State.entries, theirs]
    | owned | received => rfl
  · simp [put]
  · simp [pair_sublist_append_singleton, look]

theorem swapped_takeOwned (notes : Notes pair state accesses) (free : state.taken = none)
    (there : state.progress = .put ∨ state.progress = .moved) :
    (sharing pair).Swapped .finisher pair.receiver .owned [] accesses state
      { state with taken := some .owned } := by
  refine ⟨.takeOwned rfl free there rfl, ?_, ?_, rfl, rfl, ⟨⟨fun undone => ?_, by simp,
    fun _ => there, by simp⟩, notes.begun.trans ?_, notes.late.trans ?_⟩⟩
  · simp [sharing, State.share, State.entries, State.isOwned]
  · intro other place elsewhere
    cases place with
    | owned =>
        have theirs : other ≠ pair.receiver := fun same => elsewhere ⟨same, rfl⟩
        simp [sharing, State.share, State.entries, theirs]
    | sent => rfl
    | received => simp [sharing, State.share, State.entries, State.isReceived, free]
  · rcases there with there | there <;> cases there.symm.trans undone
  · simp [put]
  · simp [pair_sublist_append_singleton, look]

theorem swapped_takeReceived (notes : Notes pair state accesses) (free : state.taken = none)
    (there : state.progress = .waiting ∨ state.progress = .put) :
    (sharing pair).Swapped .finisher pair.receiver .received [] accesses state
      { state with taken := some .received } := by
  refine ⟨.takeReceived rfl free there rfl, ?_, ?_, rfl, rfl, ⟨⟨fun _ => rfl, fun moved => ?_,
    by simp, by simp⟩, notes.begun.trans ?_, notes.late.trans ?_⟩⟩
  · simp [sharing, State.share, State.entries, State.isReceived]
  · intro other place elsewhere
    cases place with
    | received =>
        have theirs : other ≠ pair.receiver := fun same => elsewhere ⟨same, rfl⟩
        simp [sharing, State.share, State.entries, theirs]
    | sent => rfl
    | owned => simp [sharing, State.share, State.entries, State.isOwned, free]
  · rcases there with there | there <;> cases there.symm.trans moved
  · simp [put]
  · simp [pair_sublist_append_singleton, look]

theorem recorded_drop (notes : Notes pair state accesses) :
    (sharing pair).Recorded .finisher pair.task False accesses state
      { state with stored := false } := by
  refine ⟨.drop rfl rfl, rfl, ?_, ?_, rfl, ⟨⟨notes.proper.undone, notes.proper.moved,
    notes.proper.owned, notes.proper.not_sent⟩, notes.begun, notes.late⟩⟩
  · simp [sharing, State.share, pair.differs]
  · intro other differs
    simp [sharing, State.share, differs]

theorem recorded_dropCopy (notes : Notes pair state accesses) :
    (sharing pair).Recorded .finisher pair.copy False accesses state
      { state with copied := false } := by
  refine ⟨.dropCopy rfl rfl, rfl, ?_, ?_, rfl, ⟨⟨notes.proper.undone, notes.proper.moved,
    notes.proper.owned, notes.proper.not_sent⟩, notes.begun, notes.late⟩⟩
  · simp [sharing, State.share, pair.differs.symm]
  · intro other differs
    simp [sharing, State.share, differs]

/-! ## What the other writes -/

theorem Step.finisher_at (step : Step pair .finisher key before after) :
    (key = some pair.ownedKey → before.taken = none ∧
      (before.progress = .put ∨ before.progress = .moved)) ∧
    (key = some pair.receivedKey → after.taken = some .received) := by
  have record_ne (task : TaskId) (tray : Tray) :
      Key.record task ≠ Key.tray pair.receiver tray := Key.record_ne_tray task pair.receiver tray
  cases step with
  | release here next =>
      subst here
      simp [pair.sentKey_ne_ownedKey, pair.sentKey_ne_receivedKey]
  | drop here next | dropCopy here next =>
      subst here
      simp [record_ne, Pair.ownedKey, Pair.receivedKey]
  | takeOwned here free there next =>
      subst here
      simp [pair.receivedKey_ne_ownedKey.symm, free, there]
  | takeReceived here free there next =>
      subst here next
      simp [pair.receivedKey_ne_ownedKey]
  | look here next =>
      subst here
      simp

theorem Step.accepter_at (step : Step pair .accepter key before after) :
    key ≠ some pair.sentKey ∧
      (key = some pair.ownedKey → before.progress = .waiting ∨ before.taken = some .received) ∧
      (key = some pair.receivedKey → after.progress = .moved) := by
  cases step with
  | put here waiting next =>
      subst here
      simp [pair.sentKey_ne_ownedKey.symm, pair.receivedKey_ne_ownedKey.symm, waiting]
  | move here begun free next =>
      subst here next
      simp [pair.sentKey_ne_receivedKey.symm, pair.receivedKey_ne_ownedKey]
  | undo here begun lost next =>
      subst here
      simp [pair.sentKey_ne_ownedKey.symm, pair.receivedKey_ne_ownedKey.symm, lost]

end
end Handoff.Accepting
