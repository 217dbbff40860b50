import Handoff.Proofs.Race.Pair

/-!
# Finishing a task from both sides

Any number of players complete or remove a task that a sender shares with a receiver, each of them
on one of the two sides.  A state tells who has taken the entries out, and who was the first to
delete the records.
-/

namespace Handoff.Finishing

/-- A side of a shared task. -/
inductive Side
  | sender
  | receiver
deriving DecidableEq, Repr

namespace Side

def other : Side → Side
  | .sender => .receiver
  | .receiver => .sender

theorem eq_or_eq_other (side place : Side) : place = side ∨ place = side.other := by
  cases side <;> cases place <;> simp [other]

theorem exists_iff {holds : Side → Prop} :
    (∃ side, holds side) ↔ holds .sender ∨ holds .receiver := by
  constructor
  · rintro ⟨_ | _, held⟩
    · exact .inl held
    · exact .inr held
  · rintro (held | held)
    · exact ⟨.sender, held⟩
    · exact ⟨.receiver, held⟩

theorem ne_other (side : Side) : side ≠ side.other := by
  cases side <;> simp [other]

section
variable {community : Community} {around : Surroundings} {world : World}
  (pair : Pair community around world)

def user : Side → UserId
  | .sender => pair.sender
  | .receiver => pair.receiver

def record : Side → TaskId
  | .sender => pair.task
  | .receiver => pair.copy

/-- The tray that holds the entry of a side. -/
def tray : Side → Tray
  | .sender => .sent
  | .receiver => Holding.place pair.accepted

/-- The entry of a side, which is linked to that of the other side. -/
def entry (side : Side) : Entry :=
  .linked (side.record pair) (side.other.user pair) (side.other.record pair)

def trayKey (side : Side) : String := Key.tray (side.user pair) (side.tray pair)

def recordKey (side : Side) : String := Key.record (side.record pair)

theorem user_member (side : Side) : community.member (side.user pair) := by
  cases side with
  | sender => exact pair.sender_member
  | receiver => exact pair.receiver_member

theorem record_mine (side : Side) : pair.mine (side.record pair) = true := by
  cases side with
  | sender => exact pair.task_mine
  | receiver => exact pair.copy_mine

theorem record_injective : Function.Injective (record pair) := by
  intro side place same
  cases side <;> cases place <;>
    first | rfl | exact absurd same pair.differs | exact absurd same.symm pair.differs

theorem tray_injective : Function.Injective (tray pair) := by
  have placed := Holding.sent_ne_place pair.accepted
  intro side place same
  cases side <;> cases place <;>
    first | rfl | exact absurd same placed | exact absurd same.symm placed

theorem trayKey_injective : Function.Injective (trayKey pair) := by
  intro side place same
  exact tray_injective pair
    (community.distinct _ _ _ _ (side.user_member pair) (place.user_member pair) same).2

theorem recordKey_ne_trayKey (side place : Side) : side.recordKey pair ≠ place.trayKey pair :=
  Key.record_ne_tray _ _ _

end
end Side

/-- Who has taken the entries out, and who was the first to delete the records. -/
structure State (ι : Type) where
  taken : Side → Option ι
  dropped : Side → Option ι

namespace State

variable {ι : Type}

/-- Nothing has been done. -/
def begin : State ι := ⟨fun _ => none, fun _ => none⟩

/-- The entry of a side is taken out by a player. -/
def take (state : State ι) (side : Side) (player : ι) : State ι :=
  { state with taken := Function.update state.taken side (some player) }

/-- The record of a side is deleted by a player, unless somebody has deleted it before. -/
def drop (state : State ι) (side : Side) (player : ι) : State ι :=
  { state with
    dropped := Function.update state.dropped side ((state.dropped side).or (some player)) }

section
variable (state : State ι) (side place : Side) (player : ι)

@[simp] theorem taken_take :
    (state.take side player).taken = Function.update state.taken side (some player) := rfl

@[simp] theorem dropped_take : (state.take side player).dropped = state.dropped := rfl

@[simp] theorem taken_drop : (state.drop side player).taken = state.taken := rfl

@[simp] theorem dropped_drop_self :
    (state.drop side player).dropped side = (state.dropped side).or (some player) := by
  simp [drop]

variable {side place} in
theorem dropped_drop_of_ne (differs : place ≠ side) :
    (state.drop side player).dropped place = state.dropped place := by
  simp [drop, differs]

end

section
variable {community : Community} {around : Surroundings} {world : World}
  (pair : Pair community around world) (state : State ι)

/-- The entry of a side, if it is there. -/
def entryAt (side : Side) : Option Entry :=
  match state.taken side with
  | none => some (side.entry pair)
  | some _ => none

theorem entryAt_eq_none_iff {side : Side} :
    state.entryAt pair side = none ↔ state.taken side ≠ none := by
  unfold entryAt
  cases state.taken side with
  | none => simp
  | some player => simp

theorem eq_entry_of_entryAt {side : Side} {entry : Entry}
    (there : state.entryAt pair side = some entry) : entry = side.entry pair := by
  unfold entryAt at there
  split at there
  · exact (Option.some.inj there).symm
  · cases there

def entries : Placing := fun user tray =>
  [Side.sender, .receiver].flatMap fun side =>
    if user = side.user pair ∧ tray = side.tray pair then (state.entryAt pair side).toList else []

def share : Share where
  entries := state.entries pair
  stored task := ∃ side : Side, side.record pair = task ∧ state.dropped side = none

theorem mem_entries_iff {user : UserId} {tray : Tray} {entry : Entry} :
    entry ∈ state.entries pair user tray ↔ ∃ side : Side, user = side.user pair ∧
      tray = side.tray pair ∧ state.taken side = none ∧ entry = side.entry pair := by
  have here (side : Side) : entry ∈ (state.entryAt pair side).toList ↔
      state.taken side = none ∧ entry = side.entry pair := by
    unfold entryAt
    cases state.taken side with
    | none => simp
    | some player => simp
  constructor
  · intro mem
    obtain ⟨side, _, held⟩ := List.mem_flatMap.mp mem
    split at held
    · rename_i place
      exact ⟨side, place.1, place.2, (here side).mp held⟩
    · cases held
  · rintro ⟨side, rfl, rfl, there⟩
    refine List.mem_flatMap.mpr ⟨side, by cases side <;> simp, ?_⟩
    rw [if_pos ⟨rfl, rfl⟩]
    exact (here side).mpr there

theorem entries_tray (side : Side) :
    state.entries pair (side.user pair) (side.tray pair) = (state.entryAt pair side).toList := by
  have only (place : Side) :
      side.user pair = place.user pair ∧ side.tray pair = place.tray pair ↔ side = place :=
    ⟨fun same => Side.tray_injective pair same.2, fun same => same ▸ ⟨rfl, rfl⟩⟩
  cases side <;> simp [entries, only]

theorem share_stored (side : Side) :
    (state.share pair).stored (side.record pair) ↔ state.dropped side = none := by
  constructor
  · rintro ⟨place, same, kept⟩
    exact Side.record_injective pair same ▸ kept
  · exact fun kept => ⟨side, rfl, kept⟩

end
end State

/-! ## The race -/

section
variable {ι : Type} {community : Community} {around : Surroundings} {world : World}
  (pair : Pair community around world)

/-- A player takes out an entry that is there, or deletes a record whether it is there or not. -/
inductive Step (player : ι) : Option String → State ι → State ι → Prop
  | take {key : Option String} {before after : State ι} (side : Side)
    (here : key = some (side.trayKey pair)) (there : before.taken side = none)
    (next : after = before.take side player) : Step player key before after
  | drop {key : Option String} {before after : State ι} (side : Side)
    (here : key = some (side.recordKey pair)) (next : after = before.drop side player) :
    Step player key before after

/-- The race of finishing the pair.  It does not matter who has read what. -/
def sharing (ι : Type) : Sharing ι (State ι) where
  community := community
  mine := pair.mine
  old := world.scene
  share := State.share pair
  issued _ := world.issued
  Notes _ _ := True
  Step := Step pair

theorem find?_share (state : State ι) (side : Side) (user : UserId) (tray : Tray) :
    EntryList.find? (side.record pair) (((sharing pair ι).share state).entries user tray) =
      if user = side.user pair ∧ tray = side.tray pair then state.entryAt pair side else none := by
  change EntryList.find? (side.record pair) (state.entries pair user tray) = _
  split
  · rename_i here
    rw [here.1, here.2, state.entries_tray]
    unfold State.entryAt
    cases state.taken side with
    | none => simp [EntryList.find?, Side.entry]
    | some player => rfl
  · rename_i elsewhere
    refine List.find?_eq_none.mpr fun entry mem same => elsewhere ?_
    obtain ⟨place, rfl, rfl, _, rfl⟩ := (state.mem_entries_iff pair).mp mem
    have named : place.record pair = side.record pair := by simpa [Side.entry] using same
    rw [Side.record_injective pair named]
    exact ⟨rfl, rfl⟩

theorem find?_tray (state : State ι) (side : Side) :
    EntryList.find? (side.record pair)
      (((sharing pair ι).share state).entries (side.user pair) (side.tray pair)) =
        state.entryAt pair side := by
  rw [find?_share, if_pos ⟨rfl, rfl⟩]

theorem erase_tray (state : State ι) (side : Side) :
    EntryList.erase (side.record pair)
      (((sharing pair ι).share state).entries (side.user pair) (side.tray pair)) = [] := by
  change EntryList.erase _ (state.entries pair (side.user pair) (side.tray pair)) = []
  rw [state.entries_tray]
  unfold State.entryAt
  cases state.taken side with
  | none => simp [EntryList.erase, Side.entry]
  | some player => rfl

variable {pair} {player me : ι} {key : Option String} {before after state : State ι}
  {accesses : List (ι × Access)}

/-- What a player may do to who has taken an entry out: nothing, or take out what is there. -/
theorem Step.taken (step : Step pair player key before after) (side : Side) :
    after.taken side = before.taken side ∨
      before.taken side = none ∧ after.taken side = some player := by
  cases step with
  | take place here there next =>
      subst next
      by_cases same : side = place
      · subst same
        exact .inr ⟨there, by simp⟩
      · exact .inl (by simp [same])
  | drop place here next =>
      subst next
      exact .inl rfl

/-- What a player may do to who has deleted a record: nothing, or be the first. -/
theorem Step.dropped (step : Step pair player key before after) (side : Side) :
    after.dropped side = before.dropped side ∨
      before.dropped side = none ∧ after.dropped side = some player := by
  cases step with
  | take place here there next =>
      subst next
      exact .inl rfl
  | drop place here next =>
      subst next
      by_cases same : side = place
      · subst same
        cases kept : before.dropped side with
        | none => exact .inr ⟨rfl, by simp [kept]⟩
        | some first => exact .inl (by simp [kept])
      · exact .inl (before.dropped_drop_of_ne player same)

/-- The tray of a side is written when its entry is taken out. -/
theorem Step.taken_of_trayKey {side : Side}
    (step : Step pair player (some (side.trayKey pair)) before after) :
    after.taken side = some player := by
  cases step with
  | take place here there next =>
      subst next
      rw [Side.trayKey_injective pair (Option.some.inj here)]
      simp
  | drop place here next =>
      exact absurd (Option.some.inj here).symm (Side.recordKey_ne_trayKey pair place side)

section
variable (pair me)

/-- An entry that has been taken out does not come back. -/
theorem stable_gone (side : Side) :
    (sharing pair ι).protocol.Stable me fun state => state.taken side ≠ none := by
  rintro other _ key before after step gone
  rcases Step.taken step side with same | ⟨there, _⟩
  · rwa [same]
  · exact absurd there gone

theorem stable_dropped (side : Side) :
    (sharing pair ι).protocol.Stable me fun state => state.dropped side ≠ none := by
  rintro other _ key before after step gone
  rcases Step.dropped step side with same | ⟨there, _⟩
  · rwa [same]
  · exact absurd there gone

theorem stable_taken (side : Side) :
    (sharing pair ι).protocol.Stable me fun state => state.taken side = some me := by
  rintro other _ key before after step mine
  rcases Step.taken step side with same | ⟨there, _⟩
  · rwa [same]
  · cases there.symm.trans mine

theorem stable_not_taken (side : Side) :
    (sharing pair ι).protocol.Stable me fun state => state.taken side ≠ some me := by
  rintro other differs key before after step kept
  rcases Step.taken step side with same | ⟨_, same⟩
  · rwa [same]
  · rw [same]
    exact fun again => differs (Option.some.inj again)

theorem stable_not_dropped (side : Side) :
    (sharing pair ι).protocol.Stable me fun state => state.dropped side ≠ some me := by
  rintro other differs key before after step kept
  rcases Step.dropped step side with same | ⟨_, same⟩
  · rwa [same]
  · rw [same]
    exact fun again => differs (Option.some.inj again)

end

theorem looked (key : String) :
    (sharing pair ι).Looked me key accesses state state :=
  Sharing.Silent.looked (fun _ _ _ => trivial) trivial

theorem swapped_take {side : Side} (there : state.taken side = none) :
    (sharing pair ι).Swapped me (side.user pair) (side.tray pair) [] accesses state
      (state.take side me) := by
  refine ⟨.take side rfl there rfl, ?_, fun user tray elsewhere => ?_, rfl, rfl, trivial⟩
  · change (state.take side me).entries pair (side.user pair) (side.tray pair) = []
    rw [State.entries_tray]
    simp [State.entryAt]
  · change (state.take side me).entries pair user tray = state.entries pair user tray
    refine List.flatMap_congr fun place _ => ?_
    split
    · rename_i here
      have differs : place ≠ side := fun same => elsewhere (same ▸ here)
      simp [State.entryAt, differs]
    · rfl

theorem recorded_drop (side : Side) :
    (sharing pair ι).Recorded me (side.record pair) False accesses state (state.drop side me) := by
  refine ⟨.drop side rfl rfl, rfl, ?_, fun task differs => ?_, rfl, trivial⟩
  · refine ((state.drop side me).share_stored pair side).trans ⟨fun kept => ?_, False.elim⟩
    simp at kept
  · refine exists_congr fun place => and_congr_right fun named => ?_
    have elsewhere : place ≠ side := fun same => differs (by rw [← named, same])
    rw [state.dropped_drop_of_ne me elsewhere]

end
end Handoff.Finishing
