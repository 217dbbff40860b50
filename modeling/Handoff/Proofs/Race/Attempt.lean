import Handoff.Proofs.Race.Protocol
import Handoff.Proofs.Stored.Contract

/-!
# Attempts in races

A single action leads from what is known before it to what is known after it.  A change of a tray
reads and swaps, and is made in vain if somebody else has written the tray in between; so what is
known then includes what only the others can have brought about.
-/

namespace Handoff

namespace Stage

variable {ι γ : Type} (around : Surroundings) (player : ι) (clock : Instant) (stage : Stage ι γ)
  (state : γ)

/-- The stage after a player has read a key. -/
def afterRead (key : String) : Stage ι γ :=
  { stage with accesses := stage.accesses ++ [(player, .read key)], state }

/-- The stage after a player has swapped a value. -/
def afterSwap (key : String) (value : Bytes) : Stage ι γ :=
  { stage with
    store := stage.store.insert key value
    accesses := stage.accesses ++ [(player, .swap key)]
    state }

theorem act_note (event : Event) :
    stage.act around player (.note event) clock state = ((), { stage with state }) := by
  simp [act, World.answer, Action.access?]

theorem act_now :
    stage.act around player .now clock state = (clock, { stage with state }) := by
  simp [act, World.answer, Action.access?]

theorem act_newTaskId :
    stage.act around player .newTaskId clock state =
      (around.newTaskId stage.issued, { stage with issued := stage.issued + 1, state }) := by
  simp [act, World.answer, Action.access?]

theorem act_get (key : String) :
    stage.act around player (.call (.get key)) clock state =
      (.ok (stage.store.get? key), stage.afterRead player state key) := rfl

theorem act_set (key : String) (value : Bytes) :
    stage.act around player (.call (.set key value)) clock state =
      (.ok (), { stage with store := stage.store.insert key value, state }) := by
  simp [act, World.answer, Action.access?, Store.perform]

theorem act_delete (key : String) :
    stage.act around player (.call (.delete key)) clock state =
      (.ok (), { stage with store := stage.store.erase key, state }) := by
  simp [act, World.answer, Action.access?, Store.perform]

variable {stage} in
theorem act_swap {key : String} {expected : Option Bytes} (value : Bytes)
    (same : stage.store.get? key = expected) :
    stage.act around player (.call (.compareAndSet key expected value)) clock state =
      (.ok true, stage.afterSwap player state key value) := by
  simp [act, World.answer, Action.access?, Store.perform, same, afterSwap]

variable {stage} in
theorem act_swap_of_ne {key : String} {expected : Option Bytes} (value : Bytes)
    (differs : stage.store.get? key ≠ expected) :
    stage.act around player (.call (.compareAndSet key expected value)) clock state =
      (.ok false, { stage with state }) := by
  simp [act, World.answer, Action.access?, Store.perform, differs]

end Stage

/-- Once a tray that can be read has been read, the rest of the round follows, perhaps after a
note. -/
theorem Trays.afterGet_of_cell {β : Type} {budget : Nat} {key : String} {change : Change β}
    {store : Store} {list : List Entry} (left : Nat) (shown : store.cell key = .entries list) :
    afterGet budget key change left (.ok (store.get? key)) =
        (finishRound budget key change left (list, store.get? key)).run ∨
      afterGet budget key change left (.ok (store.get? key)) =
        .act (.note .oldFormRead) fun _ =>
          (finishRound budget key change left (list, store.get? key)).run := by
  rcases Store.read_of_cell_eq_entries shown with ⟨absent, rfl⟩ | ⟨bytes, form, found, decoded⟩
  · rw [absent]
    exact .inl rfl
  · rw [found]
    cases form with
    | entries => exact .inl (by simp only [afterGet, decoded])
    | names => exact .inr (by simp only [afterGet, decoded])

namespace Protocol

variable {ι γ α β : Type} {protocol : Protocol ι γ} {around : Surroundings} {me : ι}
  {known : γ → Prop}

theorem moves_self {stage : Stage ι γ} (valid : protocol.Valid stage) :
    protocol.Moves me stage { stage with state := stage.state } :=
  ⟨valid, .inl ⟨rfl, rfl⟩⟩

/-! ## Single actions -/

theorem leads_note (stable : protocol.Stable me known) (event : Event) :
    protocol.Leads around me known (Program.perform (.note event)) fun _ => known := by
  refine leads_act stable fun stage clock valid holds => ⟨stage.state, ?_⟩
  rw [Stage.act_note]
  exact ⟨moves_self valid, leads_pure stable (fun _ => id) _ valid holds⟩

theorem leads_now (stable : protocol.Stable me known) :
    protocol.Leads around me known (Program.perform .now) fun _ => known := by
  refine leads_act stable fun stage clock valid holds => ⟨stage.state, ?_⟩
  rw [Stage.act_now]
  exact ⟨moves_self valid, leads_pure stable (fun _ => id) _ valid holds⟩

/-- From what is known, an attempt leads to what is known if it succeeds or fails. -/
def Tries (protocol : Protocol ι γ) (around : Surroundings) (me : ι) (known : γ → Prop)
    (attempt : Attempt α) (succeeds : α → γ → Prop) (fails : Failure → γ → Prop) : Prop :=
  protocol.Leads around me known attempt.run fun
    | .ok a => succeeds a
    | .error failure => fails failure

variable {succeeds : α → γ → Prop} {fails : Failure → γ → Prop}

theorem tries_pure {a : α} (stable : protocol.Stable me (succeeds a))
    (holds : ∀ state, known state → succeeds a state) :
    protocol.Tries around me known (pure a) succeeds fails :=
  leads_pure stable holds

theorem tries_throw {failure : Failure} (stable : protocol.Stable me (fails failure))
    (holds : ∀ state, known state → fails failure state) :
    protocol.Tries around me known (throw failure : Attempt α) succeeds fails :=
  leads_pure stable holds

theorem tries_of_fact {fact : Prop} {attempt : Attempt α}
    (tries : fact → protocol.Tries around me known attempt succeeds fails) :
    protocol.Tries around me (fun state => fact ∧ known state) attempt succeeds fails :=
  leads_of_fact tries

theorem Tries.weaken {more : γ → Prop} {attempt : Attempt α}
    (tries : protocol.Tries around me known attempt succeeds fails)
    (implies : ∀ state, more state → known state) :
    protocol.Tries around me more attempt succeeds fails :=
  Leads.weaken tries implies

theorem Tries.mono {attempt : Attempt α} {more : α → γ → Prop} {worse : Failure → γ → Prop}
    (tries : protocol.Tries around me known attempt succeeds fails)
    (success : ∀ a state, succeeds a state → more a state)
    (failing : ∀ failure state, fails failure state → worse failure state) :
    protocol.Tries around me known attempt more worse :=
  Leads.mono tries fun result => match result with
    | .ok a => success a
    | .error failure => failing failure

theorem Tries.bind {first : Attempt α} {next : α → Attempt β} {ends : β → γ → Prop}
    (stable : ∀ failure, protocol.Stable me (fails failure))
    (begins : protocol.Tries around me known first succeeds fails)
    (goes : ∀ a, protocol.Tries around me (succeeds a) (next a) ends fails) :
    protocol.Tries around me known (first >>= next) ends fails := by
  refine Leads.bind begins fun result => ?_
  cases result with
  | ok a => exact goes a
  | error failure => exact tries_throw (stable failure) fun _ => id

theorem Tries.map {attempt : Attempt α} {f : α → β} {ends : β → γ → Prop}
    (stable : ∀ a, protocol.Stable me (ends (f a)))
    (fails_stable : ∀ failure, protocol.Stable me (fails failure))
    (tries : protocol.Tries around me known attempt (fun a => ends (f a)) fails) :
    protocol.Tries around me known (f <$> attempt) ends fails := by
  rw [← bind_pure_comp]
  exact tries.bind fails_stable fun a => tries_pure (stable a) fun _ => id

theorem tries_lift {p : Program α} (stable : ∀ a, protocol.Stable me (succeeds a))
    (leads : protocol.Leads around me known p succeeds) :
    protocol.Tries around me known (ExceptT.lift p) succeeds fails :=
  leads.bind fun a => tries_pure (stable a) fun _ => id

theorem tries_note (stable : protocol.Stable me known) (event : Event) :
    protocol.Tries around me known (Attempt.note event) (fun _ => known) fails :=
  tries_lift (fun _ => stable) (leads_note stable event)

theorem tries_now (stable : protocol.Stable me known) :
    protocol.Tries around me known Attempt.now (fun _ => known) fails :=
  tries_lift (fun _ => stable) (leads_now stable)

theorem tries_newTaskId {issues : TaskId → γ → Prop} (stable : protocol.Stable me known)
    (issues_stable : ∀ task, protocol.Stable me (issues task))
    (step : ∀ stage, protocol.Valid stage → known stage.state → ∃ state,
      protocol.Moves me stage { stage with issued := stage.issued + 1, state } ∧
        issues (around.newTaskId stage.issued) state) :
    protocol.Tries around me known Attempt.newTaskId issues fails := by
  refine tries_lift issues_stable (leads_act stable fun stage clock valid holds => ?_)
  obtain ⟨state, moves, holds⟩ := step stage valid holds
  refine ⟨state, ?_⟩
  rw [Stage.act_newTaskId]
  exact ⟨moves, leads_pure (issues_stable _) (fun _ => id) _ moves.valid holds⟩

theorem tries_call {request : Call} {answers : request.Answer → γ → Prop}
    (stable : protocol.Stable me known)
    (answers_stable : ∀ answer, protocol.Stable me (answers answer))
    (step : ∀ stage clock, protocol.Valid stage → known stage.state → ∃ answer after,
      stage.act around me (.call request) clock after.state = (.ok answer, after) ∧
        protocol.Moves me stage after ∧ answers answer after.state) :
    protocol.Tries around me known (Attempt.call request) answers fails := by
  refine leads_act stable fun stage clock valid holds => ?_
  obtain ⟨answer, after, acted, moves, holds⟩ := step stage clock valid holds
  refine ⟨after.state, ?_⟩
  rw [acted]
  have ends : protocol.Tries around me (answers answer) (pure answer) answers fails :=
    tries_pure (answers_stable answer) fun _ => id
  exact ⟨moves, ends after moves.valid holds⟩

theorem tries_get {key : String} {reads : Option Bytes → γ → Prop}
    (stable : protocol.Stable me known) (reads_stable : ∀ value, protocol.Stable me (reads value))
    (step : ∀ stage, protocol.Valid stage → known stage.state → ∃ state,
      protocol.Moves me stage (stage.afterRead me state key) ∧
        reads (stage.store.get? key) state) :
    protocol.Tries around me known (Attempt.get key) reads fails := by
  refine tries_call stable reads_stable fun stage clock valid holds => ?_
  obtain ⟨state, moves, holds⟩ := step stage valid holds
  exact ⟨_, _, Stage.act_get around me clock stage state key, moves, holds⟩

theorem tries_set {key : String} {value : Bytes} {after : γ → Prop}
    (stable : protocol.Stable me known) (after_stable : protocol.Stable me after)
    (step : ∀ stage, protocol.Valid stage → known stage.state → ∃ state,
      protocol.Moves me stage { stage with store := stage.store.insert key value, state } ∧
        after state) :
    protocol.Tries around me known (Attempt.set key value) (fun _ => after) fails := by
  refine tries_call stable (fun _ => after_stable) fun stage clock valid holds => ?_
  obtain ⟨state, moves, holds⟩ := step stage valid holds
  exact ⟨_, _, Stage.act_set around me clock stage state key value, moves, holds⟩

theorem tries_delete {key : String} {after : γ → Prop}
    (stable : protocol.Stable me known) (after_stable : protocol.Stable me after)
    (step : ∀ stage, protocol.Valid stage → known stage.state → ∃ state,
      protocol.Moves me stage { stage with store := stage.store.erase key, state } ∧
        after state) :
    protocol.Tries around me known (Attempt.delete key) (fun _ => after) fails := by
  refine tries_call stable (fun _ => after_stable) fun stage clock valid holds => ?_
  obtain ⟨state, moves, holds⟩ := step stage valid holds
  exact ⟨_, _, Stage.act_delete around me clock stage state key, moves, holds⟩

/-! ## Trays -/

section
variable {key : String} {reads : List Entry → γ → Prop}

theorem tries_load (stable : protocol.Stable me known)
    (reads_stable : ∀ list, protocol.Stable me (reads list))
    (step : ∀ stage, protocol.Valid stage → known stage.state → ∃ list state,
      stage.store.cell key = .entries list ∧
        protocol.Moves me stage (stage.afterRead me state key) ∧ reads list state) :
    protocol.Tries around me known (Trays.load key) (fun read => reads read.1)
      fun _ _ => False := by
  have shows_stable (value : Option Bytes) :
      protocol.Stable me fun state => ∃ list, Trays.Shows value list ∧ reads list state :=
    Stable.exists fun list => (stable_const _).and (reads_stable list)
  refine Tries.bind (fun _ => stable_const False) (tries_get stable shows_stable ?_) fun value => ?_
  · intro stage valid holds
    obtain ⟨list, state, shown, moves, holds⟩ := step stage valid holds
    exact ⟨state, moves, list, Store.read_of_cell_eq_entries shown, holds⟩
  · cases value with
    | none =>
        refine tries_pure (reads_stable []) ?_
        rintro state ⟨list, ⟨_, rfl⟩ | ⟨_, _, absurd, _⟩, holds⟩
        · exact holds
        · cases absurd
    | some bytes =>
        rcases decoded : EntryList.decode bytes with cause | ⟨list, form⟩
        · simp only [decoded]
          refine tries_throw (stable_const False) ?_
          rintro state ⟨list, ⟨absurd, _⟩ | ⟨_, _, same, shown⟩, _⟩
          · cases absurd
          · cases same
            cases decoded.symm.trans shown
        · have shown (state : γ)
              (holds : ∃ list, Trays.Shows (some bytes) list ∧ reads list state) :
              reads list state := by
            obtain ⟨others, ⟨absurd, _⟩ | ⟨_, _, same, found⟩, holds⟩ := holds
            · cases absurd
            · cases same
              cases decoded.symm.trans found
              exact holds
          have ends : protocol.Tries around me (reads list) (pure (list, some bytes))
              (fun read : List Entry × Option Bytes => reads read.1) fun _ _ => False :=
            tries_pure (reads_stable list) fun _ => id
          simp only [decoded]
          cases form with
          | entries => exact ends.weaken shown
          | names =>
              have noted : protocol.Tries around me (reads list) (Attempt.note .oldFormRead)
                  (fun _ => reads list) fun _ _ => False := tries_note (reads_stable list) _
              exact (noted.bind (fun _ => stable_const False) fun _ => ends).weaken shown

/-- What is found for a task in a tray that can be read is what the tray has for it when it is
read. -/
theorem tries_find? {user : UserId} {tray : Tray} {task : TaskId}
    {sees : Option (Entry × Nat) → γ → Prop} (stable : protocol.Stable me known)
    (sees_stable : ∀ found, protocol.Stable me (sees found))
    (step : ∀ stage, protocol.Valid stage → known stage.state → ∃ list state,
      stage.store.cell (Key.tray user tray) = .entries list ∧
        protocol.Moves me stage (stage.afterRead me state (Key.tray user tray)) ∧
        sees (EntryList.locate? task list) state) :
    protocol.Tries around me known (Trays.find? user tray task) sees fun _ _ => False := by
  have never (failure : Failure) : protocol.Stable me fun _ => False := stable_const False
  have loading : protocol.Tries around me known (Trays.load (Key.tray user tray))
      (fun read => sees (EntryList.locate? task read.1)) fun _ _ => False :=
    tries_load stable (fun list => sees_stable _) step
  have reading : protocol.Tries around me known (Trays.entries user tray)
      (fun list => sees (EntryList.locate? task list)) fun _ _ => False :=
    loading.bind never fun read => tries_pure (sees_stable _) fun _ => id
  exact reading.bind never fun list => tries_pure (sees_stable _) fun _ => id

/-- What is known in the rounds of a change: before a round, once it has read the entries, if
somebody else has written the tray since, and at the end. -/
structure Rounds (protocol : Protocol ι γ) (me : ι) (key : String) (change : Change β)
    (known : γ → Prop) (reads : List Entry → γ → Prop) (touched : γ → Prop)
    (succeeds : β → γ → Prop) (fails : Failure → γ → Prop) : Prop where
  known_stable : protocol.Stable me known
  reads_stable : ∀ list, protocol.Stable me (reads list)
  touched_stable : protocol.Stable me touched
  succeeds_stable : ∀ result, protocol.Stable me (succeeds result)
  fails_stable : ∀ failure, protocol.Stable me (fails failure)
  /-- Somebody else writes the tray. -/
  touches : ∀ list other, other ≠ me → ∀ before after,
    protocol.Step other (some key) before after → reads list before → touched after
  /-- The entries are read. -/
  read : ∀ stage, protocol.Valid stage → known stage.state → ∃ list state,
    stage.store.cell key = .entries list ∧
      protocol.Moves me stage (stage.afterRead me state key) ∧ reads list state
  /-- The change is refused for what has been read. -/
  refused : ∀ list failure state, reads list state → change list = .error failure →
    fails failure state
  /-- The value is swapped. -/
  swap : ∀ stage list result changed, protocol.Valid stage → reads list stage.state →
    stage.store.cell key = .entries list → change list = .ok (result, changed) → ∃ state,
      protocol.Moves me stage (stage.afterSwap me state key (EntryList.encode changed)) ∧
        succeeds result state
  /-- Another round is made. -/
  again : ∀ list state, reads list state → touched state → known state
  /-- No round is left. -/
  contended : ∀ budget state, known state → touched state → fails (.contended key budget) state

namespace Rounds

variable {change : Change β} {touched : γ → Prop} {succeeds : β → γ → Prop} {budget left : Nat}

/-- Once the entries have been read, the rest of a round swaps the value unless somebody else has
written it since. -/
theorem abides_finishRound
    (rounds : protocol.Rounds me key change known reads touched succeeds fails)
    (more : protocol.Tries around me (fun state => known state ∧ touched state)
      (Trays.changeWithin budget key change left) succeeds fails)
    {seen stage : Stage ι γ} {list : List Entry} (shown : seen.store.cell key = .entries list)
    (holds : reads list seen.state) (valid : protocol.Valid seen)
    (rely : protocol.Rely me seen stage) :
    protocol.Abides around me
      (fun
        | .ok a => succeeds a
        | .error failure => fails failure)
      (Trays.finishRound budget key change left (list, seen.store.get? key)).run stage := by
  cases done : change list with
  | error failure =>
      rw [Trays.run_finishRound_error done]
      intro later rely_later
      exact rounds.refused list failure _
        ((rounds.reads_stable list).rely (rely.trans rely_later) holds) done
  | ok pair =>
      obtain ⟨result, changed⟩ := pair
      rw [Trays.run_finishRound_ok done]
      intro later rely_later clock
      have since : protocol.Rely me seen later := rely.trans rely_later
      have still := (rounds.reads_stable list).rely since holds
      have later_valid := since.valid valid
      by_cases same : later.store.get? key = seen.store.get? key
      · -- What is stored is what was read, though it may have changed twice in between.
        have shown_later := (Store.cell_congr same).trans shown
        obtain ⟨state, moves, ends⟩ :=
          rounds.swap later list result changed later_valid still shown_later done
        refine ⟨state, ?_⟩
        rw [Stage.act_swap _ _ _ _ _ same]
        exact ⟨moves, fun _ more => (rounds.succeeds_stable result).rely more ends⟩
      · have written := (rounds.reads_stable list).of_get?_ne rounds.touched_stable
          (rounds.touches list) since holds same
        refine ⟨later.state, ?_⟩
        rw [Stage.act_swap_of_ne _ _ _ _ _ same]
        have retried : protocol.Tries around me (fun state => known state ∧ touched state)
            (Attempt.note .retrying >>= fun _ => Trays.changeWithin budget key change left)
            succeeds fails :=
          (tries_note (rounds.known_stable.and rounds.touched_stable) _).bind rounds.fails_stable
            fun _ => more
        exact ⟨moves_self later_valid,
          retried _ later_valid ⟨rounds.again list _ still written, written⟩⟩

/-- A round begins with what is known, and if it is made in vain, somebody else has written the
tray. -/
theorem tries_round
    (rounds : protocol.Rounds me key change known reads touched succeeds fails)
    (more : protocol.Tries around me (fun state => known state ∧ touched state)
      (Trays.changeWithin budget key change left) succeeds fails) :
    protocol.Tries around me known (Trays.changeWithin budget key change (left + 1)) succeeds
      fails := by
  unfold Tries
  rw [Trays.run_changeWithin_succ]
  refine leads_act rounds.known_stable fun stage clock valid holds => ?_
  obtain ⟨list, state, shown, moves, holds⟩ := rounds.read stage valid holds
  refine ⟨state, moves, ?_⟩
  rw [Stage.act_get]
  generalize after_eq : stage.afterRead me state key = after at moves
  have seen_shown : after.store.cell key = .entries list := by
    rw [← after_eq]
    exact shown
  have seen_holds : reads list after.state := by
    rw [← after_eq]
    exact holds
  have store_eq : stage.store = after.store := by
    rw [← after_eq]
    rfl
  have finishes {later : Stage ι γ} (rely : protocol.Rely me after later) :=
    rounds.abides_finishRound more seen_shown seen_holds moves.valid rely
  rw [store_eq]
  rcases Trays.afterGet_of_cell left seen_shown with same | same
  · rw [same]
    exact finishes .refl
  · rw [same]
    intro later rely clock
    refine ⟨later.state, ?_⟩
    rw [Stage.act_note]
    exact ⟨moves_self (rely.valid moves.valid), finishes rely⟩

/-- A change of a tray leads to what is known at its end. -/
theorem tries_changeWithin
    (rounds : protocol.Rounds me key change known reads touched succeeds fails) (left : Nat) :
    protocol.Tries around me known (Trays.changeWithin budget key change (left + 1)) succeeds
      fails := by
  refine rounds.tries_round ?_
  induction left with
  | zero =>
      have stable := rounds.known_stable.and rounds.touched_stable
      refine (tries_note stable .gaveUp).bind rounds.fails_stable fun _ => ?_
      exact tries_throw (rounds.fails_stable _) fun state holds =>
        rounds.contended budget state holds.1 holds.2
  | succ left induction => exact (rounds.tries_round induction).weaken fun _ holds => holds.1

theorem tries_alter {user : UserId} {tray : Tray}
    (rounds : protocol.Rounds me (Key.tray user tray) change known reads touched succeeds fails) :
    protocol.Tries around me known (Trays.alter budget user tray change) succeeds fails := by
  obtain ⟨left, some_round⟩ := Trays.exists_rounds budget
  rw [Trays.alter]
  nth_rewrite 2 [some_round]
  exact rounds.tries_changeWithin left

end Rounds
end
end Protocol
end Handoff
