import Handoff.Proofs.Race.Basic
import Mathlib.Logic.Relation

/-!
# Protocols of races

A protocol says in which states a race can be, and by which steps each player may lead from one
state to another.  A player relies on the others to make their steps only, and keeps to its own.  If
every player does, then whatever the schedule, each program ends as it does on this condition.
-/

namespace Handoff

/-- How far a race is. -/
structure Stage (ι γ : Type) where
  store : Store
  /-- How many record names have been given out. -/
  issued : Nat
  /-- Who has read or swapped what, in order. -/
  accesses : List (ι × Access)
  /-- The state that the players are in. -/
  state : γ

/-- The stage after an action of a player, with a state of the player's choice. -/
def Stage.act {ι γ : Type} (around : Surroundings) (player : ι) (action : Action) (clock : Instant)
    (stage : Stage ι γ) (state : γ) : action.Answer × Stage ι γ :=
  let (answer, world) := World.answer around action ⟨stage.store, clock, stage.issued⟩
  (answer, ⟨world.store, world.issued,
    stage.accesses ++ (action.access? answer).toList.map (player, ·), state⟩)

/-- The states of a race and the steps of its players. -/
structure Protocol (ι γ : Type) where
  /-- What a state says of the store and of the accesses. -/
  Valid : Stage ι γ → Prop
  /-- By which steps a player may lead from one state to another, and under which key it may write
  with the step. -/
  Step : ι → Option String → γ → γ → Prop

namespace Protocol

variable {ι γ α β : Type} {protocol : Protocol ι γ} {around : Surroundings} {me : ι}

/-- A player moves by making a step, or leaves the state and the store as they are. -/
structure Moves (protocol : Protocol ι γ) (player : ι) (before after : Stage ι γ) : Prop where
  valid : protocol.Valid after
  step : (after.state = before.state ∧ after.store = before.store) ∨
    ∃ key, protocol.Step player key before.state after.state ∧
      ∀ other, key ≠ some other → after.store.get? other = before.store.get? other

/-- What a player relies on: the others move. -/
def Rely (protocol : Protocol ι γ) (me : ι) : Stage ι γ → Stage ι γ → Prop :=
  Relation.ReflTransGen fun before after => ∃ other, other ≠ me ∧ protocol.Moves other before after

/-- What is known of a state stays known when others make steps. -/
def Stable (protocol : Protocol ι γ) (me : ι) (known : γ → Prop) : Prop :=
  ∀ other, other ≠ me → ∀ key before after, protocol.Step other key before after →
    known before → known after

theorem Rely.valid {before after : Stage ι γ} (rely : protocol.Rely me before after)
    (valid : protocol.Valid before) : protocol.Valid after := by
  induction rely with
  | refl => exact valid
  | tail _ last _ =>
      obtain ⟨_, _, moves⟩ := last
      exact moves.valid

theorem stable_const (fact : Prop) : protocol.Stable me fun _ => fact :=
  fun _ _ _ _ _ _ => id

theorem Stable.moves {known : γ → Prop} (stable : protocol.Stable me known) {other : ι}
    (differs : other ≠ me) {before after : Stage ι γ} (moves : protocol.Moves other before after)
    (holds : known before.state) : known after.state := by
  rcases moves.step with ⟨same, _⟩ | ⟨key, step, _⟩
  · rwa [same]
  · exact stable other differs key _ _ step holds

theorem Stable.rely {known : γ → Prop} (stable : protocol.Stable me known)
    {before after : Stage ι γ} (rely : protocol.Rely me before after)
    (holds : known before.state) : known after.state := by
  induction rely with
  | refl => exact holds
  | tail _ last induction =>
      obtain ⟨other, differs, moves⟩ := last
      exact stable.moves differs moves induction

theorem Stable.and {known more : γ → Prop} (left : protocol.Stable me known)
    (right : protocol.Stable me more) : protocol.Stable me fun state => known state ∧ more state :=
  fun other differs key before after step holds =>
    ⟨left other differs key before after step holds.1,
      right other differs key before after step holds.2⟩

theorem Stable.or {known more : γ → Prop} (left : protocol.Stable me known)
    (right : protocol.Stable me more) : protocol.Stable me fun state => known state ∨ more state :=
  fun other differs key before after step holds =>
    holds.imp (left other differs key before after step)
      (right other differs key before after step)

theorem Stable.exists {κ : Type} {known : κ → γ → Prop}
    (each : ∀ i, protocol.Stable me (known i)) :
    protocol.Stable me fun state => ∃ i, known i state := by
  rintro other differs key before after step ⟨i, holds⟩
  exact ⟨i, each i other differs key before after step holds⟩

theorem Stable.of_fact {fact : Prop} {known : γ → Prop}
    (stable : fact → protocol.Stable me known) :
    protocol.Stable me fun state => fact → known state :=
  fun other differs key before after step holds fits =>
    stable fits other differs key before after step (holds fits)

/-- If the value of a key has changed, somebody else has made a step that may write it. -/
theorem Stable.of_get?_ne {known touched : γ → Prop} (stable : protocol.Stable me known)
    (touched_stable : protocol.Stable me touched) {key : String}
    (touches : ∀ other, other ≠ me → ∀ before after,
      protocol.Step other (some key) before after → known before → touched after)
    {before after : Stage ι γ} (rely : protocol.Rely me before after)
    (holds : known before.state) (changed : after.store.get? key ≠ before.store.get? key) :
    touched after.state := by
  induction rely with
  | refl => exact absurd rfl changed
  | @tail middle after earlier last induction =>
      obtain ⟨other, differs, moves⟩ := last
      by_cases same : middle.store.get? key = before.store.get? key
      · rcases moves.step with ⟨_, store_same⟩ | ⟨place, step, kept⟩
        · exact absurd (by rw [store_same, same]) changed
        · have here : place = some key := by
            by_contra elsewhere
            exact changed ((kept key elsewhere).trans same)
          subst here
          exact touches other differs _ _ step (stable.rely earlier holds)
      · exact touched_stable.moves differs moves (induction same)

/-- From a stage on, a player keeps to its steps as long as the others do, and if its program ends,
it does so as described, whatever the others do later. -/
def Abides (protocol : Protocol ι γ) (around : Surroundings) (me : ι) (ends : α → γ → Prop) :
    Program α → Stage ι γ → Prop
  | .done result, stage => ∀ later, protocol.Rely me stage later → ends result later.state
  | .act action next, stage => ∀ later, protocol.Rely me stage later → ∀ clock, ∃ state,
    let acted := later.act around me action clock state
    protocol.Moves me later acted.2 ∧ protocol.Abides around me ends (next acted.1) acted.2

theorem Abides.rely {ends : α → γ → Prop} {p : Program α} {stage later : Stage ι γ}
    (abides : protocol.Abides around me ends p stage) (rely : protocol.Rely me stage later) :
    protocol.Abides around me ends p later := by
  cases p with
  | done result => exact fun last more => abides last (rely.trans more)
  | act action next => exact fun last more => abides last (rely.trans more)

/-- If something is known of the state, a program leads to what is known of its result and the state
then. -/
def Leads (protocol : Protocol ι γ) (around : Surroundings) (me : ι) (known : γ → Prop)
    (p : Program α) (ends : α → γ → Prop) : Prop :=
  ∀ stage, protocol.Valid stage → known stage.state → protocol.Abides around me ends p stage

variable {known : γ → Prop} {ends : α → γ → Prop}

theorem leads_pure {a : α} (stable : protocol.Stable me (ends a))
    (holds : ∀ state, known state → ends a state) :
    protocol.Leads around me known (pure a) ends :=
  fun _ _ start _ rely => stable.rely rely (holds _ start)

theorem leads_act {action : Action} {next : action.Answer → Program α}
    (stable : protocol.Stable me known)
    (acts : ∀ stage clock, protocol.Valid stage → known stage.state → ∃ state,
      let acted := stage.act around me action clock state
      protocol.Moves me stage acted.2 ∧ protocol.Abides around me ends (next acted.1) acted.2) :
    protocol.Leads around me known (.act action next) ends :=
  fun _ valid start later rely clock =>
    acts later clock (rely.valid valid) (stable.rely rely start)

theorem Abides.bind {ends : β → γ → Prop} {middle : α → γ → Prop} {p : Program α}
    {f : α → Program β} {stage : Stage ι γ} (first : protocol.Abides around me middle p stage)
    (valid : protocol.Valid stage)
    (second : ∀ a, protocol.Leads around me (middle a) (f a) ends) :
    protocol.Abides around me ends (p >>= f) stage := by
  induction p generalizing stage with
  | done result => exact second result stage valid (first stage .refl)
  | act action next induction =>
      intro later rely clock
      obtain ⟨state, moves, goes⟩ := first later rely clock
      exact ⟨state, moves, induction _ goes moves.valid⟩

theorem Leads.bind {ends : β → γ → Prop} {middle : α → γ → Prop} {p : Program α}
    {f : α → Program β} (first : protocol.Leads around me known p middle)
    (second : ∀ a, protocol.Leads around me (middle a) (f a) ends) :
    protocol.Leads around me known (p >>= f) ends :=
  fun stage valid start => (first stage valid start).bind valid second

theorem Abides.mono {weaker : α → γ → Prop} {p : Program α} {stage : Stage ι γ}
    (abides : protocol.Abides around me ends p stage)
    (implies : ∀ a state, ends a state → weaker a state) :
    protocol.Abides around me weaker p stage := by
  induction p generalizing stage with
  | done result => exact fun later rely => implies _ _ (abides later rely)
  | act action next induction =>
      intro later rely clock
      obtain ⟨state, moves, goes⟩ := abides later rely clock
      exact ⟨state, moves, induction _ goes⟩

theorem Leads.mono {weaker : α → γ → Prop} {p : Program α}
    (leads : protocol.Leads around me known p ends)
    (implies : ∀ a state, ends a state → weaker a state) :
    protocol.Leads around me known p weaker :=
  fun stage valid start => (leads stage valid start).mono implies

theorem Leads.or {more : γ → Prop} {p : Program α}
    (left : protocol.Leads around me known p ends) (right : protocol.Leads around me more p ends) :
    protocol.Leads around me (fun state => known state ∨ more state) p ends :=
  fun stage valid start => start.elim (left stage valid) (right stage valid)

theorem leads_of_exists {κ : Type} {known : κ → γ → Prop} {p : Program α}
    (each : ∀ i, protocol.Leads around me (known i) p ends) :
    protocol.Leads around me (fun state => ∃ i, known i state) p ends := by
  rintro stage valid ⟨i, start⟩
  exact each i stage valid start

theorem leads_of_fact {fact : Prop} {p : Program α}
    (leads : fact → protocol.Leads around me known p ends) :
    protocol.Leads around me (fun state => fact ∧ known state) p ends :=
  fun stage valid start => leads start.1 stage valid start.2

theorem Leads.weaken {more : γ → Prop} {p : Program α}
    (leads : protocol.Leads around me known p ends) (implies : ∀ state, more state → known state) :
    protocol.Leads around me more p ends :=
  fun stage valid start => leads stage valid (implies _ start)

end Protocol

/-! ## The race as a whole -/

namespace Race

variable {ι γ α : Type} [DecidableEq ι] {protocol : Protocol ι γ} {around : Surroundings}
  {ends : ι → α → γ → Prop}

/-- A race with the state that its players are in. -/
def stage (race : Race ι α) (state : γ) : Stage ι γ :=
  ⟨race.world.store, race.world.issued, race.accesses, state⟩

/-- The players keep to a protocol. -/
def Follows (protocol : Protocol ι γ) (around : Surroundings) (ends : ι → α → γ → Prop)
    (race : Race ι α) (state : γ) : Prop :=
  protocol.Valid (race.stage state) ∧
    ∀ player, protocol.Abides around player (ends player) (race.programs player) (race.stage state)

theorem move_eq {race : Race ι α} {player : ι} {action : Action}
    {next : action.Answer → Program α} (program : race.programs player = .act action next)
    (clock : Instant) (state after : γ) :
    let acted := (race.stage state).act around player action clock after
    (race.move around (clock, player)).stage after = acted.2 ∧
      (race.move around (clock, player)).programs =
        Function.update race.programs player (next acted.1) := by
  simp only [Race.move, program]
  exact ⟨rfl, rfl⟩

/-- The players keep to the protocol when one of them moves. -/
theorem Follows.move {race : Race ι α} {state : γ}
    (follows : race.Follows protocol around ends state) (turn : Instant × ι) :
    ∃ after, (race.move around turn).Follows protocol around ends after := by
  obtain ⟨clock, player⟩ := turn
  cases program : race.programs player with
  | done result => exact ⟨state, by simpa only [Race.move, program] using follows⟩
  | act action next =>
      have abides := follows.2 player
      rw [program] at abides
      obtain ⟨after, moves, goes⟩ := abides _ .refl clock
      obtain ⟨stage_eq, programs_eq⟩ := move_eq program clock state after
      refine ⟨after, stage_eq ▸ moves.valid, fun other => ?_⟩
      rw [stage_eq, programs_eq]
      by_cases same : other = player
      · subst same
        rw [Function.update_self]
        exact goes
      · rw [Function.update_of_ne same]
        exact (follows.2 other).rely (.single ⟨player, Ne.symm same, moves⟩)

/-- The players keep to the protocol all the time. -/
theorem Follows.run {race : Race ι α} {state : γ}
    (follows : race.Follows protocol around ends state) (schedule : List (Instant × ι)) :
    ∃ after, (race.run around schedule).Follows protocol around ends after := by
  induction schedule generalizing race state with
  | nil => exact ⟨state, follows⟩
  | cons turn schedule induction =>
      obtain ⟨after, later⟩ := follows.move turn
      exact induction later

omit [DecidableEq ι] in
/-- Programs that have ended have ended as described. -/
theorem Follows.ended {race : Race ι α} {state : γ}
    (follows : race.Follows protocol around ends state) {player : ι} {result : α}
    (ended : race.result? player = some result) : ends player result state := by
  have abides := follows.2 player
  cases program : race.programs player with
  | done a =>
      rw [result?, program] at ended
      cases ended
      rw [program] at abides
      exact abides _ .refl
  | act action next =>
      rw [result?, program] at ended
      cases ended

end Race
end Handoff
