import Handoff.Proofs.Program.Conditions
import Handoff.Proofs.Race.Basic
import Handoff.Proofs.Stored.Contract
import Handoff.Workflow.Finish

/-!
# Races of writers without conditions

A program that writes without conditions may make the same writes in the same order whatever it
reads, as long as what it reads is possible.  If all players of a race are like this, every key has
the value that its last writer has planned for it.
-/

namespace Handoff

/-- The key that a program is about to write, if it is. -/
def Program.writing? {α : Type} : Program α → Option String
  | .act (.call request) _ => if request.isWrite then some request.key else none
  | .act .. | .done _ => none

/-- Who is the last to write a key, if anybody is. -/
def Race.lastWriter? {ι α : Type} [DecidableEq ι] (around : Surroundings) (key : String) :
    List (Instant × ι) → Race ι α → Option ι
  | [], _ => none
  | turn :: schedule, race =>
    (lastWriter? around key schedule (race.move around turn)).or
      (if (race.programs turn.2).writing? = some key then some turn.2 else none)

variable {α β : Type} {possible : String → Option Bytes → Prop}

namespace Program

/-- As long as the values that it reads are possible, a program makes just the planned writes, and
its result is as described. -/
def Plans (possible : String → Option Bytes → Prop) (ends : α → Prop) :
    Program α → List (String × Bytes) → Prop
  | .done result, plan => plan = [] ∧ ends result
  | .act (.call (.get key)) next, plan =>
    ∀ value, possible key value → (next (.ok value)).Plans possible ends plan
  | .act (.call (.set key value)) next, plan =>
    ∃ rest, plan = (key, value) :: rest ∧ (next (.ok ())).Plans possible ends rest
  | .act (.note _) next, plan => (next ()).Plans possible ends plan
  | .act _ _, _ => False

theorem plans_pure {ends : α → Prop} {a : α} (fits : ends a) :
    (pure a : Program α).Plans possible ends [] :=
  ⟨rfl, fits⟩

theorem Plans.bind {middle : α → Prop} {ends : β → Prop} {p : Program α} {f : α → Program β}
    {plan rest : List (String × Bytes)} (first : p.Plans possible middle plan)
    (second : ∀ a, middle a → (f a).Plans possible ends rest) :
    (p >>= f).Plans possible ends (plan ++ rest) := by
  induction p generalizing plan with
  | done result =>
      obtain ⟨rfl, fits⟩ := first
      exact second result fits
  | act action next induction =>
      cases action with
      | newTaskId | now | nameOf => exact first.elim
      | note event => exact induction () first
      | call request =>
          cases request with
          | compareAndSet | delete => exact first.elim
          | get key => exact fun value seen => induction _ (first value seen)
          | set key value =>
              obtain ⟨later, rfl, goes⟩ := first
              exact ⟨later ++ rest, rfl, induction _ goes⟩

theorem Plans.ended {ends : α → Prop} {p : Program α} {plan : List (String × Bytes)} {result : α}
    (plans : p.Plans possible ends plan) (ended : p.result? = some result) :
    plan = [] ∧ ends result := by
  cases p with
  | done other =>
      cases ended
      exact plans
  | act action next => cases ended

end Program

namespace Attempt

/-- As long as the values that it reads are possible, an attempt makes just the planned writes and
succeeds, and its result is as described. -/
def Plans (possible : String → Option Bytes → Prop) (ends : α → Prop) (attempt : Attempt α)
    (plan : List (String × Bytes)) : Prop :=
  Program.Plans possible (fun result => ∃ a, result = .ok a ∧ ends a) attempt.run plan

theorem plans_pure {ends : α → Prop} {a : α} (fits : ends a) :
    Plans possible ends (pure a) [] :=
  Program.plans_pure ⟨a, rfl, fits⟩

theorem Plans.bind {middle : α → Prop} {ends : β → Prop} {first : Attempt α}
    {next : α → Attempt β} {plan rest : List (String × Bytes)}
    (begins : Plans possible middle first plan)
    (goes : ∀ a, middle a → Plans possible ends (next a) rest) :
    Plans possible ends (first >>= next) (plan ++ rest) := by
  refine Program.Plans.bind begins fun result fits => ?_
  obtain ⟨a, rfl, fits⟩ := fits
  exact goes a fits

theorem Plans.bind_nil {middle : α → Prop} {ends : β → Prop} {first : Attempt α}
    {next : α → Attempt β} {plan : List (String × Bytes)}
    (begins : Plans possible middle first [])
    (goes : ∀ a, middle a → Plans possible ends (next a) plan) :
    Plans possible ends (first >>= next) plan :=
  begins.bind goes

theorem plans_lift {ends : α → Prop} {p : Program α} {plan : List (String × Bytes)}
    (plans : p.Plans possible ends plan) : Plans possible ends (ExceptT.lift p) plan := by
  have ended := Program.Plans.bind plans fun a fits => Attempt.plans_pure fits
  rwa [List.append_nil] at ended

theorem plans_note (event : Event) : Plans possible (fun _ => True) (note event) [] :=
  plans_lift ⟨rfl, trivial⟩

theorem plans_get (key : String) : Plans possible (possible key) (get key) [] :=
  fun value seen => ⟨rfl, value, rfl, seen⟩

theorem plans_set (key : String) (value : Bytes) :
    Plans possible (fun _ => True) (set key value) [(key, value)] :=
  ⟨[], rfl, rfl, (), rfl, trivial⟩

end Attempt

open Attempt (Plans plans_pure plans_note plans_get plans_set)

/-! ## Reading trays and records -/

namespace Trays

variable {user : UserId} {task : TaskId}

theorem plans_load {key : String} {list : List Entry}
    (shows : ∀ value, possible key value → Shows value list) :
    Plans possible (fun read => read.1 = list) (load key) [] := by
  refine (plans_get key).bind_nil fun value seen => ?_
  rcases shows value seen with ⟨rfl, rfl⟩ | ⟨bytes, form, rfl, decoded⟩
  · exact plans_pure rfl
  · simp only [decoded]
    split
    · exact (plans_note _).bind_nil fun _ _ => plans_pure rfl
    · exact plans_pure rfl

theorem plans_find? {tray : Tray} {list : List Entry}
    (shows : ∀ value, possible (Key.tray user tray) value → Shows value list) :
    Plans possible (fun found => found = EntryList.locate? task list)
      (find? user tray task) [] := by
  have reading : Plans possible (fun entries => entries = list) (entries user tray) [] :=
    (plans_load shows).bind_nil fun _ same => plans_pure same
  exact reading.bind_nil fun _ same => plans_pure (congrArg (EntryList.locate? task) same)

theorem plans_locateIn {lists : Tray → List Entry} {trays : List Tray}
    (shows : ∀ tray ∈ trays, ∀ value, possible (Key.tray user tray) value →
      Shows value (lists tray))
    (listed : ∃ tray ∈ trays, EntryList.find? task (lists tray) ≠ none) :
    Plans possible
      (fun found => ∃ located, found = some located ∧
        EntryList.find? task (lists located.tray) = some located.entry)
      (locateIn user task trays) [] := by
  induction trays with
  | nil => simp at listed
  | cons first rest induction =>
      refine (plans_find? (shows first List.mem_cons_self)).bind_nil fun found same => ?_
      subst same
      unfold EntryList.locate?
      cases found : EntryList.find? task (lists first) with
      | some entry => exact plans_pure ⟨_, rfl, found⟩
      | none =>
          refine induction (fun tray mem => shows tray (List.mem_cons_of_mem _ mem)) ?_
          simpa [found] using listed

end Trays

/-- An entry for a task is located if the user's trays can be read and one of them has one. -/
theorem Workflow.plans_locate {user : UserId} {task : TaskId} {lists : Tray → List Entry}
    (shows : ∀ tray value, possible (Key.tray user tray) value → Trays.Shows value (lists tray))
    {tray : Tray} (listed : EntryList.find? task (lists tray) ≠ none) :
    Plans possible
      (fun located => EntryList.find? task (lists located.tray) = some located.entry)
      (locate user task) [] := by
  have every : tray ∈ Tray.all := by
    cases tray <;> decide
  refine (Trays.plans_locateIn (fun place _ => shows place) ⟨tray, every, listed⟩).bind_nil
    fun found known => ?_
  obtain ⟨located, rfl, first⟩ := known
  exact plans_pure first

namespace Records

theorem plans_load {task : TaskId} {ends : Task → Prop}
    (shows : ∀ value, possible (Key.record task) value →
      ∃ bytes content, value = some bytes ∧ Task.decode bytes = .ok content ∧ ends content) :
    Plans possible ends (load task) [] := by
  refine (plans_get _).bind_nil fun value seen => ?_
  obtain ⟨bytes, content, rfl, decoded, fits⟩ := shows value seen
  simp only [decoded]
  exact plans_pure fits

theorem plans_save (content : Task) :
    Plans possible (fun _ => True) (save content) [(Key.record content.id, content.encode)] :=
  plans_set _ _

end Records

/-! ## Runs -/

namespace Race

variable {ι : Type} {ends : α → Prop} {plans : ι → List (String × Bytes)}
  {race : Race ι α}

/-- What is stored is possible, and of what each player has still to do the writes are planned. -/
structure Planned (possible : String → Option Bytes → Prop) (ends : α → Prop)
    (plans : ι → List (String × Bytes)) (race : Race ι α) : Prop where
  store : ∀ key, possible key (race.world.store.get? key)
  programs : ∀ player, (race.programs player).Plans possible ends (plans player)

variable [DecidableEq ι]

/-- A player goes on as planned, and so do the others. -/
theorem Planned.update (planned : race.Planned possible ends plans) {world : World}
    (player : ι) (store : ∀ key, possible key (world.store.get? key)) {p : Program α}
    {rest : List (String × Bytes)} (own : p.Plans possible ends rest)
    (accesses : List (ι × Access)) :
    Planned possible ends (Function.update plans player rest)
      ⟨world, Function.update race.programs player p, accesses⟩ := by
  refine ⟨store, fun other => ?_⟩
  by_cases here : other = player
  · subst here
    simpa using own
  · simpa [here] using planned.programs other

theorem Planned.update_self (planned : race.Planned possible ends plans) {world : World}
    (player : ι) (store : ∀ key, possible key (world.store.get? key)) {p : Program α}
    (own : p.Plans possible ends (plans player)) (accesses : List (ι × Access)) :
    Planned possible ends plans ⟨world, Function.update race.programs player p, accesses⟩ := by
  have next := planned.update player store own accesses
  rwa [Function.update_eq_self] at next

variable (around : Surroundings)

/-- A player that moves writes nothing, or makes the first write of its plan. -/
theorem Planned.move (planned : race.Planned possible ends plans)
    (allowed : ∀ player, ∀ write ∈ plans player, possible write.1 (some write.2))
    (turn : Instant × ι) :
    ((race.programs turn.2).writing? = none ∧
        (race.move around turn).world.store = race.world.store ∧
        (race.move around turn).Planned possible ends plans) ∨
      ∃ key value rest, plans turn.2 = (key, value) :: rest ∧
        (race.programs turn.2).writing? = some key ∧
        (race.move around turn).world.store = race.world.store.insert key value ∧
        (race.move around turn).Planned possible ends (Function.update plans turn.2 rest) := by
  have own := planned.programs turn.2
  unfold Race.move
  cases going : race.programs turn.2 with
  | done result => exact .inl ⟨rfl, rfl, planned⟩
  | act action next =>
      rw [going] at own
      cases action with
      | newTaskId | now | nameOf => exact own.elim
      | note event =>
          have goes : (next ()).Plans possible ends (plans turn.2) := own
          refine .inl ⟨rfl, rfl, planned.update_self turn.2 ?_ goes _⟩
          exact planned.store
      | call request =>
          cases request with
          | compareAndSet | delete => exact own.elim
          | get key =>
              refine .inl ⟨rfl, rfl, planned.update_self turn.2 ?_ (own _ (planned.store key)) _⟩
              exact planned.store
          | set key value =>
              obtain ⟨rest, begins, goes⟩ := own
              refine .inr ⟨key, value, rest, begins, rfl, rfl, planned.update turn.2 ?_ goes _⟩
              intro other
              change possible other ((race.world.store.insert key value).get? other)
              rw [Store.get?_insert]
              split
              · rename_i here
                rw [here]
                exact allowed turn.2 (key, value) (begins ▸ List.mem_cons_self)
              · exact planned.store other

/-- Once a player has written a key, it is the last one to do so if nobody does later. -/
theorem lastWriter?_cons_of_writing {turn : Instant × ι} {key : String}
    (writes : (race.programs turn.2).writing? = some key) (schedule : List (Instant × ι))
    (other : String) :
    lastWriter? around other (turn :: schedule) race =
      (lastWriter? around other schedule (race.move around turn)).or
        (if key = other then some turn.2 else none) := by
  simp [lastWriter?, writes]

/-- What a race has done from one stage on: what is not left of a plan has been written, and each
key has the value that its last writer has planned, or is as before if nobody has written it. -/
structure Written (around : Surroundings) (plans left : ι → List (String × Bytes))
    (schedule : List (Instant × ι)) (race : Race ι α) : Prop where
  written : ∀ player, ∀ write ∈ plans player,
    write ∈ left player ∨ lastWriter? around write.1 schedule race ≠ none
  kept : ∀ key, lastWriter? around key schedule race = none →
    (race.run around schedule).world.store.get? key = race.world.store.get? key
  stored : ∀ key player, lastWriter? around key schedule race = some player →
    ∃ value, (key, value) ∈ plans player ∧
      (race.run around schedule).world.store.get? key = some value

variable {around}

/-- The first write of a plan comes before what is written later. -/
theorem Written.cons {left : ι → List (String × Bytes)} {schedule : List (Instant × ι)}
    {turn : Instant × ι} {key : String} {value : Bytes} {rest : List (String × Bytes)}
    (begins : plans turn.2 = (key, value) :: rest)
    (writes : (race.programs turn.2).writing? = some key)
    (inserted : (race.move around turn).world.store = race.world.store.insert key value)
    (later : Written around (Function.update plans turn.2 rest) left schedule
      (race.move around turn)) :
    Written around plans left (turn :: schedule) race := by
  have last := lastWriter?_cons_of_writing around writes schedule
  have mem_iff (player : ι) (write : String × Bytes) : write ∈ plans player ↔
      player = turn.2 ∧ write = (key, value) ∨
        write ∈ Function.update plans turn.2 rest player := by
    by_cases here : player = turn.2
    · subst here
      simp [begins]
    · simp [here]
  refine ⟨fun player write mem => ?_, fun other nobody => ?_, fun other player is_last => ?_⟩
  · rw [last, ne_eq, Option.or_eq_none_iff, not_and_or]
    rcases (mem_iff player write).mp mem with ⟨_, rfl⟩ | mem
    · exact .inr (.inr (by simp))
    · exact (later.written player write mem).imp_right .inl
  · rw [last, Option.or_eq_none_iff] at nobody
    have apart : other ≠ key := fun same => by simp [same] at nobody
    exact (later.kept other nobody.1).trans
      (by rw [inserted, Store.get?_insert_of_ne _ _ apart])
  · rw [last] at is_last
    cases tail : lastWriter? around other schedule (race.move around turn) with
    | some following =>
        rw [tail] at is_last
        cases is_last
        obtain ⟨value, mem, found⟩ := later.stored other player tail
        exact ⟨value, (mem_iff player _).mpr (.inr mem), found⟩
    | none =>
        rw [tail, Option.none_or] at is_last
        split at is_last
        · rename_i here
          subst here
          cases is_last
          refine ⟨value, (mem_iff _ _).mpr (.inl ⟨rfl, rfl⟩), ?_⟩
          exact (later.kept key tail).trans (by rw [inserted, Store.get?_insert_self])
        · cases is_last

theorem Planned.run (planned : race.Planned possible ends plans)
    (allowed : ∀ player, ∀ write ∈ plans player, possible write.1 (some write.2))
    (schedule : List (Instant × ι)) :
    ∃ left, (race.run around schedule).Planned possible ends left ∧
      Written around plans left schedule race := by
  induction schedule generalizing race plans with
  | nil =>
      exact ⟨plans, planned, fun _ _ => .inl, fun _ _ => rfl, fun _ _ nobody => by cases nobody⟩
  | cons turn schedule induction =>
      rcases planned.move around allowed turn with
        ⟨silent, same, next⟩ | ⟨key, value, rest, begins, writes, inserted, next⟩
      · obtain ⟨left, ended, later⟩ := induction next allowed
        have last (key : String) : lastWriter? around key (turn :: schedule) race =
            lastWriter? around key schedule (race.move around turn) := by
          simp [lastWriter?, silent]
        refine ⟨left, ended, fun player write mem => ?_, fun key nobody => ?_,
          fun key player is_last => ?_⟩
        · exact last write.1 ▸ later.written player write mem
        · exact (later.kept key (last key ▸ nobody)).trans (by rw [same])
        · exact later.stored key player (last key ▸ is_last)
      · have fewer (player : ι) : ∀ write ∈ Function.update plans turn.2 rest player,
            possible write.1 (some write.2) := by
          intro write mem
          by_cases here : player = turn.2
          · subst here
            rw [Function.update_self] at mem
            exact allowed _ write (begins ▸ List.mem_cons_of_mem _ mem)
          · rw [Function.update_of_ne here] at mem
            exact allowed player write mem
        obtain ⟨left, ended, later⟩ := induction next fewer
        exact ⟨left, ended, later.cons begins writes inserted⟩

end Race
end Handoff
