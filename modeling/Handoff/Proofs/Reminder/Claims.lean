import Handoff.Proofs.Program.Contract
import Handoff.Proofs.Program.Conditions
import Handoff.Proofs.Race.Basic
import Handoff.Proofs.Reminder.Record
import Handoff.Reminder.Basic

/-!
# Reminders are claimed once a day

Several callers claim the reminders of one user, each at a moment of its own, and the actions of
their claims are interleaved in any way.  The claims that are got are an hour apart at least and on
different days, in the order in which they have replaced the stored moment.
-/

namespace Handoff

open Reminder (encode parseOptional)

namespace Calendar

/-- Two moments of one day have no moment of another day between them. -/
theorem dayOf_eq_of_between {offset : Int} {first middle last : Instant}
    (after : first.millis.toNat ≤ middle.millis.toNat)
    (before : middle.millis.toNat ≤ last.millis.toNat)
    (same : dayOf offset first = dayOf offset last) :
    dayOf offset middle = dayOf offset first := by
  have whole : (0 : Int) ≤ day := by decide
  simp only [dayOf, Int.fdiv_eq_ediv_of_nonneg _ whole] at same ⊢
  simp only [day] at same ⊢
  split at same <;> split at same <;> simp only [Option.some.injEq, reduceCtorEq] at same
  · rw [if_pos (by omega), if_pos (by omega)]
    congr 1
    omega
  · rw [if_neg (by omega), if_neg (by omega)]

end Calendar

namespace Reminder

/-- One reminder may come after another one: it is an hour later at least, and on another day. -/
def Follows (offset : Int) (earlier later : Instant) : Prop :=
  earlier.millis.toNat + Calendar.hour ≤ later.millis.toNat ∧
    Calendar.dayOf offset earlier ≠ Calendar.dayOf offset later

theorem isDue_some_iff {now last : Instant} {offset : Int} :
    isDue now (some last) offset = true ↔ Follows offset last now := by
  rw [isDue, Bool.and_eq_true, decide_eq_true_iff, bne_iff_ne, Follows, Calendar.hour]
  constructor
  · rintro ⟨later, differs⟩
    exact ⟨by omega, Ne.symm differs⟩
  · rintro ⟨later, differs⟩
    exact ⟨by omega, Ne.symm differs⟩

/-- Days go forward, so moments that follow one another are on different days even if others are
between them. -/
theorem Follows.trans {offset : Int} {first middle last : Instant}
    (early : Follows offset first middle) (late : Follows offset middle last) :
    Follows offset first last := by
  obtain ⟨early_gap, early_day⟩ := early
  obtain ⟨late_gap, late_day⟩ := late
  constructor
  · omega
  · intro same
    have within : Calendar.dayOf offset middle = Calendar.dayOf offset first :=
      Calendar.dayOf_eq_of_between (by omega) (by omega) same
    exact early_day within.symm

/-- A moment that follows the last of several ones follows all of them. -/
theorem pairwise_concat {offset : Int} {moments : List Instant} {now : Instant}
    (ordered : moments.Pairwise (Follows offset))
    (due : isDue now moments.getLast? offset = true) :
    (moments ++ [now]).Pairwise (Follows offset) := by
  rw [List.pairwise_append]
  refine ⟨ordered, List.pairwise_singleton _ now, fun earlier mem later new => ?_⟩
  obtain rfl := List.mem_singleton.mp new
  rcases List.eq_nil_or_concat moments with rfl | ⟨rest, last, rfl⟩
  · cases mem
  · rw [List.concat_eq_append] at mem ordered due
    rw [List.getLast?_concat, isDue_some_iff] at due
    rcases List.mem_append.mp mem with old | latest
    · exact ((List.pairwise_append.mp ordered).2.2 earlier old last (by simp)).trans due
    · obtain rfl := List.mem_singleton.mp latest
      exact due

@[simp]
theorem parseOptional_encode (key : String) (moment : Instant) :
    parseOptional key (some (encode moment)) = .ok (some moment) := by
  simp [parseOptional, parse, decode?_encode, Except.map]

end Reminder

/-- Nothing is written under a key. -/
def Contract.sparing (key : String) : Contract where
  allows call := call.isWrite = true → call.key ≠ key
  promises _ _ := True

theorem World.answer_of_sparing {key : String} (around : Surroundings) {action : Action}
    (permitted : (Contract.sparing key).Permits action) (world : World) :
    (World.answer around action world).2.store.get? key = world.store.get? key ∧
      action.access? (World.answer around action world).1 ≠ some (.swap key) := by
  cases action with
  | newTaskId | now | nameOf | note => exact ⟨rfl, by simp [Action.access?]⟩
  | call request =>
      cases request with
      | get => exact ⟨rfl, by simp [Action.access?]⟩
      | set other value =>
          have differs : other ≠ key := permitted rfl
          exact ⟨Store.get?_insert_of_ne _ value differs.symm, by simp [Action.access?]⟩
      | delete other =>
          have differs : other ≠ key := permitted rfl
          exact ⟨Store.get?_erase_of_ne _ differs.symm, by simp [Action.access?]⟩
      | compareAndSet other expected value =>
          have differs : other ≠ key := permitted rfl
          simp only [World.answer, Store.perform]
          split
          · exact ⟨Store.get?_insert_of_ne _ value differs.symm, by simp [Action.access?, differs]⟩
          · exact ⟨rfl, by simp [Action.access?]⟩

namespace Race

variable {ι α : Type}

/-- Who has swapped the value of a key, in order. -/
def swappers (race : Race ι α) (key : String) : List ι :=
  race.accesses.filterMap fun made => if made.2 = .swap key then some made.1 else none

variable [DecidableEq ι] {race : Race ι α} {player : ι} {action : Action}
  {next : action.Answer → Program α}

theorem swappers_move (program : race.programs player = .act action next)
    (around : Surroundings) (clock : Instant) (key : String) :
    (race.move around (clock, player)).swappers key = race.swappers key ++
      if action.access? (World.answer around action { race.world with clock }).1 =
        some (.swap key) then [player] else [] := by
  simp only [swappers, move, program, List.filterMap_append]
  congr 1
  rcases action.access? (World.answer around action { race.world with clock }).1 with _ | access
  · rfl
  · by_cases same : access = .swap key <;> simp [same]

end Race

namespace Reminder

variable {ι : Type} {user : UserId} {offset : Int} {moments : ι → Option Instant}
  {initial : Option Bytes} {last : Option Instant}

/-- Some players claim the reminder of a user, each at its moment, and the others do something
else. -/
def claims (user : UserId) (offset : Int) (moments : ι → Option Instant)
    (others : ι → Program (Except Failure Bool)) (player : ι) : Program (Except Failure Bool) :=
  match moments player with
  | some now => (claim user now offset).run
  | none => others player

/-- The moments for which reminders have been claimed, in order. -/
def claimed (user : UserId) (moments : ι → Option Instant) (race : Race ι (Except Failure Bool)) :
    List Instant :=
  (race.swappers (Key.reminder user)).filterMap moments

/-- How the claims in a race have gone that began with the given record, for the given last
reminder. -/
structure Spaced (user : UserId) (offset : Int) (moments : ι → Option Instant)
    (initial : Option Bytes) (last : Option Instant) (race : Race ι (Except Failure Bool)) :
    Prop where
  /-- The claims that have been got are those that have replaced the record. -/
  got_iff : ∀ player now, moments player = some now →
    (race.result? player = some (.ok true) ↔ player ∈ race.swappers (Key.reminder user))
  /-- Only claims replace the record. -/
  claimants : ∀ player ∈ race.swappers (Key.reminder user), (moments player).isSome
  /-- No claim replaces it twice. -/
  once : (race.swappers (Key.reminder user)).Nodup
  /-- The reminders are an hour apart at least, and on different days. -/
  apart : (last.toList ++ claimed user moments race).Pairwise (Follows offset)
  /-- The moment of the last reminder is stored. -/
  stored : race.world.store.get? (Key.reminder user) =
    ((claimed user moments race).getLast?.map encode).or initial

/-- What a move in a race of claims may do. -/
inductive Moved (user : UserId) (offset : Int) (moments : ι → Option Instant)
    (before after : Race ι (Except Failure Bool)) : Prop
  /-- The record stays, and no claim is got. -/
  | quiet
    (kept : after.world.store.get? (Key.reminder user) =
      before.world.store.get? (Key.reminder user))
    (same : after.swappers (Key.reminder user) = before.swappers (Key.reminder user))
    (results : ∀ player now, moments player = some now →
      (after.result? player = some (.ok true) ↔ before.result? player = some (.ok true)))
  /-- A claim that was due for the stored moment is got. -/
  | got (player : ι) (now : Instant) (last : Option Instant)
    (claims : moments player = some now)
    (waiting : before.result? player = none)
    (parsed : parseOptional (Key.reminder user)
      (before.world.store.get? (Key.reminder user)) = .ok last)
    (due : isDue now last offset = true)
    (replaced : after.world.store.get? (Key.reminder user) = some (encode now))
    (noted : after.swappers (Key.reminder user) =
      before.swappers (Key.reminder user) ++ [player])
    (results : ∀ other now, moments other = some now → (after.result? other = some (.ok true) ↔
      other = player ∨ before.result? other = some (.ok true)))

namespace Spaced

variable {before after race : Race ι (Except Failure Bool)}

theorem parseOptional_stored (spaced : Spaced user offset moments initial last race)
    (starts : parseOptional (Key.reminder user) initial = .ok last) :
    parseOptional (Key.reminder user) (race.world.store.get? (Key.reminder user)) =
      .ok (last.toList ++ claimed user moments race).getLast? := by
  rw [spaced.stored]
  rcases List.eq_nil_or_concat (claimed user moments race) with none_yet | ⟨rest, latest, some_yet⟩
  · rw [none_yet, List.append_nil]
    cases last with
    | none => exact starts
    | some moment => exact starts
  · rw [some_yet, List.concat_eq_append, ← List.append_assoc, List.getLast?_concat,
      List.getLast?_concat]
    exact parseOptional_encode _ latest

/-- What a move may do keeps the reminders apart. -/
theorem moved (spaced : Spaced user offset moments initial last before)
    (starts : parseOptional (Key.reminder user) initial = .ok last)
    (moved : Moved user offset moments before after) :
    Spaced user offset moments initial last after := by
  cases moved with
  | quiet kept same results =>
      have claimed_eq : claimed user moments after = claimed user moments before := by
        rw [claimed, same, claimed]
      constructor
      · intro player now claims
        rw [results player now claims, same, spaced.got_iff player now claims]
      · rw [same]
        exact spaced.claimants
      · rw [same]
        exact spaced.once
      · rw [claimed_eq]
        exact spaced.apart
      · rw [claimed_eq, kept, spaced.stored]
  | got player now found claims waiting parsed due replaced noted results =>
      have claimed_eq : claimed user moments after = claimed user moments before ++ [now] := by
        simp [claimed, noted, claims]
      have new : player ∉ before.swappers (Key.reminder user) := by
        rw [← spaced.got_iff player now claims, waiting]
        simp
      constructor
      · intro other later other_claims
        rw [results other later other_claims, noted, List.mem_append, List.mem_singleton,
          spaced.got_iff other later other_claims, or_comm]
      · intro other mem
        rw [noted] at mem
        rcases List.mem_append.mp mem with old | latest
        · exact spaced.claimants other old
        · rw [List.mem_singleton.mp latest, claims]
          rfl
      · rw [noted]
        exact List.nodup_append.mpr ⟨spaced.once, List.nodup_cons.mpr ⟨List.not_mem_nil, .nil⟩, by
          rintro other old _ latest rfl
          exact new (List.mem_singleton.mp latest ▸ old)⟩
      · -- The stored moment is that of the last reminder, so the claim was due after it.
        cases (spaced.parseOptional_stored starts).symm.trans parsed
        rw [claimed_eq, ← List.append_assoc]
        exact pairwise_concat spaced.apart due
      · rw [claimed_eq, List.getLast?_concat, replaced]
        rfl

end Spaced

/-! ## The actions of a claim -/

/-- The rest of a claim once the record has been read and a reminder is due. -/
def replace (user : UserId) (now : Instant) (stored : Option Bytes) : Attempt Bool := do
  let claimed ← Attempt.compareAndSet (Key.reminder user) stored (encode now)
  unless claimed do Attempt.note .reminderTaken
  return claimed

/-- How far a claim is. -/
inductive Phase (user : UserId) (now : Instant) (offset : Int) :
    Program (Except Failure Bool) → Prop
  | begun : Phase user now offset (claim user now offset).run
  /-- A record has been read, for which the reminder is due. -/
  | read (stored : Option Bytes) (last : Option Instant)
    (parsed : parseOptional (Key.reminder user) stored = .ok last)
    (due : isDue now last offset = true) : Phase user now offset (replace user now stored).run
  /-- The record has been replaced by somebody else. -/
  | missed : Phase user now offset (.act (.note .reminderTaken) fun _ => .done (.ok false))
  | ended (got : Bool) : Phase user now offset (.done (.ok got))

/-- After a record that can be read, a claim replaces it if the reminder is due. -/
theorem run_claim (user : UserId) (now : Instant) (offset : Int) :
    ∃ next, (claim user now offset).run = .act (.call (.get (Key.reminder user))) next ∧
      ∀ stored last, parseOptional (Key.reminder user) stored = .ok last →
        next (.ok stored) =
          if isDue now last offset then (replace user now stored).run else .done (.ok false) := by
  refine ⟨_, rfl, fun stored last parsed => ?_⟩
  change (Attempt.ofExcept (parseOptional (Key.reminder user) stored) >>= _ : Attempt Bool).run = _
  rw [parsed]
  change (if isDue now last offset then _ else _ : Attempt Bool).run = _
  split
  · rfl
  · rfl

theorem run_replace (user : UserId) (now : Instant) (stored : Option Bytes) :
    ∃ next, (replace user now stored).run =
        .act (.call (.compareAndSet (Key.reminder user) stored (encode now))) next ∧
      next (.ok true) = .done (.ok true) ∧
      next (.ok false) = .act (.note .reminderTaken) fun _ => .done (.ok false) :=
  ⟨_, rfl, rfl, rfl⟩

section
variable [DecidableEq ι] {race : Race ι (Except Failure Bool)} {player : ι} {around : Surroundings}

theorem moved_quietly {action : Action} {next : action.Answer → Program (Except Failure Bool)}
    (program : race.programs player = .act action next) (clock : Instant)
    (kept : (World.answer around action { race.world with clock }).2.store.get?
      (Key.reminder user) = race.world.store.get? (Key.reminder user))
    (unswapped : action.access? (World.answer around action { race.world with clock }).1 ≠
      some (.swap (Key.reminder user)))
    (misses : ∀ now, moments player = some now →
      (next (World.answer around action { race.world with clock }).1).result? ≠ some (.ok true)) :
    Moved user offset moments race (race.move around (clock, player)) := by
  apply Moved.quiet
  · simpa only [Race.move, program] using kept
  · rw [Race.swappers_move program, if_neg unswapped, List.append_nil]
  · intro other now claims
    rw [Race.result?_move program]
    split
    · rename_i same
      subst same
      have going : race.result? other = none := by rw [Race.result?, program, Program.result?]
      simp [misses now claims, going]
    · rfl

/-- A claim that replaces a record for which it was due is got. -/
theorem moved_got {now : Instant} {next : Except Outage Bool → Program (Except Failure Bool)}
    (claims : moments player = some now)
    (program : race.programs player = .act (.call (.compareAndSet (Key.reminder user)
      (race.world.store.get? (Key.reminder user)) (encode now))) next)
    (ends : next (.ok true) = .done (.ok true)) (clock : Instant)
    (parsed : parseOptional (Key.reminder user)
      (race.world.store.get? (Key.reminder user)) = .ok last)
    (due : isDue now last offset = true) :
    Moved user offset moments race (race.move around (clock, player)) := by
  apply Moved.got player now last claims _ parsed due
  · simp [Race.move, program, World.answer, Store.perform]
  · simp [Race.swappers_move program, World.answer, Store.perform, Action.access?]
  · intro other _ _
    rw [Race.result?_move program]
    by_cases same : other = player
    · simp [same, World.answer, Store.perform, ends, Program.result?]
    · simp [same]
  · rw [Race.result?, program, Program.result?]

/-- A claim goes on as claims do. -/
theorem Phase.moved {now : Instant} (around : Surroundings) (claims : moments player = some now)
    (phase : Phase user now offset (race.programs player)) (clock : Instant)
    (parsed : parseOptional (Key.reminder user)
      (race.world.store.get? (Key.reminder user)) = .ok last) :
    Moved user offset moments race (race.move around (clock, player)) ∧
      Phase user now offset ((race.move around (clock, player)).programs player) := by
  generalize program : race.programs player = p at phase
  cases phase with
  | begun =>
      obtain ⟨next, begins, goes⟩ := run_claim user now offset
      rw [begins] at program
      obtain ⟨_, same, _⟩ := run_replace user now (race.world.store.get? (Key.reminder user))
      have after := goes _ last parsed
      rw [Race.programs_move program]
      change _ ∧ Phase user now offset (next (.ok (race.world.store.get? (Key.reminder user))))
      rw [after]
      constructor
      · apply moved_quietly program clock rfl (by simp [Action.access?])
        intro _ _
        change (next (.ok (race.world.store.get? (Key.reminder user)))).result? ≠ _
        rw [after, same]
        split <;> simp [Program.result?]
      · split
        · exact .read _ last parsed ‹_›
        · exact .ended false
  | read stored seen parsed_seen due =>
      obtain ⟨next, begins, ends, fails⟩ := run_replace user now stored
      rw [begins] at program
      rw [Race.programs_move program]
      by_cases same : race.world.store.get? (Key.reminder user) = stored
      · subst same
        constructor
        · exact moved_got claims program ends clock parsed_seen due
        · simpa [World.answer, Store.perform, ends] using Phase.ended true
      · have answered : World.answer around (.call (.compareAndSet (Key.reminder user) stored
            (encode now))) { race.world with clock } = (.ok false, { race.world with clock }) := by
          simp [World.answer, Store.perform, same]
        constructor
        · apply moved_quietly program clock <;> rw [answered]
          · simp [Action.access?]
          · intro _ _
            rw [fails]
            simp [Program.result?]
        · rw [answered, fails]
          exact .missed
  | missed =>
      rw [Race.programs_move program]
      constructor
      · exact moved_quietly program clock rfl (by simp [Action.access?])
          fun _ _ => by simp [Program.result?]
      · exact .ended false
  | ended got =>
      have stays : race.move around (clock, player) = race := by simp [Race.move, program]
      rw [stays, program]
      exact ⟨.quiet rfl rfl fun _ _ _ => .rfl, .ended got⟩

/-! ## The race as a whole -/

/-- The claims go on as claims do, and the others do not write the record. -/
structure Going (user : UserId) (offset : Int) (moments : ι → Option Instant)
    (initial : Option Bytes) (last : Option Instant) (race : Race ι (Except Failure Bool)) :
    Prop where
  spaced : Spaced user offset moments initial last race
  phases : ∀ player now, moments player = some now →
    Phase user now offset (race.programs player)
  others : ∀ player, moments player = none →
    (race.programs player).Honours (.sparing (Key.reminder user)) fun _ => True

omit [DecidableEq ι] in
theorem going_start {world : World} {others : ι → Program (Except Failure Bool)}
    (spare : ∀ player, moments player = none →
      (others player).Honours (.sparing (Key.reminder user)) fun _ => True) :
    Going user offset moments (world.store.get? (Key.reminder user)) last
      (Race.start world (claims user offset moments others)) where
  spaced := by
    have none_yet : (Race.start world (claims user offset moments others)).swappers
        (Key.reminder user) = [] := rfl
    have no_claims : claimed user moments (Race.start world (claims user offset moments others)) =
        [] := rfl
    constructor
    · intro player now claiming
      obtain ⟨_, begins, _⟩ := run_claim user now offset
      rw [none_yet]
      simp [Race.result?, Race.start, claims, claiming, begins, Program.result?]
    · simp [none_yet]
    · simp [none_yet]
    · rw [no_claims]
      cases last <;> simp
    · rw [no_claims]
      rfl
  phases player now claiming := by
    simpa [Race.start, claims, claiming] using Phase.begun
  others player idle := by simpa [Race.start, claims, idle] using spare player idle

omit [DecidableEq ι] in
/-- After a move of one player, it goes on as before, and the others have not moved. -/
theorem Going.moved {after : Race ι (Except Failure Bool)}
    (going : Going user offset moments initial last race)
    (starts : parseOptional (Key.reminder user) initial = .ok last)
    (moved : Moved user offset moments race after)
    (elsewhere : ∀ other, other ≠ player → after.programs other = race.programs other)
    (phase : ∀ now, moments player = some now → Phase user now offset (after.programs player))
    (honours : moments player = none →
      (after.programs player).Honours (.sparing (Key.reminder user)) fun _ => True) :
    Going user offset moments initial last after where
  spaced := going.spaced.moved starts moved
  phases other now claims := by
    by_cases same : other = player
    · subst same
      exact phase now claims
    · rw [elsewhere other same]
      exact going.phases other now claims
  others other idle := by
    by_cases same : other = player
    · subst same
      exact honours idle
    · rw [elsewhere other same]
      exact going.others other idle

/-- Whoever moves, claims go on as claims do. -/
theorem Going.move (going : Going user offset moments initial last race)
    (starts : parseOptional (Key.reminder user) initial = .ok last) (turn : Instant × ι) :
    Going user offset moments initial last (race.move around turn) := by
  obtain ⟨clock, player⟩ := turn
  have elsewhere (other : ι) (differs : other ≠ player) :
      (race.move around (clock, player)).programs other = race.programs other := by
    unfold Race.move
    split
    · rfl
    · simp [differs]
  cases claiming : moments player with
  | some now =>
      have parsed := going.spaced.parseOptional_stored starts
      obtain ⟨moved, phase⟩ :=
        (going.phases player now claiming).moved around claiming clock parsed
      apply going.moved starts moved elsewhere
      · intro later claims
        cases claiming.symm.trans claims
        exact phase
      · intro idle
        cases claiming.symm.trans idle
  | none =>
      have honours := going.others player claiming
      cases program : race.programs player with
      | done result =>
          have stays : race.move around (clock, player) = race := by simp [Race.move, program]
          rwa [stays]
      | act action next =>
          rw [program] at honours
          obtain ⟨kept, unswapped⟩ :=
            World.answer_of_sparing around honours.1 { race.world with clock }
          have moved : Moved user offset moments race (race.move around (clock, player)) :=
            moved_quietly program clock kept unswapped fun now claims => by
              cases claiming.symm.trans claims
          apply going.moved starts moved elsewhere
          · intro now claims
            cases claiming.symm.trans claims
          · intro _
            rw [Race.programs_move program]
            exact honours.2 _ trivial

/-- However the actions of claims are interleaved, no claim fails, and those that are got are an
hour apart at least and on different days. -/
theorem spaced_of_claims (around : Surroundings) (user : UserId) (offset : Int)
    (moments : ι → Option Instant) {others : ι → Program (Except Failure Bool)}
    (spare : ∀ player, moments player = none →
      (others player).Honours (.sparing (Key.reminder user)) fun _ => True)
    (world : World) {last : Option Instant}
    (starts : parseOptional (Key.reminder user) (world.store.get? (Key.reminder user)) = .ok last)
    (schedule : List (Instant × ι)) :
    let race := (Race.start world (claims user offset moments others)).run around schedule
    Spaced user offset moments (world.store.get? (Key.reminder user)) last race ∧
      ∀ player result, (moments player).isSome → race.result? player = some result →
        ∃ got, result = .ok got := by
  have run (race : Race ι (Except Failure Bool))
      (going : Going user offset moments (world.store.get? (Key.reminder user)) last race) :
      Going user offset moments (world.store.get? (Key.reminder user)) last
        (race.run around schedule) := by
    induction schedule generalizing race with
    | nil => exact going
    | cons turn schedule induction => exact induction _ (going.move starts turn)
  have ends := run _ (going_start spare)
  refine ⟨ends.spaced, fun player result claims ended => ?_⟩
  obtain ⟨now, claiming⟩ := Option.isSome_iff_exists.mp claims
  have phase := ends.phases player now claiming
  rw [Race.result?] at ended
  generalize ((Race.start world _).run around schedule).programs player = p at phase ended
  obtain ⟨_, begins, _⟩ := run_claim user now offset
  cases phase with
  | begun =>
      rw [begins] at ended
      cases ended
  | read stored seen parsed due =>
      obtain ⟨_, same, _⟩ := run_replace user now stored
      rw [same] at ended
      cases ended
  | missed => cases ended
  | ended got =>
      cases ended
      exact ⟨got, rfl⟩

/-- Two callers claim the same reminder, and a third one claims the next day's, while somebody else
looks at the record. -/
theorem spaced_of_three_claims :
    let moments : Fin 4 → Option Instant := fun player =>
      match player with
      | 0 | 1 => some ⟨90000000⟩
      | 2 => some ⟨180000000⟩
      | 3 => none
    let store := Store.ofList [(Key.reminder "ann", Utf8.encode " +7")]
    let looking : Program (Except Failure Bool) :=
      (Attempt.get (Key.reminder "ann") >>= fun stored => pure stored.isSome).run
    let schedule : List (Instant × Fin 4) :=
      [0, 1, 1, 0, 3, 2, 0, 2].map fun player => (⟨0⟩, player)
    let race := (Race.start ⟨store, ⟨0⟩, 0⟩
      (claims "ann" 60 moments fun _ => looking)).run .strokes schedule
    Spaced "ann" 60 moments (store.get? (Key.reminder "ann")) (some ⟨7⟩) race ∧
      race.swappers (Key.reminder "ann") = [1, 2] ∧
      race.result? 0 = some (.ok false) := by
  intro moments store looking schedule race
  have spare (player : Fin 4) (_ : moments player = none) :
      looking.Honours (.sparing (Key.reminder "ann")) fun _ => True := by
    have reads : Attempt.Honours (.sparing (Key.reminder "ann")) (fun _ => True)
        (Attempt.get (Key.reminder "ann")) := Attempt.honours_call fun write => by cases write
    have tells : Attempt.Honours (.sparing (Key.reminder "ann")) (fun _ => True)
        (Attempt.get (Key.reminder "ann") >>= fun stored => pure stored.isSome) :=
      reads.bind fun _ _ => Attempt.honours_pure trivial
    exact tells.run
  have starts : parseOptional (Key.reminder "ann") (store.get? (Key.reminder "ann")) =
      .ok (some ⟨7⟩) := by rfl
  have spaced := spaced_of_claims .strokes "ann" 60 moments spare ⟨store, ⟨0⟩, 0⟩ starts schedule
  exact ⟨spaced.1, by decide +kernel, by rfl⟩

end

end Reminder
end Handoff
