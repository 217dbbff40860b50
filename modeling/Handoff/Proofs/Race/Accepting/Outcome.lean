import Handoff.Proofs.Race.Accepting.Runs

/-!
# How accepting and finishing end

A receiver accepts a task while its sender finishes it.  The finisher reads the receiver's owned
tray before the received one, and the accepter moves the entry the other way; so the entry is left
in the owned tray if it was put there after the finisher had looked.  In all other cases nothing of
the task is left.
-/

namespace Handoff.Accepting

open Scene (Holds)

variable {community : Community} {around : Surroundings} {world : World}
  {pair : Pair community around world} {state : State} {accesses : List (Side × Access)}

/-- The finisher has read the owned tray of a user after the accepter had put an entry there. -/
def LooksLate (user : UserId) (accesses : List (Side × Access)) : Prop :=
  [(Side.accepter, Access.swap (Key.tray user .owned)),
    (Side.finisher, Access.read (Key.tray user .owned))].Sublist accesses

instance (user : UserId) (accesses : List (Side × Access)) : Decidable (LooksLate user accesses) :=
  inferInstanceAs (Decidable (List.Sublist _ _))

/-- A user accepts a task while another operation is carried out. -/
def programs (user : UserId) (task : TaskId) (operation : Operation) (policies : Side → Policy) :
    Side → Program (Except Failure Unit)
  | .accepter => ((Operation.accept user task).attempt (policies .accepter)).run
  | .finisher => (operation.attempt (policies .finisher)).run

def State.begin : State := ⟨.waiting, true, true, true, none, false⟩

theorem State.proper_begin : State.begin.Proper := by
  constructor <;> simp [begin]

theorem share_begin (waits : pair.accepted = false) :
    (Holding.shared pair.sender pair.task pair.receiver pair.copy pair.accepted).share =
      State.begin.share pair := by
  rw [waits]
  refine Share.eq_of_entries_of_stored ?_ fun task => by
    simp [State.begin, State.share, Holding.tasks]
  funext user tray
  cases tray <;>
    simp [State.begin, State.share, State.entries, State.isOwned, State.isReceived,
      Holding.entries, Holding.place, Placing.append, Placing.none, Pair.sent, Pair.received]

/-- What is known of the state when a side has ended. -/
def Ends : Side → Except Failure Unit → State → Prop
  | .accepter, .ok _, state => state.progress = .moved
  | .accepter, .error _, state => state.progress = .waiting ∨ state.progress = .undone
  | .finisher, .ok _, state => state.Settled ∧ state.copied = false
  | .finisher, .error _, _ => False

theorem follows_start (around : Surroundings) (pair : Pair community around world)
    (policies : Side → Policy) {operation : Operation} (waits : pair.accepted = false)
    (finishes : operation = .complete pair.sender pair.task ∨
      operation = .remove pair.sender pair.task) :
    (Race.start world (programs pair.receiver pair.copy operation policies)).Follows
      (sharing pair).protocol around Ends .begin := by
  have valid : (sharing pair).protocol.Valid ((Race.start world
      (programs pair.receiver pair.copy operation policies)).stage State.begin) := by
    have holds := pair.holds
    rw [share_begin waits] at holds
    refine ⟨⟨holds.trays, holds.recorded, holds.absent, holds.others⟩, rfl, State.proper_begin,
      ?_, ?_⟩
    all_goals simp [State.begin, Race.stage, Race.start]
  refine ⟨valid, fun side => ?_⟩
  cases side with
  | accepter =>
      have accepting : (sharing pair).protocol.Tries around .accepter
          (fun state => state.progress = .waiting)
          ((Operation.accept pair.receiver pair.copy).attempt (policies .accepter))
          (fun _ state => state.progress = .moved)
          fun _ state => state.progress = .waiting ∨ state.progress = .undone :=
        tries_accept.bind
          (fun _ => (stable_progress pair .waiting).or (stable_progress pair .undone))
          fun _ => Protocol.tries_pure (stable_progress pair .moved) fun _ => id
      refine (accepting _ valid rfl).mono fun result _ => ?_
      cases result with
      | ok | error => exact id
  | finisher =>
      refine (tries_finish finishes _ valid ⟨rfl, rfl⟩).mono fun result _ => ?_
      cases result with
      | ok | error => exact id

/-- When both have ended, the receiver's entry is not in the received tray any more, and it is in
the owned tray if it was put there and the finisher had not looked there since. -/
theorem isOwned_iff {accepted : Except Failure Unit} (proper : state.Proper)
    (accepting : Ends .accepter accepted state) (settled : state.Settled) :
    state.isReceived = false ∧
      (state.isOwned = true ↔ accepted = .ok () ∧ ¬state.late = true) := by
  obtain ⟨_, ⟨taken, late⟩ | taken | ⟨⟨_, late, free⟩, moved⟩⟩ := settled
  · have moved : state.progress = .moved := by
      cases accepted with
      | ok => exact accepting
      | error =>
          rcases proper.owned taken with put | moved
          · rcases accepting with waiting | undone
            · cases put.symm.trans waiting
            · cases put.symm.trans undone
          · exact moved
    simp [State.isReceived, State.isOwned, moved, taken, late]
  · cases accepted with
    | ok => exact absurd taken (proper.moved accepting)
    | error => rcases accepting with failed | failed <;>
        simp [State.isReceived, State.isOwned, failed, taken]
  · cases accepted with
    | ok => simp [State.isReceived, State.isOwned, moved, free, late]
    | error => rcases accepting with failed | failed <;> cases moved.symm.trans failed

theorem mem_entries_iff {accepted : Except Failure Unit} (notes : Notes pair state accesses)
    (accepting : Ends .accepter accepted state) (settled : state.Settled) {user : UserId}
    {tray : Tray} {entry : Entry} :
    entry ∈ (state.share pair).entries user tray ↔
      (user = pair.receiver ∧ tray = .owned ∧ entry = pair.received) ∧ accepted = .ok () ∧
        ¬LooksLate pair.receiver accesses := by
  have late : state.late = true ↔ LooksLate pair.receiver accesses := notes.late
  obtain ⟨unreceived, owned⟩ := isOwned_iff notes.proper accepting settled
  rw [← late, ← owned]
  cases tray with
  | sent => simp [State.share, State.entries, settled.1.1]
  | received => simp [State.share, State.entries, unreceived]
  | owned =>
      by_cases theirs : user = pair.receiver <;> by_cases there : state.isOwned = true <;>
        simp [State.share, State.entries, theirs, there]

/-- However accepting a task and completing or removing it are interleaved: once both have ended,
the latter has succeeded and left neither record, and an entry is left exactly if the former has
succeeded and the latter has not read the receiver's owned tray since the entry was put there. -/
theorem lists_iff_of_accepted_and_finished (fresh : around.Fresh) {policy : Policy}
    (reached : world.Reached community around policy) {sender receiver : UserId}
    {task copy : TaskId} (member : community.member sender)
    (listed : world.store.Lists sender .sent (.linked task receiver copy))
    (received : world.store.Lists receiver .received (.linked copy sender task))
    (policies : Side → Policy) {operation : Operation}
    (finishes : operation = .complete sender task ∨ operation = .remove sender task)
    (schedule : List (Instant × Side)) {accepted finished : Except Failure Unit} :
    let race := (Race.start world (programs receiver copy operation policies)).run around schedule
    race.result? .accepter = some accepted → race.result? .finisher = some finished →
      finished = .ok () ∧ race.world.store.get? (Key.record task) = none ∧
        race.world.store.get? (Key.record copy) = none ∧
        ∀ user tray entry, community.member user → entry.task = task ∨ entry.task = copy →
          (race.world.store.Lists user tray entry ↔
            (user = receiver ∧ tray = .owned ∧ entry = .linked copy sender task) ∧
              accepted = .ok () ∧ ¬LooksLate receiver race.accesses) := by
  intro race accepter_ended finisher_ended
  obtain ⟨pair, rfl, rfl, rfl, rfl⟩ := reached.exists_pair fresh member listed
  have waits : pair.accepted = false := by
    have held := (pair.holds.lists_iff pair.receiver_member pair.copy_mine).mp received
    rcases Holding.mem_entries_shared.mp held with ⟨_, here, _⟩ | ⟨_, place, _⟩
    · cases here
    · cases waits : pair.accepted with
      | false => rfl
      | true =>
          rw [waits] at place
          cases place
  obtain ⟨state, follows⟩ :=
    (follows_start around pair policies waits finishes).run schedule
  have accepting := follows.ended accepter_ended
  obtain ⟨holds, notes⟩ := follows.holds
  cases finished with
  | error failure => exact (follows.ended finisher_ended).elim
  | ok =>
      obtain ⟨settled, uncopied⟩ := follows.ended finisher_ended
      have unstored (one : TaskId) : ¬(state.share pair).stored one := by
        simp [State.share, settled.1.2, uncopied]
      have gone (one : TaskId) (ours : pair.mine one = true) :
          race.world.store.get? (Key.record one) = none :=
        Store.get?_eq_of_cell_eq_value (holds.absent one ours (unstored one))
      refine ⟨rfl, gone _ pair.task_mine, gone _ pair.copy_mine,
        fun user tray entry user_member named => ?_⟩
      have ours : pair.mine entry.task = true := by
        rcases named with same | same
        · exact same ▸ pair.task_mine
        · exact same ▸ pair.copy_mine
      exact (holds.lists_iff user_member ours).trans (mem_entries_iff notes accepting settled)

/-- Nothing is left of a task that `bob` puts into his owned tray before `ann`, completing it, looks
there, and that he takes out of the received tray afterwards. -/
theorem unlisted_of_accepted_in_time :
    let world := (World.mk .empty ⟨0⟩ 0).steps .strokes .standard
      [(⟨1⟩, .send "ann" "bob" "Call" "" none)]
    let schedule := List.replicate 6 (⟨2⟩, Side.finisher) ++
      List.replicate 4 (⟨3⟩, Side.accepter) ++ List.replicate 20 (⟨4⟩, Side.finisher) ++
        List.replicate 20 (⟨5⟩, Side.accepter)
    let race := (Race.start world (programs "bob" "||" (.complete "ann" "|")
      fun _ => .standard)).run .strokes schedule
    race.result? .accepter = some (.ok ()) ∧ ∀ tray entry, entry.task = "||" →
      ¬race.world.store.Lists "bob" tray entry := by
  intro world schedule
  have reached : world.Reached .plain .strokes .standard :=
    ⟨[(⟨1⟩, .send "ann" "bob" "Call" "" none)], ⟨0⟩, 0,
      by simp [Operation.users, Community.plain, UserId.Plain], rfl⟩
  have ann : Community.plain.member "ann" := by simp [Community.plain, UserId.Plain]
  have bob : Community.plain.member "bob" := by simp [Community.plain, UserId.Plain]
  have sent : world.store.Lists "ann" .sent (.linked "|" "bob" "||") :=
    ⟨[.linked "|" "bob" "||"], by decide +kernel, by decide⟩
  have received : world.store.Lists "bob" .received (.linked "||" "ann" "|") :=
    ⟨[.linked "||" "ann" "|"], by decide +kernel, by decide⟩
  dsimp only
  refine ⟨by decide +kernel, fun tray entry named here => ?_⟩
  obtain ⟨_, _, _, listed⟩ := lists_iff_of_accepted_and_finished Surroundings.fresh_strokes
    reached ann sent received (fun _ => .standard) (.inl rfl) schedule
    (by decide +kernel : _ = some (.ok ()))
    (by decide +kernel : _ = some (.ok ()))
  exact ((listed "bob" tray entry bob (.inr named)).mp here).2.2 (by decide +kernel)

/-- A task that `bob` accepts when `ann`, completing it, has just looked into his owned tray stays
there without a record. -/
theorem listed_of_overtaken :
    let world := (World.mk .empty ⟨0⟩ 0).steps .strokes .standard
      [(⟨1⟩, .send "ann" "bob" "Call" "" none)]
    let race := (Race.start world (programs "bob" "||" (.complete "ann" "|")
      fun _ => .standard)).run .strokes (List.replicate 7 (⟨2⟩, .finisher) ++
        List.replicate 20 (⟨3⟩, .accepter) ++ List.replicate 20 (⟨4⟩, .finisher))
    race.result? .accepter = some (.ok ()) ∧ race.result? .finisher = some (.ok ()) ∧
      race.world.store.cell (Key.tray "bob" .owned) = .entries [.linked "||" "ann" "|"] ∧
      race.world.store.get? (Key.record "||") = none := by
  decide +kernel

end Handoff.Accepting
