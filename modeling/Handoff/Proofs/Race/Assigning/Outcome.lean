import Handoff.Proofs.Race.Assigning.Assigner
import Handoff.Proofs.Race.Assigning.Finisher

/-!
# How assigning and finishing end

A sender assigns a shared task to somebody else while they finish it.  The finisher cleans up where
the sender's entry was linked to when it was first read.  If the assigner changes the link after
that, the assignee's entry and record are left; if the assigner fails and puts the receiver's entry
back after the finisher has looked for it, this entry is left.  In all other cases nothing of the
task is left.
-/

namespace Handoff.Assigning

variable {community : Community} {around : Surroundings} {world : World}
  {plan : Plan community around world} {state : State} {accesses : List (Side × Access)}

/-- The assigner has swapped the sent tray of a user after the finisher had read it. -/
def Crosses (user : UserId) (accesses : List (Side × Access)) : Prop :=
  [(Side.finisher, Access.read (Key.tray user .sent)),
    (Side.assigner, Access.swap (Key.tray user .sent))].Sublist accesses

instance (user : UserId) (accesses : List (Side × Access)) : Decidable (Crosses user accesses) :=
  inferInstanceAs (Decidable (List.Sublist _ _))

/-- The assigner has swapped a tray, and the finisher has not. -/
def Returns (user : UserId) (tray : Tray) (accesses : List (Side × Access)) : Prop :=
  (Side.assigner, Access.swap (Key.tray user tray)) ∈ accesses ∧
    (Side.finisher, Access.swap (Key.tray user tray)) ∉ accesses

instance (user : UserId) (tray : Tray) (accesses : List (Side × Access)) :
    Decidable (Returns user tray accesses) :=
  inferInstanceAs (Decidable (_ ∧ _))

/-- A user assigns a task to somebody while another operation is carried out. -/
def programs (user : UserId) (task : TaskId) (assignee : UserId) (operation : Operation)
    (policies : Side → Policy) : Side → Program (Except Failure Unit)
  | .assigner => ((Operation.assign user task assignee).attempt (policies .assigner)).run
  | .finisher => (operation.attempt (policies .finisher)).run

def State.begin : State :=
  ⟨.waiting, false, false, false, false, fun _ => false, fun _ => false⟩

theorem State.proper_begin : State.begin.Proper := by
  constructor <;> simp [begin]

theorem share_begin :
    (Holding.shared plan.sender plan.task plan.receiver plan.copy plan.accepted).share =
      State.begin.share plan := by
  refine Share.eq_of_entries_of_stored ?_ fun task => ?_
  · funext user tray
    simp only [Holding.share_entries, Holding.entries, Placing.append, Placing.none, State.share,
      State.entries, List.flatMap_cons, List.flatMap_nil, Plan.user, Plan.tray, State.entryAt,
      State.begin, State.isListed, State.isGiven, Phase.isHanded]
    split <;> split <;> simp_all [Pair.sent, Pair.received]
  · constructor
    · intro held
      rcases List.mem_cons.mp held with rfl | held
      · exact ⟨.sender, rfl, rfl⟩
      · obtain rfl := List.mem_singleton.mp held
        exact ⟨.receiver, rfl, rfl⟩
    · rintro ⟨role, rfl, stores⟩
      cases role with
      | sender => exact List.mem_cons_self
      | receiver => exact List.mem_cons_of_mem _ List.mem_cons_self
      | assignee => cases stores

/-- What is known of the state when a side has ended. -/
def Ends : Side → Except Failure Unit → State → Prop
  | .assigner, .ok _, state => state.Handed ∧ state.dropped .receiver = true
  | .assigner, .error _, state => state.Undone
  | .finisher, .ok _, state => state.Cleaned
  | .finisher, .error _, _ => True

theorem follows_start (around : Surroundings) (plan : Plan community around world)
    (policies : Side → Policy) {operation : Operation}
    (finishes : operation = .complete plan.sender plan.task ∨
      operation = .remove plan.sender plan.task) :
    (Race.start world (programs plan.sender plan.task plan.assignee operation policies)).Follows
      (sharing plan).protocol around Ends .begin := by
  have valid : (sharing plan).protocol.Valid ((Race.start world
      (programs plan.sender plan.task plan.assignee operation policies)).stage State.begin) := by
    have holds := plan.holds
    rw [share_begin] at holds
    refine ⟨⟨holds.trays, holds.recorded, holds.absent, holds.others⟩, rfl, State.proper_begin,
      ?_, ?_, ?_, ?_⟩
    all_goals simp [State.begin, Race.stage, Race.start]
  refine ⟨valid, fun side => ?_⟩
  cases side with
  | assigner =>
      have stable := (stable_handed plan).and (stable_dropped plan .receiver)
      have assigning : (sharing plan).protocol.Tries around .assigner State.Untouched
          ((Operation.assign plan.sender plan.task plan.assignee).attempt (policies .assigner))
          (fun _ state => state.Handed ∧ state.dropped .receiver = true) fun _ => State.Undone :=
        tries_assign.bind (fun _ => stable_undone plan) fun _ =>
          Protocol.tries_pure stable fun _ => id
      refine (assigning _ valid ⟨rfl, rfl, rfl⟩).mono fun result _ => ?_
      cases result with
      | ok | error => exact id
  | finisher =>
      refine (tries_finish finishes _ valid ⟨rfl, rfl, rfl, rfl, rfl⟩).mono fun result _ => ?_
      cases result with
      | ok | error => exact id

/-- What is left of each side when both have ended: nothing of the sender and no record of the
receiver. -/
structure State.Left (state : State) (assigned : Except Failure Unit) : Prop where
  sender : state.taken .sender = true ∧ state.stores .sender = false
  receiver : state.stores .receiver = false ∧ (state.isListed = true ↔
    assigned ≠ .ok () ∧ state.withdrawn = true ∧ state.taken .receiver = false)
  assignee : (state.isGiven = true ↔ assigned = .ok () ∧ state.crossed = true) ∧
    (state.stores .assignee = true ↔ assigned = .ok () ∧ state.crossed = true)

theorem left_of_ends {assigned : Except Failure Unit} (assigning : Ends .assigner assigned state)
    (cleaned : state.Cleaned) : state.Left assigned := by
  obtain ⟨⟨taken, dropped⟩, ⟨⟨_, crossed⟩, ⟨untaken, undropped⟩, parted, gone⟩ |
    ⟨⟨linked, uncrossed⟩, cleared, deleted⟩⟩ := cleaned
  all_goals have unstored : state.stores .sender = false := by simp [State.stores, dropped]
  · cases assigned with
    | ok =>
        obtain ⟨⟨linked, unrestored, away⟩, _⟩ := assigning
        have crossed := crossed (.inr linked)
        refine ⟨⟨taken, unstored⟩, ⟨by simp [State.stores, gone], ?_⟩, ?_, ?_⟩
        · rcases away with withdrawn | taken <;> simp [State.isListed, *]
        · simp [State.isGiven, Phase.isHanded, linked, untaken, crossed]
        · simp [State.stores, Phase.isSaved, linked, undropped, crossed]
    | error failure =>
        obtain ⟨phase, restored⟩ := assigning
        refine ⟨⟨taken, unstored⟩, ⟨by simp [State.stores, gone], ?_⟩, ?_, ?_⟩
        · rcases parted with taken | withdrawn
          · simp [State.isListed, taken]
          · simp [State.isListed, withdrawn, restored]
        · rcases phase with phase | phase <;> simp [State.isGiven, Phase.isHanded, phase]
        · rcases phase with phase | phase <;> simp [State.stores, Phase.isSaved, phase]
  · cases assigned with
    | ok =>
        obtain ⟨⟨_, unrestored, away⟩, gone⟩ := assigning
        refine ⟨⟨taken, unstored⟩, ⟨by simp [State.stores, gone], ?_⟩, ?_, ?_⟩
        · rcases away with withdrawn | taken <;> simp [State.isListed, *]
        · simp [State.isGiven, cleared, uncrossed]
        · simp [State.stores, deleted, uncrossed]
    | error failure =>
        rcases assigning.1 with phase | phase <;> cases linked.symm.trans phase

/-- At the beginning the receiver's entry is in one tray. -/
theorem Plan.lists_received_iff (plan : Plan community around world) {user : UserId} {tray : Tray}
    (member : community.member user) : world.store.Lists user tray plan.received ↔
      user = plan.receiver ∧ tray = plan.tray .receiver := by
  refine (plan.holds.lists_iff member plan.copy_mine).trans
    (Holding.mem_entries_shared.trans ⟨?_, fun here => .inr ⟨here.1, here.2, rfl⟩⟩)
  rintro (⟨_, _, same⟩ | ⟨here, place, _⟩)
  · exact absurd (congrArg Entry.task same).symm plan.differs
  · exact ⟨here, place⟩

/-- The entries that are left. -/
theorem mem_entries_iff {assigned : Except Failure Unit} (notes : Notes plan state accesses)
    (left : state.Left assigned) {user : UserId} {tray : Tray} {entry : Entry} :
    entry ∈ (state.share plan).entries user tray ↔
      (user = plan.assignee ∧ tray = .received ∧ entry = plan.given ∧ assigned = .ok () ∧
        Crosses plan.sender accesses) ∨
      ((user = plan.receiver ∧ tray = plan.tray .receiver) ∧ entry = plan.received ∧
        assigned ≠ .ok () ∧ Returns user tray accesses) := by
  have crosses : state.crossed = true ↔ Crosses plan.sender accesses := notes.crossed
  have returns : state.withdrawn = true ∧ state.taken .receiver = false ↔
      Returns plan.receiver (plan.tray .receiver) accesses := by
    rw [notes.withdrawn, ← Bool.not_eq_true, notes.taken]
    exact Iff.rfl
  refine (State.mem_entries_iff plan state).trans ⟨?_, ?_⟩
  · rintro ⟨role, rfl, rfl, here⟩
    cases role with
    | sender => simp [State.entryAt, left.sender.1] at here
    | receiver =>
        simp only [State.entryAt] at here
        split at here
        · rename_i listed
          obtain ⟨failed, away⟩ := left.receiver.2.mp listed
          exact .inr ⟨⟨rfl, rfl⟩, (Option.some.inj here).symm, failed, returns.mp away⟩
        · cases here
    | assignee =>
        simp only [State.entryAt] at here
        split at here
        · rename_i given
          obtain ⟨succeeded, crossed⟩ := left.assignee.1.mp given
          exact .inl ⟨rfl, rfl, (Option.some.inj here).symm, succeeded, crosses.mp crossed⟩
        · cases here
  · rintro (⟨rfl, rfl, rfl, succeeded, crossed⟩ | ⟨⟨rfl, rfl⟩, rfl, failed, away⟩)
    · have given := left.assignee.1.mpr ⟨succeeded, crosses.mpr crossed⟩
      exact ⟨.assignee, rfl, rfl, if_pos given⟩
    · have listed := left.receiver.2.mpr ⟨failed, returns.mpr away⟩
      exact ⟨.receiver, rfl, rfl, if_pos listed⟩

theorem stored_iff {assigned : Except Failure Unit} (notes : Notes plan state accesses)
    (left : state.Left assigned) {task : TaskId} : (state.share plan).stored task ↔
      task = plan.next ∧ assigned = .ok () ∧ Crosses plan.sender accesses := by
  have crosses : state.crossed = true ↔ Crosses plan.sender accesses := notes.crossed
  rw [← crosses, ← left.assignee.2]
  constructor
  · rintro ⟨role, rfl, stores⟩
    cases role with
    | sender => cases left.sender.2.symm.trans stores
    | receiver => cases left.receiver.1.symm.trans stores
    | assignee => exact ⟨rfl, stores⟩
  · rintro ⟨rfl, stores⟩
    exact ⟨.assignee, rfl, stores⟩

/-- However assigning a shared task and completing or removing it are interleaved: once both have
ended, and the latter has succeeded, an entry for the task or linked to it is left, and a record of
it or of a copy of it, only in two cases.  The former has succeeded and swapped the sender's tray
after the latter had read it; then the assignee's entry and record are left.  Or the former has
failed and taken out the receiver's entry, and the latter has not; then this entry is left. -/
theorem lists_iff_of_assigned_and_finished (fresh : around.Fresh) {policy : Policy}
    (reached : world.Reached community around policy) {sender receiver assignee : UserId}
    {task copy : TaskId} (member : community.member sender)
    (assignee_member : community.member assignee) (ne_sender : assignee ≠ sender)
    (ne_receiver : assignee ≠ receiver)
    (listed : world.store.Lists sender .sent (.linked task receiver copy))
    (policies : Side → Policy) {operation : Operation}
    (finishes : operation = .complete sender task ∨ operation = .remove sender task)
    (schedule : List (Instant × Side)) {assigned : Except Failure Unit} :
    let next := around.newTaskId world.issued
    let race := (Race.start world (programs sender task assignee operation policies)).run around
      schedule
    race.result? .assigner = some assigned → race.result? .finisher = some (.ok ()) →
      (∀ user tray entry, community.member user →
        entry.task = task ∨ entry.link = some ⟨sender, task⟩ →
        (race.world.store.Lists user tray entry ↔
          (user = assignee ∧ tray = .received ∧ entry = .linked next sender task ∧
            assigned = .ok () ∧ Crosses sender race.accesses) ∨
          (world.store.Lists user tray entry ∧ entry = .linked copy sender task ∧
            assigned ≠ .ok () ∧ Returns user tray race.accesses))) ∧
      ∀ one, one = task ∨ one = copy ∨ (∃ n, world.issued ≤ n ∧ one = around.newTaskId n) →
        ((∃ bytes, race.world.store.get? (Key.record one) = some bytes) ↔
          one = next ∧ assigned = .ok () ∧ Crosses sender race.accesses) := by
  intro next race assigner_ended finisher_ended
  obtain ⟨pair, rfl, rfl, rfl, rfl⟩ := reached.exists_pair fresh member listed
  let plan : Plan community around world :=
    ⟨pair, assignee, assignee_member, ne_sender, ne_receiver, next, rfl, fresh.named _⟩
  obtain ⟨state, follows⟩ := (follows_start around plan policies finishes).run schedule
  obtain ⟨holds, notes⟩ := follows.holds
  have left := left_of_ends (follows.ended assigner_ended) (follows.ended finisher_ended)
  constructor
  · intro user tray entry user_member about
    cases ours : pair.mine entry.task with
    | true =>
        refine (holds.lists_iff user_member ours).trans ((mem_entries_iff notes left).trans ?_)
        refine or_congr Iff.rfl ⟨?_, ?_⟩
        · rintro ⟨here, rfl, failed⟩
          exact ⟨(plan.lists_received_iff user_member).mpr here, rfl, failed⟩
        · rintro ⟨here, rfl, failed⟩
          exact ⟨(plan.lists_received_iff user_member).mp here, rfl, failed⟩
    | false =>
        have unlinked : ¬world.store.Lists user tray entry := fun here => by
          rcases about with same | linked
          · cases ours.symm.trans (same ▸ pair.task_mine)
          · cases ours.symm.trans (pair.sole user tray entry user_member here linked ▸
              pair.copy_mine)
        rw [holds.lists_iff_of_not user_member ours]
        refine iff_of_false unlinked ?_
        rintro (⟨_, _, rfl, _⟩ | ⟨here, _⟩)
        · cases ours.symm.trans (plan.record_mine .assignee)
        · exact unlinked here
  · intro one named
    have ours : pair.mine one = true := by
      rcases named with rfl | rfl | ⟨n, later, rfl⟩
      · exact pair.task_mine
      · exact pair.copy_mine
      · exact pair.later_mine n later
    rw [holds.exists_record_iff ours]
    exact stored_iff notes left

/-- Nothing is left in the tray of `bob` when `ann`, assigning his task to `carl`, puts his entry
back and after that, completing the task, takes it out. -/
theorem unlisted_of_returned_in_time :
    let world := (World.mk .empty ⟨0⟩ 0).steps .strokes .standard
      [(⟨1⟩, .send "ann" "bob" "Call" "" none)]
    let schedule := List.replicate 10 (⟨2⟩, Side.assigner) ++
      List.replicate 4 (⟨3⟩, Side.finisher) ++ List.replicate 20 (⟨4⟩, Side.assigner) ++
        List.replicate 20 (⟨5⟩, Side.finisher)
    let race := (Race.start world (programs "ann" "|" "carl" (.complete "ann" "|")
      fun _ => .standard)).run .strokes schedule
    (Side.assigner, Access.swap (Key.tray "bob" .received)) ∈ race.accesses ∧
      ¬race.world.store.Lists "bob" .received (.linked "||" "ann" "|") := by
  intro world schedule
  have reached : world.Reached .plain .strokes .standard :=
    ⟨[(⟨1⟩, .send "ann" "bob" "Call" "" none)], ⟨0⟩, 0,
      by simp [Operation.users, Community.plain, UserId.Plain], rfl⟩
  have ann : Community.plain.member "ann" := by simp [Community.plain, UserId.Plain]
  have bob : Community.plain.member "bob" := by simp [Community.plain, UserId.Plain]
  have carl : Community.plain.member "carl" := by simp [Community.plain, UserId.Plain]
  have sent : world.store.Lists "ann" .sent (.linked "|" "bob" "||") :=
    ⟨[.linked "|" "bob" "||"], by decide +kernel, by decide⟩
  dsimp only
  refine ⟨by decide +kernel, fun here => ?_⟩
  obtain ⟨listed, _⟩ := lists_iff_of_assigned_and_finished Surroundings.fresh_strokes reached ann
    carl (by decide) (by decide) sent (fun _ => .standard) (.inl rfl) schedule
    (by decide +kernel : _ = some (.error (.entryMissing "|" .sent "ann"))) (by decide +kernel)
  rcases (listed "bob" .received (.linked "||" "ann" "|") bob (.inr rfl)).mp here with
    ⟨carl_eq, _⟩ | ⟨_, _, _, returned⟩
  · exact absurd carl_eq (by decide)
  · exact absurd returned (by decide +kernel)

/-- If `ann` assigns her task to `carl` when she, completing it, has just read her sent tray, the
entry and the record of `carl` are left.  If she completes it between taking his entry from `bob`
and putting it back, this entry is left. -/
theorem listed_of_crossed_and_of_returned :
    let world := (World.mk .empty ⟨0⟩ 0).steps .strokes .standard
      [(⟨1⟩, .send "ann" "bob" "Call" "" none)]
    let race := (Race.start world (programs "ann" "|" "carl" (.complete "ann" "|")
      fun _ => .standard)).run .strokes
    let crossed := race (List.replicate 2 (⟨2⟩, .finisher) ++ List.replicate 30 (⟨3⟩, .assigner) ++
      List.replicate 20 (⟨4⟩, .finisher))
    let returned := race (List.replicate 10 (⟨2⟩, .assigner) ++
      List.replicate 20 (⟨3⟩, .finisher) ++ List.replicate 20 (⟨4⟩, .assigner))
    (crossed.result? .assigner = some (.ok ()) ∧ crossed.result? .finisher = some (.ok ()) ∧
      crossed.world.store.cell (Key.tray "carl" .received) =
        .entries [.linked "|||" "ann" "|"] ∧
      (crossed.world.store.get? (Key.record "|||")).isSome = true) ∧
    returned.result? .assigner = some (.error (.entryMissing "|" .sent "ann")) ∧
      returned.result? .finisher = some (.ok ()) ∧
      returned.world.store.cell (Key.tray "bob" .received) =
        .entries [.linked "||" "ann" "|"] := by
  decide +kernel

end Handoff.Assigning
