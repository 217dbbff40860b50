import Handoff.Proofs.Race.Finishing.Content

/-!
# How finishing from both sides ends

Whoever finishes a shared task takes out the entry of its own side first, so at most one player on
each side succeeds.  Whoever does cleans up both sides; what is already gone has been taken by
another who has succeeded.  So once all have ended, nothing of the task is left, and whoever was the
first to delete a record tells what was in it.
-/

namespace Handoff

open Scene (Holds)

/-- A store is as another one was, without some tasks. -/
structure Store.Without (community : Community) (tasks : List TaskId) (before after : Store) :
    Prop where
  records : ∀ task ∈ tasks, after.get? (Key.record task) = none
  trays : ∀ user tray, community.member user → ∃ list,
    before.cell (Key.tray user tray) = .entries list ∧
      after.cell (Key.tray user tray) = .entries (list.filter (·.task ∉ tasks))
  others : ∀ key, (∀ user tray, community.member user → key ≠ Key.tray user tray) →
    (∀ task ∈ tasks, key ≠ Key.record task) → after.cell key = before.cell key

/-- When nothing is left of a share that some tasks have had, all else is as it was. -/
theorem Scene.Holds.without {community : Community} {mine : TaskId → Bool} {before after : World}
    {share rest : Share} {tasks : List TaskId}
    (begins : Holds community mine before.scene share before.scene)
    (ends : Holds community mine before.scene rest after.scene)
    (ours : ∀ task ∈ tasks, mine task = true)
    (listed : ∀ user tray, ∀ entry ∈ share.entries user tray, entry.task ∈ tasks)
    (stored : ∀ task, share.stored task → task ∈ tasks)
    (unlisted : ∀ user tray, rest.entries user tray = [])
    (unstored : ∀ task, ¬rest.stored task) : before.store.Without community tasks after.store := by
  refine ⟨fun task mem => ?_, fun user tray member => ?_, fun key no_tray no_record => ?_⟩
  · exact Store.get?_eq_of_cell_eq_value (ends.absent task (ours task mem) (unstored task))
  · obtain ⟨list, _, shown, _, _, inside⟩ := begins.trays user tray member
    obtain ⟨left, others, left_shown, others_shown, outside, none_left⟩ :=
      ends.trays user tray member
    cases shown.symm.trans others_shown
    refine ⟨list, shown, left_shown.trans (congrArg Cell.entries ?_)⟩
    have theirs : left.filter (!mine ·.task) = left := by
      rw [unlisted] at none_left
      exact List.filter_eq_self.mpr fun entry mem => by
        simpa using List.filter_eq_nil_iff.mp none_left entry mem
    calc left = list.filter (!mine ·.task) := theirs.symm.trans outside
      _ = list.filter (·.task ∉ tasks) := List.filter_congr fun entry mem => by
        have same : mine entry.task = true ↔ entry.task ∈ tasks := by
          refine ⟨fun mine_entry => listed user tray entry ?_, ours entry.task⟩
          exact inside ▸ List.mem_filter.mpr ⟨mem, mine_entry⟩
        simp [← same]
  · by_cases record : ∃ task, mine task = true ∧ key = Key.record task
    · obtain ⟨task, mine_task, rfl⟩ := record
      have missing : ¬share.stored task := fun held => no_record task (stored task held) rfl
      exact (ends.absent task mine_task (unstored task)).trans
        (begins.absent task mine_task missing).symm
    · exact ends.others key no_tray fun task mine_task same => record ⟨task, mine_task, same⟩

namespace Finishing

variable {ι : Type} {community : Community} {around : Surroundings} {world : World}
  {pair : Pair community around world} {side : ι → Side}

theorem share_begin (pair : Pair community around world) :
    (Holding.shared pair.sender pair.task pair.receiver pair.copy pair.accepted).share =
      (State.begin : State ι).share pair := by
  refine Share.eq_of_entries_of_stored ?_ fun task => ?_
  · funext user tray
    change _ = (if user = pair.sender ∧ tray = .sent then [pair.sent] else []) ++
      ((if user = pair.receiver ∧ tray = Holding.place pair.accepted then [pair.received]
        else []) ++ [])
    by_cases received : user = pair.receiver ∧ tray = Holding.place pair.accepted <;>
      simp [Holding.entries, Placing.append, Placing.none, Pair.sent, Pair.received, received]
  · simp [State.share, State.begin, Holding.tasks, Side.exists_iff, Side.record, eq_comm]

/-- What is known of the state when a player has ended. -/
def Ends (pair : Pair community around world) (side : ι → Side) (player : ι) :
    Except Failure Reply → State ι → Prop
  | .ok reply => Done pair player (side player) reply.content?
  | .error _ => fun state => Idle player state ∧ state.taken (side player) ≠ none

theorem follows_start [DecidableEq ι] (around : Surroundings) (pair : Pair community around world)
    {operations : ι → Operation}
    (finishes : ∀ player, operations player =
        .complete ((side player).user pair) ((side player).record pair) ∨
      operations player = .remove ((side player).user pair) ((side player).record pair))
    (policies : ι → Policy) :
    (Race.start world fun player => ((operations player).reply (policies player)).run).Follows
      (sharing pair ι).protocol around (Ends pair side) .begin := by
  have valid : (sharing pair ι).protocol.Valid ((Race.start world fun player =>
      ((operations player).reply (policies player)).run).stage State.begin) := by
    have holds := pair.holds
    rw [share_begin (ι := ι)] at holds
    exact ⟨⟨holds.trays, holds.recorded, holds.absent, holds.others⟩, rfl, trivial⟩
  refine ⟨valid, fun player => ?_⟩
  have idle : Idle player (State.begin : State ι) := fun side => by simp [State.begin]
  refine (tries_reply (side player) (policies player) (finishes player) _ valid idle).mono ?_
  intro result state
  cases result with
  | ok | error => exact id

/-! ## When all have ended -/

section
variable {results : ι → Except Failure Reply} {state : State ι}

/-- Somebody has succeeded. -/
theorem exists_ok [Nonempty ι] (ended : ∀ player, Ends pair side player (results player) state) :
    ∃ player reply, results player = .ok reply := by
  have first := Classical.arbitrary ι
  cases result : results first with
  | ok reply => exact ⟨first, reply, result⟩
  | error failure =>
      have failed := ended first
      rw [result] at failed
      obtain ⟨player, taken⟩ := Option.ne_none_iff_exists'.mp failed.2
      cases other : results player with
      | ok reply => exact ⟨player, reply, other⟩
      | error failure =>
          have idle := ended player
          rw [other] at idle
          exact absurd taken (idle.1 (side first)).1

/-- Nothing of the task is left. -/
theorem taken_and_dropped [Nonempty ι]
    (ended : ∀ player, Ends pair side player (results player) state) (place : Side) :
    state.taken place ≠ none ∧ state.dropped place ≠ none := by
  obtain ⟨player, reply, result⟩ := exists_ok ended
  have done := ended player
  rw [result] at done
  obtain ⟨own, next, _, finished⟩ := done
  rcases (side player).eq_or_eq_other place with rfl | rfl
  · exact ⟨finished.taken ▸ Option.some_ne_none player, finished.own.dropped⟩
  · exact ⟨finished.other_taken, finished.next.dropped⟩

/-- Two players on one side do not both succeed. -/
theorem eq_of_ok (ended : ∀ player, Ends pair side player (results player) state) {one other : ι}
    {reply answer : Reply} (first : results one = .ok reply) (second : results other = .ok answer)
    (same : side one = side other) : one = other := by
  have done := ended one
  have too := ended other
  rw [first] at done
  rw [second] at too
  obtain ⟨_, _, _, finished⟩ := done
  obtain ⟨_, _, _, both⟩ := too
  exact Option.some.inj (finished.taken.symm.trans (same ▸ both.taken))

/-- Whoever was the first to delete a record has succeeded and tells a content. -/
theorem exists_told [Nonempty ι]
    (ended : ∀ player, Ends pair side player (results player) state) :
    ∃ player reply content, ∃ place : Side, results player = .ok reply ∧
      reply.content? = some content ∧ content.id = place.record pair := by
  obtain ⟨player, dropped⟩ :=
    Option.ne_none_iff_exists'.mp (taken_and_dropped ended .sender).2
  have own_end := ended player
  cases result : results player with
  | error failure =>
      rw [result] at own_end
      exact absurd dropped (own_end.1 .sender).2
  | ok reply =>
      rw [result] at own_end
      obtain ⟨own, next, told, finished⟩ := own_end
      cases own with
      | some content =>
          exact ⟨player, reply, content, side player, result, told, finished.own.named _ rfl⟩
      | none =>
          cases next with
          | some content =>
              exact ⟨player, reply, content, _, result, told, finished.next.named _ rfl⟩
          | none =>
              rcases (side player).eq_or_eq_other .sender with here | there
              · exact absurd rfl (finished.own.mine (here ▸ dropped))
              · exact absurd rfl (finished.next.mine (there ▸ dropped))

/-- Once all have ended, the store is as it was without the task. -/
theorem without_of_ended [Nonempty ι] {after : World}
    (ended : ∀ player, Ends pair side player (results player) state)
    (holds : Holds community pair.mine world.scene (state.share pair) after.scene) :
    world.store.Without community [pair.task, pair.copy] after.store := by
  refine pair.holds.without holds ?_ ?_ ?_ ?_ ?_
  · simp [pair.task_mine, pair.copy_mine]
  · intro user tray entry held
    rcases Holding.mem_entries_shared.mp held with ⟨_, _, rfl⟩ | ⟨_, _, rfl⟩ <;> simp
  · exact fun task held => held
  · intro user tray
    refine List.eq_nil_iff_forall_not_mem.mpr fun entry mem => ?_
    obtain ⟨place, _, _, untaken, _⟩ := (state.mem_entries_iff pair).mp mem
    exact (taken_and_dropped ended place).1 untaken
  · rintro task ⟨place, _, kept⟩
    exact (taken_and_dropped ended place).2 kept

end

/-- Any number of calls complete or remove a shared task from either side, in whatever way they are
interleaved.  Once all have returned, nothing of the task is left and all else is as it was.  Some
call has succeeded, on each side one at most, and one that has tells what was stored. -/
theorem without_of_finished_on_both_sides [DecidableEq ι] [Nonempty ι] (fresh : around.Fresh)
    {policy : Policy} (reached : world.Reached community around policy)
    {sender receiver : UserId} {task copy : TaskId} (member : community.member sender)
    (listed : world.store.Lists sender .sent (.linked task receiver copy))
    {operations : ι → Operation}
    (finishes : ∀ player, operations player ∈ [.complete sender task, .remove sender task,
      .complete receiver copy, .remove receiver copy])
    (policies : ι → Policy) (schedule : List (Instant × ι))
    (results : ι → Except Failure Reply) :
    let race := (Race.start world fun player =>
      ((operations player).reply (policies player)).run).run around schedule
    (∀ player, race.result? player = some (results player)) →
      world.store.Without community [task, copy] race.world.store ∧
        (∀ one other reply answer, results one = .ok reply → results other = .ok answer →
          (operations one).task? = (operations other).task? → one = other) ∧
        ∃ player reply content, results player = .ok reply ∧ reply.content? = some content ∧
          (world.store.Records task content ∨ world.store.Records copy content) := by
  intro race all_ended
  obtain ⟨pair, rfl, rfl, rfl, rfl⟩ := reached.exists_pair fresh member listed
  have sided (player : ι) : ∃ side : Side,
      operations player = .complete (side.user pair) (side.record pair) ∨
        operations player = .remove (side.user pair) (side.record pair) := by
    have known := finishes player
    simp only [List.mem_cons, List.not_mem_nil, or_false, ← or_assoc] at known
    exact Side.exists_iff.mpr (or_assoc.mp known)
  choose side on_side using sided
  obtain ⟨state, follows⟩ := (follows_start around pair on_side policies).run schedule
  have ended (player : ι) : Ends pair side player (results player) state :=
    follows.ended (all_ended player)
  refine ⟨without_of_ended ended follows.holds.1, ?_, ?_⟩
  · intro one other reply answer first second same
    refine eq_of_ok ended first second (Side.record_injective pair ?_)
    have named (player : ι) : (operations player).task? = some ((side player).record pair) := by
      rcases on_side player with same | same <;> rw [same] <;> rfl
    exact Option.some.inj ((named one).symm.trans (same.trans (named other)))
  · obtain ⟨player, reply, content, place, result, told, id_eq⟩ := exists_told ended
    refine ⟨player, reply, content, result, told, ?_⟩
    obtain ⟨task, stored⟩ := Race.tells_of_result?
      (fun player => ⟨_, _, on_side player⟩) schedule (result ▸ all_ended player) content told
    obtain rfl : content.id = task := (reached.paired fresh).id_eq stored
    rw [id_eq] at stored
    cases place with
    | sender => exact .inl stored
    | receiver => exact .inr stored

/-- `ann` completes a task while `bob` declines it, each taking one action at a time.  Both succeed,
each with its own copy, and nothing is left. -/
theorem without_of_completed_and_declined :
    let world := (World.mk .empty ⟨0⟩ 0).steps .strokes .standard
      [(⟨1⟩, .send "ann" "bob" "Call" "" none)]
    let operations (completes : Bool) : Operation :=
      if completes then .complete "ann" "|" else .remove "bob" "||"
    let results (completes : Bool) : Except Failure Reply :=
      if completes then .ok (.completed ⟨some ⟨"|", "Call", "", ⟨1⟩, none⟩, some "bob", .sent⟩)
      else .ok (.removed ⟨some ⟨"||", "Call", "", ⟨1⟩, none⟩, some "ann", .received, none⟩)
    let schedule := (List.replicate 20 [(⟨2⟩, true), (⟨2⟩, false)]).flatten
    let race := (Race.start world fun player => ((operations player).reply .standard).run).run
      .strokes schedule
    (∀ player, race.result? player = some (results player)) ∧
      world.store.Without .plain ["|", "||"] race.world.store := by
  intro world operations results schedule
  have reached : world.Reached .plain .strokes .standard :=
    ⟨[(⟨1⟩, .send "ann" "bob" "Call" "" none)], ⟨0⟩, 0,
      by simp [Operation.users, Community.plain, UserId.Plain], rfl⟩
  have ann : Community.plain.member "ann" := by simp [Community.plain, UserId.Plain]
  have sent : world.store.Lists "ann" .sent (.linked "|" "bob" "||") :=
    ⟨[.linked "|" "bob" "||"], by decide +kernel, by decide⟩
  have finishes : ∀ player, operations player ∈ [.complete "ann" "|", .remove "ann" "|",
      .complete "bob" "||", .remove "bob" "||"] := by decide
  have settled := without_of_finished_on_both_sides Surroundings.fresh_strokes reached ann sent
    finishes (fun _ => .standard) schedule results
  dsimp only at settled ⊢
  refine (and_iff_left_of_imp fun ended => (settled ended).1).mpr ?_
  decide +kernel

end Finishing
end Handoff
