import Handoff.Proofs.Stored.Refusal
import Handoff.Proofs.Workflow.Decisive

/-!
# Cleaning up deletes only what belongs to the pair

When the user's entry is gone, its record goes, and then the entry and the record on the other side,
as far as possible.  The entry on the other side is searched for, and only one that is linked back
goes.  Its record goes with it, or when all trays of the other user have been read in vain.
Whatever else is found stays, in any store and whichever calls are refused.
-/

namespace Handoff

open Trays (Searched)

namespace Store

variable {before left middle after : Store} {user : UserId} {task : TaskId} {link : Link}
  {found : Except Failure (Option Located)}

/-- What is dropped on the other side, by what the search for its entry has found. -/
inductive Sheds (before : Store) (user : UserId) (task : TaskId) (link : Link) :
    Except Failure (Option Located) → Store → Prop
  /-- The search has failed. -/
  | unreadable (failure : Failure) : Sheds before user task link (.error failure) before
  /-- The entry belongs to another pair. -/
  | elsewhere {located : Located} (other : located.entry.linksTo user task = false) :
    Sheds before user task link (.ok (some located)) before
  /-- There is no entry. -/
  | gone {after : Store} (forgets : before.MayForget link.task after) :
    Sheds before user task link (.ok none) after
  | back {located : Located} {middle after : Store}
    (back : located.entry.linksTo user task = true)
    (loses : middle = before ∨ before.Loses link.user located.tray located.entry middle)
    (forgets : middle.MayForget link.task after) :
    Sheds before user task link (.ok (some located)) after

/-- What has become of a store in cleaning up both sides: nothing has changed but what belongs to
the pair. -/
structure SparesOthers (left : Store) (user : UserId) (task : TaskId) (link : Link)
    (found : Except Failure (Option Located)) (after : Store) : Prop where
  /-- Only the two records change, and the tray of an entry that is linked back. -/
  frame : ∀ key, after.get? key ≠ left.get? key → key = Key.record task ∨
    key = Key.record link.task ∨ ∃ located, found = .ok (some located) ∧
      located.entry.linksTo user task = true ∧ key = Key.tray link.user located.tray
  /-- The user's record stays as it is if it is not deleted. -/
  own : after.get? (Key.record task) = left.get? (Key.record task) ∨
    after.get? (Key.record task) = none
  /-- A tray of the other user loses the entry that is linked back, if it changes. -/
  loss : ∀ tray, after.get? (Key.tray link.user tray) ≠ left.get? (Key.tray link.user tray) →
    ∃ entry position list, found = .ok (some ⟨tray, entry, position⟩) ∧
      entry.linksTo user task = true ∧ left.cell (Key.tray link.user tray) = .entries list ∧
      EntryList.find? link.task list = some entry ∧
      after.cell (Key.tray link.user tray) = .entries (EntryList.erase link.task list)
  /-- The other record is deleted only if its entry is linked back, or if there is none. -/
  record : link.task ≠ task →
    after.get? (Key.record link.task) ≠ left.get? (Key.record link.task) →
    after.get? (Key.record link.task) = none ∧
      ((∃ located, found = .ok (some located) ∧ located.entry.linksTo user task = true) ∨
        (found = .ok none ∧ ∀ tray, left.Lacks (Key.tray link.user tray) link.task))
  /-- If the entry is linked elsewhere or the search has failed, the other side stays. -/
  spared : found ≠ .ok none →
    (∀ located, found = .ok (some located) → located.entry.linksTo user task = false) →
    ∀ key, key ≠ Key.record task → after.get? key = left.get? key

/-- What has become of a store in cleaning up after an entry that is gone.  Of an entry that is
linked, the other side is searched for after the last call about the user's record. -/
def CleanedUp (left : Store) (user : UserId) (entry : Entry) (exchanges : List Exchange)
    (after : Store) : Prop :=
  match entry.link with
  | none => left.MayForget entry.task after
  | some link => ∃ earlier said search later found,
    exchanges = earlier ++ said :: (search ++ later) ∧
      said.call.key = Key.record entry.task ∧
      Searched left link.user link.task Tray.all search found ∧
      left.SparesOthers user entry.task link found after

theorem CleanedUp.append_left {entry : Entry} {exchanges : List Exchange}
    (cleaned : left.CleanedUp user entry exchanges after) (earlier : List Exchange) :
    left.CleanedUp user entry (earlier ++ exchanges) after := by
  unfold CleanedUp at cleaned ⊢
  split
  · rename_i unlinked
    simpa only [unlinked] using cleaned
  · rename_i link linked
    simp only [linked] at cleaned
    obtain ⟨before, said, search, later, found, rfl, about, searched, spares⟩ := cleaned
    exact ⟨earlier ++ before, said, search, later, found, (List.append_assoc ..).symm, about,
      searched, spares⟩

/-- What has become of a store in taking out an entry and cleaning up after it. -/
def RidOf (before : Store) (user : UserId) (tray : Tray) (entry : Entry)
    (exchanges : List Exchange) (after : Store) : Prop :=
  ∃ left, before.Loses user tray entry left ∧ left.CleanedUp user entry exchanges after

/-- Apart from the other record, only the tray changes where an entry was found that is linked
back. -/
theorem Sheds.get?_eq (sheds : before.Sheds user task link found after) {key : String}
    (other : key ≠ Key.record link.task)
    (elsewhere : ∀ located, found = .ok (some located) →
      located.entry.linksTo user task = true → key ≠ Key.tray link.user located.tray) :
    after.get? key = before.get? key := by
  cases sheds with
  | unreadable | elsewhere => rfl
  | gone forgets => exact forgets.get?_of_ne other
  | back back loses forgets =>
      rw [forgets.get?_of_ne other]
      obtain rfl | loses := loses
      · rfl
      · exact loses.kept key (elsewhere _ rfl back)

theorem Sheds.exists_back (sheds : before.Sheds user task link found after) {tray : Tray}
    (changed : after.get? (Key.tray link.user tray) ≠ before.get? (Key.tray link.user tray)) :
    ∃ located, found = .ok (some located) ∧ located.tray = tray ∧
      located.entry.linksTo user task = true ∧
      ∃ list, before.cell (Key.tray link.user tray) = .entries list ∧
        EntryList.find? located.entry.task list = some located.entry ∧
        after.cell (Key.tray link.user tray) =
          .entries (EntryList.erase located.entry.task list) := by
  cases sheds with
  | unreadable | elsewhere => exact absurd rfl changed
  | gone forgets => exact absurd (forgets.get?_tray ..) changed
  | back back loses forgets =>
      rw [forgets.get?_tray] at changed
      obtain rfl | loses := loses
      · exact absurd rfl changed
      · have here := Key.tray_injective (not_imp_comm.mp (loses.kept _) changed)
        obtain ⟨list, shown, first, gone⟩ := loses.lost
        refine ⟨_, rfl, here.symm, back, list, here ▸ shown, first, ?_⟩
        rw [cell_congr (forgets.get?_tray ..), here]
        exact gone

/-- The other record stays unless its entry is linked back or there is none. -/
theorem Sheds.get?_record (sheds : before.Sheds user task link found after)
    (changed : after.get? (Key.record link.task) ≠ before.get? (Key.record link.task)) :
    after.get? (Key.record link.task) = none ∧
      ((∃ located, found = .ok (some located) ∧ located.entry.linksTo user task = true) ∨
        found = .ok none) := by
  cases sheds with
  | unreadable | elsewhere => exact absurd rfl changed
  | gone forgets => exact ⟨forgets.get?_self.resolve_left changed, .inr rfl⟩
  | back back loses forgets =>
      refine ⟨forgets.get?_self.resolve_left fun same => changed (same.trans ?_),
        .inl ⟨_, rfl, back⟩⟩
      obtain rfl | loses := loses
      · rfl
      · exact loses.kept _ (Key.record_ne_tray _ _ _)

/-- The user's record is dropped first, and then the other side. -/
theorem Sheds.sparesOthers {search : List Exchange} (forgets : left.MayForget task middle)
    (searched : Searched left link.user link.task Tray.all search found)
    (sheds : middle.Sheds user task link found after) :
    left.SparesOthers user task link found after where
  frame key changed := by
    by_contra! other
    obtain ⟨not_own, not_other, elsewhere⟩ := other
    rw [sheds.get?_eq not_other elsewhere] at changed
    exact changed (forgets.get?_of_ne not_own)
  own := by
    by_cases same : after.get? (Key.record task) = middle.get? (Key.record task)
    · rw [same]
      exact forgets.get?_self
    · have keys : Key.record task = Key.record link.task := by
        by_contra other
        exact same (sheds.get?_eq other fun _ _ _ => Key.record_ne_tray _ _ _)
      rw [keys] at same ⊢
      exact .inr (sheds.get?_record same).1
  loss tray changed := by
    rw [← forgets.get?_tray] at changed
    obtain ⟨⟨_, entry, position⟩, rfl, rfl, back, list, shown, first, gone⟩ :=
      sheds.exists_back changed
    obtain ⟨others, others_shown, others_first⟩ := searched.exists_find?
    rw [cell_congr (forgets.get?_tray ..)] at shown
    cases others_shown.symm.trans shown
    rw [EntryList.task_eq_of_find? others_first] at first gone
    exact ⟨entry, position, _, rfl, back, shown, first, gone⟩
  record differs changed := by
    have other : Key.record link.task ≠ Key.record task := fun keys =>
      differs (Key.record_injective keys)
    rw [← forgets.get?_of_ne other] at changed
    obtain ⟨gone, ⟨located, rfl, back⟩ | rfl⟩ := sheds.get?_record changed
    · exact ⟨gone, .inl ⟨located, rfl, back⟩⟩
    · exact ⟨gone, .inr ⟨rfl, fun tray => searched.forall_absent tray tray.mem_all⟩⟩
  spared not_gone elsewhere key other := by
    rw [← forgets.get?_of_ne other]
    cases sheds with
    | unreadable | elsewhere => rfl
    | gone => exact absurd rfl not_gone
    | back back => cases (elsewhere _ rfl).symm.trans back

end Store

open Attempt (Runs)

variable {store after : Store} {exchanges : List Exchange} {user : UserId} {task : TaskId}
  {link : Link} {budget : Nat}

namespace Workflow

theorem of_runs_dropRecord {result : Option Task}
    (runs : (dropRecord task).Runs store exchanges result after) :
    (∃ earlier said, exchanges = earlier ++ [said] ∧ said.call.key = Key.record task) ∧
      store.MayForget task after := by
  obtain ⟨ended, earlier, later, middle, rfl, taking, rest⟩ := runs.of_bind
  have still : later = [] ∧ after = middle := by
    cases ended with
    | ok content =>
        obtain ⟨silent, _, still⟩ := rest.of_pure
        exact ⟨silent, still⟩
    | error failure =>
        obtain ⟨silent, _, still⟩ := rest.of_note_bind.of_pure
        exact ⟨silent, still⟩
  obtain ⟨rfl, rfl⟩ := still
  rw [List.append_nil]
  exact Records.of_runs_take taking

theorem of_runs_dropEntry {tray : Tray} {list : List Entry} {entry : Entry}
    (shown : store.cell (Key.tray link.user tray) = .entries list)
    (first : EntryList.find? link.task list = some entry)
    (runs : (dropEntry budget link tray).Runs store exchanges () after) :
    after = store ∨ store.Loses link.user tray entry after := by
  obtain ⟨ended, _, _, middle, rfl, removing, rest⟩ := runs.of_bind
  obtain ⟨_, rfl, rfl⟩ | ⟨others, other, rfl, others_shown, other_first, loses⟩ :=
    Trays.of_runs_remove removing
  · exact .inl rest.of_note.2
  · cases shown.symm.trans others_shown
    cases first.symm.trans other_first
    obtain ⟨_, _, rfl⟩ := rest.of_pure
    exact .inr loses

theorem of_runs_cleanUpOther {result : Option Tray × Option Task}
    (runs : (cleanUpOther budget user task link).Runs store exchanges result after) :
    ∃ search later found, exchanges = search ++ later ∧
      Searched store link.user link.task Tray.all search found ∧
      store.Sheds user task link found after := by
  obtain ⟨found, search, later, middle, rfl, searching, rest⟩ := runs.of_bind
  obtain ⟨rfl, searched⟩ := Trays.of_runs_locateIn searching
  refine ⟨search, later, found, rfl, searched, ?_⟩
  rcases found with failure | _ | located
  · obtain ⟨_, _, rfl⟩ := rest.of_note_bind.of_pure
    exact .unreadable failure
  · obtain ⟨_, _, dropping⟩ := rest.of_note_bind.of_bind_pure
    exact .gone (of_runs_dropRecord dropping).2
  · dsimp only at rest
    split at rest
    · rename_i back
      obtain ⟨list, shown, first⟩ := searched.exists_find?
      obtain ⟨_, _, _, _, rfl, removing, drops⟩ := rest.of_bind
      obtain ⟨_, _, dropping⟩ := drops.of_bind_pure
      exact .back back (of_runs_dropEntry shown first removing) (of_runs_dropRecord dropping).2
    · rename_i other
      obtain ⟨_, _, rfl⟩ := rest.of_note_bind.of_pure
      exact .elsewhere (Bool.eq_false_iff.mpr other)

theorem of_runs_cleanUp {entry : Entry} {result : Cleanup}
    (runs : (cleanUp budget user entry).Runs store exchanges result after) :
    store.CleanedUp user entry exchanges after := by
  obtain ⟨own, earlier, rest, middle, rfl, dropping, goes⟩ := runs.of_bind
  obtain ⟨⟨earlier, said, rfl, about⟩, forgets⟩ := of_runs_dropRecord dropping
  unfold Store.CleanedUp
  split
  · rename_i unlinked
    simp only [unlinked] at goes
    obtain ⟨_, _, rfl⟩ := goes.of_pure
    exact forgets
  · rename_i link linked
    simp only [linked] at goes
    obtain ⟨_, _, cleaning⟩ := goes.of_bind_pure
    obtain ⟨search, later, found, rfl, searched, sheds⟩ := of_runs_cleanUpOther cleaning
    have searched_left := searched.congr fun tray => (forgets.get?_tray link.user tray).symm
    refine ⟨earlier, said, search, later, found, ?_, about, searched_left,
      sheds.sparesOthers forgets searched_left⟩
    rw [List.append_assoc, List.singleton_append]

theorem of_runs_locate {ended : Except Failure Located}
    (runs : Runs (locate user task) store exchanges ended after) :
    after = store ∧ ∀ located, ended = .ok located → ∃ list,
      store.cell (Key.tray user located.tray) = .entries list ∧
        EntryList.find? task list = some located.entry := by
  obtain ⟨failure, rfl, searching⟩ | ⟨found, _, _, middle, rfl, searching, tells⟩ := runs.of_bind
  · refine ⟨(Trays.of_runs_locateIn searching).1, ?_⟩
    rintro located ⟨⟩
  · obtain ⟨same, searched⟩ := Trays.of_runs_locateIn searching
    cases found with
    | none =>
        obtain ⟨_, rfl, still⟩ := Runs.of_throw tells
        refine ⟨still.trans same, ?_⟩
        rintro located ⟨⟩
    | some located =>
        obtain ⟨_, rfl, still⟩ := Runs.of_pure tells
        refine ⟨still.trans same, ?_⟩
        rintro _ ⟨⟩
        exact searched.exists_find?

/-- Taking out fails without effect, or takes out the entry for the task and cleans up. -/
theorem of_runs_takeOut {policy : Policy} {event : Event} {ended : Except Failure (Tray × Cleanup)}
    (runs : Runs (takeOut policy user task event) store exchanges ended after) :
    (∃ failure, ended = .error failure ∧ after = store) ∨
      ∃ told tray entry, ended = .ok told ∧ entry.task = task ∧
        store.RidOf user tray entry exchanges after := by
  obtain ⟨failure, rfl, locating⟩ | ⟨located, locates, rest, middle, rfl, locating, goes⟩ :=
    runs.of_bind
  · exact .inl ⟨failure, rfl, (of_runs_locate locating).1⟩
  · obtain ⟨rfl, locates⟩ := of_runs_locate locating
    obtain ⟨list, shown, first⟩ := locates located rfl
    obtain ⟨failure, rfl, removing⟩ | ⟨entry, removes, later, left, rfl, removing, cleaning⟩ :=
      goes.of_bind
    · obtain ⟨_, _, still⟩ | ⟨_, _, ⟨⟩, _⟩ := Trays.of_runs_remove removing
      exact .inl ⟨failure, rfl, still⟩
    · obtain ⟨_, ⟨⟩, _⟩ | ⟨others, _, ⟨⟩, others_shown, others_first, loses⟩ :=
        Trays.of_runs_remove removing
      cases shown.symm.trans others_shown
      cases first.symm.trans others_first
      obtain ⟨cleanup, cleans, _, _, rfl, cleaned, tells⟩ := cleaning.of_lift_bind
      obtain ⟨rfl, rfl, rfl⟩ := Runs.of_pure tells.of_note_bind
      refine .inr ⟨_, located.tray, located.entry, rfl, EntryList.task_eq_of_find? first, left,
        loses, ?_⟩
      rw [List.append_nil, ← List.append_assoc]
      exact (of_runs_cleanUp cleaned).append_left _

theorem of_runs_pop {policy : Policy} {ended : Except Failure Completion}
    (runs : Runs (pop policy user) store exchanges ended after) :
    (∃ failure, ended = .error failure ∧ after = store) ∨
      ∃ told first rest, ended = .ok told ∧
        store.cell (Key.tray user .owned) = .entries (first :: rest) ∧
        store.RidOf user .owned first exchanges after := by
  obtain ⟨failure, rfl, popping⟩ | ⟨entry, pops, later, left, rfl, popping, cleaning⟩ :=
    runs.of_bind
  · obtain ⟨_, _, still⟩ | ⟨_, _, ⟨⟩, _⟩ := Trays.of_runs_pop popping
    exact .inl ⟨failure, rfl, still⟩
  · obtain ⟨_, ⟨⟩, _⟩ | ⟨_, rest, ⟨⟩, shown, loses⟩ := Trays.of_runs_pop popping
    obtain ⟨cleanup, cleans, _, _, rfl, cleaned, tells⟩ := cleaning.of_lift_bind
    obtain ⟨rfl, rfl, rfl⟩ := Runs.of_pure tells.of_note_bind
    refine .inr ⟨_, entry, rest, rfl, shown, left, loses, ?_⟩
    rw [List.append_nil]
    exact (of_runs_cleanUp cleaned).append_left _

end Workflow

namespace Operation

/-- Whether an operation takes an entry out of a tray, for good. -/
def takesOut : Operation → Bool
  | .complete .. | .remove .. | .pop _ => true
  | .add .. | .send .. | .accept .. | .bump .. | .edit .. | .assign .. => false

/-- Which entry an operation takes out of which tray of which user, if it succeeds: the one for its
task, or the first one of the owned tray. -/
def Takes (store : Store) (user : UserId) (tray : Tray) (entry : Entry) : Operation → Prop
  | .complete owner task | .remove owner task => owner = user ∧ entry.task = task
  | .pop owner => owner = user ∧ tray = .owned ∧
    ∃ rest, store.cell (Key.tray user .owned) = .entries (entry :: rest)
  | .add .. | .send .. | .accept .. | .bump .. | .edit .. | .assign .. => False

theorem of_runs_reply {policy : Policy} {operation : Operation} (takes : operation.takesOut = true)
    {ended : Except Failure Reply}
    (runs : Runs (operation.reply policy) store exchanges ended after) :
    (∃ failure, ended = .error failure ∧ after = store) ∨
      ∃ reply user tray entry, ended = .ok reply ∧ operation.Takes store user tray entry ∧
        store.RidOf user tray entry exchanges after := by
  cases operation with
  | add | send | accept | bump | edit | assign => cases takes
  | complete user task =>
      obtain ⟨_, rfl, completing⟩ := Runs.of_map runs
      obtain ⟨_, rfl, taking⟩ := Runs.of_bind_pure completing
      obtain ⟨failure, rfl, still⟩ | ⟨told, tray, entry, rfl, own, rid⟩ :=
        Workflow.of_runs_takeOut taking
      · exact .inl ⟨failure, rfl, still⟩
      · exact .inr ⟨_, user, tray, entry, rfl, ⟨rfl, own⟩, rid⟩
  | remove user task =>
      obtain ⟨_, rfl, removing⟩ := Runs.of_map runs
      obtain ⟨_, rfl, taking⟩ := Runs.of_bind_pure removing
      obtain ⟨failure, rfl, still⟩ | ⟨told, tray, entry, rfl, own, rid⟩ :=
        Workflow.of_runs_takeOut taking
      · exact .inl ⟨failure, rfl, still⟩
      · exact .inr ⟨_, user, tray, entry, rfl, ⟨rfl, own⟩, rid⟩
  | pop user =>
      obtain ⟨_, rfl, popping⟩ := Runs.of_map runs
      obtain ⟨failure, rfl, still⟩ | ⟨told, first, rest, rfl, shown, rid⟩ :=
        Workflow.of_runs_pop popping
      · exact .inl ⟨failure, rfl, still⟩
      · exact .inr ⟨_, user, .owned, first, rfl, ⟨rfl, rfl, rest, shown⟩, rid⟩

/-- Whatever the store is like and whichever calls it refuses, completing, removing and popping
change nothing if they fail.  If they succeed, an entry of the user is gone and at most what belongs
to its pair. -/
theorem ridOf_of_outages (around : Surroundings) (outages : List Exchange → Option Outage)
    (policy : Policy) (operation : Operation) (takes : operation.takesOut = true) (world : World) :
    let ended := (operation.reply policy).run.runListed around outages world
    match ended.1 with
    | .error _ => ended.2.1.store = world.store
    | .ok _ => ∃ user tray entry, operation.Takes world.store user tray entry ∧
      world.store.RidOf user tray entry ended.2.2 ended.2.1.store := by
  intro ended
  have runs : Runs (operation.reply policy) world.store ended.2.2 ended.1 ended.2.1.store :=
    Program.runs_runListed around outages (operation.reply policy).run world
  obtain ⟨failure, failed, still⟩ | ⟨reply, user, tray, entry, succeeded, taken, rid⟩ :=
    of_runs_reply takes runs
  · rw [failed]
    exact still
  · rw [succeeded]
    exact ⟨user, tray, entry, taken, rid⟩

/-- A sender completes a task when the receiver's owned tray cannot be read and the store refuses to
delete the sender's record: the sender's entry is gone, and nothing else. -/
theorem ridOf_of_unreadable_tray :
    let sent := (World.mk .empty ⟨0⟩ 0).steps .strokes .standard
      [(⟨1⟩, .send "ann" "bob" "Call" "" none)]
    let world := { sent with store := sent.store.insert (Key.tray "bob" .owned) [0] }
    let outages : List Exchange → Option Outage := fun past =>
      if past.length = 5 then some ⟨"down"⟩ else none
    let ended := ((complete "ann" "|").reply .standard).run.runListed .strokes outages world
    ended.1 = .ok (.completed ⟨none, some "bob", .sent⟩) ∧
      (∃ user tray entry, (complete "ann" "|").Takes world.store user tray entry ∧
        world.store.RidOf user tray entry ended.2.2 ended.2.1.store) ∧
      ended.2.1.store.cell (Key.tray "ann" .sent) = .entries [] ∧
      ended.2.1.store.cell (Key.tray "bob" .received) = .entries [.linked "||" "ann" "|"] ∧
      (ended.2.1.store.get? (Key.record "|")).isSome = true := by
  intro sent world outages ended
  have succeeded : ended.1 = .ok (.completed ⟨none, some "bob", .sent⟩) := by decide +kernel
  refine ⟨succeeded, ?_, by decide +kernel, by decide +kernel, by decide +kernel⟩
  clear_value world
  have rid := ridOf_of_outages .strokes outages .standard (complete "ann" "|") rfl world
  dsimp only at rid
  rw [succeeded] at rid
  exact rid

end Operation
end Handoff
