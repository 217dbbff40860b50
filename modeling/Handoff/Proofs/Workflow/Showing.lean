import Handoff.Proofs.Pairing.Spares.Steps
import Handoff.Proofs.Race.Pair
import Handoff.Proofs.Stored.Reading
import Handoff.Proofs.Stored.Search
import Handoff.Proofs.Workflow.Reading

/-!
# What is shown

A tray is shown as it is stored: a view for each entry whose record can be read, in the same order,
with the place of the entry on the other side as far as it can be found.  Where links are mutual,
nothing is left out and every place is right.
-/

namespace Handoff

namespace Store

/-- A view tells where the first entry for the task of a link is, or leaves it open. -/
structure Places (store : Store) (link : Link) (view : TaskView) : Prop where
  together : view.partnerTray.isSome = view.partnerPosition.isSome
  place : ∀ tray position, view.partnerTray = some tray → view.partnerPosition = some position →
    store.FirstWith link.user link.task tray ∧
      ∃ list, store.cell (Key.tray link.user tray) = .entries list ∧
        EntryList.FirstAt list link.task position
  /-- The place is left open if there is no entry, or if a tray before the first one that has an
  entry cannot be read. -/
  absent : view.partnerTray = none ↔
    (∀ tray, ¬store.Has link.user tray link.task) ∨ store.Obstructed link.user link.task

/-- A view shows the record of an entry, and what can be found out of the other side. -/
structure Presents (store : Store) (called : UserId → String) (entry : Entry) (view : TaskView) :
    Prop where
  content : store.Records entry.task view.task
  unshared : entry.link = none → view = .unshared view.task
  partner : ∀ link, entry.link = some link → view.partner = some (called link.user)
  places : ∀ link, entry.link = some link → store.Places link view

/-- A tally has the numbers of entries of a user's trays, all of which can be read. -/
def Counts (store : Store) (user : UserId) (tally : Tally) : Prop :=
  ∀ tray, ∃ list, store.cell (Key.tray user tray) = .entries list ∧
    tally.get tray = list.length

theorem exists_counts (store : Store) {user : UserId}
    (readable : ∀ tray, ∃ list, store.cell (Key.tray user tray) = .entries list) :
    ∃ tally, store.Counts user tally := by
  choose lists shown using readable
  refine ⟨⟨(lists .owned).length, (lists .sent).length, (lists .received).length⟩, fun tray => ?_⟩
  refine ⟨lists tray, shown tray, ?_⟩
  cases tray <;> rfl

/-- The place that a view tells for a linked entry of a user is that of an entry which is linked
back. -/
def LeadsBack (store : Store) (user : UserId) (entry : Entry) (view : TaskView) : Prop :=
  ∀ link, entry.link = some link → ∃ tray position list, view.partnerTray = some tray ∧
    view.partnerPosition = some position ∧
    store.cell (Key.tray link.user tray) = .entries list ∧
    list[position]? = some (.linked link.task user entry.task)

variable {store : Store} {community : Community} {user : UserId} {tray : Tray} {entry : Entry}
  {called : UserId → String} {view : TaskView}

/-- Where links are mutual, the place that a view tells is the right one. -/
theorem Paired.leadsBack (paired : store.Paired community) (member : community.member user)
    (listed : store.Lists user tray entry) (presents : store.Presents called entry view) :
    store.LeadsBack user entry view := by
  intro link linked
  obtain ⟨link_member, place, back⟩ := paired.exists_back member listed linked
  obtain ⟨together, places, absent⟩ := presents.places link linked
  have told : view.partnerTray ≠ none := by
    intro untold
    rcases absent.mp untold with nowhere | ⟨_, earlier, _, _, illegible⟩
    · exact nowhere place ⟨_, back, rfl⟩
    · exact illegible_tray_iff.mp illegible (paired.readable link.user earlier link_member)
  obtain ⟨first, first_told⟩ := Option.ne_none_iff_exists'.mp told
  obtain ⟨position, position_told⟩ : ∃ position, view.partnerPosition = some position := by
    rw [← Option.isSome_iff_exists, ← together, first_told]
    rfl
  obtain ⟨_, list, shown, ⟨other, here, same⟩, _⟩ := places first position first_told position_told
  have other_listed : store.Lists link.user first other :=
    ⟨list, shown, List.mem_of_getElem? here⟩
  obtain rfl := paired.eq_of_task_eq link_member link_member other_listed back same
  exact ⟨first, position, list, first_told, position_told, shown, here⟩

/-- Where links are mutual, the record of every entry can be read. -/
theorem Paired.isSome_content? (paired : store.Paired community) (member : community.member user)
    (listed : store.Lists user tray entry) : (store.content? entry.task).isSome = true := by
  obtain ⟨content, recorded⟩ := paired.exists_records member listed
  exact Option.isSome_iff_exists.mpr ⟨content, content?_eq_some_iff.mpr recorded⟩

end Store

namespace World

/-- A task as it is shown to its user, in this world. -/
def view (world : World) (called : UserId → String) (task : Task) : Option Link → TaskView
  | none => .unshared task
  | some link =>
    let located := world.scene.locate? link.user link.task
    ⟨task, some (called link.user), located.map Located.tray, located.map Located.position⟩

/-- The view of an entry, if its record can be read. -/
def view? (world : World) (called : UserId → String) (entry : Entry) : Option TaskView :=
  (world.store.content? entry.task).map fun task => world.view called task entry.link

variable {world : World} {called : UserId → String} {entry : Entry} {view : TaskView}

theorem places_view (task : Task) (link : Link) :
    world.store.Places link (world.view called task (some link)) where
  together := by simp [World.view]
  place := by
    intro tray position tray_eq position_eq
    obtain ⟨located, found, rfl⟩ := Option.map_eq_some_iff.mp tray_eq
    simp only [World.view, found, Option.map_some, Option.some_inj] at position_eq
    subst position_eq
    obtain ⟨first, _, list, shown, here⟩ := firstWith_of_locate? found
    exact ⟨first, list, shown, EntryList.firstAt_of_locate? here⟩
  absent := by
    rw [← locate?_eq_none_iff]
    simp [World.view]

theorem presents_of_view? (viewed : world.view? called entry = some view) :
    world.store.Presents called entry view := by
  obtain ⟨task, recorded, rfl⟩ := Option.map_eq_some_iff.mp viewed
  have content := Store.content?_eq_some_iff.mp recorded
  cases linked : entry.link with
  | none => exact ⟨content, fun _ => rfl, by simp [linked], by simp [linked]⟩
  | some link =>
      refine ⟨content, by simp [linked], ?_, ?_⟩
      · rintro other same
        cases linked.symm.trans same
        rfl
      · rintro other same
        cases linked.symm.trans same
        exact places_view task link

/-- The views show the entries whose records can be read, one each, in order. -/
theorem forall₂_presents (world : World) (called : UserId → String) (list : List Entry) :
    List.Forall₂ (world.store.Presents called)
      (list.filter fun entry => (world.store.content? entry.task).isSome)
      (list.filterMap (world.view? called)) := by
  induction list with
  | nil => exact .nil
  | cons entry list induction =>
      cases recorded : world.store.content? entry.task with
      | none =>
          have skipped : world.view? called entry = none := by simp [view?, recorded]
          simpa [recorded, skipped] using induction
      | some task =>
          have viewed : world.view? called entry = some (world.view called task entry.link) := by
            simp [view?, recorded]
          simpa [recorded, viewed] using ⟨presents_of_view? viewed, induction⟩

end World

namespace Workflow

open Conditions (calm)

variable {conditions : Conditions} {world : World} {user : UserId} {tray : Tray} {policy : Policy}

/-- What a user is called where their name is known, or else the placeholder. -/
def calledIn (around : Surroundings) (policy : Policy) (user : UserId) : String :=
  (around.nameOf user).getD policy.placeholder

theorem run_nameOf (conditions : Conditions) (policy : Policy) (user : UserId) (world : World) :
    conditions.run (nameOf policy user) world =
      (calledIn conditions.around policy user, world) := by
  have asked : conditions.run (Program.perform (.nameOf user)) world =
      (conditions.around.nameOf user, world) := rfl
  unfold nameOf calledIn
  rw [Conditions.run_after, asked]
  cases conditions.around.nameOf user <;> rfl

theorem run_otherPlace (conditions : Conditions) (link : Link) (world : World) :
    conditions.run (otherPlace link) world = (world.scene.locate? link.user link.task, world) := by
  obtain ⟨outcome, run, found⟩ :=
    Trays.run_locateIn conditions world link.user link.task Tray.all
  unfold otherPlace Trays.locate? Scene.locate?
  rw [Conditions.run_after, run, ← found]
  cases outcome <;> rfl

theorem run_viewOf (conditions : Conditions) (policy : Policy) (task : Task) (link : Option Link)
    (world : World) : conditions.run (viewOf policy task link) world =
      (world.view (calledIn conditions.around policy) task link, world) := by
  cases link with
  | none => rfl
  | some link =>
      unfold viewOf World.view
      rw [Conditions.run_after, run_otherPlace, Conditions.run_after, run_nameOf]
      rfl

/-- Every entry is shown in the world as it is, since showing changes nothing. -/
theorem run_viewsOf (conditions : Conditions) (policy : Policy) (entries : List Entry)
    (world : World) : conditions.run (viewsOf policy entries) world =
      (entries.filterMap (world.view? (calledIn conditions.around policy)), world) := by
  induction entries with
  | nil => rfl
  | cons entry entries induction =>
      obtain ⟨outcome, run, found⟩ := Records.run_load conditions world entry.task
      have viewed : world.view? (calledIn conditions.around policy) entry =
          outcome.toOption.map fun task =>
            world.view (calledIn conditions.around policy) task entry.link := by
        rw [found, World.view?]
      unfold viewsOf
      rw [Conditions.run_after, run, List.filterMap_cons, viewed]
      cases outcome with
      | error failure =>
          have noted : conditions.run (Program.perform (.note .entrySkipped)) world =
            ((), world) := rfl
          dsimp only
          rw [Conditions.run_after, noted]
          exact induction
      | ok task =>
          dsimp only
          rw [Conditions.run_after, run_viewOf, Conditions.run_after, induction]
          rfl

theorem run_list {list : List Entry} (policy : Policy)
    (shown : world.store.cell (Key.tray user tray) = .entries list) :
    conditions.run (Workflow.list policy user tray).run world =
      (.ok (list.filterMap (world.view? (calledIn conditions.around policy))), world) := by
  rw [Workflow.list, Conditions.run_bind, Trays.run_entries shown]
  dsimp only
  rw [Conditions.run_lift, run_viewsOf]

theorem run_list_of_value {bytes : Option Bytes} (conditions : Conditions) (policy : Policy)
    (hidden : world.store.cell (Key.tray user tray) = .value bytes) :
    ∃ failure, conditions.run (Workflow.list policy user tray).run world =
      (.error failure, world) := by
  obtain ⟨cause, run⟩ := Trays.run_entries_of_value conditions hidden
  refine ⟨.unreadableTray cause, ?_⟩
  rw [Workflow.list, Conditions.run_bind, run]

/-- Trays are counted exactly if all of them can be read. -/
theorem run_count (conditions : Conditions) (user : UserId) (world : World) :
    ∃ outcome, conditions.run (count user).run world = (outcome, world) ∧
      ∀ tally, outcome = .ok tally ↔ world.store.Counts user tally := by
  obtain ⟨owned, owned_run, owned_iff⟩ := Trays.run_entries_iff conditions world user .owned
  obtain ⟨sent, sent_run, sent_iff⟩ := Trays.run_entries_iff conditions world user .sent
  obtain ⟨received, received_run, received_iff⟩ :=
    Trays.run_entries_iff conditions world user .received
  have uncounted {place : Tray} {failure : Failure} (refused : ∀ list : List Entry,
      (.error failure : Except Failure (List Entry)) = .ok list ↔
        world.store.cell (Key.tray user place) = .entries list) (tally : Tally) :
      (.error failure : Except Failure Tally) = .ok tally ↔ world.store.Counts user tally := by
    refine iff_of_false (by rintro ⟨⟩) fun counts => ?_
    obtain ⟨list, shown, _⟩ := counts place
    cases (refused list).mpr shown
  unfold count
  rw [Conditions.run_bind, owned_run]
  cases owned with
  | error failure => exact ⟨_, rfl, uncounted owned_iff⟩
  | ok mine =>
      dsimp only
      rw [Conditions.run_bind, sent_run]
      cases sent with
      | error failure => exact ⟨_, rfl, uncounted sent_iff⟩
      | ok others =>
          dsimp only
          rw [Conditions.run_bind, received_run]
          cases received with
          | error failure => exact ⟨_, rfl, uncounted received_iff⟩
          | ok waiting =>
              refine ⟨.ok ⟨mine.length, others.length, waiting.length⟩, rfl, fun tally => ?_⟩
              constructor
              · rintro ⟨⟩ tray
                cases tray with
                | owned => exact ⟨mine, (owned_iff mine).mp rfl, rfl⟩
                | sent => exact ⟨others, (sent_iff others).mp rfl, rfl⟩
                | received => exact ⟨waiting, (received_iff waiting).mp rfl, rfl⟩
              · intro counts
                obtain ⟨_, owned_shown, owned_length⟩ := counts .owned
                obtain ⟨_, sent_shown, sent_length⟩ := counts .sent
                obtain ⟨_, received_shown, received_length⟩ := counts .received
                cases (owned_iff _).mpr owned_shown
                cases (sent_iff _).mpr sent_shown
                cases (received_iff _).mpr received_shown
                rw [← owned_length, ← sent_length, ← received_length]
                rfl

/-- Where links are mutual, no entry is left out, and every place that is told is right. -/
theorem forall₂_presents_of_paired {community : Community} (paired : world.store.Paired community)
    (member : community.member user) {list : List Entry}
    (shown : world.store.cell (Key.tray user tray) = .entries list) (called : UserId → String) :
    List.Forall₂ (fun entry view => world.store.Presents called entry view ∧
      world.store.LeadsBack user entry view) list (list.filterMap (world.view? called)) := by
  have listed (entry : Entry) (mem : entry ∈ list) : world.store.Lists user tray entry :=
    ⟨list, shown, mem⟩
  have presents := world.forall₂_presents called list
  rw [List.filter_eq_self.mpr fun entry mem => paired.isSome_content? member (listed entry mem)]
    at presents
  have back (entry : Entry) (mem : entry ∈ list) (view : TaskView)
      (shows : world.store.Presents called entry view) :
      world.store.LeadsBack user entry view :=
    paired.leadsBack member (listed entry mem) shows
  refine ((List.forall₂_and_left _ _).mpr ⟨back, presents⟩).imp ?_
  exact fun entry view ⟨back, shows⟩ => ⟨shows, back view shows⟩

/-- Showing a tray fails exactly if it cannot be read.  Otherwise there is one view for each entry
whose record can be read, in order, which shows the record and what can be found of the other side.
Counting tells the numbers of entries.  Nothing is written, whatever the store answers.  In a world
that operations of members have reached, no entry is left out, and the places that are told lead to
entries which are linked back. -/
theorem shown_as_stored (around : Surroundings) (policy : Policy) (world : World) (user : UserId)
    (tray : Tray) :
    let listing := (Workflow.list policy user tray).run.run around world
    let counting := (count user).run.run around world
    let called := calledIn around policy
    ((∃ failure, listing.1 = .error failure) ↔ world.store.Illegible (Key.tray user tray)) ∧
    (∀ list, world.store.cell (Key.tray user tray) = .entries list → ∃ views,
      listing.1 = .ok views ∧ List.Forall₂ (world.store.Presents called)
        (list.filter fun entry => (world.store.content? entry.task).isSome) views) ∧
    (∀ tally, counting.1 = .ok tally ↔ world.store.Counts user tally) ∧
    (Attempt.Honours Contract.reading (fun _ => True) (Workflow.list policy user tray) ∧
      Attempt.Honours Contract.reading (fun _ => True) (count user) ∧
      listing.2 = world ∧ counting.2 = world) ∧
    ∀ (community : Community) (served : Policy), around.Fresh →
      world.Reached community around served → community.member user →
      ∃ list views tally, world.store.cell (Key.tray user tray) = .entries list ∧
        listing.1 = .ok views ∧ counting.1 = .ok tally ∧ views.length = tally.get tray ∧
        List.Forall₂ (fun entry view => world.store.Presents called entry view ∧
          world.store.LeadsBack user entry view) list views := by
  intro listing counting called
  have shows {list : List Entry}
      (shown : world.store.cell (Key.tray user tray) = .entries list) :
      listing = (.ok (list.filterMap (world.view? called)), world) :=
    (Conditions.run_calm around _ world).symm.trans (run_list policy shown)
  obtain ⟨outcome, run, counts_iff⟩ := run_count (calm around) user world
  have counted : counting = (outcome, world) :=
    (Conditions.run_calm around _ world).symm.trans run
  refine ⟨?_, ?_, ?_, ⟨honours_reading_list user tray, honours_reading_count user, ?_, ?_⟩, ?_⟩
  · cases shown : world.store.cell (Key.tray user tray) with
    | entries list =>
        rw [Store.illegible_tray_iff, shows shown]
        simp [shown]
    | value bytes =>
        obtain ⟨failure, run⟩ := run_list_of_value (calm around) policy shown
        rw [Conditions.run_calm] at run
        rw [Store.illegible_tray_iff]
        exact iff_of_true ⟨failure, congrArg Prod.fst run⟩ (by simp [shown])
  · intro list shown
    rw [shows shown]
    exact ⟨_, rfl, world.forall₂_presents called list⟩
  · intro tally
    rw [counted, ← counts_iff]
  · cases shown : world.store.cell (Key.tray user tray) with
    | entries list => rw [shows shown]
    | value bytes =>
        obtain ⟨failure, run⟩ := run_list_of_value (calm around) policy shown
        rw [Conditions.run_calm] at run
        exact congrArg Prod.snd run
  · exact congrArg Prod.snd counted
  · intro community served fresh reached member
    have paired := reached.paired fresh
    obtain ⟨list, shown⟩ := paired.readable user tray member
    have presents := forall₂_presents_of_paired paired member shown called
    obtain ⟨tally, counts⟩ :=
      world.store.exists_counts fun place => paired.readable user place member
    refine ⟨list, _, tally, shown, ?_, ?_, ?_, presents⟩
    · rw [shows shown]
    · rw [counted]
      exact (counts_iff tally).mpr counts
    · obtain ⟨others, others_shown, length⟩ := counts tray
      cases shown.symm.trans others_shown
      rw [length, presents.length_eq]

/-- What `ann` has sent is shown with the place where it waits for `bob`. -/
theorem shown_of_sent :
    let world := (World.mk .empty ⟨0⟩ 0).steps .strokes .standard
      [(⟨1⟩, .send "ann" "bob" "Call" "" none)]
    Surroundings.strokes.Fresh ∧ world.Reached .plain .strokes .standard ∧
      Community.plain.member "ann" ∧
      ((Workflow.list .standard "ann" .sent).run.run .strokes world).1 =
        .ok [⟨⟨"|", "Call", "", ⟨1⟩, none⟩, some "Someone", some .received, some 0⟩] ∧
      ∃ list views tally, world.store.cell (Key.tray "ann" .sent) = .entries list ∧
        ((Workflow.list .standard "ann" .sent).run.run .strokes world).1 = .ok views ∧
        ((count "ann").run.run .strokes world).1 = .ok tally ∧ views.length = tally.get .sent ∧
        List.Forall₂ (fun entry view =>
          world.store.Presents (calledIn .strokes .standard) entry view ∧
            world.store.LeadsBack "ann" entry view) list views := by
  intro world
  have reached : world.Reached .plain .strokes .standard :=
    ⟨[(⟨1⟩, .send "ann" "bob" "Call" "" none)], ⟨0⟩, 0,
      by simp [Operation.users, Community.plain, UserId.Plain], rfl⟩
  have ann : Community.plain.member "ann" := by simp [Community.plain, UserId.Plain]
  refine ⟨Surroundings.fresh_strokes, reached, ann, by decide +kernel, ?_⟩
  obtain ⟨_, _, _, _, settled⟩ := shown_as_stored .strokes .standard world "ann" .sent
  exact settled .plain .standard Surroundings.fresh_strokes reached ann

end Workflow
end Handoff
