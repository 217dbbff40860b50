import Handoff.Proofs.Pairing.Share
import Handoff.Proofs.Race.Attempt

/-!
# Races for some tasks

The players of a race are after some tasks, and a state says what share of the scene these have.  An
operation on a stored tray or record leads to another state according to the share.
-/

namespace Handoff

/-- What can be told of a stage. -/
def Stage.scene {ι γ : Type} (stage : Stage ι γ) : Scene :=
  ⟨stage.store.cell, ⟨0⟩, stage.issued⟩

/-- A protocol for players that are after some tasks. -/
structure Sharing (ι γ : Type) where
  community : Community
  /-- The tasks that the players are after. -/
  mine : TaskId → Bool
  /-- The scene at the beginning. -/
  old : Scene
  /-- The share of the tasks in a state. -/
  share : γ → Share
  /-- How many record names have been given out in a state. -/
  issued : γ → Nat
  /-- What a state says of the accesses. -/
  Notes : γ → List (ι × Access) → Prop
  /-- The steps of the players, with the key that is written. -/
  Step : ι → Option String → γ → γ → Prop

namespace Sharing

open Scene (Holds)

variable {ι γ : Type} (sharing : Sharing ι γ)

/-- A state says what the share of the tasks is, how many names have been given out, and something
of the accesses. -/
def protocol : Protocol ι γ where
  Valid stage :=
    Holds sharing.community sharing.mine sharing.old (sharing.share stage.state) stage.scene ∧
      stage.issued = sharing.issued stage.state ∧ sharing.Notes stage.state stage.accesses
  Step := sharing.Step

/-- A player has read a key in a state and is in a state with the same share. -/
structure Looked (me : ι) (key : String) (accesses : List (ι × Access)) (state after : γ) :
    Prop where
  step : after = state ∨ sharing.Step me none state after
  share : sharing.share after = sharing.share state
  issued : sharing.issued after = sharing.issued state
  notes : sharing.Notes after (accesses ++ [(me, .read key)])

/-- A player has swapped the entries of the tasks in a tray for others. -/
structure Swapped (me : ι) (user : UserId) (tray : Tray) (entries : List Entry)
    (accesses : List (ι × Access)) (state after : γ) : Prop where
  step : sharing.Step me (some (Key.tray user tray)) state after
  here : (sharing.share after).entries user tray = entries
  elsewhere : ∀ other place, ¬(other = user ∧ place = tray) →
    (sharing.share after).entries other place = (sharing.share state).entries other place
  stored : (sharing.share after).stored = (sharing.share state).stored
  issued : sharing.issued after = sharing.issued state
  notes : sharing.Notes after (accesses ++ [(me, .swap (Key.tray user tray))])

/-- A player has written the record of a task, or deleted it. -/
structure Recorded (me : ι) (task : TaskId) (remains : Prop) (accesses : List (ι × Access))
    (state after : γ) : Prop where
  step : sharing.Step me (some (Key.record task)) state after
  entries : (sharing.share after).entries = (sharing.share state).entries
  here : (sharing.share after).stored task ↔ remains
  elsewhere : ∀ other, other ≠ task →
    ((sharing.share after).stored other ↔ (sharing.share state).stored other)
  issued : sharing.issued after = sharing.issued state
  notes : sharing.Notes after accesses

/-- What a player reads under a key makes no difference. -/
def Silent (me : ι) (key : String) : Prop :=
  ∀ state accesses, sharing.Notes state accesses →
    sharing.Notes state (accesses ++ [(me, .read key)])

variable {sharing} {me : ι} {user : UserId} {tray : Tray} {task : TaskId} {entry : Entry}
  {stage : Stage ι γ} {state : γ}

theorem Silent.looked {key : String} (silent : sharing.Silent me key)
    {accesses : List (ι × Access)} (notes : sharing.Notes state accesses) :
    sharing.Looked me key accesses state state :=
  ⟨.inl rfl, rfl, rfl, silent state accesses notes⟩

theorem Looked.moves {key : String} (valid : sharing.protocol.Valid stage)
    (looked : sharing.Looked me key stage.accesses stage.state state) :
    sharing.protocol.Moves me stage (stage.afterRead me state key) := by
  obtain ⟨holds, issued, _⟩ := valid
  refine ⟨⟨?_, ?_, looked.notes⟩, ?_⟩
  · change Holds _ _ _ (sharing.share state) stage.scene
    rwa [looked.share]
  · exact issued.trans looked.issued.symm
  · rcases looked.step with same | step
    · exact .inl ⟨same, rfl⟩
    · exact .inr ⟨none, step, fun _ _ => rfl⟩

theorem Swapped.moves {entries list changed : List Entry} (valid : sharing.protocol.Valid stage)
    (member : sharing.community.member user)
    (shown : stage.store.cell (Key.tray user tray) = .entries list)
    (swapped : sharing.Swapped me user tray entries stage.accesses stage.state state)
    (well : EntryList.WellLinked changed)
    (outside : changed.filter (!sharing.mine ·.task) = list.filter (!sharing.mine ·.task))
    (inside : changed.filter (sharing.mine ·.task) = entries) :
    sharing.protocol.Moves me stage
      (stage.afterSwap me state (Key.tray user tray) (EntryList.encode changed)) := by
  obtain ⟨holds, issued, _⟩ := valid
  refine ⟨⟨?_, ?_, swapped.notes⟩, ?_⟩
  · have scene_eq : (stage.afterSwap me state (Key.tray user tray)
        (EntryList.encode changed)).scene =
          stage.scene.put (Key.tray user tray) (.entries changed) := by
      simp only [Stage.scene, Stage.afterSwap, Scene.put,
        Store.cell_insert_encode stage.store (Key.isTray_tray user tray) well]
    have put := holds.put member shown outside (inside.trans swapped.here.symm) swapped.elsewhere
    rw [← swapped.stored] at put
    rw [scene_eq]
    exact put
  · exact issued.trans swapped.issued.symm
  · refine .inr ⟨_, swapped.step, fun other differs => ?_⟩
    exact Store.get?_insert_of_ne _ _ fun same => differs (congrArg some same.symm)

theorem Recorded.moves_save {content : Task} (valid : sharing.protocol.Valid stage)
    (ours : sharing.mine content.id = true) (named : content.OriginNamed)
    (recorded : sharing.Recorded me content.id True stage.accesses stage.state state) :
    sharing.protocol.Moves me stage
      { stage with store := stage.store.insert (Key.record content.id) content.encode, state } := by
  obtain ⟨holds, issued, _⟩ := valid
  refine ⟨⟨?_, ?_, recorded.notes⟩, ?_⟩
  · have put : Holds _ _ _ ⟨(sharing.share stage.state).entries, (sharing.share state).stored⟩
        (stage.scene.put (Key.record content.id) (.value (some content.encode))) :=
      holds.putRecord ours
        (fun _ => ⟨_, content, rfl, Task.decode_encode_of_originNamed named, rfl⟩)
        (fun missing => absurd (recorded.here.mpr trivial) missing) recorded.elsewhere
    rw [← recorded.entries] at put
    simpa only [Stage.scene, Scene.put, Store.cell_insert_record] using put
  · exact issued.trans recorded.issued.symm
  · refine .inr ⟨_, recorded.step, fun other differs => ?_⟩
    exact Store.get?_insert_of_ne _ _ fun same => differs (congrArg some same.symm)

theorem Recorded.moves_delete (valid : sharing.protocol.Valid stage)
    (ours : sharing.mine task = true)
    (recorded : sharing.Recorded me task False stage.accesses stage.state state) :
    sharing.protocol.Moves me stage
      { stage with store := stage.store.erase (Key.record task), state } := by
  obtain ⟨holds, issued, _⟩ := valid
  refine ⟨⟨?_, ?_, recorded.notes⟩, ?_⟩
  · have put : Holds _ _ _ ⟨(sharing.share stage.state).entries, (sharing.share state).stored⟩
        (stage.scene.put (Key.record task) (.value none)) :=
      holds.putRecord ours (fun stored => (recorded.here.mp stored).elim) (fun _ => rfl)
        recorded.elsewhere
    rw [← recorded.entries] at put
    simpa only [Stage.scene, Scene.put, Store.cell_erase_record] using put
  · exact issued.trans recorded.issued.symm
  · refine .inr ⟨_, recorded.step, fun other differs => ?_⟩
    exact Store.get?_erase_of_ne _ fun same => differs (congrArg some same.symm)

/-! ## Trays -/

section
variable {around : Surroundings} {known touched fails : γ → Prop} {budget : Nat}
  {sees : Option Entry → γ → Prop}

/-- What is found for a task in a tray is what the share has for it when the tray is read. -/
theorem tries_find? (member : sharing.community.member user) (ours : sharing.mine task = true)
    (stable : sharing.protocol.Stable me known)
    (sees_stable : ∀ found, sharing.protocol.Stable me (sees found))
    (looks : ∀ state accesses, sharing.Notes state accesses → known state → ∃ after,
      sharing.Looked me (Key.tray user tray) accesses state after ∧
        sees (EntryList.find? task ((sharing.share state).entries user tray)) after) :
    sharing.protocol.Tries around me known (Trays.find? user tray task)
      (fun found => sees (found.map Prod.fst)) fun _ _ => False := by
  refine Protocol.tries_find? stable (fun found => sees_stable _) fun stage valid holds => ?_
  obtain ⟨list, _, shown, _⟩ := valid.1.trays user tray member
  obtain ⟨after, looked, seen⟩ := looks stage.state stage.accesses valid.2.2 holds
  rw [← valid.1.find?_eq member ours shown] at seen
  refine ⟨list, after, shown, looked.moves valid, ?_⟩
  have same : (EntryList.locate? task list).map Prod.fst = EntryList.find? task list := by
    simp [EntryList.locate?, Function.comp_def]
  rwa [same]

/-- What is known when a task has been looked for in trays. -/
def Located (finds : Tray → Entry → γ → Prop) (misses : γ → Prop) :
    Option Handoff.Located → γ → Prop
  | some located => finds located.tray located.entry
  | none => misses

/-- What is known when a task has been looked for in one tray. -/
def Found (tray : Tray) (finds : Tray → Entry → γ → Prop) (misses : γ → Prop) :
    Option Entry → γ → Prop
  | some entry => finds tray entry
  | none => misses

/-- A tray is read, and it is known what has been found for a task. -/
def Finds (sharing : Sharing ι γ) (me : ι) (user : UserId) (tray : Tray) (task : TaskId)
    (known : γ → Prop) (finds : Tray → Entry → γ → Prop) (misses : γ → Prop) : Prop :=
  ∀ state accesses, sharing.Notes state accesses → known state → ∃ after,
    sharing.Looked me (Key.tray user tray) accesses state after ∧
      Found tray finds misses (EntryList.find? task ((sharing.share state).entries user tray)) after

section
variable {finds : Tray → Entry → γ → Prop} {first second misses : γ → Prop}

theorem tries_locateIn_cons {trays : List Tray} (member : sharing.community.member user)
    (ours : sharing.mine task = true) (stable : sharing.protocol.Stable me known)
    (first_stable : sharing.protocol.Stable me first)
    (finds_stable : ∀ tray entry, sharing.protocol.Stable me (finds tray entry))
    (here : sharing.Finds me user tray task known finds first)
    (later : sharing.protocol.Tries around me first (Trays.locateIn user task trays)
      (Located finds misses) fun _ _ => False) :
    sharing.protocol.Tries around me known (Trays.locateIn user task (tray :: trays))
      (Located finds misses) fun _ _ => False := by
  have found_stable (found : Option Entry) :
      sharing.protocol.Stable me (Found tray finds first found) := by
    cases found with
    | none => exact first_stable
    | some entry => exact finds_stable tray entry
  have finding : sharing.protocol.Tries around me known (Trays.find? user tray task)
      (fun found => Found tray finds first (found.map Prod.fst)) fun _ _ => False :=
    tries_find? member ours stable found_stable here
  refine finding.bind (fun _ => Protocol.stable_const False) fun found => ?_
  cases found with
  | none => exact later
  | some pair => exact Protocol.tries_pure (finds_stable tray pair.1) fun _ => id

/-- A task is looked for in the owned, the sent and the received tray. -/
theorem tries_locate? (member : sharing.community.member user) (ours : sharing.mine task = true)
    (stable : sharing.protocol.Stable me known) (first_stable : sharing.protocol.Stable me first)
    (second_stable : sharing.protocol.Stable me second)
    (misses_stable : sharing.protocol.Stable me misses)
    (finds_stable : ∀ tray entry, sharing.protocol.Stable me (finds tray entry))
    (owned : sharing.Finds me user .owned task known finds first)
    (sent : sharing.Finds me user .sent task first finds second)
    (received : sharing.Finds me user .received task second finds misses) :
    sharing.protocol.Tries around me known (Trays.locate? user task) (Located finds misses)
      fun _ _ => False := by
  refine tries_locateIn_cons member ours stable first_stable finds_stable owned ?_
  refine tries_locateIn_cons member ours first_stable second_stable finds_stable sent ?_
  refine tries_locateIn_cons member ours second_stable misses_stable finds_stable received ?_
  exact Protocol.tries_pure misses_stable fun _ => id

end

/-- What a player knows that takes an entry out of a tray: before it reads the tray, once it has
read, if somebody else has written the tray since, and at the end. -/
structure Removing (sharing : Sharing ι γ) (me : ι) (user : UserId) (tray : Tray) (task : TaskId)
    (known : γ → Prop) (sees : Option Entry → γ → Prop) (touched : γ → Prop)
    (takes : Entry → γ → Prop) (fails : γ → Prop) : Prop where
  known_stable : sharing.protocol.Stable me known
  sees_stable : ∀ found, sharing.protocol.Stable me (sees found)
  touched_stable : sharing.protocol.Stable me touched
  takes_stable : ∀ entry, sharing.protocol.Stable me (takes entry)
  fails_stable : sharing.protocol.Stable me fails
  touches : ∀ found other, other ≠ me → ∀ before after,
    sharing.Step other (some (Key.tray user tray)) before after → sees found before → touched after
  looks : ∀ state accesses, sharing.Notes state accesses → known state → ∃ after,
    sharing.Looked me (Key.tray user tray) accesses state after ∧
      sees (EntryList.find? task ((sharing.share state).entries user tray)) after
  misses : ∀ state, sees none state → fails state
  swaps : ∀ state accesses entry, sharing.Notes state accesses → sees (some entry) state →
    EntryList.find? task ((sharing.share state).entries user tray) = some entry → ∃ after,
      sharing.Swapped me user tray (EntryList.erase task ((sharing.share state).entries user tray))
        accesses state after ∧ takes entry after
  again : ∀ found state, sees found state → touched state → known state
  contended : ∀ state, known state → touched state → fails state

theorem Removing.tries_remove {takes : Entry → γ → Prop}
    (removing : sharing.Removing me user tray task known sees touched takes fails)
    (member : sharing.community.member user) (ours : sharing.mine task = true) :
    sharing.protocol.Tries around me known (Trays.remove budget user tray task) takes
      fun _ => fails := by
  have rounds : sharing.protocol.Rounds me (Key.tray user tray) (.remove user tray task) known
      (fun list => sees (EntryList.find? task list)) touched takes fun _ => fails := by
    refine ⟨removing.known_stable, fun list => removing.sees_stable _, removing.touched_stable,
      removing.takes_stable, fun _ => removing.fails_stable, fun list => removing.touches _, ?_, ?_,
      ?_, fun list => removing.again _, fun _ => removing.contended⟩
    · intro stage valid holds
      obtain ⟨list, _, shown, _⟩ := valid.1.trays user tray member
      obtain ⟨after, looked, seen⟩ := removing.looks stage.state stage.accesses valid.2.2 holds
      rw [← valid.1.find?_eq member ours shown] at seen
      exact ⟨list, after, shown, looked.moves valid, seen⟩
    · intro list failure state seen refused
      cases found : EntryList.find? task list with
      | none => exact removing.misses state (found ▸ seen)
      | some entry => simp [Change.remove, found] at refused
    · intro stage list entry changed valid seen shown done
      obtain ⟨found, rfl⟩ := (Change.remove_eq_ok_iff user tray task).mp done
      rw [found] at seen
      have here := found
      rw [valid.1.find?_eq member ours shown] at here
      obtain ⟨after, swapped, taken⟩ :=
        removing.swaps stage.state stage.accesses entry valid.2.2 seen here
      have well := Change.keepsLinks_remove user tray task list entry _
        (Store.wellLinked_of_cell_eq_entries shown) done
      obtain ⟨others, _, others_shown, _, _, inside⟩ := valid.1.trays user tray member
      cases shown.symm.trans others_shown
      refine ⟨after, swapped.moves valid member shown well ?_ ?_, taken⟩
      · exact EntryList.filter_erase_of_not (fun task => !sharing.mine task) (by simp [ours])
      · rw [EntryList.filter_erase ours, inside]
  exact rounds.tries_alter

/-- What a player knows that puts an entry into a tray: before it reads the tray, once it has read,
if somebody else has written the tray since, and at the end. -/
structure Appending (sharing : Sharing ι γ) (me : ι) (user : UserId) (tray : Tray) (entry : Entry)
    (known : γ → Prop) (sees : Option Entry → γ → Prop) (touched : γ → Prop)
    (puts fails : γ → Prop) : Prop where
  known_stable : sharing.protocol.Stable me known
  sees_stable : ∀ found, sharing.protocol.Stable me (sees found)
  touched_stable : sharing.protocol.Stable me touched
  puts_stable : sharing.protocol.Stable me puts
  fails_stable : sharing.protocol.Stable me fails
  touches : ∀ found other, other ≠ me → ∀ before after,
    sharing.Step other (some (Key.tray user tray)) before after → sees found before → touched after
  looks : ∀ state accesses, sharing.Notes state accesses → known state → ∃ after,
    sharing.Looked me (Key.tray user tray) accesses state after ∧
      sees (EntryList.find? entry.task ((sharing.share state).entries user tray)) after
  listed : ∀ state found, sees (some found) state → fails state
  swaps : ∀ state accesses, sharing.Notes state accesses → sees none state →
    EntryList.find? entry.task ((sharing.share state).entries user tray) = none → ∃ after,
      sharing.Swapped me user tray ((sharing.share state).entries user tray ++ [entry])
        accesses state after ∧ puts after
  again : ∀ found state, sees found state → touched state → known state
  contended : ∀ state, known state → touched state → fails state

theorem Appending.tries_append {puts : γ → Prop}
    (appending : sharing.Appending me user tray entry known sees touched puts fails)
    (member : sharing.community.member user) (ours : sharing.mine entry.task = true)
    (well : entry.WellLinked) :
    sharing.protocol.Tries around me known (Trays.append budget user tray entry) (fun _ => puts)
      fun _ => fails := by
  have rounds : sharing.protocol.Rounds me (Key.tray user tray) (.append user tray entry) known
      (fun list => sees (EntryList.find? entry.task list)) touched (fun _ => puts)
      fun _ => fails := by
    refine ⟨appending.known_stable, fun list => appending.sees_stable _, appending.touched_stable,
      fun _ => appending.puts_stable, fun _ => appending.fails_stable,
      fun list => appending.touches _, ?_, ?_, ?_, fun list => appending.again _,
      fun _ => appending.contended⟩
    · intro stage valid holds
      obtain ⟨list, _, shown, _⟩ := valid.1.trays user tray member
      obtain ⟨after, looked, seen⟩ := appending.looks stage.state stage.accesses valid.2.2 holds
      rw [← valid.1.find?_eq member ours shown] at seen
      exact ⟨list, after, shown, looked.moves valid, seen⟩
    · intro list failure state seen refused
      cases found : EntryList.find? entry.task list with
      | none => simp [Change.append, found] at refused
      | some other => exact appending.listed state other (found ▸ seen)
    · intro stage list result changed valid seen shown done
      obtain ⟨absent, rfl⟩ := (Change.append_eq_ok_iff user tray).mp done
      rw [absent] at seen
      have lacking := absent
      rw [valid.1.find?_eq member ours shown] at lacking
      obtain ⟨after, swapped, put⟩ :=
        appending.swaps stage.state stage.accesses valid.2.2 seen lacking
      have linked := Change.keepsLinks_append user tray well list () _
        (Store.wellLinked_of_cell_eq_entries shown) done
      obtain ⟨others, _, others_shown, _, _, inside⟩ := valid.1.trays user tray member
      cases shown.symm.trans others_shown
      refine ⟨after, swapped.moves valid member shown linked ?_ ?_, put⟩
      · simp [ours]
      · simp [ours, inside]
  exact rounds.tries_alter

/-! ## Records -/

/-- What is known when the record of a task has been looked for. -/
def Answered (task : TaskId) (finds misses : γ → Prop) : Option Bytes → γ → Prop
  | some bytes => fun state =>
    (∃ content, Task.decode bytes = .ok content ∧ content.id = task) ∧ finds state
  | none => misses

theorem tries_load_record {finds misses : γ → Prop} (ours : sharing.mine task = true)
    (stable : sharing.protocol.Stable me known) (finds_stable : sharing.protocol.Stable me finds)
    (misses_stable : sharing.protocol.Stable me misses)
    (looks : ∀ state accesses, sharing.Notes state accesses → known state → ∃ after,
      sharing.Looked me (Key.record task) accesses state after ∧
        ((sharing.share state).stored task → finds after) ∧
        (¬(sharing.share state).stored task → misses after)) :
    sharing.protocol.Tries around me known (Records.load task)
      (fun content state => content.id = task ∧ finds state) fun _ => misses := by
  have answered_stable (value : Option Bytes) :
      sharing.protocol.Stable me (Answered task finds misses value) := by
    cases value with
    | none => exact misses_stable
    | some bytes => exact (Protocol.stable_const _).and finds_stable
  have getting : sharing.protocol.Tries around me known (Attempt.get (Key.record task))
      (Answered task finds misses) fun _ => misses := by
    refine Protocol.tries_get stable answered_stable fun stage valid holds => ?_
    obtain ⟨after, looked, found, missed⟩ := looks stage.state stage.accesses valid.2.2 holds
    refine ⟨after, looked.moves valid, ?_⟩
    by_cases stored : (sharing.share stage.state).stored task
    · obtain ⟨bytes, content, shown, decoded, own⟩ := valid.1.recorded task ours stored
      rw [Store.get?_eq_of_cell_eq_value shown]
      exact ⟨⟨content, decoded, own⟩, found stored⟩
    · rw [Store.get?_eq_of_cell_eq_value (valid.1.absent task ours stored)]
      exact missed stored
  refine getting.bind (fun _ => misses_stable) fun value => ?_
  cases value with
  | none => exact Protocol.tries_throw misses_stable fun _ => id
  | some bytes =>
      cases decoded : Task.decode bytes with
      | ok content =>
          simp only [decoded]
          refine Protocol.tries_pure ((Protocol.stable_const _).and finds_stable) ?_
          rintro state ⟨⟨other, found, own⟩, holds⟩
          cases decoded.symm.trans found
          exact ⟨own, holds⟩
      | error cause =>
          simp only [decoded]
          refine Protocol.tries_throw misses_stable ?_
          rintro state ⟨⟨other, found, own⟩, holds⟩
          cases decoded.symm.trans found

theorem tries_save_record {content : Task} {after : γ → Prop}
    (ours : sharing.mine content.id = true) (named : content.OriginNamed)
    (stable : sharing.protocol.Stable me known) (after_stable : sharing.protocol.Stable me after)
    (saves : ∀ state accesses, sharing.Notes state accesses → known state → ∃ next,
      sharing.Recorded me content.id True accesses state next ∧ after next) :
    sharing.protocol.Tries around me known (Records.save content) (fun _ => after)
      fun _ _ => False := by
  refine Protocol.tries_set stable after_stable fun stage valid holds => ?_
  obtain ⟨next, recorded, holds⟩ := saves stage.state stage.accesses valid.2.2 holds
  exact ⟨next, recorded.moves_save valid ours named, holds⟩

theorem tries_delete_record {after : γ → Prop} (ours : sharing.mine task = true)
    (stable : sharing.protocol.Stable me known) (after_stable : sharing.protocol.Stable me after)
    (deletes : ∀ state accesses, sharing.Notes state accesses → known state → ∃ next,
      sharing.Recorded me task False accesses state next ∧ after next) :
    sharing.protocol.Tries around me known (Records.delete task) (fun _ => after)
      fun _ _ => False := by
  refine Protocol.tries_delete stable after_stable fun stage valid holds => ?_
  obtain ⟨next, recorded, holds⟩ := deletes stage.state stage.accesses valid.2.2 holds
  exact ⟨next, recorded.moves_delete valid ours, holds⟩

end
end Sharing

/-- What the state of a race says of its store and of the accesses. -/
theorem Race.Follows.holds {ι γ α : Type} {sharing : Sharing ι γ} {around : Surroundings}
    {ends : ι → α → γ → Prop} {race : Race ι α} {state : γ}
    (follows : race.Follows sharing.protocol around ends state) :
    Scene.Holds sharing.community sharing.mine sharing.old (sharing.share state)
        race.world.scene ∧ sharing.Notes state race.accesses := by
  obtain ⟨⟨holds, _, notes⟩, _⟩ := follows
  exact ⟨⟨holds.trays, holds.recorded, holds.absent, holds.others⟩, notes⟩

end Handoff
