import Handoff.Proofs.Race.Assigning.Steps

/-!
# The entries of a task that is assigned

A side looks for the entry of a role, takes it out or puts it in, and knows of the state what the
other side leaves.
-/

namespace Handoff.Assigning

variable {community : Community} {around : Surroundings} {world : World}
  {plan : Plan community around world} {me : Side} {known : State → Prop} {budget : Nat}

/-- A record is looked for in the trays of its user: what is known before its tray has been read,
when its entry has been found there, and when the entry is missing. -/
theorem tries_locate? {finds : Entry → State → Prop} {misses : State → Prop} (role : Role)
    (stable : (sharing plan).protocol.Stable me known)
    (finds_stable : ∀ entry, (sharing plan).protocol.Stable me (finds entry))
    (misses_stable : (sharing plan).protocol.Stable me misses)
    (before : ∀ key state accesses, key ≠ plan.trayKey role → Notes plan state accesses →
      known state → ∃ after, (sharing plan).Looked me key accesses state after ∧ known after)
    (here : ∀ state accesses, Notes plan state accesses → known state → ∃ after,
      (sharing plan).Looked me (plan.trayKey role) accesses state after ∧
        (∀ entry, state.entryAt plan role = some entry → finds entry after) ∧
          (state.entryAt plan role = none → misses after))
    (later : ∀ key state accesses, key ≠ plan.trayKey role → Notes plan state accesses →
      misses state → ∃ after, (sharing plan).Looked me key accesses state after ∧ misses after) :
    (sharing plan).protocol.Tries around me known
      (Trays.locate? (plan.user role) (plan.record role))
      (Sharing.Located (fun tray entry state => tray = plan.tray role ∧ finds entry state) misses)
      fun _ _ => False := by
  let found (tray : Tray) (entry : Entry) (state : State) : Prop :=
    tray = plan.tray role ∧ finds entry state
  have found_stable (tray : Tray) (entry : Entry) :
      (sharing plan).protocol.Stable me (found tray entry) :=
    (Protocol.stable_const _).and (finds_stable entry)
  have elsewhere {known : State → Prop} (looks : ∀ key state accesses, key ≠ plan.trayKey role →
      Notes plan state accesses → known state →
        ∃ after, (sharing plan).Looked me key accesses state after ∧ known after) (tray : Tray)
      (other : tray ≠ plan.tray role) :
      (sharing plan).Finds me (plan.user role) tray (plan.record role) known found known := by
    intro state accesses notes holds
    have differs : Key.tray (plan.user role) tray ≠ plan.trayKey role :=
      fun same => other (Key.tray_injective same)
    obtain ⟨after, looked, holds⟩ := looks _ state accesses differs notes holds
    refine ⟨after, looked, ?_⟩
    rw [find?_share, if_neg fun same => other same.2]
    exact holds
  have there (tray : Tray) (same : tray = plan.tray role) :
      (sharing plan).Finds me (plan.user role) tray (plan.record role) known found misses := by
    subst same
    intro state accesses notes holds
    obtain ⟨after, looked, seen, missed⟩ := here state accesses notes holds
    refine ⟨after, looked, ?_⟩
    rw [find?_tray]
    cases shown : state.entryAt plan role with
    | none => exact missed shown
    | some entry => exact ⟨rfl, seen entry shown⟩
  have member := plan.user_member role
  have ours := plan.record_mine role
  have places : plan.tray role = .owned ∨ plan.tray role = .sent ∨ plan.tray role = .received := by
    cases plan.tray role <;> simp
  rcases places with place | place | place
  · exact Sharing.tries_locate? member ours stable misses_stable misses_stable misses_stable
      found_stable (there .owned place.symm) (elsewhere later .sent (by simp [place]))
      (elsewhere later .received (by simp [place]))
  · exact Sharing.tries_locate? member ours stable stable misses_stable misses_stable
      found_stable (elsewhere before .owned (by simp [place])) (there .sent place.symm)
      (elsewhere later .received (by simp [place]))
  · exact Sharing.tries_locate? member ours stable stable stable misses_stable
      found_stable (elsewhere before .owned (by simp [place]))
      (elsewhere before .sent (by simp [place])) (there .received place.symm)

/-- What a side knows that takes the entry of a role out: before it reads the tray, once it has
read, if the other has written the tray since, and at the end. -/
structure Taking (plan : Plan community around world) (me : Side) (role : Role)
    (known : State → Prop) (sees : Option Entry → State → Prop)
    (touched takes fails : State → Prop) : Prop where
  known_stable : (sharing plan).protocol.Stable me known
  sees_stable : ∀ found, (sharing plan).protocol.Stable me (sees found)
  touched_stable : (sharing plan).protocol.Stable me touched
  takes_stable : (sharing plan).protocol.Stable me takes
  fails_stable : (sharing plan).protocol.Stable me fails
  touches : ∀ found other, other ≠ me → ∀ before after, Change other (.tray role) before after →
    sees found before → touched after
  looks : ∀ state accesses, Notes plan state accesses → known state → ∃ after,
    (sharing plan).Looked me (plan.trayKey role) accesses state after ∧
      sees (state.entryAt plan role) after
  misses : ∀ state, sees none state → fails state
  change : ∀ state accesses entry, Notes plan state accesses → sees (some entry) state →
    state.entryAt plan role = some entry → ∃ after, Change me (.tray role) state after ∧
      after.entryAt plan role = none ∧ takes after
  again : ∀ found state, sees found state → touched state → known state
  contended : ∀ state, known state → touched state → fails state

theorem Taking.tries_remove {role : Role} {sees : Option Entry → State → Prop}
    {touched takes fails : State → Prop}
    (taking : Taking plan me role known sees touched takes fails) :
    (sharing plan).protocol.Tries around me known
      (Trays.remove budget (plan.user role) (plan.tray role) (plan.record role))
      (fun _ => takes) fun _ => fails := by
  have removing : (sharing plan).Removing me (plan.user role) (plan.tray role) (plan.record role)
      known sees touched (fun _ => takes) fails := by
    refine ⟨taking.known_stable, taking.sees_stable, taking.touched_stable,
      fun _ => taking.takes_stable, taking.fails_stable, ?_, ?_, taking.misses, ?_, taking.again,
      taking.contended⟩
    · intro found other differs before after step seen
      exact taking.touches found other differs before after (change_of_step step) seen
    · intro state accesses notes holds
      obtain ⟨after, looked, seen⟩ := taking.looks state accesses notes holds
      exact ⟨after, looked, by rwa [find?_tray]⟩
    · intro state accesses entry notes seen found
      rw [find?_tray] at found
      obtain ⟨after, change, gone, holds⟩ := taking.change state accesses entry notes seen found
      have swapped := swapped_of_change notes change
      rw [gone] at swapped
      exact ⟨after, (state.erase_entries plan role).symm ▸ swapped, holds⟩
  exact removing.tries_remove (plan.user_member role) (plan.record_mine role)

/-- What a side knows that puts the entry of a role in while nobody else writes the tray. -/
structure Putting (plan : Plan community around world) (me : Side) (role : Role) (entry : Entry)
    (known puts : State → Prop) : Prop where
  known_stable : (sharing plan).protocol.Stable me known
  puts_stable : (sharing plan).protocol.Stable me puts
  alone : ∀ other, other ≠ me → ∀ before after, Change other (.tray role) before after →
    ¬known before
  looks : ∀ state accesses, Notes plan state accesses → known state →
    (sharing plan).Looked me (plan.trayKey role) accesses state state
  lacks : ∀ state accesses, Notes plan state accesses → known state →
    state.entryAt plan role = none
  change : ∀ state accesses, Notes plan state accesses → known state → ∃ after,
    Change me (.tray role) state after ∧ after.entryAt plan role = some entry ∧ puts after

theorem Putting.tries_append {role : Role} {entry : Entry} {puts : State → Prop}
    (putting : Putting plan me role entry known puts) (named : entry.task = plan.record role)
    (well : entry.WellLinked) :
    (sharing plan).protocol.Tries around me known
      (Trays.append budget (plan.user role) (plan.tray role) entry)
      (fun _ => puts) fun _ _ => False := by
  have stable := putting.known_stable
  have appending : (sharing plan).Appending me (plan.user role) (plan.tray role) entry known
      (fun found state => found = none ∧ known state) (fun _ => False) puts fun _ => False := by
    refine ⟨stable, fun _ => (Protocol.stable_const _).and stable, Protocol.stable_const False,
      putting.puts_stable, Protocol.stable_const False, ?_, ?_, ?_, ?_, fun _ _ _ => False.elim,
      fun _ _ => False.elim⟩
    · intro _ other differs before after step seen
      exact putting.alone other differs before after (change_of_step step) seen.2
    · intro state accesses notes holds
      refine ⟨state, putting.looks state accesses notes holds, ?_, holds⟩
      rw [named, find?_tray]
      exact putting.lacks state accesses notes holds
    · intro state other seen
      cases seen.1
    · intro state accesses notes seen _
      obtain ⟨after, change, there, holds⟩ := putting.change state accesses notes seen.2
      have swapped := swapped_of_change notes change
      have lacking :
          ((sharing plan).share state).entries (plan.user role) (plan.tray role) = [] := by
        change state.entries plan _ _ = []
        rw [State.entries_tray, putting.lacks state accesses notes seen.2, Option.toList_none]
      rw [there] at swapped
      exact ⟨after, lacking.symm ▸ swapped, holds⟩
  exact appending.tries_append (plan.user_member role) (named ▸ plan.record_mine role) well

end Handoff.Assigning
