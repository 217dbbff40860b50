import Handoff.Proofs.Race.Attempt
import Handoff.Workflow.Undo

/-!
# Undoing in races

A workflow leads from what is known to what is known once it has ended, together with what it has
noted.  If it fails, what is known then leads to what is known once the noted actions are carried
out.
-/

namespace Handoff

theorem Undoable.run_step_bind {α β : Type} (attempt : Attempt α) (next : α → Undoable β)
    (noted : List Undo) : (step attempt >>= next).run.run noted =
      attempt.run >>= fun result => (ExceptT.bindCont next result).run noted := by
  change (attempt.run >>= fun result => pure (result, noted)) >>=
    (fun ran => (ExceptT.bindCont next ran.1).run ran.2) = _
  rw [bind_assoc]
  rfl

namespace Protocol

variable {ι γ α β : Type} {protocol : Protocol ι γ} {around : Surroundings} {me : ι}
  {known : γ → Prop} {succeeds : α → List Undo → γ → Prop} {fails : List Undo → γ → Prop}
  {noted : List Undo} {budget : Nat}

/-- From what is known and has been noted, a workflow leads to what is known and noted if it
succeeds or fails. -/
def Works (protocol : Protocol ι γ) (around : Surroundings) (me : ι) (known : γ → Prop)
    (noted : List Undo) (workflow : Undoable α) (succeeds : α → List Undo → γ → Prop)
    (fails : List Undo → γ → Prop) : Prop :=
  protocol.Leads around me known (workflow.run.run noted) fun
    | (.ok a, noted) => succeeds a noted
    | (.error _, noted) => fails noted

theorem works_pure {a : α} (stable : protocol.Stable me (succeeds a noted))
    (holds : ∀ state, known state → succeeds a noted state) :
    protocol.Works around me known noted (pure a) succeeds fails :=
  leads_pure stable holds

theorem works_step {attempt : Attempt α} (stable : ∀ a, protocol.Stable me (succeeds a noted))
    (fails_stable : protocol.Stable me (fails noted))
    (tries : protocol.Tries around me known attempt (succeeds · noted) fun _ => fails noted) :
    protocol.Works around me known noted (Undoable.step attempt) succeeds fails := by
  refine Leads.bind tries fun result => ?_
  cases result with
  | ok a => exact leads_pure (stable a) fun _ => id
  | error failure => exact leads_pure fails_stable fun _ => id

theorem Works.bind {first : Undoable α} {next : α → Undoable β} {ends : β → List Undo → γ → Prop}
    (fails_stable : ∀ noted, protocol.Stable me (fails noted))
    (begins : protocol.Works around me known noted first succeeds fails)
    (goes : ∀ a noted, protocol.Works around me (succeeds a noted) noted (next a) ends fails) :
    protocol.Works around me known noted (first >>= next) ends fails := by
  refine Leads.bind begins fun ended => ?_
  obtain ⟨failure | a, later⟩ := ended
  · exact leads_pure (fails_stable later) fun _ => id
  · exact goes a later

theorem works_step_bind {attempt : Attempt α} {next : α → Undoable β} {middle : α → γ → Prop}
    {ends : β → List Undo → γ → Prop} (fails_stable : protocol.Stable me (fails noted))
    (tries : protocol.Tries around me known attempt middle fun _ => fails noted)
    (goes : ∀ a, protocol.Works around me (middle a) noted (next a) ends fails) :
    protocol.Works around me known noted (Undoable.step attempt >>= next) ends fails := by
  unfold Works
  rw [Undoable.run_step_bind]
  refine Leads.bind tries fun result => ?_
  cases result with
  | ok a => exact goes a
  | error failure => exact leads_pure fails_stable fun _ => id

/-- A note before the rest of a workflow. -/
theorem works_note_bind {undo : Undo} {next : Unit → Undoable β}
    {ends : β → List Undo → γ → Prop}
    (goes : protocol.Works around me known (noted ++ [undo]) (next ()) ends fails) :
    protocol.Works around me known noted (Undoable.note undo >>= next) ends fails :=
  goes

/-! ## Carrying out what has been noted -/

theorem leads_applyEach_nil {after : γ → Prop} (stable : protocol.Stable me after)
    (holds : ∀ state, known state → after state) :
    protocol.Leads around me known (Undo.applyEach budget []) fun _ => after :=
  leads_pure stable holds

/-- An action that fails does not keep the others from being carried out. -/
theorem leads_applyEach_cons {undo : Undo} {rest : List Undo} {middle after : γ → Prop}
    (middle_stable : protocol.Stable me middle) (after_stable : protocol.Stable me after)
    (first : protocol.Tries around me known (undo.apply budget) (fun _ => middle) fun _ => middle)
    (later : protocol.Leads around me middle (Undo.applyEach budget rest) fun _ => after) :
    protocol.Leads around me known (Undo.applyEach budget (undo :: rest)) fun _ => after := by
  refine Leads.bind first fun result => ?_
  cases result with
  | ok => exact later
  | error failure =>
      exact (leads_note middle_stable _).bind fun _ => later.bind fun _ =>
        leads_pure after_stable fun _ => id

theorem leads_rollBack {after : γ → Prop} (stable : protocol.Stable me after)
    (each : protocol.Leads around me known (Undo.applyEach budget noted.reverse) fun _ => after) :
    protocol.Leads around me known (Undo.rollBack budget noted) fun _ => after := by
  refine each.bind fun failures => ?_
  dsimp only
  split
  · exact (leads_note stable _).bind fun _ => leads_pure stable fun _ => id
  · exact leads_pure stable fun _ => id

/-- A workflow is undone if it fails. -/
theorem Works.settle {workflow : Undoable α} {after : γ → Prop}
    (works : protocol.Works around me known [] workflow succeeds fails)
    (stable : ∀ a noted, protocol.Stable me (succeeds a noted))
    (fails_stable : ∀ noted, protocol.Stable me (fails noted))
    (after_stable : protocol.Stable me after)
    (undoes : ∀ noted, protocol.Leads around me (fails noted) (Undo.rollBack budget noted)
      fun _ => after) :
    protocol.Tries around me known (Undoable.settle budget workflow)
      (fun a state => ∃ noted, succeeds a noted state) fun _ => after := by
  refine Leads.bind works fun ended => ?_
  obtain ⟨failure | a, noted⟩ := ended
  · refine (leads_note (fails_stable noted) _).bind fun _ => (undoes noted).bind fun _ => ?_
    exact leads_pure after_stable fun _ => id
  · have some_noted : protocol.Stable me fun state => ∃ noted, succeeds a noted state :=
      Stable.exists (stable a)
    exact (leads_note (stable a noted) _).bind fun _ =>
      leads_pure some_noted fun _ holds => ⟨noted, holds⟩

/-- A workflow that can only fail as long as nothing has been noted fails as it is. -/
theorem tries_settle_of_unnoted {workflow : Undoable α} {ends : α → γ → Prop}
    {refused : Failure → γ → Prop} (ends_stable : ∀ a, protocol.Stable me (ends a))
    (refused_stable : ∀ failure, protocol.Stable me (refused failure))
    (leads : protocol.Leads around me known (workflow.run.run []) fun
      | (.ok a, _) => ends a
      | (.error failure, noted) => fun state => noted = [] ∧ refused failure state) :
    protocol.Tries around me known (Undoable.settle budget workflow) ends refused := by
  refine Leads.bind leads fun ended => ?_
  obtain ⟨failure | a, noted⟩ := ended
  · refine leads_of_fact ?_
    rintro rfl
    have stable := refused_stable failure
    have undone : protocol.Leads around me (refused failure) (Undo.rollBack budget [])
        fun _ => refused failure :=
      leads_rollBack stable (leads_applyEach_nil stable fun _ => id)
    exact (leads_note stable _).bind fun _ => undone.bind fun _ =>
      leads_pure stable fun _ => id
  · exact (leads_note (ends_stable a) _).bind fun _ => leads_pure (ends_stable a) fun _ => id

end Protocol
end Handoff
