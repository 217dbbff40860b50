import Handoff.Proofs.Race.Sharing
import Handoff.Proofs.Workflow.Operation

/-!
# Finishing in races

A task is finished in stages, and each stage leads from what is known to what is known after it.
What cannot be cleaned up any more has been cleaned up by somebody else.
-/

namespace Handoff.Sharing

variable {ι γ : Type} {sharing : Sharing ι γ} {me : ι} {around : Surroundings} {user : UserId}
  {task : TaskId} {budget : Nat} {known misses after : γ → Prop}
  {finds : Tray → Entry → γ → Prop}

/-- What is known when a record has been dropped, with its content, or when there was none. -/
def Dropped (task : TaskId) (drops misses : γ → Prop) : Option Task → γ → Prop
  | some content => fun state => content.id = task ∧ drops state
  | none => misses

/-- A record is dropped, and its content is told, or there is none. -/
theorem leads_dropRecord_content {finds drops misses : γ → Prop} (ours : sharing.mine task = true)
    (stable : sharing.protocol.Stable me known) (finds_stable : sharing.protocol.Stable me finds)
    (drops_stable : sharing.protocol.Stable me drops)
    (misses_stable : sharing.protocol.Stable me misses)
    (looks : ∀ state accesses, sharing.Notes state accesses → known state → ∃ next,
      sharing.Looked me (Key.record task) accesses state next ∧
        ((sharing.share state).stored task → finds next) ∧
        (¬(sharing.share state).stored task → misses next))
    (deletes : ∀ state accesses, sharing.Notes state accesses → finds state → ∃ next,
      sharing.Recorded me task False accesses state next ∧ drops next) :
    sharing.protocol.Leads around me known (Workflow.dropRecord task)
      (Dropped task drops misses) := by
  have loading : sharing.protocol.Tries around me known (Records.load task)
      (fun content state => content.id = task ∧ finds state) fun _ => misses :=
    tries_load_record ours stable finds_stable misses_stable looks
  have told_stable (content : Task) :
      sharing.protocol.Stable me fun state => content.id = task ∧ drops state :=
    (Protocol.stable_const _).and drops_stable
  have deleting (content : Task) : sharing.protocol.Tries around me
      (fun state => content.id = task ∧ finds state) (Records.delete task)
      (fun _ state => content.id = task ∧ drops state) fun _ => misses := by
    refine Protocol.tries_of_fact fun own => ?_
    exact (tries_delete_record ours finds_stable drops_stable deletes).mono
      (fun _ _ holds => ⟨own, holds⟩) fun _ _ never => never.elim
  have taking : sharing.protocol.Tries around me known (Records.take task)
      (fun content state => content.id = task ∧ drops state) fun _ => misses :=
    loading.bind (fun _ => misses_stable) fun content =>
      (deleting content).bind (fun _ => misses_stable) fun _ =>
        Protocol.tries_pure (told_stable content) fun _ => id
  refine Protocol.Leads.bind taking fun result => ?_
  cases result with
  | ok content => exact Protocol.leads_pure (told_stable content) fun _ => id
  | error failure =>
      exact (Protocol.leads_note misses_stable _).bind fun _ =>
        Protocol.leads_pure misses_stable fun _ => id

theorem leads_dropRecord {finds after : γ → Prop} (ours : sharing.mine task = true)
    (stable : sharing.protocol.Stable me known) (finds_stable : sharing.protocol.Stable me finds)
    (after_stable : sharing.protocol.Stable me after)
    (looks : ∀ state accesses, sharing.Notes state accesses → known state → ∃ next,
      sharing.Looked me (Key.record task) accesses state next ∧
        ((sharing.share state).stored task → finds next) ∧
        (¬(sharing.share state).stored task → after next))
    (deletes : ∀ state accesses, sharing.Notes state accesses → finds state → ∃ next,
      sharing.Recorded me task False accesses state next ∧ after next) :
    sharing.protocol.Leads around me known (Workflow.dropRecord task) fun _ => after := by
  refine (leads_dropRecord_content ours stable finds_stable after_stable after_stable looks
    deletes).mono fun dropped state holds => ?_
  cases dropped with
  | none => exact holds
  | some content => exact holds.2

theorem leads_dropEntry {link : Link} {tray : Tray} (stable : sharing.protocol.Stable me after)
    (removing : sharing.protocol.Tries around me known
      (Trays.remove budget link.user tray link.task) (fun _ => after) fun _ => after) :
    sharing.protocol.Leads around me known (Workflow.dropEntry budget link tray)
      fun _ => after := by
  refine Protocol.Leads.bind removing fun result => ?_
  cases result with
  | ok entry => exact Protocol.leads_pure stable fun _ => id
  | error failure => exact Protocol.leads_note stable _

/-- The other side is cleaned up once it has been located, and the content of its record is told. -/
theorem leads_cleanUpOther_content {link : Link} {dropped : γ → Prop}
    {ends : Option Task → γ → Prop} (misses_stable : sharing.protocol.Stable me misses)
    (finds_stable : ∀ tray entry, sharing.protocol.Stable me (finds tray entry))
    (dropped_stable : sharing.protocol.Stable me dropped)
    (stable : ∀ content, sharing.protocol.Stable me (ends content))
    (locating : sharing.protocol.Tries around me known (Trays.locate? link.user link.task)
      (Located finds misses) fun _ _ => False)
    (dropping : ∀ tray entry, entry.linksTo user task = true →
      sharing.protocol.Tries around me (finds tray entry)
        (Trays.remove budget link.user tray link.task) (fun _ => dropped) fun _ => dropped)
    (elsewhere : ∀ tray entry state, entry.linksTo user task = false → finds tray entry state →
      ends none state)
    (record : sharing.protocol.Leads around me dropped (Workflow.dropRecord link.task) ends)
    (last : sharing.protocol.Leads around me misses (Workflow.dropRecord link.task) ends) :
    sharing.protocol.Leads around me known (Workflow.cleanUpOther budget user task link)
      fun result => ends result.2 := by
  refine Protocol.Leads.bind locating fun result => ?_
  rcases result with failure | _ | located
  · exact (Protocol.leads_note (Protocol.stable_const False) _).bind fun _ =>
      Protocol.leads_pure (stable _) fun _ => False.elim
  · exact (Protocol.leads_note misses_stable _).bind fun _ => last.bind fun _ =>
      Protocol.leads_pure (stable _) fun _ => id
  · cases linked : located.entry.linksTo user task with
    | true =>
        simp only [linked, if_true]
        refine (leads_dropEntry dropped_stable (dropping _ _ linked)).bind fun _ => ?_
        exact record.bind fun _ => Protocol.leads_pure (stable _) fun _ => id
    | false =>
        simp only [linked]
        exact (Protocol.leads_note (finds_stable _ _) _).bind fun _ =>
          Protocol.leads_pure (stable _) fun _ => elsewhere _ _ _ linked

theorem leads_cleanUpOther {link : Link} {dropped : γ → Prop}
    (misses_stable : sharing.protocol.Stable me misses)
    (finds_stable : ∀ tray entry, sharing.protocol.Stable me (finds tray entry))
    (dropped_stable : sharing.protocol.Stable me dropped)
    (stable : sharing.protocol.Stable me after)
    (locating : sharing.protocol.Tries around me known (Trays.locate? link.user link.task)
      (Located finds misses) fun _ _ => False)
    (dropping : ∀ tray entry, entry.linksTo user task = true →
      sharing.protocol.Tries around me (finds tray entry)
        (Trays.remove budget link.user tray link.task) (fun _ => dropped) fun _ => dropped)
    (elsewhere : ∀ tray entry state, entry.linksTo user task = false → finds tray entry state →
      after state)
    (record : sharing.protocol.Leads around me dropped (Workflow.dropRecord link.task)
      fun _ => after)
    (last : sharing.protocol.Leads around me misses (Workflow.dropRecord link.task)
      fun _ => after) :
    sharing.protocol.Leads around me known (Workflow.cleanUpOther budget user task link)
      fun _ => after :=
  leads_cleanUpOther_content misses_stable finds_stable dropped_stable (fun _ => stable) locating
    dropping elsewhere record last

/-- After an entry that is linked, its record is dropped and then the other side is cleaned up; what
is told is the content of the one record or of the other. -/
theorem leads_cleanUp_content {entry : Entry} {link : Link} {owns : Option Task → γ → Prop}
    {ends : Option Task → Option Task → γ → Prop} (linked : entry.link = some link)
    (stable : ∀ own other, sharing.protocol.Stable me (ends own other))
    (record : sharing.protocol.Leads around me known (Workflow.dropRecord entry.task) owns)
    (other : ∀ own, sharing.protocol.Leads around me (owns own)
      (Workflow.cleanUpOther budget user entry.task link) fun result => ends own result.2) :
    sharing.protocol.Leads around me known (Workflow.cleanUp budget user entry)
      fun cleanup state => ∃ own next, cleanup.task = own.or next ∧ ends own next state := by
  refine record.bind fun own => ?_
  simp only [linked]
  refine (other own).bind fun result => Protocol.leads_pure ?_ fun _ holds => ⟨_, _, rfl, holds⟩
  exact Protocol.Stable.exists fun _ => Protocol.Stable.exists fun _ =>
    (Protocol.stable_const _).and (stable _ _)

theorem leads_cleanUp {entry : Entry} {link : Link} {dropped : γ → Prop}
    (linked : entry.link = some link) (stable : sharing.protocol.Stable me after)
    (record : sharing.protocol.Leads around me known (Workflow.dropRecord entry.task)
      fun _ => dropped)
    (other : sharing.protocol.Leads around me dropped
      (Workflow.cleanUpOther budget user entry.task link) fun _ => after) :
    sharing.protocol.Leads around me known (Workflow.cleanUp budget user entry) fun _ => after :=
  (leads_cleanUp_content linked (fun _ _ => stable) record fun _ => other).mono
    fun _ _ holds => holds.elim fun _ rest => rest.elim fun _ ended => ended.2

/-- A task is taken out where it has been located, and then it is cleaned up. -/
theorem tries_takeOut_content {policy : Policy} {event : Event} {removed : Entry → γ → Prop}
    {ends : Option Task → γ → Prop} {fails : γ → Prop}
    (fails_stable : sharing.protocol.Stable me fails)
    (finds_stable : ∀ tray entry, sharing.protocol.Stable me (finds tray entry))
    (stable : ∀ content, sharing.protocol.Stable me (ends content))
    (locating : sharing.protocol.Tries around me known (Trays.locate? user task)
      (Located finds misses) fun _ _ => False)
    (missing : ∀ state, misses state → fails state)
    (removing : ∀ tray entry, sharing.protocol.Tries around me (finds tray entry)
      (Trays.remove policy.budget user tray task) (fun _ => removed entry) fun _ => fails)
    (cleaning : ∀ entry, sharing.protocol.Leads around me (removed entry)
      (Workflow.cleanUp policy.budget user entry) fun cleanup => ends cleanup.task) :
    sharing.protocol.Tries around me known (Workflow.takeOut policy user task event)
      (fun result => ends result.2.task) fun _ => fails := by
  have location : sharing.protocol.Tries around me known (Workflow.locate user task)
      (fun located => finds located.tray located.entry) fun _ => fails := by
    refine (locating.mono (fun _ _ => id) fun _ _ => False.elim).bind (fun _ => fails_stable)
      fun found => ?_
    cases found with
    | none => exact Protocol.tries_throw fails_stable missing
    | some located => exact Protocol.tries_pure (finds_stable _ _) fun _ => id
  refine location.bind (fun _ => fails_stable) fun located => ?_
  refine (removing located.tray located.entry).bind (fun _ => fails_stable) fun _ => ?_
  refine (Protocol.tries_lift (fun _ => stable _) (cleaning located.entry)).bind
    (fun _ => fails_stable) fun cleanup => ?_
  exact (Protocol.tries_note (stable cleanup.task) _).bind (fun _ => fails_stable) fun _ =>
    Protocol.tries_pure (stable cleanup.task) fun _ => id

theorem tries_takeOut {policy : Policy} {event : Event} {removed : Entry → γ → Prop}
    {fails : γ → Prop} (fails_stable : sharing.protocol.Stable me fails)
    (finds_stable : ∀ tray entry, sharing.protocol.Stable me (finds tray entry))
    (stable : sharing.protocol.Stable me after)
    (locating : sharing.protocol.Tries around me known (Trays.locate? user task)
      (Located finds misses) fun _ _ => False)
    (missing : ∀ state, misses state → fails state)
    (removing : ∀ tray entry, sharing.protocol.Tries around me (finds tray entry)
      (Trays.remove policy.budget user tray task) (fun _ => removed entry) fun _ => fails)
    (cleaning : ∀ entry, sharing.protocol.Leads around me (removed entry)
      (Workflow.cleanUp policy.budget user entry) fun _ => after) :
    sharing.protocol.Tries around me known (Workflow.takeOut policy user task event)
      (fun _ => after) fun _ => fails :=
  tries_takeOut_content fails_stable finds_stable (fun _ => stable) locating missing removing
    cleaning

theorem tries_finish {policy : Policy} {operation : Operation} {fails : γ → Prop}
    (finishes : operation = .complete user task ∨ operation = .remove user task)
    (stable : sharing.protocol.Stable me after) (fails_stable : sharing.protocol.Stable me fails)
    (taking : ∀ event, sharing.protocol.Tries around me known
      (Workflow.takeOut policy user task event) (fun _ => after) fun _ => fails) :
    sharing.protocol.Tries around me known (operation.attempt policy) (fun _ => after)
      fun _ => fails := by
  rcases finishes with rfl | rfl
  · exact ((taking .taskCompleted).bind (fun _ => fails_stable) fun _ =>
      Protocol.tries_pure stable fun _ => id).bind (fun _ => fails_stable) fun _ =>
        Protocol.tries_pure stable fun _ => id
  · exact ((taking .taskRemoved).bind (fun _ => fails_stable) fun _ =>
      Protocol.tries_pure stable fun _ => id).bind (fun _ => fails_stable) fun _ =>
        Protocol.tries_pure stable fun _ => id

end Handoff.Sharing
