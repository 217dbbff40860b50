import Handoff.Program.Basic
import Handoff.Program.Exchange

/-!
# Programs in dialogue

A program can be followed by the store calls that it makes and the answers that it is given.  The
answers need not be those of a store: whoever gives them may contradict himself.
-/

namespace Handoff

/-- The exchange that an action is, if it is a store call. -/
def Action.exchange? : (action : Action) → action.Answer → Option Exchange
  | .call request, answer => some ⟨request, answer⟩
  | .newTaskId, _ | .now, _ | .nameOf _, _ | .note _, _ => none

namespace Program

variable {α β : Type}

/-- Runs a program with answers that may depend on all exchanges so far, and lists the exchanges. -/
def converse (reply : List Exchange → (action : Action) → action.Answer) (p : Program α) :
    α × List Exchange :=
  p.runWith (fun action past =>
    (reply past action, past ++ (action.exchange? (reply past action)).toList)) []

/-- A program can come to another one through the given exchanges. -/
inductive Leads : Program α → List Exchange → Program α → Prop
  | refl (p : Program α) : Leads p [] p
  | step {action : Action} {next : action.Answer → Program α} {exchanges : List Exchange}
    {rest : Program α} (answer : action.Answer) (leads : Leads (next answer) exchanges rest) :
    Leads (.act action next) ((action.exchange? answer).toList ++ exchanges) rest

variable {p middle rest : Program α} {exchanges later : List Exchange} {result : α}
  {action : Action} {next : action.Answer → Program α}

theorem Leads.of_done (leads : (done result).Leads exchanges rest) :
    exchanges = [] ∧ rest = done result := by
  cases leads
  exact ⟨rfl, rfl⟩

/-- A program ends only after its first action. -/
theorem Leads.exists_of_act (leads : (act action next).Leads exchanges (.done result)) :
    ∃ answer later, exchanges = (action.exchange? answer).toList ++ later ∧
      (next answer).Leads later (.done result) := by
  cases leads with
  | step answer leads => exact ⟨answer, _, rfl, leads⟩

theorem Leads.trans (leads : p.Leads exchanges middle) (goes : middle.Leads later rest) :
    p.Leads (exchanges ++ later) rest := by
  induction leads with
  | refl p => exact goes
  | step answer leads induction =>
      rw [List.append_assoc]
      exact .step answer (induction goes)

theorem Leads.snoc (leads : p.Leads exchanges (.act action next)) (answer : action.Answer) :
    p.Leads (exchanges ++ (action.exchange? answer).toList) (next answer) := by
  simpa using leads.trans (.step answer (.refl _))

/-- Two programs in a row end as the second one does. -/
theorem Leads.of_bind {f : α → Program β} {result : β}
    (leads : (p.bind f).Leads exchanges (.done result)) :
    ∃ a earlier later, exchanges = earlier ++ later ∧ p.Leads earlier (.done a) ∧
      (f a).Leads later (.done result) := by
  induction p generalizing exchanges with
  | done a => exact ⟨a, [], exchanges, rfl, .refl _, leads⟩
  | act action next induction =>
      obtain ⟨answer, remaining, rfl, goes⟩ := exists_of_act leads
      obtain ⟨a, earlier, later, rfl, first, second⟩ := induction answer goes
      exact ⟨a, _, later, (List.append_assoc ..).symm, .step answer first, second⟩

theorem nonempty_answer (action : Action) : Nonempty action.Answer :=
  match action with
  | .call _ => ⟨.error ⟨""⟩⟩
  | .newTaskId => ⟨""⟩
  | .now => ⟨⟨0⟩⟩
  | .nameOf _ => ⟨none⟩
  | .note _ => ⟨()⟩

/-- A program can always come to an end. -/
theorem exists_leads_done (p : Program α) :
    ∃ exchanges result, p.Leads exchanges (.done result) := by
  induction p with
  | done result => exact ⟨[], result, .refl _⟩
  | act action next induction =>
      obtain ⟨answer⟩ := nonempty_answer action
      obtain ⟨exchanges, result, leads⟩ := induction answer
      exact ⟨_, result, .step answer leads⟩

/-- If each answer adds the exchange to a list, a run adds exchanges that lead the program to its
end. -/
theorem exists_leads_runWith {σ : Type} (answer : (action : Action) → σ → action.Answer × σ)
    (said : σ → List Exchange)
    (lists : ∀ action state, said (answer action state).2 =
      said state ++ (action.exchange? (answer action state).1).toList)
    (p : Program α) (state : σ) :
    ∃ exchanges, said (p.runWith answer state).2 = said state ++ exchanges ∧
      p.Leads exchanges (.done (p.runWith answer state).1) := by
  induction p generalizing state with
  | done result => exact ⟨[], (List.append_nil _).symm, .refl _⟩
  | act action next induction =>
      obtain ⟨exchanges, listed, leads⟩ :=
        induction (answer action state).1 (answer action state).2
      rw [lists, List.append_assoc] at listed
      exact ⟨_, listed, .step _ leads⟩

/-- Whoever answers, a program comes to its end through the exchanges that are listed. -/
theorem leads_converse (reply : List Exchange → (action : Action) → action.Answer)
    (p : Program α) : p.Leads (p.converse reply).2 (.done (p.converse reply).1) := by
  let answer (action : Action) (past : List Exchange) : action.Answer × List Exchange :=
    (reply past action, past ++ (action.exchange? (reply past action)).toList)
  obtain ⟨exchanges, listed, leads⟩ := exists_leads_runWith answer id (fun _ _ => rfl) p []
  have whole : (p.converse reply).2 = exchanges := listed
  exact whole ▸ leads

end Program
end Handoff
