import Handoff.Proofs.Pool.Basic
import Handoff.Proofs.Program.Dialogue
import Handoff.Proofs.Stored.Contract

/-!
# Changes of a tray in dialogue

A change reads the tray and tries to swap what it has read for what it makes of it, again and again
until a swap comes about, something fails or no round is left.  It does so whatever it is answered,
be it by a store or not.
-/

namespace Handoff

namespace Exchange

def read (key : String) (answer : Except Outage (Option Bytes)) : Exchange := ⟨.get key, answer⟩

/-- The entries of a tray are to replace what was read. -/
def swap (key : String) (version : Option Bytes) (entries : List Entry)
    (answer : Except Outage Bool) : Exchange :=
  ⟨.compareAndSet key version (EntryList.encode entries), answer⟩

def isRead : Exchange → Bool
  | ⟨.get _, _⟩ => true
  | _ => false

def isSwap : Exchange → Bool
  | ⟨.compareAndSet .., _⟩ => true
  | _ => false

def isSwapped : Exchange → Bool
  | ⟨.compareAndSet .., .ok swapped⟩ => swapped
  | _ => false

/-- Whether a swap has not come about because the value was another one. -/
def isLost : Exchange → Bool
  | ⟨.compareAndSet .., .ok swapped⟩ => !swapped
  | _ => false

variable {key : String} {version : Option Bytes} {entries : List Entry}
  {answer : Except Outage (Option Bytes)} {tried : Except Outage Bool} {swapped : Bool}

@[simp]
theorem isRead_read : (read key answer).isRead = true := rfl

@[simp]
theorem isRead_swap : (swap key version entries tried).isRead = false := rfl

@[simp]
theorem isSwap_read : (read key answer).isSwap = false := rfl

@[simp]
theorem isSwap_swap : (swap key version entries tried).isSwap = true := rfl

@[simp]
theorem isSwapped_read : (read key answer).isSwapped = false := rfl

@[simp]
theorem isSwapped_swap_error {outage : Outage} :
    (swap key version entries (.error outage)).isSwapped = false := rfl

@[simp]
theorem isSwapped_swap_ok : (swap key version entries (.ok swapped)).isSwapped = swapped := rfl

@[simp]
theorem isLost_swap_error {outage : Outage} :
    (swap key version entries (.error outage)).isLost = false := rfl

@[simp]
theorem isLost_swap_ok : (swap key version entries (.ok swapped)).isLost = !swapped := rfl

theorem isSwap_of_isLost {exchange : Exchange} (lost : exchange.isLost = true) :
    exchange.isSwap = true := by
  unfold isLost at lost
  split at lost
  · rfl
  · cases lost

theorem eq_swap_of_isLost {exchange : Exchange} (lost : exchange.isLost = true)
    (tried : exchange.call = .compareAndSet key version (EntryList.encode entries)) :
    exchange = swap key version entries (.ok false) := by
  obtain ⟨request, answer⟩ := exchange
  cases tried
  rcases answer with outage | _ | _
  · cases lost
  · rfl
  · cases lost

end Exchange

variable {β : Type}

namespace Trays

theorem Shows.unique {version : Option Bytes} {left right : List Entry}
    (shows : Shows version left) (shown : Shows version right) : left = right := by
  rcases shows with ⟨rfl, rfl⟩ | ⟨bytes, form, rfl, decoded⟩
  · rcases shown with ⟨_, rfl⟩ | ⟨_, _, ⟨⟩, _⟩
    rfl
  · rcases shown with ⟨⟨⟩, _⟩ | ⟨_, _, ⟨⟩, again⟩
    cases decoded.symm.trans again
    rfl

/-- After such an exchange a change fails. -/
inductive Halts (key : String) (change : Change β) : Exchange → Failure → Prop
  /-- The call has failed. -/
  | outage (request : Call) (outage : Outage) :
    Halts key change ⟨request, .error outage⟩ (.outage outage.reason)
  /-- What has been read is no tray. -/
  | unreadable {bytes : Bytes} {cause : Json.Error}
    (refused : EntryList.decode bytes = .error cause) :
    Halts key change (.read key (.ok (some bytes))) (.unreadableTray cause)
  /-- The change fails for the entries that have been read. -/
  | refused {version : Option Bytes} {list : List Entry} {failure : Failure}
    (shows : Shows version list) (refused : change list = .error failure) :
    Halts key change (.read key (.ok version)) failure

/-- What can be said in a change with some rounds left, and how the change ends. -/
inductive Dialogue (budget : Nat) (key : String) (change : Change β) :
    Nat → List Exchange → Except Failure β → Prop
  | gaveUp : Dialogue budget key change 0 [] (.error (.contended key budget))
  /-- What is read puts an end to the change. -/
  | halted {left : Nat} {answer : Except Outage (Option Bytes)} {failure : Failure}
    (halts : Halts key change (.read key answer) failure) :
    Dialogue budget key change (left + 1) [.read key answer] (.error failure)
  /-- The swap fails. -/
  | failed {left : Nat} {version : Option Bytes} {list changed : List Entry} {result : β}
    (shows : Shows version list) (done : change list = .ok (result, changed)) (outage : Outage) :
    Dialogue budget key change (left + 1)
      [.read key (.ok version), .swap key version changed (.error outage)]
      (.error (.outage outage.reason))
  | swapped {left : Nat} {version : Option Bytes} {list changed : List Entry} {result : β}
    (shows : Shows version list) (done : change list = .ok (result, changed)) :
    Dialogue budget key change (left + 1)
      [.read key (.ok version), .swap key version changed (.ok true)] (.ok result)
  /-- The swap does not come about, and the change goes on. -/
  | lost {left : Nat} {version : Option Bytes} {list changed : List Entry} {result : β}
    {exchanges : List Exchange} {ended : Except Failure β} (shows : Shows version list)
    (done : change list = .ok (result, changed))
    (dialogue : Dialogue budget key change left exchanges ended) :
    Dialogue budget key change (left + 1)
      (.read key (.ok version) :: .swap key version changed (.ok false) :: exchanges) ended

variable {budget left : Nat} {key : String} {change : Change β} {exchanges : List Exchange}
  {ended : Except Failure β} {version : Option Bytes} {list : List Entry}

open Program (Leads)

/-- Once the tray has been read, the dialogue goes on with the swap. -/
theorem dialogue_finishRound (shows : Shows version list)
    (again : ∀ {exchanges},
      Leads (changeWithin budget key change left).run exchanges (.done ended) →
        Dialogue budget key change left exchanges ended)
    (leads : Leads (finishRound budget key change left (list, version)).run exchanges
      (.done ended)) :
    Dialogue budget key change (left + 1) (.read key (.ok version) :: exchanges) ended := by
  cases done : change list with
  | error failure =>
      rw [run_finishRound_error done] at leads
      obtain ⟨rfl, ⟨⟩⟩ := leads.of_done
      exact .halted (.refused shows done)
  | ok pair =>
      rw [run_finishRound_ok done] at leads
      obtain ⟨answer, later, rfl, rest⟩ := leads.exists_of_act
      rcases answer with outage | _ | _
      · obtain ⟨rfl, ⟨⟩⟩ := rest.of_done
        exact .failed shows done outage
      · obtain ⟨_, more, rfl, goes⟩ := rest.exists_of_act
        exact .lost shows done (again goes)
      · obtain ⟨rfl, ⟨⟩⟩ := rest.of_done
        exact .swapped shows done

/-- A change comes to its end through such a dialogue only. -/
theorem dialogue_of_leads
    (leads : Leads (changeWithin budget key change left).run exchanges (.done ended)) :
    Dialogue budget key change left exchanges ended := by
  induction left generalizing exchanges with
  | zero =>
      obtain ⟨_, later, rfl, rest⟩ := Leads.exists_of_act leads
      obtain ⟨rfl, ⟨⟩⟩ := rest.of_done
      exact .gaveUp
  | succ left induction =>
      rw [run_changeWithin_succ] at leads
      obtain ⟨answer, later, rfl, rest⟩ := leads.exists_of_act
      rcases answer with outage | _ | bytes
      · obtain ⟨rfl, ⟨⟩⟩ := rest.of_done
        exact .halted (.outage _ outage)
      · exact dialogue_finishRound (.inl ⟨rfl, rfl⟩) induction rest
      · rcases decoded : EntryList.decode bytes with cause | ⟨list, _ | _⟩
        · simp only [afterGet, decoded] at rest
          obtain ⟨rfl, ⟨⟩⟩ := rest.of_done
          exact .halted (.unreadable decoded)
        · simp only [afterGet, decoded] at rest
          exact dialogue_finishRound (.inr ⟨bytes, _, rfl, decoded⟩) induction rest
        · simp only [afterGet, decoded] at rest
          obtain ⟨_, more, rfl, goes⟩ := rest.exists_of_act
          exact dialogue_finishRound (.inr ⟨bytes, _, rfl, decoded⟩) induction goes

/-! ## Answers that put an end to a change -/

variable {exchange : Exchange} {failure other : Failure} {changed : List Entry} {result : β}

theorem Shows.not_halts (shows : Shows version list) (done : change list = .ok (result, changed)) :
    ¬ Halts key change (.read key (.ok version)) failure := by
  rintro (_ | refused | ⟨shown, refused⟩)
  · rcases shows with ⟨⟨⟩, _⟩ | ⟨_, _, ⟨⟩, decoded⟩
    cases refused.symm.trans decoded
  · cases shows.unique shown
    cases done.symm.trans refused

/-- A swap that is answered puts no end to a change that fails. -/
theorem not_halts_swap {swapped : Bool} :
    ¬ Halts key change (.swap key version changed (.ok swapped)) failure := by
  rintro ⟨⟩

theorem Halts.unique (halts : Halts key change exchange failure)
    (also : Halts key change exchange other) : failure = other := by
  cases halts with
  | outage request outage =>
      cases also
      rfl
  | unreadable refused =>
      cases also with
      | unreadable again => cases refused.symm.trans again; rfl
      | refused shows =>
          rcases shows with ⟨⟨⟩, _⟩ | ⟨_, _, ⟨⟩, decoded⟩
          cases refused.symm.trans decoded
  | refused shows refused =>
      cases also with
      | unreadable again =>
          rcases shows with ⟨⟨⟩, _⟩ | ⟨_, _, ⟨⟩, decoded⟩
          cases again.symm.trans decoded
      | refused shown again =>
          cases shows.unique shown
          cases refused.symm.trans again
          rfl

theorem Halts.kind_ne_conflict (halts : Halts key change exchange failure)
    (calm : ∀ list failure, change list = .error failure → failure.kind ≠ .conflict) :
    failure.kind ≠ .conflict := by
  cases halts with
  | outage | unreadable => simp [Failure.kind]
  | refused shows refused => exact calm _ _ refused

/-! ## What is said in which order -/

namespace Dialogue

/-- The tray is read at every other place. -/
theorem reads (dialogue : Dialogue budget key change left exchanges ended) {index : Nat}
    (said : exchanges[index]? = some exchange) (even : index % 2 = 0) :
    exchange.call = .get key := by
  induction dialogue generalizing index with
  | gaveUp => cases said
  | halted | failed | swapped =>
      obtain rfl : index = 0 := by
        have inside := (List.getElem?_eq_some_iff.mp said).1
        simp only [List.length_cons, List.length_nil] at inside
        omega
      cases said
      rfl
  | lost _ _ _ induction =>
      match index with
      | 0 =>
          cases said
          rfl
      | 1 => omega
      | index + 2 => exact induction said (by omega)

/-- At the places in between, what has just been read is to be swapped for what the change makes of
it. -/
theorem swaps (dialogue : Dialogue budget key change left exchanges ended) {index : Nat}
    (said : exchanges[index + 1]? = some exchange) (even : index % 2 = 0) :
    ∃ version list result changed, exchanges[index]? = some (.read key (.ok version)) ∧
      Shows version list ∧ change list = .ok (result, changed) ∧
      exchange.call = .compareAndSet key version (EntryList.encode changed) := by
  induction dialogue generalizing index with
  | gaveUp | halted => cases said
  | failed shows done | swapped shows done =>
      obtain rfl : index = 0 := by
        have inside := (List.getElem?_eq_some_iff.mp said).1
        simp only [List.length_cons, List.length_nil] at inside
        omega
      cases said
      exact ⟨_, _, _, _, rfl, shows, done, rfl⟩
  | lost shows done _ induction =>
      match index with
      | 0 =>
          cases said
          exact ⟨_, _, _, _, rfl, shows, done, rfl⟩
      | 1 => omega
      | index + 2 => exact induction said (by omega)

/-- Each round reads once at most. -/
theorem countP_isRead_le (dialogue : Dialogue budget key change left exchanges ended) :
    exchanges.countP Exchange.isRead ≤ left := by
  induction dialogue with
  | gaveUp => simp
  | halted | failed | swapped => simp [List.countP_cons]
  | lost _ _ _ induction => simpa [List.countP_cons] using induction

theorem countP_isSwap_le (dialogue : Dialogue budget key change left exchanges ended) :
    exchanges.countP Exchange.isSwap ≤ left := by
  induction dialogue with
  | gaveUp => simp
  | halted | failed | swapped => simp [List.countP_cons]
  | lost _ _ _ induction => simpa [List.countP_cons] using induction

/-! ## How it ends -/

/-- A change that succeeds yields what the change of its last round does, and its swap was the last
exchange. -/
theorem exists_of_ok (dialogue : Dialogue budget key change left exchanges (.ok result)) :
    ∃ earlier version list changed,
      exchanges = earlier ++ [.read key (.ok version), .swap key version changed (.ok true)] ∧
        Shows version list ∧ change list = .ok (result, changed) := by
  generalize same : Except.ok result = ended at dialogue
  induction dialogue with
  | gaveUp | halted | failed => cases same
  | swapped shows done =>
      cases same
      exact ⟨[], _, _, _, rfl, shows, done⟩
  | lost _ _ _ induction =>
      obtain ⟨earlier, version, list, changed, rfl, shows, done⟩ := induction same
      exact ⟨_ :: _ :: earlier, version, list, changed, rfl, shows, done⟩

theorem single_place {only : Exchange} {earlier later : List Exchange}
    (said : [only] = earlier ++ exchange :: later) : only = exchange ∧ later = [] := by
  rcases earlier with _ | ⟨_, earlier⟩
  · exact ⟨(List.cons.inj said).1, (List.cons.inj said).2.symm⟩
  · simp at said

/-- Something is said first in a round, or second, or after the round. -/
theorem place_cases {first second : Exchange} {rest earlier later : List Exchange}
    (said : first :: second :: rest = earlier ++ exchange :: later) :
    first = exchange ∨ (second = exchange ∧ earlier = [first] ∧ rest = later) ∨
      ∃ between, earlier = first :: second :: between ∧ rest = between ++ exchange :: later := by
  rcases earlier with _ | ⟨_, _ | ⟨_, between⟩⟩
  · exact .inl (List.cons.inj said).1
  · obtain ⟨rfl, behind⟩ := List.cons.inj said
    obtain ⟨same, past⟩ := List.cons.inj behind
    exact .inr (.inl ⟨same, rfl, past⟩)
  · obtain ⟨rfl, behind⟩ := List.cons.inj said
    obtain ⟨rfl, past⟩ := List.cons.inj behind
    exact .inr (.inr ⟨between, rfl, past⟩)

/-- Once a swap has come about, a change succeeds and says nothing more. -/
theorem succeeds (dialogue : Dialogue budget key change left exchanges ended)
    {earlier later : List Exchange} (said : exchanges = earlier ++ exchange :: later)
    (swapped : exchange.isSwapped = true) : later = [] ∧ ∃ result, ended = .ok result := by
  induction dialogue generalizing earlier with
  | gaveUp => simp at said
  | halted =>
      obtain ⟨rfl, _⟩ := single_place said
      cases swapped
  | failed =>
      obtain rfl | ⟨rfl, _⟩ | ⟨between, _, past⟩ := place_cases said
      · cases swapped
      · cases swapped
      · simp at past
  | swapped =>
      obtain rfl | ⟨rfl, _, rfl⟩ | ⟨between, _, past⟩ := place_cases said
      · cases swapped
      · exact ⟨rfl, _, rfl⟩
      · simp at past
  | lost _ _ _ induction =>
      obtain rfl | ⟨rfl, _⟩ | ⟨between, _, after⟩ := place_cases said
      · cases swapped
      · cases swapped
      · exact induction after

/-- A change gives up when all its rounds have been lost. -/
theorem conflict_iff (dialogue : Dialogue budget key change left exchanges ended)
    (calm : ∀ list failure, change list = .error failure → failure.kind ≠ .conflict) :
    (∃ failure, ended = .error failure ∧ failure.kind = .conflict) ↔
      exchanges.countP Exchange.isSwap = left ∧
        ∀ exchange ∈ exchanges, exchange.isSwap = true → exchange.isLost = true := by
  induction dialogue with
  | gaveUp => simp [Failure.kind]
  | halted halts =>
      have other := halts.kind_ne_conflict calm
      simp [other]
  | failed => simp [Failure.kind]
  | swapped => simp
  | lost _ _ _ induction => simpa [List.countP_cons] using induction

/-- What puts an end to a change is the last thing said in it. -/
theorem halts (dialogue : Dialogue budget key change left exchanges ended)
    {earlier later : List Exchange} (said : exchanges = earlier ++ exchange :: later)
    (halts : Halts key change exchange failure) : later = [] ∧ ended = .error failure := by
  induction dialogue generalizing earlier with
  | gaveUp => simp at said
  | halted halting =>
      obtain ⟨rfl, rfl⟩ := single_place said
      exact ⟨rfl, congrArg _ (halting.unique halts)⟩
  | failed shows done outage =>
      obtain rfl | ⟨rfl, _, rfl⟩ | ⟨between, _, past⟩ := place_cases said
      · exact absurd halts (shows.not_halts done)
      · cases halts
        exact ⟨rfl, rfl⟩
      · simp at past
  | swapped shows done =>
      obtain rfl | ⟨rfl, _⟩ | ⟨between, _, past⟩ := place_cases said
      · exact absurd halts (shows.not_halts done)
      · exact absurd halts not_halts_swap
      · simp at past
  | lost shows done _ induction =>
      obtain rfl | ⟨rfl, _⟩ | ⟨between, _, after⟩ := place_cases said
      · exact absurd halts (shows.not_halts done)
      · exact absurd halts not_halts_swap
      · exact induction after

/-- A change that fails and has not given up fails because of the last thing said in it. -/
theorem caused (dialogue : Dialogue budget key change left exchanges (.error failure))
    (other : failure.kind ≠ .conflict) :
    ∃ earlier last, exchanges = earlier ++ [last] ∧ Halts key change last failure := by
  generalize same : Except.error failure = ended at dialogue
  induction dialogue with
  | gaveUp =>
      cases same
      exact absurd rfl other
  | halted halts =>
      cases same
      exact ⟨[], _, rfl, halts⟩
  | failed shows done outage =>
      cases same
      exact ⟨[_], _, rfl, .outage _ outage⟩
  | swapped => cases same
  | lost _ _ _ induction =>
      obtain ⟨earlier, last, rfl, halts⟩ := induction same
      exact ⟨_ :: _ :: earlier, last, rfl, halts⟩

theorem exists_read (dialogue : Dialogue budget key change (left + 1) exchanges ended) :
    ∃ answer rest, exchanges = .read key answer :: rest := by
  cases dialogue <;> exact ⟨_, _, rfl⟩

/-- After a lost round the tray is read again if a round is left. -/
theorem goes_on (dialogue : Dialogue budget key change left exchanges ended)
    {earlier later : List Exchange} (said : exchanges = earlier ++ exchange :: later)
    (lost : exchange.isLost = true)
    (round_left : (earlier ++ [exchange]).countP Exchange.isSwap < left) :
    ∃ answer rest, later = .read key answer :: rest := by
  induction dialogue generalizing earlier with
  | gaveUp => simp at said
  | halted =>
      obtain ⟨rfl, _⟩ := single_place said
      cases lost
  | failed | swapped =>
      obtain rfl | ⟨rfl, _⟩ | ⟨between, _, past⟩ := place_cases said
      · cases lost
      · cases lost
      · simp at past
  | lost _ _ dialogue induction =>
      obtain rfl | ⟨rfl, rfl, rfl⟩ | ⟨between, rfl, after⟩ := place_cases said
      · cases lost
      · obtain ⟨left, rfl⟩ : ∃ rounds, _ = rounds + 1 := Nat.exists_eq_add_one.mpr (by
          simpa [List.countP_cons] using round_left)
        exact dialogue.exists_read
      · exact induction after (by simpa [List.countP_cons] using round_left)

end Dialogue

/-! ## Calls -/

/-- A change abides by the rules of retrying: what it says, what it is answered and how it ends fit
together. -/
structure Retries (key : String) (change : Change β) (rounds : Nat) (exchanges : List Exchange)
    (ended : Except Failure β) : Prop where
  /-- Some exchange is made, and the first one reads the tray. -/
  begins : ∃ answer rest, exchanges = .read key answer :: rest
  /-- At even places the tray is read. -/
  reads : ∀ index exchange, exchanges[index]? = some exchange → index % 2 = 0 →
    exchange.call = .get key
  /-- After it, what has been read is to be swapped for what the change makes of it. -/
  swaps : ∀ index exchange, exchanges[index + 1]? = some exchange → index % 2 = 0 →
    ∃ version list result changed, exchanges[index]? = some (.read key (.ok version)) ∧
      Shows version list ∧ change list = .ok (result, changed) ∧
      exchange.call = .compareAndSet key version (EntryList.encode changed)
  few_reads : exchanges.countP Exchange.isRead ≤ rounds
  few_swaps : exchanges.countP Exchange.isSwap ≤ rounds
  /-- It succeeds if and only if the last call is a swap that has come about. -/
  succeeds : (∃ result, ended = .ok result) ↔
    ∃ last, exchanges.getLast? = some last ∧ last.isSwapped = true
  /-- A swap that has not come about is followed by another reading if a round is left. -/
  goes_on : ∀ earlier exchange later, exchanges = earlier ++ exchange :: later →
    exchange.isLost = true → (earlier ++ [exchange]).countP Exchange.isSwap < rounds →
    ∃ answer rest, later = .read key answer :: rest
  /-- No call follows on a swap that has come about. -/
  stops : ∀ earlier exchange later, exchanges = earlier ++ exchange :: later →
    exchange.isSwapped = true → later = []
  /-- It yields what the change of the last round does. -/
  yields : ∀ result, ended = .ok result → ∃ earlier version list changed,
    exchanges = earlier ++ [.read key (.ok version), .swap key version changed (.ok true)] ∧
      Shows version list ∧ change list = .ok (result, changed)
  /-- It gives up if and only if it has lost all rounds. -/
  gives_up : (∃ failure, ended = .error failure ∧ failure.kind = .conflict) ↔
    exchanges.countP Exchange.isSwap = rounds ∧
      ∀ exchange ∈ exchanges, exchange.isSwap = true → exchange.isLost = true
  /-- A failed call, a tray that cannot be read and a change that is refused put an end to it. -/
  halts : ∀ earlier exchange later failure, exchanges = earlier ++ exchange :: later →
    Halts key change exchange failure → later = [] ∧ ended = .error failure
  /-- A failure other than giving up is what the last exchange has caused. -/
  caused : ∀ failure, ended = .error failure → failure.kind ≠ .conflict →
    ∃ earlier last, exchanges = earlier ++ [last] ∧ Halts key change last failure

theorem Dialogue.retries (dialogue : Dialogue budget key change (left + 1) exchanges ended)
    (calm : ∀ list failure, change list = .error failure → failure.kind ≠ .conflict) :
    Retries key change (left + 1) exchanges ended where
  begins := dialogue.exists_read
  reads _ _ := dialogue.reads
  swaps _ _ := dialogue.swaps
  few_reads := dialogue.countP_isRead_le
  few_swaps := dialogue.countP_isSwap_le
  succeeds := by
    constructor
    · rintro ⟨result, rfl⟩
      obtain ⟨earlier, version, list, changed, rfl, _⟩ := dialogue.exists_of_ok
      exact ⟨.swap key version changed (.ok true), by simp, rfl⟩
    · rintro ⟨last, said, swapped⟩
      obtain ⟨earlier, rfl⟩ := List.getLast?_eq_some_iff.mp said
      exact (dialogue.succeeds rfl swapped).2
  goes_on _ _ _ := dialogue.goes_on
  stops _ _ _ said swapped := (dialogue.succeeds said swapped).1
  yields := by
    rintro result rfl
    exact dialogue.exists_of_ok
  gives_up := dialogue.conflict_iff calm
  halts _ _ _ _ := dialogue.halts
  caused := by
    rintro failure rfl
    exact dialogue.caused

end Trays

theorem Change.eq_error_of_map {α : Type} {f : α → β} {change : Change α} {entries : List Entry}
    {failure : Failure} (refused : change.map f entries = .error failure) :
    change entries = .error failure := by
  unfold map at refused
  rcases done : change entries with cause | pair
  · rw [done] at refused
    cases refused
    rfl
  · rw [done] at refused
    cases refused

namespace TrayCall

/-- Changes are refused because an entry is missing or already there. -/
theorem kind_of_refused (call : TrayCall) {entries : List Entry} {failure : Failure}
    (refused : call.change entries = .error failure) :
    failure.kind = .notFound ∨ failure.kind = .duplicateEntry := by
  cases call with
  | append budget user tray entry =>
      have refused : Change.append user tray entry entries = .error failure :=
        Change.eq_error_of_map (f := fun _ => none) refused
      unfold Change.append at refused
      split at refused <;> cases refused
      exact .inr rfl
  | remove budget user tray task =>
      have refused : Change.remove user tray task entries = .error failure :=
        Change.eq_error_of_map refused
      unfold Change.remove at refused
      split at refused <;> cases refused
      exact .inl rfl
  | pop budget user tray =>
      have refused : Change.pop user tray entries = .error failure :=
        Change.eq_error_of_map refused
      cases entries <;> cases refused
      exact .inl rfl
  | bump budget user tray task =>
      have refused : Change.bump user tray task entries = .error failure :=
        Change.eq_error_of_map (f := fun _ => none) refused
      unfold Change.bump at refused
      split at refused <;> cases refused
      exact .inl rfl

theorem retries_of_leads {call : TrayCall} {exchanges : List Exchange}
    {ended : Except Failure (Option Entry)}
    (leads : call.attempt.run.Leads exchanges (.done ended)) :
    Trays.Retries call.key call.change call.rounds exchanges ended := by
  obtain ⟨left, some_round⟩ := call.exists_rounds
  rw [attempt_eq, some_round] at leads
  rw [some_round]
  exact (Trays.dialogue_of_leads leads).retries fun list failure refused => by
    rcases call.kind_of_refused refused with missing | duplicate
    · simp [missing]
    · simp [duplicate]

/-- Whatever it is answered, a call reads and swaps by turns until a swap comes about, something
fails or all rounds are lost. -/
theorem retries_converse (call : TrayCall)
    (reply : List Exchange → (action : Action) → action.Answer) :
    Trays.Retries call.key call.change call.rounds (call.attempt.run.converse reply).2
      (call.attempt.run.converse reply).1 :=
  retries_of_leads (Program.leads_converse reply call.attempt.run)

end TrayCall
end Handoff
