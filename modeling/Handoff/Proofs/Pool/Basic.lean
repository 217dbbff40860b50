import Handoff.Proofs.Pool.Round

/-!
# Clients with a common store

Each of the clients makes calls that change trays, one after another.  A schedule tells whose turn
it is, and at its turn a client takes one action of its current call.  The actions are noted in the
order in which they are taken.
-/

namespace Handoff

namespace Change

variable {α β : Type}

/-- The same change with another result. -/
def map (f : α → β) (change : Change α) : Change β := fun entries =>
  (change entries).map fun pair => (f pair.1, pair.2)

theorem map_eq_ok_iff {f : α → β} {change : Change α} {entries changed : List Entry} {result : β} :
    change.map f entries = .ok (result, changed) ↔
      ∃ a, change entries = .ok (a, changed) ∧ f a = result := by
  unfold map
  rcases change entries with failure | ⟨a, rest⟩
  · simp [Except.map]
  · simp [Except.map, and_comm]

theorem KeepsLinks.map {change : Change α} (keeps : change.KeepsLinks) (f : α → β) :
    (change.map f).KeepsLinks := by
  intro entries result changed well done
  obtain ⟨a, done, _⟩ := map_eq_ok_iff.mp done
  exact keeps entries a changed well done

end Change

theorem Trays.map_changeWithin {α β : Type} (f : α → β) (budget : Nat) (key : String)
    (change : Change α) (left : Nat) :
    f <$> changeWithin budget key change left = changeWithin budget key (change.map f) left := by
  induction left with
  | zero => rfl
  | succ left induction =>
      rw [changeWithin_succ, changeWithin_succ, map_bind]
      congr 1
      funext read
      rcases done : change read.1 with failure | ⟨a, changed⟩
      · simp only [finishRound, Change.map, done]
        rfl
      · simp only [finishRound, Change.map, done]
        change f <$> (Attempt.compareAndSet key read.2 (EntryList.encode changed) >>=
          fun swapped => if swapped then pure a else
            Attempt.note .retrying >>= fun _ => changeWithin budget key change left) = _
        rw [map_bind]
        refine congrArg (Attempt.compareAndSet key read.2 (EntryList.encode changed) >>= ·)
          (funext fun swapped => ?_)
        cases swapped with
        | false => exact congrArg (Attempt.note .retrying >>= fun _ => ·) induction
        | true => rfl

inductive TrayCall
  | append (budget : Nat) (user : UserId) (tray : Tray) (entry : Entry)
  | remove (budget : Nat) (user : UserId) (tray : Tray) (task : TaskId)
  | pop (budget : Nat) (user : UserId) (tray : Tray)
  | bump (budget : Nat) (user : UserId) (tray : Tray) (task : TaskId)
deriving DecidableEq, Repr

namespace TrayCall

/-- What a call attempts.  It yields the entry that is taken out, if one is. -/
def attempt : TrayCall → Attempt (Option Entry)
  | .append budget user tray entry => (fun _ => none) <$> Trays.append budget user tray entry
  | .remove budget user tray task => some <$> Trays.remove budget user tray task
  | .pop budget user tray => some <$> Trays.pop budget user tray
  | .bump budget user tray task => (fun _ => none) <$> Trays.bump budget user tray task

def key : TrayCall → String
  | .append _ user tray _ | .remove _ user tray _ | .pop _ user tray | .bump _ user tray _ =>
    Key.tray user tray

def rounds : TrayCall → Nat
  | .append budget .. | .remove budget .. | .pop budget .. | .bump budget .. =>
    Trays.rounds budget

/-- What a call does to the entries of the tray. -/
def change : TrayCall → Change (Option Entry)
  | .append _ user tray entry => (Change.append user tray entry).map fun _ => none
  | .remove _ user tray task => (Change.remove user tray task).map some
  | .pop _ user tray => (Change.pop user tray).map some
  | .bump _ user tray task => (Change.bump user tray task).map fun _ => none

/-- The entry that is put in, if one is. -/
def added : TrayCall → Option Entry
  | .append _ _ _ entry => some entry
  | .remove .. | .pop .. | .bump .. => none

/-- Links of an entry that is put in are complete. -/
def WellLinked (call : TrayCall) : Prop := ∀ entry ∈ call.added, entry.WellLinked

theorem attempt_eq (call : TrayCall) :
    call.attempt = Trays.changeWithin call.rounds call.key call.change call.rounds := by
  cases call with
  | append | remove | pop | bump => exact Trays.map_changeWithin ..

theorem isTray_key (call : TrayCall) : Key.isTray call.key = true := by
  cases call with
  | append | remove | pop | bump => exact Key.isTray_tray ..

theorem keepsLinks_change {call : TrayCall} (well : call.WellLinked) : call.change.KeepsLinks := by
  cases call with
  | append budget user tray entry =>
      exact (Change.keepsLinks_append user tray (well entry rfl)).map fun _ => none
  | remove budget user tray task => exact (Change.keepsLinks_remove user tray task).map _
  | pop budget user tray => exact (Change.keepsLinks_pop user tray).map _
  | bump budget user tray task =>
      exact (Change.keepsLinks_bump user tray task).map fun _ => none

theorem exists_rounds (call : TrayCall) : ∃ left, call.rounds = left + 1 := by
  cases call with
  | append budget | remove budget | pop budget | bump budget => exact Trays.exists_rounds budget

/-- A call begins by reading. -/
theorem exists_run_attempt (call : TrayCall) :
    ∃ next, call.attempt.run = .act (.call (.get call.key)) next := by
  obtain ⟨left, some_round⟩ := call.exists_rounds
  refine ⟨Trays.afterGet call.rounds call.key call.change left, ?_⟩
  rw [attempt_eq, ← Trays.run_changeWithin_succ, ← some_round]

end TrayCall

/-- How far a client is in its calls. -/
inductive Client
  | idle
  /-- A call is being made, and others wait.  It is noted what the store was like when it was last
  read for the call. -/
  | busy (call : TrayCall) (program : Program (Except Failure (Option Entry)))
    (seen : Option Store) (waiting : List TrayCall)

namespace Client

/-- A client that begins with its calls. -/
def ofCalls : List TrayCall → Client
  | [] => .idle
  | call :: waiting => .busy call call.attempt.run none waiting

def pending : Client → List TrayCall
  | .idle => []
  | .busy _ (.done _) _ waiting => waiting
  | .busy call (.act ..) _ waiting => call :: waiting

@[simp]
theorem pending_done (call : TrayCall) (result : Except Failure (Option Entry))
    (seen : Option Store) (waiting : List TrayCall) :
    (busy call (.done result) seen waiting).pending = waiting := rfl

@[simp]
theorem pending_act (call : TrayCall) (action : Action)
    (next : action.Answer → Program (Except Failure (Option Entry))) (seen : Option Store)
    (waiting : List TrayCall) :
    (busy call (.act action next) seen waiting).pending = call :: waiting := rfl

@[simp]
theorem pending_ofCalls (calls : List TrayCall) : (ofCalls calls).pending = calls := by
  cases calls with
  | nil => rfl
  | cons call waiting =>
      obtain ⟨next, begins⟩ := call.exists_run_attempt
      rw [ofCalls, begins, pending]

end Client

/-- An action that has been taken. -/
structure Moment (κ : Type) where
  /-- Who has taken it. -/
  client : κ
  /-- The call that it belongs to. -/
  call : TrayCall
  /-- The action. -/
  action : Action
  answer : action.Answer
  /-- What the store was like when it was last read for the call. -/
  seen : Option Store
  /-- The result of the call, if the call has ended with the action. -/
  result : Option (Except Failure (Option Entry))

namespace Moment

variable {κ : Type}

/-- Whether a value has been swapped for another. -/
def swapped (moment : Moment κ) : Bool := moment.action.swaps moment.answer

/-- The call and what it yields, if it has succeeded with this action and the key is that of its
tray. -/
def success? (key : String) (moment : Moment κ) : Option (TrayCall × Option Entry) :=
  match moment.result with
  | some (.ok value) => if moment.call.key = key then some (moment.call, value) else none
  | _ => none

end Moment

/-- Clients with a common store. -/
structure Pool (κ : Type) where
  /-- The common store. -/
  world : World
  /-- The clients. -/
  clients : κ → Client
  /-- The actions that have been taken, in order. -/
  moments : List (Moment κ)

namespace Pool

variable {κ : Type} [DecidableEq κ]

def start (world : World) (calls : κ → List TrayCall) : Pool κ :=
  ⟨world, fun client => .ofCalls (calls client), []⟩

/-- Lets a client take an action, or turn to the next call if a call has ended. -/
def move (around : Surroundings) (pool : Pool κ) (client : κ) : Pool κ :=
  match pool.clients client with
  | .idle => pool
  | .busy _ (.done _) _ waiting =>
    { pool with clients := Function.update pool.clients client (.ofCalls waiting) }
  | .busy call (.act action next) seen waiting =>
    let (answer, world) := World.answer around action pool.world
    let seen := action.sees pool.world.store seen
    { world
      clients := Function.update pool.clients client (.busy call (next answer) seen waiting)
      moments := pool.moments ++ [⟨client, call, action, answer, seen, (next answer).result?⟩] }

def run (around : Surroundings) (schedule : List κ) (pool : Pool κ) : Pool κ :=
  schedule.foldl (move around) pool

/-- What each move keeps true, a whole run keeps true. -/
theorem run_keeps {holds : Pool κ → Prop} (around : Surroundings)
    (move_keeps : ∀ pool client, holds pool → holds (pool.move around client))
    (schedule : List κ) {pool : Pool κ} (begins : holds pool) :
    holds (pool.run around schedule) := by
  induction schedule generalizing pool with
  | nil => exact begins
  | cons client schedule induction => exact induction (move_keeps pool client begins)

/-- The calls of a client that have ended, in order. -/
def ended (pool : Pool κ) (client : κ) : List TrayCall :=
  (pool.moments.filter fun moment => moment.client = client ∧ moment.result.isSome).map Moment.call

/-- The calls that have succeeded under a key with what they have yielded, in order. -/
def successes (pool : Pool κ) (key : String) : List (TrayCall × Option Entry) :=
  pool.moments.filterMap (Moment.success? key)

end Pool
end Handoff
