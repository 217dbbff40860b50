import Handoff.Entry.Change
import Handoff.Proofs.Pairing.Community
import Mathlib.Tactic.Tauto

/-!
# How a task is held

A task is held by one user in their owned tray, or by a sender and a receiver whose entries are
linked to each other.  The workflows turn one way of holding a task into another.
-/

namespace Handoff

namespace Entry

variable (task other : TaskId) (user : UserId)

@[simp]
theorem unlinked_task : (unlinked task).task = task := rfl

@[simp]
theorem unlinked_link : (unlinked task).link = none := rfl

@[simp]
theorem linked_task : (linked task user other).task = task := rfl

@[simp]
theorem linked_link : (linked task user other).link = some ⟨user, other⟩ := rfl

end Entry

/-- Some entries in each tray of a user. -/
abbrev Placing := UserId → Tray → List Entry

namespace Placing

def none : Placing := fun _ _ => []

/-- With another entry at the end of a tray. -/
def append (placing : Placing) (user : UserId) (tray : Tray) (entry : Entry) : Placing :=
  fun other place =>
    if other = user ∧ place = tray then placing other place ++ [entry] else placing other place

/-- Without the first entry for a task in a tray. -/
def remove (placing : Placing) (user : UserId) (tray : Tray) (task : TaskId) : Placing :=
  fun other place =>
    if other = user ∧ place = tray then EntryList.erase task (placing other place)
    else placing other place

variable {placing : Placing} {user other : UserId} {tray place : Tray} {entry next : Entry}
  {task : TaskId}

theorem remove_append_self (entry : Entry) (lacking : placing user tray = []) :
    (placing.append user tray entry).remove user tray entry.task = placing := by
  funext someone somewhere
  by_cases here : someone = user ∧ somewhere = tray
  · obtain ⟨rfl, rfl⟩ := here
    simp [append, remove, lacking, EntryList.erase]
  · simp [append, remove, here]

theorem remove_append_of_ne (differs : tray ≠ place) :
    (placing.append user tray entry).remove other place task =
      (placing.remove other place task).append user tray entry := by
  funext someone somewhere
  by_cases here : somewhere = tray
  · subst here
    simp [append, remove, differs]
  · simp [append, remove, here]

theorem append_comm (differs : tray ≠ place) :
    (placing.append user tray entry).append other place next =
      (placing.append other place next).append user tray entry := by
  funext someone somewhere
  by_cases here : somewhere = tray
  · subst here
    simp [append, differs]
  · simp [append, here]

theorem append_apply_of_ne (differs : place ≠ tray) :
    placing.append user tray entry other place = placing other place := by
  simp [append, differs]

theorem mem_none_append :
    next ∈ Placing.none.append user tray entry other place ↔
      other = user ∧ place = tray ∧ next = entry := by
  simp only [append, none]
  split
  · rename_i here
    simp [here]
  · rename_i elsewhere
    simp only [List.not_mem_nil, false_iff]
    exact fun held => elsewhere ⟨held.1, held.2.1⟩

end Placing

/-- What there is about some tasks. -/
structure Share where
  entries : Placing
  /-- Which of them have a record. -/
  stored : TaskId → Prop

namespace Share

/-- With another entry at the end of a tray. -/
def append (share : Share) (user : UserId) (tray : Tray) (entry : Entry) : Share :=
  { share with entries := share.entries.append user tray entry }

/-- Without the entry for a task in a tray. -/
def remove (share : Share) (user : UserId) (tray : Tray) (task : TaskId) : Share :=
  { share with entries := share.entries.remove user tray task }

def save (share : Share) (task : TaskId) : Share :=
  { share with stored := fun other => other = task ∨ share.stored other }

def discard (share : Share) (task : TaskId) : Share :=
  { share with stored := fun other => other ≠ task ∧ share.stored other }

variable (share : Share) (user : UserId) (tray : Tray) (entry : Entry) (task other : TaskId)

@[simp]
theorem append_entries :
    (share.append user tray entry).entries = share.entries.append user tray entry := rfl

@[simp]
theorem append_stored : (share.append user tray entry).stored = share.stored := rfl

@[simp]
theorem remove_entries :
    (share.remove user tray task).entries = share.entries.remove user tray task := rfl

@[simp]
theorem remove_stored : (share.remove user tray task).stored = share.stored := rfl

@[simp]
theorem save_entries : (share.save task).entries = share.entries := rfl

@[simp]
theorem save_stored : (share.save task).stored other ↔ other = task ∨ share.stored other := .rfl

@[simp]
theorem discard_entries : (share.discard task).entries = share.entries := rfl

@[simp]
theorem discard_stored :
    (share.discard task).stored other ↔ other ≠ task ∧ share.stored other := .rfl

theorem eq_of_entries_of_stored {left right : Share} (entries : left.entries = right.entries)
    (stored : ∀ task, left.stored task ↔ right.stored task) : left = right := by
  obtain ⟨left_entries, left_stored⟩ := left
  obtain ⟨right_entries, right_stored⟩ := right
  obtain rfl : left_entries = right_entries := entries
  obtain rfl : left_stored = right_stored := funext fun task => propext (stored task)
  rfl

end Share

/-- How a task is held. -/
inductive Holding
  | gone
  | alone (user : UserId) (task : TaskId)
  /-- By a sender and a receiver, who may have accepted it. -/
  | shared (sender : UserId) (task : TaskId) (receiver : UserId) (copy : TaskId) (accepted : Bool)

namespace Holding

def place (accepted : Bool) : Tray := if accepted then .owned else .received

def entries : Holding → Placing
  | .gone => .none
  | .alone user task => Placing.none.append user .owned (.unlinked task)
  | .shared sender task receiver copy accepted =>
    (Placing.none.append sender .sent (.linked task receiver copy)).append receiver
      (place accepted) (.linked copy sender task)

def tasks : Holding → List TaskId
  | .gone => []
  | .alone _ task => [task]
  | .shared _ task _ copy _ => [task, copy]

/-- What there is about a task that is held in this way. -/
def share (holding : Holding) : Share := ⟨holding.entries, (· ∈ holding.tasks)⟩

theorem sent_ne_place (accepted : Bool) : Tray.sent ≠ place accepted := by
  cases accepted <;> decide

@[simp]
theorem share_entries (holding : Holding) : holding.share.entries = holding.entries := rfl

@[simp]
theorem share_stored (holding : Holding) (task : TaskId) :
    holding.share.stored task ↔ task ∈ holding.tasks := .rfl

variable {user sender receiver assignee : UserId} {task copy other : TaskId} {accepted : Bool}

@[simp]
theorem entries_remove_alone : (alone user task).entries.remove user .owned task = .none :=
  Placing.remove_append_self (.unlinked task) rfl

@[simp]
theorem entries_remove_receiver :
    (shared sender task receiver copy accepted).entries.remove receiver (place accepted) copy =
      Placing.none.append sender .sent (.linked task receiver copy) :=
  Placing.remove_append_self (.linked copy sender task)
    (Placing.append_apply_of_ne (sent_ne_place accepted).symm)

@[simp]
theorem entries_remove_sender :
    (shared sender task receiver copy accepted).entries.remove sender .sent task =
      Placing.none.append receiver (place accepted) (.linked copy sender task) := by
  unfold entries
  rw [Placing.remove_append_of_ne (sent_ne_place accepted).symm]
  exact congrArg (Placing.append · _ _ _)
    (Placing.remove_append_self (.linked task receiver copy) rfl)

theorem mem_entries_alone {entry : Entry} {someone : UserId} {tray : Tray} :
    entry ∈ (alone user task).entries someone tray ↔
      someone = user ∧ tray = .owned ∧ entry = .unlinked task :=
  Placing.mem_none_append

theorem mem_entries_shared {entry : Entry} {someone : UserId} {tray : Tray} :
    entry ∈ (shared sender task receiver copy accepted).entries someone tray ↔
      (someone = sender ∧ tray = .sent ∧ entry = .linked task receiver copy) ∨
        (someone = receiver ∧ tray = place accepted ∧ entry = .linked copy sender task) := by
  have differ := sent_ne_place accepted
  simp only [entries, Placing.append, Placing.none]
  by_cases receives : someone = receiver ∧ tray = place accepted
  · have not_sent : ¬(someone = sender ∧ tray = .sent) := fun sends =>
      differ (sends.2.symm.trans receives.2)
    rw [if_pos receives, if_neg not_sent]
    simp [receives.1, receives.2, differ.symm]
  · rw [if_neg receives]
    by_cases sends : someone = sender ∧ tray = .sent
    · rw [if_pos sends]
      simp [sends.1, sends.2, differ]
    · rw [if_neg sends]
      simp only [List.not_mem_nil, false_iff]
      rintro (⟨theirs, sent, _⟩ | ⟨theirs, received, _⟩)
      · exact sends ⟨theirs, sent⟩
      · exact receives ⟨theirs, received⟩

theorem entries_receiver :
    (shared sender task receiver copy accepted).entries receiver (place accepted) =
      [.linked copy sender task] := by
  simp [entries, Placing.append, Placing.none, (sent_ne_place accepted).symm]

/-! ## What the workflows make of it -/

theorem share_add :
    (gone.share.save task).append user .owned (.unlinked task) = (alone user task).share :=
  Share.eq_of_entries_of_stored rfl fun one => by simp [tasks]

theorem share_send :
    (((gone.share.save task).save copy).append sender .sent (.linked task receiver copy)).append
        receiver .received (.linked copy sender task) =
      (shared sender task receiver copy false).share :=
  Share.eq_of_entries_of_stored rfl fun one => by simp [tasks, or_comm]

theorem share_accept :
    ((shared sender task receiver copy false).share.append receiver .owned
        (.linked copy sender task)).remove receiver .received copy =
      (shared sender task receiver copy true).share := by
  refine Share.eq_of_entries_of_stored ?_ fun one => Iff.rfl
  have taken : (shared sender task receiver copy false).entries.remove receiver .received copy =
      Placing.none.append sender .sent (.linked task receiver copy) := entries_remove_receiver
  simp only [Share.remove_entries, Share.append_entries, share_entries]
  rw [Placing.remove_append_of_ne (by decide)]
  exact congrArg (Placing.append · _ _ _) taken

theorem share_finish_alone :
    ((alone user task).share.remove user .owned task).discard task = gone.share :=
  Share.eq_of_entries_of_stored entries_remove_alone fun one => by simp [tasks]

theorem share_finish_sender :
    ((((shared sender task receiver copy accepted).share.remove sender .sent task).discard
        task).remove receiver (place accepted) copy).discard copy = gone.share := by
  apply Share.eq_of_entries_of_stored
  · simp only [Share.discard_entries, Share.remove_entries, share_entries, entries_remove_sender]
    exact Placing.remove_append_self (.linked copy sender task) rfl
  · intro one
    simp [tasks]
    tauto

theorem share_finish_receiver :
    ((((shared sender task receiver copy accepted).share.remove receiver (place accepted)
        copy).discard copy).remove sender .sent task).discard task = gone.share := by
  apply Share.eq_of_entries_of_stored
  · simp only [Share.discard_entries, Share.remove_entries, share_entries,
      entries_remove_receiver]
    exact Placing.remove_append_self (.linked task receiver copy) rfl
  · intro one
    simp [tasks]
    tauto

theorem share_takeBack_alone :
    ((alone user task).share.remove user .owned task).append user .owned (.unlinked task) =
      (alone user task).share := by
  refine Share.eq_of_entries_of_stored ?_ fun one => Iff.rfl
  simp only [Share.append_entries, Share.remove_entries, share_entries, entries_remove_alone]
  rfl

theorem share_handOver_alone :
    ((((alone user task).share.save copy).append assignee .received
        (.linked copy user task)).remove user .owned task).append user .sent
          (.linked task assignee copy) = (shared user task assignee copy false).share := by
  apply Share.eq_of_entries_of_stored
  · simp only [Share.append_entries, Share.remove_entries, Share.save_entries, share_entries]
    rw [Placing.remove_append_of_ne (by decide), entries_remove_alone,
      Placing.append_comm (by decide)]
    rfl
  · intro one
    simp [tasks, or_comm]

theorem share_handOver_shared (differs : copy ≠ other) (distinct : task ≠ copy) :
    ((((((shared user task receiver copy accepted).share.remove receiver (place accepted)
        copy).save other).append assignee .received (.linked other user task)).remove user .sent
          task).append user .sent (.linked task assignee other)).discard copy =
      (shared user task assignee other false).share := by
  apply Share.eq_of_entries_of_stored
  · have taken : (Placing.none.append user .sent (.linked task receiver copy)).remove user .sent
        task = .none := Placing.remove_append_self (.linked task receiver copy) rfl
    simp only [Share.discard_entries, Share.append_entries, Share.remove_entries,
      Share.save_entries, share_entries, entries_remove_receiver]
    rw [Placing.remove_append_of_ne (by decide), taken, Placing.append_comm (by decide)]
    rfl
  · intro one
    simp [tasks]
    grind

theorem share_takeBack (distinct : task ≠ copy) :
    ((((shared user task receiver copy accepted).share.remove receiver (place accepted)
        copy).remove user .sent task).append user .owned (.unlinked task)).discard copy =
      (alone user task).share := by
  apply Share.eq_of_entries_of_stored
  · have taken : (Placing.none.append user .sent (.linked task receiver copy)).remove user .sent
        task = .none := Placing.remove_append_self (.linked task receiver copy) rfl
    simp only [Share.discard_entries, Share.append_entries, Share.remove_entries, share_entries,
      entries_remove_receiver, taken]
    rfl
  · intro one
    simp [tasks]
    grind

end Holding
end Handoff
