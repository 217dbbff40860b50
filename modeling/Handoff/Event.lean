/-!
# Events

What operations report to the log besides their results.
-/

namespace Handoff

/-- How serious an event is. -/
inductive Level
  | error
  | warn
  | info
  | debug
  | trace
deriving DecidableEq, Repr

namespace Level

/-- The levels, the most serious first. -/
def all : List Level := [.error, .warn, .info, .debug, .trace]

def rank : Level → Nat
  | .error => 1
  | .warn => 2
  | .info => 3
  | .debug => 4
  | .trace => 5

def name : Level → String
  | .error => "ERROR"
  | .warn => "WARN"
  | .info => "INFO"
  | .debug => "DEBUG"
  | .trace => "TRACE"

end Level

/-- Something that an operation reports. -/
inductive Event
  | taskAdded
  | taskSent
  | taskAccepted
  | taskCompleted
  | taskRemoved
  | taskPopped
  | taskBumped
  | taskReassigned
  | committed
  | undoing
  | undoFailed
  | undone
  | oldFormRead
  | retrying
  | gaveUp
  | entrySkipped
  | counterpartNotLocated
  | placeholderUsed
  | counterpartNotUpdated
  | receiverCopyUnreadable
  | senderCopyUnreadable
  | assigneeGone
  | assigneeElsewhere
  | counterpartNotRemoved
  | counterpartElsewhere
  | counterpartGone
  | counterpartUnreadable
  | recordNotDeleted
  | reminderTaken
deriving DecidableEq, Repr

namespace Event

/-- How serious an event is. -/
def level : Event → Level
  | .committed => .trace
  | .taskAdded | .undone | .oldFormRead | .retrying | .entrySkipped | .counterpartNotLocated
  | .placeholderUsed | .reminderTaken => .debug
  | .taskSent | .taskAccepted | .taskCompleted | .taskRemoved | .taskPopped | .taskBumped
  | .taskReassigned => .info
  | .undoing | .undoFailed | .gaveUp | .counterpartNotUpdated | .receiverCopyUnreadable
  | .senderCopyUnreadable | .assigneeGone | .assigneeElsewhere | .counterpartNotRemoved
  | .counterpartElsewhere | .counterpartGone | .counterpartUnreadable | .recordNotDeleted => .warn

def message : Event → String
  | .taskAdded => "task added"
  | .taskSent => "task sent"
  | .taskAccepted => "task accepted"
  | .taskCompleted => "task completed"
  | .taskRemoved => "task removed"
  | .taskPopped => "task popped"
  | .taskBumped => "task bumped"
  | .taskReassigned => "task reassigned"
  | .committed => "workflow committed"
  | .undoing => "workflow failed, compensating"
  | .undoFailed => "compensation step failed"
  | .undone => "workflow rolled back"
  | .oldFormRead => "read legacy list shape, upgrading in memory"
  | .retrying => "list changed concurrently, retrying"
  | .gaveUp => "giving up on list update after repeated conflicts"
  | .entrySkipped => "skipping unreadable list entry"
  | .counterpartNotLocated => "cannot locate counterpart entry"
  | .placeholderUsed => "using placeholder display name"
  | .counterpartNotUpdated => "cannot update counterpart copy after edit"
  | .receiverCopyUnreadable => "cannot read receiver's copy after bump, using sender's"
  | .senderCopyUnreadable => "cannot read sender's copy after bump either"
  | .assigneeGone => "previous assignee's reference already gone"
  | .assigneeElsewhere => "previous assignee's reference links elsewhere, leaving it"
  | .counterpartNotRemoved => "cannot clean counterpart list"
  | .counterpartElsewhere => "counterpart reference links elsewhere, leaving it"
  | .counterpartGone => "counterpart reference already gone"
  | .counterpartUnreadable => "cannot read counterpart lists, keeping their copy"
  | .recordNotDeleted => "cannot delete task record"
  | .reminderTaken => "reminder already claimed by another caller"

end Event
end Handoff
