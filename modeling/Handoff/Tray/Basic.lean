/-!
# Trays

Every user has three trays, each of which holds a list of entries in order.
-/

namespace Handoff

/-- One of a user's trays. -/
inductive Tray
  /-- Tasks the user works on: their own, and those they accepted. -/
  | owned
  /-- Tasks the user handed to somebody. -/
  | sent
  /-- Tasks handed to the user and not yet accepted. -/
  | received
deriving DecidableEq, Repr

namespace Tray

/-- The trays in the order in which a task is looked for. -/
def all : List Tray := [.owned, .sent, .received]

/-- The name of a tray, in messages and in stored values. -/
def name : Tray → String
  | .owned => "owned"
  | .sent => "sent"
  | .received => "received"

/-- What the key of a tray ends in. -/
def suffix : Tray → String
  | .owned => ""
  | .sent => "_out"
  | .received => "_in"

/-- Every tray is searched. -/
theorem mem_all (tray : Tray) : tray ∈ all := by
  cases tray <;> decide

/-- Different trays have different names. -/
theorem name_injective {left right : Tray} (same : left.name = right.name) : left = right := by
  cases left <;> cases right <;> simp_all [name]

end Tray

/-- How many entries each of a user's trays holds. -/
structure Tally where
  owned : Nat
  sent : Nat
  received : Nat
deriving DecidableEq, Repr

namespace Tally

def zero : Tally := ⟨0, 0, 0⟩

/-- The count of one tray. -/
def get (tally : Tally) : Tray → Nat
  | .owned => tally.owned
  | .sent => tally.sent
  | .received => tally.received

/-- Replaces the count of one tray. -/
def set (tally : Tally) (tray : Tray) (n : Nat) : Tally :=
  match tray with
  | .owned => { tally with owned := n }
  | .sent => { tally with sent := n }
  | .received => { tally with received := n }

/-- The count of all trays together. -/
def total (tally : Tally) : Nat := tally.owned + tally.sent + tally.received

/-- Replacing the count of a tray leaves the other counts as they are. -/
theorem get_set (tally : Tally) (tray other : Tray) (n : Nat) :
    (tally.set tray n).get other = if other = tray then n else tally.get other := by
  cases tray <;> cases other <;> rfl

end Tally
end Handoff
