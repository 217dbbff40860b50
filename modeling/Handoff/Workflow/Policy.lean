/-!
# How workflows are carried out

A policy holds what may differ between two installations that share a store.
-/

namespace Handoff

/-- How workflows are carried out. -/
structure Policy where
  /-- How often a change of a tray is tried. -/
  budget : Nat
  /-- What is shown for a user whose name is not known. -/
  placeholder : String
deriving DecidableEq, Repr

namespace Policy

/-- Three attempts, and a plain word. -/
def standard : Policy := ⟨3, "Someone"⟩

end Policy
end Handoff
