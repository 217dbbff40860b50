import Handoff.Proofs.Store.Cell

/-!
# Users with a common store

Users can share a store if the keys of their trays differ.  They do if no name contains the
character that the ends of the keys begin with.
-/

namespace Handoff

/-- Users with names, whose trays have different keys. -/
structure Community where
  member : UserId → Prop
  named : ∀ user, member user → user ≠ ""
  distinct : ∀ user other tray place, member user → member other →
    Key.tray user tray = Key.tray other place → user = other ∧ tray = place

/-- A name without the character that the ends of keys begin with. -/
def UserId.Plain (user : UserId) : Prop := '_' ∉ user.toList

theorem Key.takeWhile_tray {user : UserId} (plain : user.Plain) (tray : Tray) :
    (user.toList ++ tray.suffix.toList).takeWhile (· != '_') = user.toList := by
  have ends : tray.suffix.toList.takeWhile (· != '_') = [] := by
    cases tray <;> decide
  have kept (c : Char) (mem : c ∈ user.toList) : (c != '_') = true := by
    have differs : c ≠ '_' := fun same => plain (same ▸ mem)
    simpa using differs
  rw [List.takeWhile_append_of_pos kept, ends, List.append_nil]

/-- Users with plain names have different keys. -/
theorem Key.tray_injective_of_plain {user other : UserId} {tray place : Tray} (plain : user.Plain)
    (other_plain : other.Plain) (same : Key.tray user tray = Key.tray other place) :
    user = other ∧ tray = place := by
  have lists : user.toList ++ tray.suffix.toList = other.toList ++ place.suffix.toList := by
    simpa [Key.tray] using congrArg String.toList same
  have users : user = other := by
    have starts := congrArg (List.takeWhile (· != '_')) lists
    rw [takeWhile_tray plain, takeWhile_tray other_plain] at starts
    exact String.toList_inj.mp starts
  subst users
  exact ⟨rfl, Key.tray_injective same⟩

/-- All users with plain names. -/
def Community.plain : Community where
  member := fun user => user ≠ "" ∧ user.Plain
  named := fun _ member => member.1
  distinct := fun _ _ _ _ member other_member =>
    Key.tray_injective_of_plain member.2 other_member.2

end Handoff
