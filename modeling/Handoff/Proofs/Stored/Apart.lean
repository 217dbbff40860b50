import Handoff.Proofs.Pool.Basic
import Handoff.Proofs.Stored.Contract
import Handoff.Proofs.Stored.Records

/-!
# Trays that are kept apart

A call on one tray leaves what is read of another one, whoever the two belong to, as long as they
lie under different keys.  They do unless one of them is the owned tray of a user whose name is that
of the other user with the end of the other tray's key.
-/

namespace Handoff

namespace Key

/-- One of two trays is the owned tray of a user whose name is that of the other user with the end
of the other tray's key. -/
def Clash (user : UserId) (tray : Tray) (other : UserId) (place : Tray) : Prop :=
  (tray = .owned ∧ user = other ++ place.suffix) ∨ (place = .owned ∧ other = user ++ tray.suffix)

instance (user : UserId) (tray : Tray) (other : UserId) (place : Tray) :
    Decidable (Clash user tray other place) :=
  inferInstanceAs (Decidable (_ ∨ _))

/-- Names that are followed by different ends are different texts. -/
theorem sent_ne_received (user other : UserId) :
    user ++ Tray.sent.suffix ≠ other ++ Tray.received.suffix := by
  intro same
  have ends := congrArg (·.toList.getLast?) same
  simp [Tray.suffix] at ends

/-- Two trays have one key if they are the same or if they clash. -/
theorem tray_eq_tray_iff {user other : UserId} {tray place : Tray} :
    Key.tray user tray = Key.tray other place ↔
      (user = other ∧ tray = place) ∨ Clash user tray other place := by
  have keys : Key.tray user tray = Key.tray other place ↔
      user ++ tray.suffix = other ++ place.suffix := by
    simp [Key.tray, String.append_assoc]
  have unmarked (name : UserId) : name ++ Tray.owned.suffix = name := String.append_empty
  rw [keys]
  constructor
  · intro same
    by_cases left : tray = .owned
    · subst left
      exact .inr (.inl ⟨rfl, (unmarked user).symm.trans same⟩)
    by_cases right : place = .owned
    · subst right
      exact .inr (.inr ⟨rfl, (unmarked other).symm.trans same.symm⟩)
    by_cases alike : tray = place
    · subst alike
      exact .inl ⟨by simpa using same, rfl⟩
    · cases tray <;> cases place <;> try contradiction
      · exact absurd same (sent_ne_received user other)
      · exact absurd same.symm (sent_ne_received other user)
  · rintro (⟨rfl, rfl⟩ | ⟨rfl, named⟩ | ⟨rfl, named⟩)
    · rfl
    · rw [unmarked, named]
    · rw [unmarked, named]

end Key

namespace Contract

/-- Nothing is written except under one key. -/
def within (key : String) : Contract where
  allows call := call.isWrite = true → call.key = key
  promises _ _ := True

/-- Whatever is written under one key only leaves the values of the others. -/
theorem get?_of_within {α : Type} {key other : String} {ends : α → Prop} {p : Program α}
    (honours : p.Honours (within key) ends) (differs : other ≠ key) (conditions : Conditions)
    (world : World) :
    (conditions.run p world).2.store.get? other = world.store.get? other := by
  have kept (action : Action) (reached : World) (permitted : (within key).Permits action)
      (same : reached.store.get? other = world.store.get? other) :
      True ∧ (conditions.answer action reached).2.store.get? other = world.store.get? other := by
    refine ⟨trivial, ?_⟩
    cases action with
    | newTaskId | now | nameOf | note => exact same
    | call request =>
        simp only [Conditions.answer]
        split
        · exact same
        cases request with
        | get => exact same
        | set place value =>
            obtain rfl : place = key := permitted rfl
            exact (Store.get?_insert_of_ne _ value differs).trans same
        | compareAndSet place expected value =>
            obtain rfl : place = key := permitted rfl
            simp only [World.answer, Store.perform]
            split
            · exact (Store.get?_insert_of_ne _ value differs).trans same
            · exact same
        | delete place =>
            obtain rfl : place = key := permitted rfl
            exact (Store.get?_erase_of_ne _ differs).trans same
  exact (honours.runWith kept rfl).2

end Contract

theorem Trays.run_entries_congr {left right : World} {user : UserId} {tray : Tray}
    (conditions : Conditions)
    (same : left.store.get? (Key.tray user tray) = right.store.get? (Key.tray user tray)) :
    (conditions.run (entries user tray).run left).1 =
      (conditions.run (entries user tray).run right).1 := by
  unfold entries load
  simp only [Conditions.run_bind, Attempt.run_get, same]
  cases right.store.get? (Key.tray user tray) with
  | none => rfl
  | some bytes =>
      simp only
      rcases EntryList.decode bytes with cause | ⟨list, _ | _⟩ <;> rfl

/-- Two trays that clash are one. -/
theorem Trays.entries_eq_of_clash {user other : UserId} {tray place : Tray}
    (clash : Key.Clash user tray other place) : entries user tray = entries other place := by
  rw [entries, entries, Key.tray_eq_tray_iff.mpr (.inr clash)]

namespace TrayCall

def user : TrayCall → UserId
  | .append _ user .. | .remove _ user .. | .pop _ user _ | .bump _ user .. => user

def tray : TrayCall → Tray
  | .append _ _ tray _ | .remove _ _ tray _ | .pop _ _ tray | .bump _ _ tray _ => tray

theorem key_eq (call : TrayCall) : call.key = Key.tray call.user call.tray := by
  cases call with
  | append | remove | pop | bump => rfl

/-- A call writes under its key only. -/
theorem honours_within (call : TrayCall) :
    Attempt.Honours (.within call.key) (fun _ => True) call.attempt := by
  rw [attempt_eq]
  exact Trays.honours_changeWithin (fun _ => rfl) fun _ _ _ _ _ _ => ⟨fun _ => rfl, trivial⟩

/-- A call leaves the value of every other tray and what is read of it, unless the two clash. -/
theorem entries_kept (conditions : Conditions) (call : TrayCall) (world : World) {other : UserId}
    {place : Tray} (differs : ¬(call.user = other ∧ call.tray = place))
    (apart : ¬Key.Clash call.user call.tray other place) :
    let after := (conditions.run call.attempt.run world).2
    after.store.get? (Key.tray other place) = world.store.get? (Key.tray other place) ∧
      (conditions.run (Trays.entries other place).run after).1 =
        (conditions.run (Trays.entries other place).run world).1 := by
  have keys : Key.tray other place ≠ call.key := by
    rw [key_eq]
    intro same
    rcases Key.tray_eq_tray_iff.mp same.symm with alike | clash
    · exact differs alike
    · exact apart clash
  have same := Contract.get?_of_within call.honours_within keys conditions world
  exact ⟨same, Trays.run_entries_congr conditions same⟩

/-- What is put into the sent tray of `bob` leaves his owned tray. -/
theorem entries_kept_of_two_trays :
    let store := Store.ofList [(Key.tray "bob" .owned, EntryList.encode [.unlinked "1"])]
    let world : World := ⟨store, ⟨0⟩, 0⟩
    let calm := Conditions.calm .strokes
    let after := (calm.run (append 3 "bob" .sent (.unlinked "2")).attempt.run world).2
    (calm.run (Trays.entries "bob" .owned).run after).1 =
      (calm.run (Trays.entries "bob" .owned).run world).1 :=
  (entries_kept (.calm .strokes) (.append 3 "bob" .sent (.unlinked "2")) _ (by decide)
    (by decide)).2

/-- What is put into the sent tray of `a` shows in the owned tray of `a_out`. -/
theorem entries_changed_of_clash :
    let store := Store.ofList [(Key.tray "a_out" .owned, EntryList.encode [.unlinked "1"])]
    let world : World := ⟨store, ⟨0⟩, 0⟩
    let calm := Conditions.calm .strokes
    let after := (calm.run (append 3 "a" .sent (.unlinked "2")).attempt.run world).2
    (calm.run (Trays.entries "a_out" .owned).run world).1.toOption = some [.unlinked "1"] ∧
      (calm.run (Trays.entries "a_out" .owned).run after).1.toOption =
        some [.unlinked "1", .unlinked "2"] := by
  decide +kernel

end TrayCall
end Handoff
