import Handoff.Proofs.Stored.Built
import Handoff.Proofs.Stored.Trays

/-!
# Stores that are read alike

Two stores are equivalent if they differ only in how trays and records are spelled.  A program that
is built from the operations on trays and records tells the same of both and leaves them equivalent,
though the value that it expects to replace is another one in each of them.
-/

namespace Handoff

/-- Two values under the key of a record are read alike: both are absent, both are the same value
that cannot be read, or both are read as the same task. -/
inductive Records.Equivalent : Option Bytes → Option Bytes → Prop
  | absent : Equivalent none none
  | unreadable {bytes : Bytes} {cause : Json.Error} (refused : Task.decode bytes = .error cause) :
      Equivalent (some bytes) (some bytes)
  | read {left right : Bytes} {task : Task} (left_decoded : Task.decode left = .ok task)
      (right_decoded : Task.decode right = .ok task) : Equivalent (some left) (some right)

theorem Records.equivalent_refl (value : Option Bytes) : Equivalent value value := by
  cases value with
  | none => exact .absent
  | some bytes =>
      cases decoded : Task.decode bytes with
      | error cause => exact .unreadable decoded
      | ok task => exact .read decoded decoded

/-- Two stores say the same under all keys, as far as readers of trays and records can tell. -/
structure Store.Equivalent (left right : Store) : Prop where
  /-- Trays are read alike, and other keys that are not those of records have the same value. -/
  cells : ∀ key, (∀ task, key ≠ Key.record task) → left.cell key = right.cell key
  records : ∀ task, Records.Equivalent (left.get? (Key.record task)) (right.get? (Key.record task))

namespace Store.Equivalent

variable {left right : Store}

theorem refl (store : Store) : store.Equivalent store :=
  ⟨fun _ _ => rfl, fun _ => Records.equivalent_refl _⟩

theorem tray (alike : left.Equivalent right) (user : UserId) (tray : Tray) :
    left.cell (Key.tray user tray) = right.cell (Key.tray user tray) :=
  alike.cells _ fun task => (Key.record_ne_tray task user tray).symm

theorem of_same (alike : left.Equivalent right) {key : String} {next next' : Store}
    (same : next.get? key = next'.get? key)
    (left_kept : ∀ other, other ≠ key → next.get? other = left.get? other)
    (right_kept : ∀ other, other ≠ key → next'.get? other = right.get? other) :
    next.Equivalent next' := by
  refine ⟨fun other no_record => ?_, fun task => ?_⟩
  · by_cases here : other = key
    · subst here
      exact cell_congr same
    · calc
        next.cell other = left.cell other := cell_congr (left_kept other here)
        _ = right.cell other := alike.cells other no_record
        _ = next'.cell other := (cell_congr (right_kept other here)).symm
  · by_cases here : Key.record task = key
    · rw [here, same]
      exact Records.equivalent_refl _
    · rw [left_kept _ here, right_kept _ here]
      exact alike.records task

theorem insert (alike : left.Equivalent right) (key : String) (value : Bytes) :
    (left.insert key value).Equivalent (right.insert key value) :=
  alike.of_same (by simp) (fun _ differs => left.get?_insert_of_ne value differs)
    fun _ differs => right.get?_insert_of_ne value differs

theorem erase (alike : left.Equivalent right) (key : String) :
    (left.erase key).Equivalent (right.erase key) :=
  alike.of_same (by simp) (fun _ differs => left.get?_erase_of_ne differs)
    fun _ differs => right.get?_erase_of_ne differs

theorem insert_tray (alike : left.Equivalent right) {user : UserId} {tray : Tray}
    {value value' : Bytes}
    (same : (left.insert (Key.tray user tray) value).cell (Key.tray user tray) =
      (right.insert (Key.tray user tray) value').cell (Key.tray user tray)) :
    (left.insert (Key.tray user tray) value).Equivalent
      (right.insert (Key.tray user tray) value') := by
  refine ⟨fun key no_record => ?_, fun task => ?_⟩
  · by_cases here : key = Key.tray user tray
    · rw [here]
      exact same
    · rw [cell_congr (left.get?_insert_of_ne value here),
        cell_congr (right.get?_insert_of_ne value' here)]
      exact alike.cells key no_record
  · have apart := Key.record_ne_tray task user tray
    rw [left.get?_insert_of_ne value apart, right.get?_insert_of_ne value' apart]
    exact alike.records task

end Store.Equivalent

/-- Two worlds have stores that are equivalent, the same time and the same names to give out. -/
structure World.Equivalent (left right : World) : Prop where
  store : left.store.Equivalent right.store
  clock : left.clock = right.clock
  issued : left.issued = right.issued

namespace Program

variable {around : Surroundings} {α β : Type}

/-- In worlds that are equivalent a program ends alike, and it leaves them equivalent. -/
def Blind (around : Surroundings) (p : Program α) : Prop :=
  ∀ left right : World, left.Equivalent right →
    (p.run around left).1 = (p.run around right).1 ∧
      (p.run around left).2.Equivalent (p.run around right).2

theorem blind_pure (a : α) : Blind around (pure a) := fun _ _ alike => ⟨rfl, alike⟩

theorem Blind.bind {p : Program α} {f : α → Program β} (first : Blind around p)
    (goes : ∀ a, Blind around (f a)) : Blind around (p >>= f) := by
  intro left right alike
  obtain ⟨same, reached⟩ := first left right alike
  simp only [run, runWith_bind] at same reached ⊢
  rw [same]
  exact goes _ _ _ reached

theorem blind_newTaskId : Blind around (perform .newTaskId) := by
  intro left right alike
  refine ⟨congrArg around.newTaskId alike.issued, alike.store, alike.clock, ?_⟩
  exact congrArg (· + 1) alike.issued

theorem blind_now : Blind around (perform .now) := fun _ _ alike => ⟨alike.clock, alike⟩

end Program

namespace Trays

variable {around : Surroundings} {β : Type} {budget : Nat} {user : UserId} {tray : Tray}

/-- Under the key of a tray, equivalent worlds have either the same entries or the same value that
cannot be read. -/
theorem cases_of_equivalent {left right : World} (alike : left.Equivalent right) (user : UserId)
    (tray : Tray) :
    (∃ list, left.store.cell (Key.tray user tray) = .entries list ∧
        right.store.cell (Key.tray user tray) = .entries list) ∨
      ∃ bytes cause, left.store.get? (Key.tray user tray) = some bytes ∧
        right.store.get? (Key.tray user tray) = some bytes ∧
        EntryList.decode bytes = .error cause := by
  have same := alike.store.tray user tray
  cases shown : left.store.cell (Key.tray user tray) with
  | entries list => exact .inl ⟨list, rfl, same.symm.trans shown⟩
  | value value =>
      obtain ⟨bytes, cause, rfl, found, refused⟩ :=
        Store.unreadable_of_cell_eq_value (Key.isTray_tray user tray) shown
      have other := Store.get?_eq_of_cell_eq_value (same.symm.trans shown)
      exact .inr ⟨bytes, cause, found, other, refused⟩

theorem blind_entries (user : UserId) (tray : Tray) : (entries user tray).run.Blind around := by
  intro left right alike
  simp only [← Conditions.run_calm]
  unfold entries
  rw [Conditions.run_bind, Conditions.run_bind]
  rcases cases_of_equivalent alike user tray with
    ⟨list, shown, other⟩ | ⟨bytes, cause, found, other, no⟩
  · rw [run_load shown, run_load other]
    exact ⟨rfl, alike⟩
  · rw [run_load_of_unreadable found no, run_load_of_unreadable other no]
    exact ⟨rfl, alike⟩

/-- A change is applied to the same entries and writes the same value, each time in place of the
value that the entries were read from. -/
theorem blind_alter (change : Change β) : (alter budget user tray change).run.Blind around := by
  intro left right alike
  have free : (Conditions.calm around).barred (Key.tray user tray) = false := rfl
  simp only [← Conditions.run_calm]
  rcases cases_of_equivalent alike user tray with
    ⟨list, shown, other⟩ | ⟨bytes, cause, found, other, no⟩
  · rw [run_alter budget free shown, run_alter budget free other]
    cases change list with
    | error failure => exact ⟨rfl, alike⟩
    | ok pair => exact ⟨rfl, alike.store.insert _ _, alike.clock, alike.issued⟩
  · obtain ⟨left, some_round⟩ := exists_rounds budget
    unfold alter
    rw [some_round, changeWithin, Conditions.run_bind, Conditions.run_bind,
      run_load_of_unreadable found no, run_load_of_unreadable other no]
    exact ⟨rfl, alike⟩

end Trays

namespace Records

variable {around : Surroundings}

theorem blind_load (task : TaskId) : (load task).run.Blind around := by
  intro left right alike
  simp only [← Conditions.run_calm]
  unfold load
  rw [Conditions.run_bind, Conditions.run_bind, Attempt.run_get, Attempt.run_get]
  have seen := alike.store.records task
  generalize left.store.get? (Key.record task) = mine at seen ⊢
  generalize right.store.get? (Key.record task) = other at seen ⊢
  cases seen with
  | absent => exact ⟨rfl, alike⟩
  | unreadable refused =>
      simp only [refused]
      exact ⟨rfl, alike⟩
  | read left_decoded right_decoded =>
      simp only [left_decoded, right_decoded]
      exact ⟨rfl, alike⟩

theorem blind_save (task : Task) : (save task).run.Blind around := by
  intro left right alike
  have free (key : String) : (Conditions.calm around).barred key = false := rfl
  simp only [← Conditions.run_calm]
  unfold save Attempt.set
  rw [Attempt.run_write _ (free _), Attempt.run_write _ (free _)]
  exact ⟨rfl, alike.store.insert _ _, alike.clock, alike.issued⟩

theorem blind_delete (task : TaskId) : (delete task).run.Blind around := by
  intro left right alike
  have free (key : String) : (Conditions.calm around).barred key = false := rfl
  simp only [← Conditions.run_calm]
  unfold delete Attempt.delete
  rw [Attempt.run_write _ (free _), Attempt.run_write _ (free _)]
  exact ⟨rfl, alike.store.erase _, alike.clock, alike.issued⟩

end Records

/-- A program that is built from the operations on trays and records does not see how they are
spelled. -/
theorem Program.Built.blind {α : Type} {p : Program α} (built : p.Built)
    (around : Surroundings) : p.Blind around := by
  induction built with
  | pure a => exact blind_pure a
  | bind _ _ first goes => exact first.bind goes
  | newTaskId => exact blind_newTaskId
  | now => exact blind_now
  | nameOf | note => exact fun _ _ alike => ⟨rfl, alike⟩
  | entries user tray => exact Trays.blind_entries user tray
  | append | remove | pop | bump => exact Trays.blind_alter _
  | load task => exact Records.blind_load task
  | save task => exact Records.blind_save task
  | delete task => exact Records.blind_delete task

end Handoff
