import Handoff.Proofs.Entry.Encoding
import Handoff.Store.Basic
import Handoff.Store.Key
import Mathlib.Logic.Function.Basic

/-!
# What a store says

A tray can be stored in several ways that are read alike.  The cell of a key forgets the difference:
for the key of a tray that can be read it holds the entries, and otherwise the value as it is.  Each
change of a store that the operations make is the change of one cell.
-/

namespace Handoff

namespace Key

/-- Whether a key has the beginning of the keys of trays. -/
def isTray (key : String) : Bool := "order_".toList.isPrefixOf key.toList

@[simp]
theorem isTray_tray (user : UserId) (tray : Tray) : isTray (Key.tray user tray) = true := by
  simp [isTray, Key.tray]

@[simp]
theorem isTray_record (task : TaskId) : isTray (Key.record task) = false := by
  simp [isTray, Key.record, List.isPrefixOf]

theorem record_ne_tray (task : TaskId) (user : UserId) (tray : Tray) :
    Key.record task ≠ Key.tray user tray := by
  intro same
  have kinds := congrArg isTray same
  simp at kinds

theorem record_injective {left right : TaskId} (same : Key.record left = Key.record right) :
    left = right := by
  simpa [Key.record] using same

theorem tray_injective {user : UserId} {left right : Tray}
    (same : Key.tray user left = Key.tray user right) : left = right := by
  have lengths := congrArg String.length same
  simp only [Key.tray, String.length_append, Nat.add_left_cancel_iff] at lengths
  revert lengths
  cases left <;> cases right <;> decide

end Key

/-- What is stored under a key, as far as readers of trays can tell. -/
inductive Cell
  /-- A value that is no tray, or that cannot be read as one. -/
  | value (bytes : Option Bytes)
  /-- The entries of a tray that can be read. -/
  | entries (list : List Entry)
deriving DecidableEq

namespace Store

/-- What is stored under a key, as far as readers of trays can tell. -/
def cell (store : Store) (key : String) : Cell :=
  if Key.isTray key then
    match store.get? key with
    | none => .entries []
    | some bytes =>
      match EntryList.decode bytes with
      | .ok (entries, _) => .entries entries
      | .error _ => .value (some bytes)
  else .value (store.get? key)

theorem cell_of_not_isTray (store : Store) {key : String} (other : Key.isTray key = false) :
    store.cell key = .value (store.get? key) := by
  simp [cell, other]

@[simp]
theorem cell_record (store : Store) (task : TaskId) :
    store.cell (Key.record task) = .value (store.get? (Key.record task)) :=
  store.cell_of_not_isTray (Key.isTray_record task)

theorem cell_congr {left right : Store} {key : String} (same : left.get? key = right.get? key) :
    left.cell key = right.cell key := by
  simp only [cell, same]

theorem get?_eq_of_cell_eq_value {store : Store} {key : String} {bytes : Option Bytes}
    (shown : store.cell key = .value bytes) : store.get? key = bytes := by
  unfold cell at shown
  split at shown
  · split at shown
    · cases shown
    · split at shown
      · cases shown
      · rename_i value found _ _ _
        cases shown
        exact found
  · cases shown
    rfl

theorem read_of_cell_eq_entries {store : Store} {key : String} {list : List Entry}
    (shown : store.cell key = .entries list) :
    (store.get? key = none ∧ list = []) ∨
      ∃ bytes form, store.get? key = some bytes ∧ EntryList.decode bytes = .ok (list, form) := by
  unfold cell at shown
  split at shown
  · split at shown
    · rename_i absent
      cases shown
      exact .inl ⟨absent, rfl⟩
    · rename_i bytes found
      split at shown
      · rename_i entries form decoded
        cases shown
        exact .inr ⟨bytes, form, found, decoded⟩
      · cases shown
  · cases shown

/-- A tray that cannot be read has a value. -/
theorem unreadable_of_cell_eq_value {store : Store} {key : String} {bytes : Option Bytes}
    (isTray : Key.isTray key = true) (shown : store.cell key = .value bytes) :
    ∃ value cause, bytes = some value ∧ store.get? key = some value ∧
      EntryList.decode value = .error cause := by
  unfold cell at shown
  rw [if_pos isTray] at shown
  split at shown
  · cases shown
  · rename_i value found
    split at shown
    · cases shown
    · rename_i cause refused
      cases shown
      exact ⟨value, cause, rfl, found, refused⟩

/-- The entries of a tray that can be read are well linked. -/
theorem wellLinked_of_cell_eq_entries {store : Store} {key : String} {list : List Entry}
    (shown : store.cell key = .entries list) : EntryList.WellLinked list := by
  rcases read_of_cell_eq_entries shown with ⟨_, rfl⟩ | ⟨bytes, form, _, decoded⟩
  · simp [EntryList.WellLinked]
  · exact EntryList.wellLinked_of_decode decoded

theorem cell_insert (store : Store) (key : String) (value : Bytes) :
    (store.insert key value).cell =
      Function.update store.cell key ((store.insert key value).cell key) := by
  funext other
  by_cases same : other = key
  · subst same
    rw [Function.update_self]
  · rw [Function.update_of_ne same]
    exact cell_congr (store.get?_insert_of_ne value same)

/-- Writing a tray changes one cell. -/
theorem cell_insert_encode (store : Store) {key : String} (isTray : Key.isTray key = true)
    {list : List Entry} (well : EntryList.WellLinked list) :
    (store.insert key (EntryList.encode list)).cell =
      Function.update store.cell key (.entries list) := by
  rw [cell_insert]
  congr 1
  simp [cell, isTray, EntryList.decode_encode well]

theorem cell_insert_record (store : Store) (task : TaskId) (value : Bytes) :
    (store.insert (Key.record task) value).cell =
      Function.update store.cell (Key.record task) (.value (some value)) := by
  rw [cell_insert]
  congr 1
  simp

theorem cell_erase_record (store : Store) (task : TaskId) :
    (store.erase (Key.record task)).cell =
      Function.update store.cell (Key.record task) (.value none) := by
  funext other
  by_cases same : other = Key.record task
  · subst same
    simp
  · rw [Function.update_of_ne same]
    exact cell_congr (store.get?_erase_of_ne same)

end Store
end Handoff
