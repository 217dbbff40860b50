import Handoff.Text.Utf8

/-!
# Key-value stores

A store maps keys to byte strings.  It answers four calls, each on one key; there is no call on
several keys.  The view of a store is `get?`, and every operation is described by it.
-/

namespace Handoff

/-- A finite map from keys to values. -/
structure Store where
  /-- The keys with their values. -/
  entries : List (String × Bytes)
  /-- No key is stored twice. -/
  distinct : (entries.map Prod.fst).Nodup

namespace Store

def empty : Store := ⟨[], List.nodup_nil⟩

def get? (store : Store) (key : String) : Option Bytes := store.entries.lookup key

def erase (store : Store) (key : String) : Store where
  entries := store.entries.filter (·.1 != key)
  distinct := store.distinct.sublist (List.filter_sublist.map Prod.fst)

/-- The store with a value for a key, in place of any value the key had. -/
def insert (store : Store) (key : String) (value : Bytes) : Store where
  entries := (key, value) :: (store.erase key).entries
  distinct := by
    refine List.nodup_cons.mpr ⟨fun mem => ?_, (store.erase key).distinct⟩
    obtain ⟨entry, kept, same⟩ := List.mem_map.mp mem
    have differs : entry.1 ≠ key := by simpa using (List.mem_filter.mp kept).2
    exact differs same

/-- The store with these values; of several values for one key the last one stays. -/
def ofList (entries : List (String × Bytes)) : Store :=
  entries.foldl (fun store entry => store.insert entry.1 entry.2) empty

def size (store : Store) : Nat := store.entries.length

def contains (store : Store) (key : String) : Bool := (store.get? key).isSome

/-- The number of keys that start with the given text. -/
def countStartingWith (store : Store) (start : String) : Nat :=
  store.entries.countP fun entry => start.toList.isPrefixOf entry.1.toList

/-- Removing a key does not change what other keys are looked up to. -/
theorem lookup_filter_of_ne (entries : List (String × Bytes)) {key other : String}
    (differs : other ≠ key) :
    (entries.filter (·.1 != key)).lookup other = entries.lookup other := by
  induction entries with
  | nil => rfl
  | cons entry entries ih =>
    obtain ⟨name, value⟩ := entry
    by_cases removed : name = key
    · subst removed
      have passed : (other == name) = false := by simp [differs]
      simp [List.lookup_cons, ih, passed]
    · rw [List.filter_cons_of_pos (by simpa using removed)]
      simp only [List.lookup_cons, ih]

/-- A key that has been removed is looked up to nothing. -/
theorem lookup_filter_self (entries : List (String × Bytes)) (key : String) :
    (entries.filter (·.1 != key)).lookup key = none := by
  simp only [List.lookup_eq_none_iff, List.mem_filter, bne_iff_ne]
  exact fun entry kept => by simpa using Ne.symm kept.2

@[simp]
theorem get?_empty (key : String) : empty.get? key = none := rfl

@[simp]
theorem get?_erase_self (store : Store) (key : String) : (store.erase key).get? key = none :=
  lookup_filter_self store.entries key

theorem get?_erase_of_ne (store : Store) {key other : String} (differs : other ≠ key) :
    (store.erase key).get? other = store.get? other :=
  lookup_filter_of_ne store.entries differs

/-- Removing a key changes the value of this key only. -/
theorem get?_erase (store : Store) (key other : String) :
    (store.erase key).get? other = if other = key then none else store.get? other := by
  split
  · rename_i same
    rw [same, get?_erase_self]
  · exact store.get?_erase_of_ne ‹_›

@[simp]
theorem get?_insert_self (store : Store) (key : String) (value : Bytes) :
    (store.insert key value).get? key = some value := by
  simp [get?, insert]

theorem get?_insert_of_ne (store : Store) {key other : String} (value : Bytes)
    (differs : other ≠ key) : (store.insert key value).get? other = store.get? other := by
  have passed : (other == key) = false := by simp [differs]
  simp only [get?, insert, List.lookup_cons, passed]
  exact store.get?_erase_of_ne differs

/-- Giving a key a value changes the value of this key only. -/
theorem get?_insert (store : Store) (key other : String) (value : Bytes) :
    (store.insert key value).get? other = if other = key then some value else store.get? other := by
  split
  · rename_i same
    rw [same, get?_insert_self]
  · exact store.get?_insert_of_ne value ‹_›

end Store

/-- A request to a store. -/
inductive Call
  | get (key : String)
  | set (key : String) (value : Bytes)
  /-- Gives a key a value if it has exactly the expected one, or none if none is expected. -/
  | compareAndSet (key : String) (expected : Option Bytes) (value : Bytes)
  | delete (key : String)
deriving DecidableEq, Repr

namespace Call

/-- The key that a call is about. -/
def key : Call → String
  | .get key | .set key _ | .compareAndSet key _ _ | .delete key => key

/-- What a store says to a call that it carries out. -/
@[reducible]
def Answer : Call → Type
  | .get _ => Option Bytes
  | .set .. => Unit
  | .compareAndSet .. => Bool
  | .delete _ => Unit

end Call

/-- Why a store could not carry out a call. -/
structure Outage where
  /-- The store's own words. -/
  reason : String
deriving DecidableEq, Repr

def Store.perform (store : Store) : (call : Call) → call.Answer × Store
  | .get key => (store.get? key, store)
  | .set key value => ((), store.insert key value)
  | .compareAndSet key expected value =>
    if store.get? key = expected then (true, store.insert key value) else (false, store)
  | .delete key => ((), store.erase key)

end Handoff
