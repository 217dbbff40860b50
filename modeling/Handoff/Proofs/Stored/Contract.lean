import Handoff.Proofs.Program.Contract
import Handoff.Proofs.Stored.Trays

/-!
# Contracts of stored trays and records

What an operation on a tray or a record needs to be allowed, and what is known of what it has read.
-/

namespace Handoff

variable {contract : Contract}

namespace Trays

open Attempt (Honours honours_pure honours_throw honours_note honours_call)

variable {β : Type} {budget : Nat} {key : String} {user : UserId} {tray : Tray} {task : TaskId}

/-- The entries that a value is read as; where there is no value, there are none. -/
def Shows (version : Option Bytes) (list : List Entry) : Prop :=
  (version = none ∧ list = []) ∨
    ∃ bytes form, version = some bytes ∧ EntryList.decode bytes = .ok (list, form)

/-- The entries have been read under a key, from a value that was promised. -/
def ReadFrom (contract : Contract) (key : String) (version : Option Bytes) (list : List Entry) :
    Prop :=
  contract.promises (.call (.get key)) (.ok version) ∧ Shows version list

theorem ReadFrom.wellLinked {version : Option Bytes} {list : List Entry}
    (read : ReadFrom contract key version list) : EntryList.WellLinked list := by
  rcases read.2 with ⟨_, rfl⟩ | ⟨bytes, form, _, decoded⟩
  · exact List.forall_mem_nil _
  · exact EntryList.wellLinked_of_decode decoded

theorem honours_load (reads : contract.allows (.get key)) :
    Honours contract (fun read => ReadFrom contract key read.2 read.1) (load key) := by
  refine (honours_call reads).bind fun answer promised => ?_
  split
  · exact honours_pure ⟨promised, .inl ⟨rfl, rfl⟩⟩
  · split
    · exact honours_throw _
    · rename_i bytes _ list form decoded
      have known : ReadFrom contract key (some bytes) list :=
        ⟨promised, .inr ⟨bytes, form, rfl, decoded⟩⟩
      split
      · exact (honours_note _).bind fun _ _ => honours_pure known
      · exact honours_pure known

/-- A change of a tray honours a contract that lets it read the tray and write what the change
makes of the entries it has read. -/
theorem honours_changeWithin {ends : β → Prop} {change : Change β} {left : Nat}
    (reads : contract.allows (.get key))
    (writes : ∀ version list result changed, ReadFrom contract key version list →
      change list = .ok (result, changed) →
      contract.allows (.compareAndSet key version (EntryList.encode changed)) ∧ ends result) :
    Honours contract ends (changeWithin budget key change left) := by
  induction left with
  | zero => exact (honours_note _).bind fun _ _ => honours_throw _
  | succ left induction =>
      refine (honours_load reads).bind fun read known => ?_
      have changing : Honours contract (fun pair => change read.1 = .ok pair)
          (Attempt.ofExcept (change read.1)) := Attempt.honours_ofExcept fun _ same => same
      refine changing.bind fun pair done => ?_
      obtain ⟨allowed, fits⟩ := writes read.2 read.1 pair.1 pair.2 known done
      refine (honours_call allowed).bind fun swapped _ => ?_
      split
      · exact honours_pure fits
      · exact (honours_note _).bind fun _ _ => induction

theorem honours_alter {ends : β → Prop} {change : Change β}
    (reads : contract.allows (.get (Key.tray user tray)))
    (writes : ∀ version list result changed,
      ReadFrom contract (Key.tray user tray) version list → change list = .ok (result, changed) →
      contract.allows (.compareAndSet (Key.tray user tray) version (EntryList.encode changed)) ∧
        ends result) :
    Honours contract ends (alter budget user tray change) :=
  honours_changeWithin reads writes

theorem honours_entries (reads : contract.allows (.get (Key.tray user tray))) :
    Honours contract (fun list => ∃ version, ReadFrom contract (Key.tray user tray) version list)
      (entries user tray) :=
  (honours_load reads).bind fun read known => honours_pure ⟨read.2, known⟩

theorem honours_find? (reads : contract.allows (.get (Key.tray user tray))) :
    Honours contract
      (fun found => ∀ entry position, found = some (entry, position) → ∃ version list,
        ReadFrom contract (Key.tray user tray) version list ∧
          EntryList.find? task list = some entry)
      (find? user tray task) := by
  refine (honours_entries reads).bind fun list known => honours_pure fun entry position found => ?_
  obtain ⟨version, read⟩ := known
  obtain ⟨other, first, same⟩ := Option.map_eq_some_iff.mp found
  cases same
  exact ⟨version, list, read, first⟩

theorem honours_locateIn {trays : List Tray}
    (reads : ∀ place ∈ trays, contract.allows (.get (Key.tray user place))) :
    Honours contract
      (fun found => ∀ located, found = some located → ∃ version list,
        ReadFrom contract (Key.tray user located.tray) version list ∧
          EntryList.find? task list = some located.entry)
      (locateIn user task trays) := by
  induction trays with
  | nil => exact honours_pure (by simp)
  | cons first rest induction =>
      refine (honours_find? (reads first List.mem_cons_self)).bind fun found known => ?_
      split
      · rename_i entry position
        refine honours_pure fun located same => ?_
        cases same
        exact known entry position rfl
      · exact induction fun place mem => reads place (List.mem_cons_of_mem _ mem)

theorem honours_locate? (reads : ∀ place, contract.allows (.get (Key.tray user place))) :
    Honours contract
      (fun found => ∀ located, found = some located → ∃ version list,
        ReadFrom contract (Key.tray user located.tray) version list ∧
          EntryList.find? task list = some located.entry)
      (locate? user task) :=
  honours_locateIn fun place _ => reads place

end Trays

namespace Records

open Attempt (Honours honours_pure honours_throw honours_call)

variable {task : TaskId}

theorem honours_save {content : Task}
    (writes : contract.allows (.set (Key.record content.id) content.encode)) :
    Honours contract (fun _ => True) (save content) :=
  (honours_call writes).mono fun _ _ => trivial

theorem honours_load (reads : contract.allows (.get (Key.record task))) :
    Honours contract
      (fun content => ∃ bytes,
        contract.promises (.call (.get (Key.record task))) (.ok (some bytes)) ∧
          Task.decode bytes = .ok content)
      (load task) := by
  refine (honours_call reads).bind fun answer promised => ?_
  split
  · exact honours_throw _
  · split
    · rename_i bytes _ content decoded
      exact honours_pure ⟨bytes, promised, decoded⟩
    · exact honours_throw _

theorem honours_delete (deletes : contract.allows (.delete (Key.record task))) :
    Honours contract (fun _ => True) (delete task) :=
  (honours_call deletes).mono fun _ _ => trivial

theorem honours_take (reads : contract.allows (.get (Key.record task)))
    (deletes : contract.allows (.delete (Key.record task))) :
    Honours contract
      (fun content => ∃ bytes,
        contract.promises (.call (.get (Key.record task))) (.ok (some bytes)) ∧
          Task.decode bytes = .ok content)
      (take task) :=
  (honours_load reads).bind fun _ known =>
    (honours_delete deletes).bind fun _ _ => honours_pure known

end Records

/-! ## Contracts that suit workflows -/

/-- A contract that lets a workflow do its work: everything may be read, a tray may be swapped for
fitting entries if it has been read, and records with the right names may be written and deleted.
New records are named rightly, and so are those that are read.  What is read of a tray fits, and so
do new entries if they link users that may be linked. -/
structure Contract.Suits (contract : Contract) (named : TaskId → Prop) (known : UserId → Prop)
    (fits : Entry → Prop) : Prop where
  reads : ∀ key, contract.allows (.get key)
  newTaskId : ∀ task, contract.promises .newTaskId task → named task
  recorded : ∀ task bytes content,
    contract.promises (.call (.get (Key.record task))) (.ok (some bytes)) →
      Task.decode bytes = .ok content → content.id = task ∧ named task
  saves : ∀ content : Task, named content.id →
    contract.allows (.set (Key.record content.id) content.encode)
  deletes : ∀ task, named task → contract.allows (.delete (Key.record task))
  shown : ∀ user tray version list,
    Trays.ReadFrom contract (Key.tray user tray) version list → ∀ entry ∈ list, fits entry
  swaps : ∀ user tray version list changed,
    Trays.ReadFrom contract (Key.tray user tray) version list → (∀ entry ∈ changed, fits entry) →
      contract.allows (.compareAndSet (Key.tray user tray) version (EntryList.encode changed))
  unlinked : ∀ task, fits (.unlinked task)
  linked : ∀ task user other, known user → named other → fits (.linked task user other)

section
variable {named : TaskId → Prop} {known : UserId → Prop} {fits : Entry → Prop}
  (suits : contract.Suits named known fits) {budget : Nat} {user : UserId} {tray : Tray}
  {task : TaskId} {entry : Entry}
include suits

open Attempt (Honours)

namespace Contract.Suits

theorem newTaskId_named : Honours contract named Attempt.newTaskId :=
  Attempt.honours_newTaskId.mono suits.newTaskId

theorem alter {β : Type} {change : Change β} (keeps : change.Keeps fits) :
    Honours contract (fun _ => True) (Trays.alter budget user tray change) := by
  refine Trays.honours_alter (suits.reads _) fun version list result changed read done =>
    ⟨suits.swaps user tray version list changed read ?_, trivial⟩
  exact keeps list result changed (suits.shown user tray version list read) done

theorem append (fit : fits entry) :
    Honours contract (fun _ => True) (Trays.append budget user tray entry) :=
  suits.alter (Change.keeps_append user tray fit)

theorem remove : Honours contract (fun _ => True) (Trays.remove budget user tray task) :=
  suits.alter (Change.keeps_remove user tray task fits)

theorem pop : Honours contract (fun _ => True) (Trays.pop budget user tray) :=
  suits.alter (Change.keeps_pop user tray fits)

theorem bump : Honours contract (fun _ => True) (Trays.bump budget user tray task) :=
  suits.alter (Change.keeps_bump user tray task fits)

theorem find? :
    Honours contract (fun found => ∀ entry position, found = some (entry, position) → fits entry)
      (Trays.find? user tray task) := by
  refine (Trays.honours_find? (suits.reads _)).mono fun found known entry position same => ?_
  obtain ⟨version, list, read, first⟩ := known entry position same
  exact suits.shown user tray version list read entry (EntryList.mem_of_find? first)

theorem locate? :
    Honours contract (fun found => ∀ located, found = some located → fits located.entry)
      (Trays.locate? user task) := by
  refine (Trays.honours_locate? fun _ => suits.reads _).mono fun found known located same => ?_
  obtain ⟨version, list, read, first⟩ := known located same
  exact suits.shown user _ version list read _ (EntryList.mem_of_find? first)

theorem save {content : Task} (right : named content.id) :
    Honours contract (fun _ => True) (Records.save content) :=
  Records.honours_save (suits.saves content right)

theorem load :
    Honours contract (fun content => content.id = task ∧ named task) (Records.load task) := by
  refine (Records.honours_load (suits.reads _)).mono fun content known => ?_
  obtain ⟨bytes, promised, decoded⟩ := known
  exact suits.recorded task bytes content promised decoded

theorem delete (right : named task) : Honours contract (fun _ => True) (Records.delete task) :=
  Records.honours_delete (suits.deletes task right)

theorem take : Honours contract (fun _ => True) (Records.take task) :=
  suits.load.bind fun _ known =>
    (suits.delete known.2).bind fun _ _ => Attempt.honours_pure trivial

end Contract.Suits
end
end Handoff
