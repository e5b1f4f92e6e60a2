import Onlyne.Foundation.Run
import Onlyne.Foundation.Table

/-!
# Messenger gateway: transactions of the file storage

`FileStorage` of `storage.ts`.  Transactions run one after another; each is given by what its callback buffered and by
how it ended.  `get` hands out the stored value itself, so a callback may also change it in place.
-/

namespace Onlyne.Im

open Foundation

structure Work (V : Type) where
  -- The stored values that were changed in place.
  edited : List (String × V) := []
  deleted : List String := []
  changes : List (String × V) := []

inductive Ending where
  | threw
  -- A change could not be cloned after this many others.
  | uncloned (copied : Nat)
  -- Making the directory, writing the temporary file or renaming it failed.
  | unwritten
  -- The result could not be cloned.
  | unreturned
  | resolved
  deriving DecidableEq

/-- The snapshot in memory, and the one in the store file. -/
structure FileStorage (V : Type) where
  records : Table String V
  file : Table String V

variable {V : Type}

def edit (records : Table String V) (row : String × V) : Table String V :=
  if (records.get row.1).isSome then records.put row.1 row.2 else records

def merge (records : Table String V) (deleted : List String) (changes : List (String × V)) : Table String V :=
  changes.foldl (fun records row => records.put row.1 row.2) (deleted.foldl Table.delete records)

def Work.apply (records : Table String V) (work : Work V) : Table String V := merge records work.deleted work.changes

def Work.touched (work : Work V) : Bool := !(work.deleted.isEmpty && work.changes.isEmpty)

def transaction (s : FileStorage V) (act : Work V × Ending) : Option (FileStorage V) :=
  let (work, ending) := act
  let records := work.edited.foldl edit s.records
  match ending with
  | .threw => some { s with records }
  | .uncloned copied =>
    if copied < work.changes.length then
      some { s with records := merge records work.deleted (work.changes.take copied) }
    else none
  | .unwritten => if work.touched then some { s with records := work.apply records } else none
  | .unreturned | .resolved =>
    some { records := work.apply records, file := if work.touched then work.apply records else s.file }

/-- The callback leaves the stored values alone, and nothing fails once it has returned. -/
def sound (act : Work V × Ending) : Bool := act.1.edited.isEmpty && (act.2 = .threw || act.2 = .resolved)

def resolved (h : List (Transition (FileStorage V) (Work V × Ending))) : List (Work V) :=
  (h.filter fun t => t.act.2 = .resolved).map fun t => t.act.1

variable {s s' : FileStorage V} {act : Work V × Ending}

theorem transaction_of_sound (hstep : transaction s act = some s') (hsound : sound act = true) (hfile : s.file = s.records) :
    act.2 = .threw ∧ s' = s ∨ act.2 = .resolved ∧ s' = ⟨act.1.apply s.records, act.1.apply s.records⟩ := by
  obtain ⟨⟨edited, deleted, changes⟩, ending⟩ := act
  simp only [sound, Bool.and_eq_true, List.isEmpty_iff, Bool.or_eq_true, decide_eq_true_eq] at hsound
  obtain ⟨rfl, rfl | rfl⟩ := hsound
  · cases hstep
    exact .inl ⟨rfl, rfl⟩
  · cases hstep
    refine .inr ⟨rfl, ?_⟩
    cases htouched : Work.touched ⟨[], deleted, changes⟩ with
    | true => rfl
    | false =>
      simp only [Work.touched, Bool.not_eq_false', Bool.and_eq_true, List.isEmpty_iff] at htouched
      obtain ⟨rfl, rfl⟩ := htouched
      simp [Work.apply, merge, hfile]

/-- While no callback changes a stored value in place and nothing fails after one has returned, a transaction that
rejects changes neither memory nor file, and both hold the effects of the resolved ones in order. -/
theorem storage_atomic {records : Table String V} {h : List (Transition (FileStorage V) (Work V × Ending))}
    (hrun : Run transaction ⟨records, records⟩ h s) (hsound : ∀ t ∈ h, sound t.act = true) :
    (∀ t ∈ h, t.act.2 ≠ .resolved → t.after = t.before) ∧
      s.records = (resolved h).foldl Work.apply records ∧ s.file = (resolved h).foldl Work.apply records := by
  have hkeep (s : FileStorage V) (act s') (hfile : s.file = s.records) (hstep : transaction s act = some s')
      (hsound : sound act = true) : s'.file = s'.records := by
    rcases transaction_of_sound hstep hsound hfile with ⟨-, rfl⟩ | ⟨-, rfl⟩
    · exact hfile
    · rfl
  constructor
  · intro t ht hrej
    have hfile := hrun.before_of (I := fun s => s.file = s.records) hsound rfl hkeep ht
    rcases transaction_of_sound (hrun.step_of_mem ht) (hsound t ht) hfile with ⟨-, hsame⟩ | ⟨hend, -⟩
    · exact hsame
    · exact absurd hend hrej
  · induction hrun with
    | nil => exact ⟨rfl, rfl⟩
    | @snoc h s s' act hprev hstep ih =>
      obtain ⟨hrecs, hfile⟩ := ih fun t ht => hsound t (List.mem_append_left _ ht)
      have hlast := transaction_of_sound hstep (hsound ⟨s, act, s'⟩ (by simp)) (hfile.trans hrecs.symm)
      rcases hlast with ⟨hend, rfl⟩ | ⟨hend, rfl⟩
      · simpa [resolved, hend] using And.intro hrecs hfile
      · simp [resolved, hend, hrecs]

/-- One callback throws, and another transaction resolves. -/
theorem storage_atomic_one : ∃ h s, Run transaction (⟨∅, ∅⟩ : FileStorage Nat) h s ∧ (resolved h).length = 1 ∧
    s.file = (resolved h).foldl Work.apply ∅ := by
  obtain ⟨h, s, hrun, hsound, hone⟩ := exists_run transaction (⟨∅, ∅⟩ : FileStorage Nat)
    [({ changes := [("a", 1)] }, .threw), ({ changes := [("b", 2)] }, .resolved)]
    (fun h _ => (∀ t ∈ h, sound t.act = true) ∧ (resolved h).length = 1) (by decide +kernel)
  exact ⟨h, s, hrun, hone, (storage_atomic hrun hsound).2.2⟩

/-- The write of a transaction that rejected, because its commit failed, is seen by the next one and gets into the file
with it. -/
theorem rejected_write_kept : ∃ h s, Run transaction (⟨∅, ∅⟩ : FileStorage Nat) h s ∧
    (∃ t ∈ h, t.act.2 = .unwritten ∧ t.after.records.get "a" = some 1) ∧ s.file.get "a" = some 1 := by
  exact exists_run _ _ [({ changes := [("a", 1)] }, .unwritten), ({ changes := [("b", 2)] }, .resolved)] _
    (by decide +kernel)

end Onlyne.Im
