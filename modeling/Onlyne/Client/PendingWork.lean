import Onlyne.Client.Records

/-!
# Client: the report of pending work

`hasPendingWork` tells the maintenance loop whether to keep its active cadence.  For outbound records it is to
agree with the scheduled recovery pass: both look at the same records, but the pass leaves a record alone whose
window has closed while its admission is unknown, and the report counts it.
-/

namespace Onlyne.Client

open Foundation List
open Messages (Message MessageRef)

/-! ## The report -/

/-- An inbox row that still owes an acknowledgement or an injection. -/
def LocalAttention.owed (row : LocalAttention) : Bool :=
  !row.attention.acked || !row.injected && row.attention.entry.isSome && !row.attention.expired

def StoredOutbound.owed (record : StoredOutbound) (now : Int) : Bool :=
  record.digest.isSome && (record.state = .pending ||
    (record.state = .unknown && record.nextAttempt.all fun next => next ≤ now))

/-- The rows of the thread and trust services that the report looks at: the notices of an owner, the grants of a
member, and how long each owed trust statement is held back. -/
structure ServiceRows where
  notices : List Messages.Grant := []
  grants : List Messages.Grant := []
  exchanges : List (Option Int) := []

/-- Whether any durable record still needs a local pass. -/
def hasPendingWork (now : Int) (inbox : Table String LocalAttention) (todos : Table ContextSlot PendingTodo)
    (outbound : OutboundRows) (services : ServiceRows) : Bool :=
  inbox.rows.any (fun row => row.2.owed) || todos.rows.any (fun row => !row.2.done) ||
    outbound.rows.any (fun row => row.2.owed now) || services.notices.any (fun grant => !grant.acked) ||
    services.grants.any (fun grant => !grant.acked) ||
    services.exchanges.any (fun blocked => blocked.all fun until_ => until_ ≤ now)

/-! ## The pass -/

/-- A scheduled recovery pass that begins at `now` and comes to the record at `later` transmits it, or changes
its stored state. -/
inductive Touches (rows : OutboundRows) (now later : Int) (record : StoredOutbound) : Prop where
  | transmitted (listed : record ∈ recoverRows true now rows)
      (posted : ∀ rest, (recoverStep rows later (record :: rest)).output =
        [.posted { record with state := .pending }])
  | settled (listed : record ∈ recoverRows true now rows)
      (next : ∀ rest, (recoverStep rows later (record :: rest)).tasks = [.expiring record rest])
      (changed : ∀ rest outcome, outResume rows (.expiring record rest) (.go later) = some outcome →
        (outcome.rows.get record.slot).map (fun row => row.state) ≠ some record.state)

section Pass

variable {rows : OutboundRows} {now later : Int} {slot : MessageRef} {record : StoredOutbound}

theorem owed_eq_recoverable : record.owed now = record.recoverable true now := by
  unfold StoredOutbound.owed StoredOutbound.recoverable
  cases record.state <;> simp

theorem listed_iff (hrow : rows.get slot = some record) :
    record ∈ recoverRows true now rows ↔ record.owed now = true := by
  rw [recoverRows, mem_filter, owed_eq_recoverable, and_iff_right]
  exact mem_map.mpr ⟨(slot, record), Table.mem_rows.mpr hrow, rfl⟩

theorem open_of_owed (h : record.owed now = true) : record.state = .pending ∨ record.state = .unknown := by
  rw [StoredOutbound.owed, Bool.and_eq_true, Bool.or_eq_true, Bool.and_eq_true, decide_eq_true_eq,
    decide_eq_true_eq] at h
  rcases h.2 with hpend | ⟨hunk, -⟩
  · exact .inl hpend
  · exact .inr hunk

theorem expiring_changes {rest : List StoredOutbound} {outcome : OutOutcome} (hpend : record.state = .pending)
    (h : outResume rows (.expiring record rest) (.go later) = some outcome) :
    (outcome.rows.get record.slot).map (fun row => row.state) ≠ some record.state := by
  cases h
  rw [hpend]
  rcases commit_eq record { state := .unknown, error := some windowClosed } rows with
    ⟨hkept, current, hcur, hacc⟩ | ⟨hput, -⟩
  · simp [hkept, hcur, hacc]
  · simp [hput]

/-- A pass touches a listed record unless its window closed while its admission is unknown. -/
theorem touches_iff : Touches rows now later record ↔ record ∈ recoverRows true now rows ∧
    ¬ (record.state = .unknown ∧ record.request.retryUntil ≤ later) := by
  by_cases hwin : record.request.retryUntil ≤ later
  · by_cases hunk : record.state = .unknown
    · have hskip : record.action later = .skip := by
        rw [StoredOutbound.action, if_pos hwin, if_neg (not_not.mpr hunk)]
      refine iff_of_false ?_ (fun h => h.2 ⟨hunk, hwin⟩)
      rintro (⟨-, hposted⟩ | ⟨-, hnext, -⟩)
      · simpa [recoverStep, hskip] using hposted []
      · simpa [recoverStep, hskip] using hnext []
    · have hexp : record.action later = .expire := by
        rw [StoredOutbound.action, if_pos hwin, if_pos hunk]
      constructor
      · rintro (⟨hlist, -⟩ | ⟨hlist, -, -⟩) <;> exact ⟨hlist, fun h => hunk h.1⟩
      · rintro ⟨hlist, -⟩
        have hrecov : record.owed now = true := by
          rw [owed_eq_recoverable]
          exact (mem_filter.mp hlist).2
        have hpend := (open_of_owed hrecov).resolve_right hunk
        exact .settled hlist (fun rest => by simp [recoverStep, hexp]) (fun rest outcome h => expiring_changes hpend h)
  · have hredrive : record.action later = .redrive := by
      rw [StoredOutbound.action, if_neg hwin]
    constructor
    · rintro (⟨hlist, -⟩ | ⟨hlist, -, -⟩) <;> exact ⟨hlist, fun h => hwin h.2⟩
    · rintro ⟨hlist, -⟩
      exact .transmitted hlist fun rest => by simp [recoverStep, hredrive, transmit]

end Pass

/-- The report counts a stored record exactly when a scheduled pass touches it, unless the record is counted
while its admission is unknown and its window has closed. -/
theorem pending_work_exact_iff (rows : OutboundRows) (now later : Int) {slot : MessageRef}
    {record : StoredOutbound} (hrow : rows.get slot = some record) :
    (record.owed now = true ↔ Touches rows now later record) ↔
      ¬ (record.owed now = true ∧ record.state = .unknown ∧ record.request.retryUntil ≤ later) := by
  rw [touches_iff, listed_iff hrow]
  tauto

open Scenario in
/-- A failed record whose next attempt is due inside its window is counted, and a pass transmits it. -/
theorem pending_work_exact_iff_due : let record := { failedRecord none with nextAttempt := some 500 }
    let rows : OutboundRows := Table.put ∅ ⟨"ann", "m"⟩ record
    record.owed 600 = true ∧ Touches rows 600 600 record := by
  intro record rows
  have hrow : rows.get ⟨"ann", "m"⟩ = some record := Table.get_put_self _ _ _
  have hex := (pending_work_exact_iff rows 600 600 hrow).mpr (by decide +kernel)
  have howed : record.owed 600 = true := by decide +kernel
  exact ⟨howed, hex.mp howed⟩

open Scenario in
/-- A message whose process ended before its transmission returned is settled as unknown once its window has
closed.  From then on the report counts it at every reading of the clock, and no pass touches it again. -/
theorem closed_window_counted_forever :
    ∃ h o, Run (outStep client) {} h o ∧ ∃ record, o.rows.get ⟨"ann", "m"⟩ = some record ∧
      ∀ now later inbox todos services, 1000 ≤ now → now ≤ later → record.owed now = true ∧
        hasPendingWork now inbox todos o.rows services = true ∧ ¬ Touches o.rows now later record := by
  obtain ⟨h, o, hrun, record, hrow, hst, hnext, hwin, hdig⟩ := exists_run (outStep client) {}
    [.deliver (delivery none) "key" 0 0, .crash, .recover true 1000,
      .advance (.recovering [sentRecord none]) (.go 1000), .advance (.expiring (sentRecord none) []) (.go 1000)]
    (fun _ o => ∃ record ∈ o.rows.get ⟨"ann", "m"⟩, record.state = .unknown ∧ record.nextAttempt = none ∧
      record.request.retryUntil = 1000 ∧ record.digest.isSome)
    (by decide +kernel)
  refine ⟨h, o, hrun, record, hrow, fun now later inbox todos services hcl hlater => ?_⟩
  have howed : record.owed now = true := by
    simp [StoredOutbound.owed, hst, hnext, hdig]
  refine ⟨howed, ?_, fun htouches => ?_⟩
  · have hany : o.rows.rows.any (fun row => row.2.owed now) = true :=
      any_eq_true.mpr ⟨_, Table.mem_rows.mpr hrow, howed⟩
    simp [hasPendingWork, hany]
  · exact (touches_iff.mp htouches).2 ⟨hst, by omega⟩

end Onlyne.Client
