import Onlyne.Client.Records

/-!
# Client: the bounded retry series

Scheduled recovery passes that do not overlap with anything in flight, over any transport outcomes and any
clock that does not go back.  While nothing overlaps, a record in flight is the row it was read from, so the
attempts in the row count the failures of the record, and the row holds the instant before which no pass
transmits it again.
-/

namespace Onlyne.Client

open Foundation Table List
open Messages (Message MessageRef)

/-! ## Runs of passes -/

def OutAct.readings : OutAct → List Int
  | .deliver _ _ now created => [now, created]
  | .recover _ now => [now]
  | .advance _ (.go now) => [now]
  | .advance _ _ | .crash => []

def readings (h : List (Transition Outbox OutAct)) : List Int := h.flatMap fun t => t.act.readings

section

variable (t : Transition Outbox OutAct) (h : List (Transition Outbox OutAct)) (record : StoredOutbound)

/-- Passes are scheduled ones that begin while nothing is in flight, no call is aborted, and every message that
is sent is a new one. -/
def orderly : Bool :=
  match t.act with
  | .deliver call _ _ _ => (t.before.rows.get call.message.ref).isNone
  | .recover scheduled _ => scheduled && t.before.tasks.isEmpty
  | .advance _ .lost | .crash => false
  | .advance _ _ => true

/-- The failed attempt an act records: the message, the number of the attempt in its series unless the failure is
a refusal, and the reading of the clock. -/
def failure : Option (MessageRef × Option Nat × Int) :=
  match t.act with
  | .advance (.scheduling record _ attempt _) (.go now) =>
    if (t.before.rows.get record.slot).any fun current => current.state = .accepted then none
    else some (record.slot, attempt, now)
  | _ => none

/-- The record a pass transmits, and the reading of the clock. -/
def retransmission : Option (StoredOutbound × Int) :=
  match t.act with
  | .advance (.recovering (record :: _)) (.go now) =>
    if record.action now = .redrive then some (record, now) else none
  | _ => none

/-- How many failed attempts of a message a history records. -/
def failureCount (slot : MessageRef) : Nat :=
  h.countP fun t => (failure t).any fun f => f.1 = slot

def attempts (rows : OutboundRows) (slot : MessageRef) : Nat :=
  ((rows.get slot).bind fun row => row.attempt).getD 0

/-! ## What an orderly act does to the rows -/

def StoredOutbound.isOpen : Prop := record.state = .pending ∨ record.state = .unknown

def Due : Prop :=
  record.state = .pending ∨ ∀ next, record.nextAttempt = some next → ∃ reading ∈ readings h, next ≤ reading

end

inductive RowEvent (h : List (Transition Outbox OutAct)) (rows : OutboundRows) :
    Option (MessageRef × Option Nat × Int) → OutboundRows → Prop where
  | quiet : RowEvent h rows none rows
  | created (record : StoredOutbound) (free : rows.get record.slot = none) (pending : record.state = .pending)
      (unattempted : record.attempt = none) : RowEvent h rows none (rows.put record.slot record)
  | accepted (row row' : StoredOutbound) (stored : rows.get row'.slot = some row) (isOpen : row.isOpen)
      (state : row'.state = .accepted) : RowEvent h rows none (rows.put row'.slot row')
  -- The window of a record closed before it was transmitted.
  | expired (row row' : StoredOutbound) (stored : rows.get row'.slot = some row)
      (pending : row.state = .pending) (state : row'.state = .unknown) (attempt : row'.attempt = row.attempt) :
      RowEvent h rows none (rows.put row'.slot row')
  | refused (row row' : StoredOutbound) (now : Int) (stored : rows.get row'.slot = some row)
      (isOpen : row.isOpen) (due : Due h row) (state : row'.state = .refused) :
      RowEvent h rows (some (row'.slot, none, now)) (rows.put row'.slot row')
  -- One more failed attempt of the series, which is not the last one.
  | failed (row row' : StoredOutbound) (now : Int) (number : Nat) (stored : rows.get row'.slot = some row)
      (isOpen : row.isOpen) (due : Due h row) (next : number = row.attempt.getD 0 + 1)
      (left : number < maxAttempts) (state : row'.state = .unknown) (attempt : row'.attempt = some number)
      (schedule : row'.nextAttempt = some (now + backoffMs number)) :
      RowEvent h rows (some (row'.slot, some number, now)) (rows.put row'.slot row')
  -- The last failed attempt of the series.
  | exhausted (row row' : StoredOutbound) (now : Int) (number : Nat) (stored : rows.get row'.slot = some row)
      (isOpen : row.isOpen) (due : Due h row) (next : number = row.attempt.getD 0 + 1)
      (last : maxAttempts ≤ number) (state : row'.state = .unreachable) :
      RowEvent h rows (some (row'.slot, some number, now)) (rows.put row'.slot row')

/-! ## The ledger of a series -/

structure Ledger (start : OutboundRows) (h : List (Transition Outbox OutAct)) (rows : OutboundRows) : Prop where
  slots : ∀ slot row, rows.get slot = some row → row.slot = slot
  present : ∀ slot, start.get slot ≠ none → rows.get slot ≠ none
  counted : ∀ slot row, rows.get slot = some row → row.isOpen →
    row.attempt.getD 0 = attempts start slot + failureCount h slot ∧
      (failureCount h slot = 0 ∨ row.attempt.getD 0 < maxAttempts)
  absent : ∀ slot, rows.get slot = none → failureCount h slot = 0
  bounded : ∀ slot, failureCount h slot ≤ maxAttempts
  -- After a failure an open row waits for its next attempt, and the last failure leaves a dead letter.
  waits : ∀ t ∈ h, ∀ slot attempt instant, failure t = some (slot, attempt, instant) →
    ∃ row, rows.get slot = some row ∧ row.state ≠ .pending ∧
      (row.state = .unknown → ∃ number next, attempt = some number ∧ number < maxAttempts ∧
        row.nextAttempt = some next ∧ instant + backoffMs number ≤ next) ∧
      ∀ number, attempt = some number → maxAttempts ≤ number → row.state = .unreachable
  numbered : EveryStep (fun past t => ∀ slot number instant, failure t = some (slot, some number, instant) →
    number = attempts start slot + failureCount (past ++ [t]) slot) h

section Ledger

variable {start rows rows' : OutboundRows} {h : List (Transition Outbox OutAct)}
  {t t' : Transition Outbox OutAct}

theorem isOpen_iff_of_final {record : StoredOutbound} (h : record.state ≠ .pending) (h' : record.state ≠ .unknown) :
    ¬ record.isOpen := fun hopen => hopen.elim h h'

theorem backoffMs_nonneg (number : Nat) : 0 ≤ backoffMs number := Int.natCast_nonneg _

theorem failureCount_snoc (h : List (Transition Outbox OutAct)) (t : Transition Outbox OutAct) (slot : MessageRef) :
    failureCount (h ++ [t]) slot = failureCount h slot + if (failure t).any (fun f => f.1 = slot) then 1 else 0 := by
  rw [failureCount, countP_append, countP_singleton]
  rfl

theorem failureCount_snoc_of_none (hnone : failure t = none) (slot : MessageRef) :
    failureCount (h ++ [t]) slot = failureCount h slot := by
  rw [failureCount_snoc, hnone]
  rfl

variable {slot : MessageRef} {attempt : Option Nat} {instant now : Int} {row' row : StoredOutbound}

section

variable (hsome : failure t = some (slot, attempt, instant))
include hsome

theorem failureCount_snoc_self : failureCount (h ++ [t]) slot = failureCount h slot + 1 := by
  rw [failureCount_snoc, hsome]
  simp

theorem failureCount_snoc_ne {slot' : MessageRef} (hne : slot' ≠ slot) :
    failureCount (h ++ [t]) slot' = failureCount h slot' := by
  rw [failureCount_snoc, hsome]
  simp [Ne.symm hne]

end

theorem mem_of_failure (hnone : failure t = none) (ht' : t' ∈ h ++ [t])
    {recorded : MessageRef × Option Nat × Int} (hfail : failure t' = some recorded) : t' ∈ h := by
  rcases mem_append.mp ht' with hold | hnew
  · exact hold
  · cases mem_singleton.mp hnew
    rw [hnone] at hfail
    cases hfail

section

variable (hled : Ledger start h rows)
include hled

theorem Ledger.numbered_quiet (hnone : failure t = none) :
    EveryStep (fun past t => ∀ slot number instant, failure t = some (slot, some number, instant) →
      number = attempts start slot + failureCount (past ++ [t]) slot) (h ++ [t]) := by
  rw [everyStep_snoc]
  refine ⟨hled.numbered, fun slot number instant hfail => ?_⟩
  rw [hnone] at hfail
  cases hfail

theorem Ledger.slots_put (hrow : (rows.put row'.slot row').get slot = some row) : row.slot = slot := by
  exact of_put hled.slots hrow rfl

theorem Ledger.present_put (hstart : start.get slot ≠ none) : (rows.put row'.slot row').get slot ≠ none := by
  rw [get_put]
  split_ifs
  · simp
  · exact hled.present slot hstart

/-- Where no failure is recorded, the ledger needs to hold for what is written only. -/
theorem Ledger.put_quiet (hnone : failure t = none)
    (hcnt : row'.isOpen → row'.attempt.getD 0 = attempts start row'.slot + failureCount h row'.slot ∧
      (failureCount h row'.slot = 0 ∨ row'.attempt.getD 0 < maxAttempts))
    (hwaits : ∀ t ∈ h, ∀ attempt instant, failure t = some (row'.slot, attempt, instant) → row'.state ≠ .pending ∧
      row'.state ≠ .unknown ∧ ∀ number, attempt = some number → maxAttempts ≤ number → row'.state = .unreachable) :
    Ledger start (h ++ [t]) (rows.put row'.slot row') where
  slots _ _ hrow := hled.slots_put hrow
  present _ hstart := hled.present_put hstart
  counted slot row hrow hopen := by
    rw [failureCount_snoc_of_none hnone]
    rcases get_put_cases hrow with ⟨rfl, rfl⟩ | ⟨-, hrow⟩
    · exact hcnt hopen
    · exact hled.counted slot row hrow hopen
  absent slot hrow := by
    rw [failureCount_snoc_of_none hnone]
    rw [get_put] at hrow
    split_ifs at hrow
    exact hled.absent slot hrow
  bounded slot := by
    rw [failureCount_snoc_of_none hnone]
    exact hled.bounded slot
  waits t' ht' slot attempt instant hfail := by
    have hold := mem_of_failure hnone ht' hfail
    by_cases hslot : slot = row'.slot
    · subst hslot
      obtain ⟨hpend, hunk, hlast⟩ := hwaits t' hold attempt instant hfail
      exact ⟨row', get_put_self _ _ _, hpend, fun h => absurd h hunk, hlast⟩
    · rw [get_put_ne _ _ hslot]
      exact hled.waits t' hold slot attempt instant hfail
  numbered := hled.numbered_quiet hnone

theorem Ledger.waited (hstor : rows.get slot = some row)
    (hopen : row.isOpen) (hdue : Due h row) (hclock : ∀ reading ∈ readings h, reading ≤ now)
    (ht' : t' ∈ h) (hfail : failure t' = some (slot, attempt, instant)) :
    ∃ number, attempt = some number ∧ number < maxAttempts ∧ instant + backoffMs number ≤ now := by
  obtain ⟨waiting, hwait, hnot, hscheduled, -⟩ := hled.waits t' ht' slot attempt instant hfail
  rw [hstor] at hwait
  cases hwait
  obtain ⟨number, next, hatt, hleft, hnext, haft⟩ := hscheduled (hopen.resolve_left hnot)
  obtain ⟨reading, hread, hreached⟩ := hdue.resolve_left hnot next hnext
  have hnow := hclock reading hread
  exact ⟨number, hatt, hleft, by omega⟩

theorem Ledger.put_failed (hfail : failure t = some (row'.slot, attempt, now)) (hstor : rows.get row'.slot = some row)
    (hopen : row.isOpen) (hdue : Due h row) (hclock : ∀ reading ∈ readings h, reading ≤ now)
    (hnum : ∀ number, attempt = some number → number = row.attempt.getD 0 + 1) (hpend : row'.state ≠ .pending)
    (hunk : row'.state = .unknown → ∃ number, attempt = some number ∧ number < maxAttempts ∧
      row'.attempt = some number ∧ row'.nextAttempt = some (now + backoffMs number))
    (hlast : ∀ number, attempt = some number → maxAttempts ≤ number → row'.state = .unreachable) :
    Ledger start (h ++ [t]) (rows.put row'.slot row') := by
  obtain ⟨hcnt, hroom⟩ := hled.counted _ _ hstor hopen
  have hnext : failureCount (h ++ [t]) row'.slot = failureCount h row'.slot + 1 := failureCount_snoc_self hfail
  constructor
  case slots => exact fun _ _ hrow => hled.slots_put hrow
  case present => exact fun _ hstart => hled.present_put hstart
  case counted =>
    intro slot other hrow hopen'
    rcases get_put_cases hrow with ⟨rfl, rfl⟩ | ⟨hne, hrow⟩
    · obtain ⟨number, hatt, hleft, hrec, -⟩ := hunk (hopen'.resolve_left hpend)
      have := hnum number hatt
      rw [hrec, hnext, Option.getD_some]
      omega
    · rw [failureCount_snoc_ne hfail hne]
      exact hled.counted slot other hrow hopen'
  case absent =>
    intro slot hrow
    rw [get_put] at hrow
    split_ifs at hrow with hne
    rw [failureCount_snoc_ne hfail hne]
    exact hled.absent slot hrow
  case bounded =>
    intro slot
    by_cases hslot : slot = row'.slot
    · subst hslot
      unfold maxAttempts at hroom ⊢
      omega
    · rw [failureCount_snoc_ne hfail hslot]
      exact hled.bounded slot
  case waits =>
    intro t' ht' slot attempt' instant hfail'
    rcases mem_append.mp ht' with hold | hnew
    · by_cases hslot : slot = row'.slot
      · subst hslot
        obtain ⟨number, rfl, hleft, haft⟩ := hled.waited hstor hopen hdue hclock hold hfail'
        refine ⟨row', get_put_self _ _ _, hpend, fun h => ?_, fun number' hsame hlast' => ?_⟩
        · obtain ⟨number', -, -, -, hsched⟩ := hunk h
          have := backoffMs_nonneg number'
          exact ⟨number, _, rfl, hleft, hsched, by omega⟩
        · cases hsame
          omega
      · rw [get_put_ne _ _ hslot]
        exact hled.waits t' hold slot attempt' instant hfail'
    · cases mem_singleton.mp hnew
      rw [hfail] at hfail'
      cases hfail'
      refine ⟨row', get_put_self _ _ _, hpend, fun h => ?_, hlast⟩
      obtain ⟨number, hatt, hleft, -, hsched⟩ := hunk h
      exact ⟨number, _, hatt, hleft, hsched, le_refl _⟩
  case numbered =>
    rw [everyStep_snoc]
    refine ⟨hled.numbered, fun slot number instant hfail' => ?_⟩
    rw [hfail] at hfail'
    cases hfail'
    have := hnum number rfl
    omega

/-- Every orderly act keeps the ledger. -/
theorem Ledger.event (hev : RowEvent h rows (failure t) rows')
    (hclock : ∀ reading ∈ readings h, ∀ now ∈ t.act.readings, reading ≤ now)
    (hinstant : ∀ slot attempt now, failure t = some (slot, attempt, now) → now ∈ t.act.readings) :
    Ledger start (h ++ [t]) rows' := by
  -- A row with a failure behind it is not pending.
  have hunfailed {row : StoredOutbound} {slot : MessageRef} (hstor : rows.get slot = some row)
      (hpend : row.state = .pending) {t : Transition Outbox OutAct} (ht : t ∈ h) {attempt : Option Nat}
      {instant : Int} : failure t ≠ some (slot, attempt, instant) := by
    intro hfail
    obtain ⟨found, hfnd, hnot, -⟩ := hled.waits t ht slot attempt instant hfail
    rw [hstor] at hfnd
    cases hfnd
    exact hnot hpend
  generalize hfail : failure t = recorded at hev
  have hnow {slot : MessageRef} {attempt : Option Nat} {now : Int}
      (hrec : recorded = some (slot, attempt, now)) : ∀ reading ∈ readings h, reading ≤ now :=
    fun reading hread => hclock reading hread now (hinstant slot attempt now (hfail.trans hrec))
  cases hev with
  | quiet =>
    refine ⟨hled.slots, hled.present, ?_, ?_, ?_, ?_, hled.numbered_quiet hfail⟩
    · simpa only [failureCount_snoc_of_none hfail] using hled.counted
    · simpa only [failureCount_snoc_of_none hfail] using hled.absent
    · simpa only [failureCount_snoc_of_none hfail] using hled.bounded
    · intro t' ht' slot attempt instant hfail'
      exact hled.waits t' (mem_of_failure hfail ht' hfail') slot attempt instant hfail'
  | created record free pending unattempted =>
    refine hled.put_quiet hfail (fun _ => ?_) (fun t ht attempt instant hfail' => ?_)
    · have hstart : start.get record.slot = none := by
        by_contra hsome
        exact hled.present _ hsome free
      simp [unattempted, attempts, hstart, hled.absent _ free]
    · obtain ⟨row, hrow, -⟩ := hled.waits t ht _ attempt instant hfail'
      rw [free] at hrow
      cases hrow
  | accepted row row' stored isOpen state =>
    refine hled.put_quiet hfail (fun h => ?_) (fun t ht attempt instant hfail' => ?_)
    · exact absurd h (isOpen_iff_of_final (by simp [state]) (by simp [state]))
    · refine ⟨by simp [state], by simp [state], fun number hatt hlast => ?_⟩
      -- A dead letter is not open.
      obtain ⟨found, hfnd, -, -, hdead⟩ := hled.waits t ht _ attempt instant hfail'
      rw [stored] at hfnd
      cases hfnd
      have hunreachable := hdead number hatt hlast
      rcases isOpen with h | h <;> rw [hunreachable] at h <;> cases h
  | expired row row' stored pending state attempt =>
    refine hled.put_quiet hfail (fun _ => ?_) (fun t ht attempt instant hfail' => ?_)
    · rw [attempt]
      exact hled.counted _ _ stored (.inl pending)
    · exact absurd hfail' (hunfailed stored pending ht)
  | refused row row' now stored isOpen due state =>
    exact hled.put_failed hfail stored isOpen due (hnow rfl) (fun _ h => by cases h)
      (by simp [state]) (fun h => by rw [state] at h; cases h) (fun _ h => by cases h)
  | failed row row' now number stored isOpen due next left state attempt schedule =>
    refine hled.put_failed hfail stored isOpen due (hnow rfl) (fun number' h => ?_) (by simp [state])
      (fun _ => ⟨number, rfl, left, attempt, schedule⟩) (fun number' h hlast => ?_)
    · cases h
      exact next
    · cases h
      omega
  | exhausted row row' now number stored isOpen due next last state =>
    refine hled.put_failed hfail stored isOpen due (hnow rfl) (fun number' h => ?_) (by simp [state])
      (fun h => by rw [state] at h; cases h) (fun _ _ _ => state)
    cases h
    exact next

end

end Ledger

/-! ## Records in flight are the rows they were read from -/

structure Listed (rows : OutboundRows) (h : List (Transition Outbox OutAct)) (record : StoredOutbound) :
    Prop where
  stored : rows.get record.slot = some record
  isOpen : record.isOpen
  due : Due h record

structure Transmitting (rows : OutboundRows) (h : List (Transition Outbox OutAct))
    (record row : StoredOutbound) : Prop where
  stored : rows.get record.slot = some row
  same : record = { row with state := .pending }
  isOpen : row.isOpen
  due : Due h row

/-- The message is accepted: nothing that is committed for it takes effect. -/
def Admitted (rows : OutboundRows) (slot : MessageRef) : Prop :=
  ∃ row, rows.get slot = some row ∧ row.state = .accepted

def nextNumber (row : StoredOutbound) (failure : Failure) : Option Nat :=
  if admissionOf failure = .refused then none else some (row.attempt.getD 0 + 1)

def OutTask.Current (rows : OutboundRows) (h : List (Transition Outbox OutAct)) : OutTask → Prop
  | .sending record ret | .accept record _ ret =>
    (∃ row, Transmitting rows h record row) ∧ ∀ r ∈ ret.records, Listed rows h r
  | .failing record _ ret =>
    ((∃ row, Transmitting rows h record row) ∨ Admitted rows record.slot) ∧ ∀ r ∈ ret.records, Listed rows h r
  | .scheduling record failure attempt ret =>
    ((∃ row, Transmitting rows h record row ∧ attempt = nextNumber row failure) ∨ Admitted rows record.slot) ∧
      ∀ r ∈ ret.records, Listed rows h r
  | .reporting _ _ _ ret => ∀ r ∈ ret.records, Listed rows h r
  | .recovering records => ∀ r ∈ records, Listed rows h r
  | .expiring record rest => (Listed rows h record ∧ record.state = .pending) ∧ ∀ r ∈ rest, Listed rows h r

def OutTask.slots (task : OutTask) : List MessageRef := task.records.map StoredOutbound.slot

/-- No message is in flight twice, and what is in flight is what the rows say. -/
structure InFlight (h : List (Transition Outbox OutAct)) (o : Outbox) : Prop where
  distinct : (o.tasks.flatMap OutTask.slots).Nodup
  stored : ∀ task ∈ o.tasks, ∀ slot ∈ task.slots, o.rows.get slot ≠ none
  current : ∀ task ∈ o.tasks, task.Current o.rows h

section Tasks

variable {rows rows' : OutboundRows} {h h' : List (Transition Outbox OutAct)} {record row : StoredOutbound}
  (change : Update)

theorem Due.mono (hdue : Due h record) (hsub : readings h ⊆ readings h') : Due h' record := by
  refine hdue.imp id fun hnext next hsome => ?_
  obtain ⟨reading, hread, hle⟩ := hnext next hsome
  exact ⟨reading, hsub hread, hle⟩

theorem Listed.frame (hlist : Listed rows h record) (hget : rows'.get record.slot = rows.get record.slot)
    (hsub : readings h ⊆ readings h') : Listed rows' h' record :=
  ⟨hget.trans hlist.stored, hlist.isOpen, hlist.due.mono hsub⟩

theorem Transmitting.frame (htr : Transmitting rows h record row)
    (hget : rows'.get record.slot = rows.get record.slot) (hsub : readings h ⊆ readings h') :
    Transmitting rows' h' record row :=
  ⟨hget.trans htr.stored, htr.same, htr.isOpen, htr.due.mono hsub⟩

variable {slot : MessageRef} {task : OutTask} {now : Int} {input : OutInput} {outcome : OutOutcome}

theorem Admitted.frame (hadm : Admitted rows slot) (hget : rows'.get slot = rows.get slot) : Admitted rows' slot := by
  obtain ⟨row, hrow, hacc⟩ := hadm
  exact ⟨row, hget.trans hrow, hacc⟩

theorem OutTask.Current.frame (hcur : task.Current rows h)
    (hget : ∀ slot ∈ task.slots, rows'.get slot = rows.get slot) (hsub : readings h ⊆ readings h') :
    task.Current rows' h' := by
  have hrest {records : List StoredOutbound} (hlist : ∀ r ∈ records, Listed rows h r)
      (hin : ∀ r ∈ records, r ∈ task.records) : ∀ r ∈ records, Listed rows' h' r :=
    fun r hr => (hlist r hr).frame (hget _ (mem_map.mpr ⟨r, hin r hr, rfl⟩)) hsub
  cases task with
  | sending record ret | accept record _ ret =>
    obtain ⟨⟨row, htr⟩, hlist⟩ := hcur
    exact ⟨⟨row, htr.frame (hget _ mem_cons_self) hsub⟩, hrest hlist fun r => mem_cons_of_mem _⟩
  | failing =>
    refine ⟨hcur.1.imp ?_ fun hadm => hadm.frame (hget _ mem_cons_self), hrest hcur.2 fun r => mem_cons_of_mem _⟩
    rintro ⟨row, htr⟩
    exact ⟨row, htr.frame (hget _ mem_cons_self) hsub⟩
  | scheduling =>
    refine ⟨hcur.1.imp ?_ fun hadm => hadm.frame (hget _ mem_cons_self), hrest hcur.2 fun r => mem_cons_of_mem _⟩
    rintro ⟨row, htr, hnum⟩
    exact ⟨row, htr.frame (hget _ mem_cons_self) hsub, hnum⟩
  | reporting => exact hrest hcur fun r => mem_cons_of_mem _
  | recovering => exact hrest hcur fun r => id
  | expiring =>
    exact ⟨⟨hcur.1.1.frame (hget _ mem_cons_self) hsub, hcur.1.2⟩, hrest hcur.2 fun r => mem_cons_of_mem _⟩

theorem StoredOutbound.isOpen.not_accepted (hopen : row.isOpen) : row.state ≠ .accepted := by
  rcases hopen with h | h <;> simp [h]

theorem commit_of_open (hrow : rows.get record.slot = some row) (hopen : row.isOpen) : commit record change rows =
      rows.put (record.updated change).trimmed.slot (record.updated change).trimmed := by
  rcases commit_eq record change rows with ⟨-, current, hcur, hacc⟩ | ⟨hput, -⟩
  · rw [hrow] at hcur
    cases hcur
    exact absurd hacc hopen.not_accepted
  · rw [hput, StoredOutbound.slot, StoredOutbound.slot, updated_request]

theorem commit_of_admitted (hadm : Admitted rows record.slot) : commit record change rows = rows := by
  obtain ⟨row, hrow, hacc⟩ := hadm
  rcases commit_eq record change rows with ⟨hkept, -⟩ | ⟨-, hunacc⟩
  · exact hkept
  · exact absurd hacc (hunacc row hrow)

theorem commit_get_ne (hne : slot ≠ record.slot) : (commit record change rows).get slot = rows.get slot := by
  unfold commit
  split_ifs
  · rfl
  · exact get_put_ne _ _ hne

theorem scheduling_event {failure : Failure} {attempt : Option Nat}
    (htr : Transmitting rows h record row) (hnum : attempt = nextNumber row failure) :
    RowEvent h rows (some (record.slot, attempt, now)) (commit record (failedUpdate failure attempt now) rows) := by
  have hslot : (record.updated (failedUpdate failure attempt now)).trimmed.slot = record.slot := by
    rw [StoredOutbound.slot, updated_request]
    rfl
  rw [commit_of_open _ htr.stored htr.isOpen, ← hslot]
  have hstor := htr.stored
  rw [← hslot] at hstor
  by_cases hrfs : admissionOf failure = .refused
  · have hnone : attempt = none := by rw [hnum, nextNumber, if_pos hrfs]
    subst hnone
    exact .refused row _ now hstor htr.isOpen htr.due (by simp [failedUpdate, failedState, exhausted, hrfs])
  · have hsome : attempt = some (row.attempt.getD 0 + 1) := by rw [hnum, nextNumber, if_neg hrfs]
    have hunk : admissionOf failure = .unknown := by
      unfold admissionOf at hrfs ⊢
      split_ifs at hrfs ⊢
      · exact absurd rfl hrfs
      · rfl
    by_cases hlast : maxAttempts ≤ row.attempt.getD 0 + 1
    · rw [hsome] at hstor ⊢
      exact .exhausted row _ now _ hstor htr.isOpen htr.due rfl hlast
        (by simp [failedUpdate, failedState, exhausted, hlast])
    · rw [hsome] at hstor ⊢
      exact .failed row _ now _ hstor htr.isOpen htr.due rfl (by omega)
        (by simp [failedUpdate, failedState, exhausted, hlast, hunk])
        (by simp [StoredOutbound.trimmed, StoredOutbound.updated, failedUpdate, failedState, exhausted, hlast, hunk])
        (by simp [StoredOutbound.trimmed, StoredOutbound.updated, failedUpdate, failedState, exhausted, hlast, hunk])

theorem OutTask.Current.event {next : OutOutcome} {o o' : Outbox} (hcur : task.Current o.rows h)
    (hres : outResume o.rows task input = some next) :
    RowEvent h o.rows (failure ⟨o, .advance task input, o'⟩) next.rows := by
  unfold outResume at hres
  split at hres <;> cases hres
  case h_1 =>
    have hfail : failure ⟨o, .advance task .lost, o'⟩ = none := by cases task <;> rfl
    rw [hfail]
    exact .quiet
  case h_4 record receipt ret _ =>
    obtain ⟨⟨row, htr⟩, -⟩ := hcur
    rw [acceptStep_rows, commit_of_open _ htr.stored htr.isOpen]
    refine .accepted row _ ?_ htr.isOpen updated_state
    exact htr.stored
  case h_6 record cause attempt ret now =>
    rcases hcur.1 with ⟨row, htr, hnum⟩ | hadm
    · have hfail : failure ⟨o, .advance (.scheduling record cause attempt ret) (.go now), o'⟩ =
          some (record.slot, attempt, now) := by
        simp [failure, htr.stored, htr.isOpen.not_accepted]
      rw [hfail]
      exact scheduling_event htr hnum
    · have hfail : failure ⟨o, .advance (.scheduling record cause attempt ret) (.go now), o'⟩ = none := by
        obtain ⟨row, hrow, hacc⟩ := hadm
        simp [failure, hrow, hacc]
      rw [hfail, commit_of_admitted _ hadm]
      exact .quiet
  case h_7 ret _ => cases ret <;> exact .quiet
  case h_8 records now =>
    rw [recoverStep_rows]
    exact .quiet
  case h_9 record rest _ =>
    obtain ⟨⟨hlist, hpend⟩, -⟩ := hcur
    rw [commit_of_open _ hlist.stored hlist.isOpen]
    refine .expired record _ ?_ hpend updated_state rfl
    exact hlist.stored
  all_goals exact .quiet

/-- What a pass has still to look at is left alone by a commit of the record it looks at. -/
theorem listed_of_commit {rest : List StoredOutbound}
    (hdist : ((record :: rest).map StoredOutbound.slot).Nodup) (hlist : ∀ r ∈ rest, Listed rows h r)
    (hsub : readings h ⊆ readings h') : ∀ r ∈ rest, Listed (commit record change rows) h' r := by
  intro r hr
  refine (hlist r hr).frame (commit_get_ne _ fun hslot => ?_) hsub
  rw [map_cons, nodup_cons] at hdist
  exact hdist.1 (hslot ▸ mem_map.mpr ⟨r, hr, rfl⟩)

theorem returned_current {answer : SendOutcome} {ret : Ret} {next : OutTask}
    (hlist : ∀ r ∈ ret.records, Listed rows h r) (hnext : next ∈ (returned rows slot answer ret).tasks) :
    next.Current (returned rows slot answer ret).rows h := by
  cases ret with
  | caller => cases hnext
  | pass =>
    cases mem_singleton.mp hnext
    exact hlist

theorem admitted_of_commit {change : Update} (htr : Transmitting rows h record row)
    (hacc : change.state = .accepted) : Admitted (commit record change rows) record.slot := by
  rw [commit_of_open _ htr.stored htr.isOpen, StoredOutbound.slot, StoredOutbound.slot, updated_request]
  exact ⟨_, get_put_self _ _ _, updated_state.trans hacc⟩

theorem recoverStep_current {records : List StoredOutbound} {next : OutTask}
    (hlist : ∀ r ∈ records, Listed rows h r) (hnext : next ∈ (recoverStep rows now records).tasks) :
    next.Current rows h := by
  unfold recoverStep at hnext
  split at hnext
  · cases hnext
  · next record rest =>
    have hfst := hlist record mem_cons_self
    have hrest : ∀ r ∈ rest, Listed rows h r := fun r hr => hlist r (mem_cons_of_mem _ hr)
    split at hnext <;> cases mem_singleton.mp hnext
    · exact hrest
    · next hexp =>
      refine ⟨⟨hfst, hfst.isOpen.resolve_right fun hunk => ?_⟩, hrest⟩
      unfold StoredOutbound.action at hexp
      split_ifs at hexp
      contradiction
    · exact ⟨⟨record, hfst.stored, rfl, hfst.isOpen, hfst.due⟩, hrest⟩

theorem OutTask.Current.next {next : OutTask} (hcur : task.Current rows h) (hdist : task.slots.Nodup)
    (hres : outResume rows task input = some outcome) (hnext : next ∈ outcome.tasks)
    (hsub : readings h ⊆ readings h') : next.Current outcome.rows h' := by
  have hsame : ∀ slot ∈ task.slots, rows.get slot = rows.get slot := fun _ _ => rfl
  unfold outResume at hres
  split at hres <;> cases hres
  case h_1 => cases hnext
  case h_2 =>
    cases mem_singleton.mp hnext
    exact hcur.frame hsame hsub
  case h_3 record ret thrown =>
    cases mem_singleton.mp hnext
    have hfailing : OutTask.Current rows h (.failing record (failureOf thrown) ret) := ⟨.inl hcur.1, hcur.2⟩
    exact hfailing.frame hsame hsub
  case h_4 record receipt ret _ =>
    obtain ⟨⟨row, htr⟩, hlist⟩ := hcur
    have hkept := listed_of_commit { state := .accepted, receipt := some receipt } hdist hlist hsub
    unfold acceptStep at hnext ⊢
    split at hnext
    · cases mem_singleton.mp hnext
      exact ⟨.inr (admitted_of_commit htr rfl), hkept⟩
    · exact returned_current hkept hnext
  case h_5 record cause ret _ =>
    cases mem_singleton.mp hnext
    have hscheduling : OutTask.Current rows h (.scheduling record cause (failedAttempt rows record cause) ret) := by
      refine ⟨hcur.1.imp ?_ id, hcur.2⟩
      rintro ⟨row, htr⟩
      refine ⟨row, htr, ?_⟩
      rw [failedAttempt, nextNumber, htr.stored]
      rfl
    exact hscheduling.frame hsame hsub
  case h_6 record cause attempt ret now =>
    cases mem_singleton.mp hnext
    exact listed_of_commit _ hdist hcur.2 hsub
  case h_7 => exact returned_current (fun r hr => (hcur r hr).frame rfl hsub) hnext
  case h_8 records now =>
    rw [recoverStep_rows]
    exact recoverStep_current (fun r hr => (hcur r hr).frame rfl hsub) hnext
  case h_9 record rest _ =>
    cases mem_singleton.mp hnext
    exact listed_of_commit _ hdist hcur.2 hsub

/-! ### The steps of the outbox -/

/-- The messages of the tasks that follow a task are messages of it, in their order. -/
theorem outResume_slots (hres : outResume rows task input = some outcome) :
    (outcome.tasks.flatMap OutTask.slots).Sublist task.slots := by
  have hret {rows : OutboundRows} {record : StoredOutbound} {answer : SendOutcome} {ret : Ret} :
      ((returned rows record.slot answer ret).tasks.flatMap OutTask.slots).Sublist
        ((record :: ret.records).map StoredOutbound.slot) := by
    cases ret with
    | caller => exact nil_sublist _
    | pass =>
      rw [returned, flatMap_singleton]
      exact sublist_cons_self _ _
  unfold outResume at hres
  split at hres <;> cases hres
  case h_1 => exact nil_sublist _
  case h_4 record receipt ret _ =>
    unfold acceptStep
    split
    · rw [flatMap_singleton]
      exact List.Sublist.refl _
    · exact hret
  case h_7 => exact hret
  case h_8 records now =>
    unfold recoverStep
    split
    · exact nil_sublist _
    · split
      · rw [flatMap_singleton]
        exact sublist_cons_self _ _
      all_goals
        simp only [transmit, flatMap_singleton]
        exact List.Sublist.refl _
  case h_9 =>
    rw [flatMap_singleton]
    exact sublist_cons_self _ _
  all_goals
    rw [flatMap_singleton]
    exact List.Sublist.refl _

theorem outResume_get (hres : outResume rows task input = some outcome) (slot : MessageRef) :
    (slot ∉ task.slots → outcome.rows.get slot = rows.get slot) ∧
      (rows.get slot ≠ none → outcome.rows.get slot ≠ none) := by
  rcases outResume_rows hres with ⟨-, hkept⟩ | ⟨record, change, hcommits, hcom⟩
  · rw [hkept]
    exact ⟨fun _ => rfl, id⟩
  · have hmem : record.slot ∈ task.slots := mem_map.mpr ⟨record, OutTask.mem_records_of_commits hcommits, rfl⟩
    rw [hcom]
    refine ⟨fun hoth => commit_get_ne _ fun hslot => hoth (hslot ▸ hmem), fun hrow => ?_⟩
    by_cases hslot : slot = record.slot
    · rcases commit_eq record change rows with ⟨hkept, -⟩ | ⟨hput, -⟩
      · rw [hkept]
        exact hrow
      · rw [hput, hslot, get_put_self]
        simp
    · rw [commit_get_ne _ hslot]
      exact hrow

section

variable (hsl : ∀ slot row, rows.get slot = some row → row.slot = slot)
include hsl

theorem recoverRows_slots_nodup (scheduled : Bool) (now : Int) : ((recoverRows scheduled now rows).map StoredOutbound.slot).Nodup := by
  have hkeys : (rows.rows.map Prod.snd).map StoredOutbound.slot = rows.rows.map Prod.fst := by
    rw [map_map]
    exact map_congr_left fun row hrow => hsl _ _ (mem_rows.mp hrow)
  have hnodup : ((rows.rows.map Prod.snd).map StoredOutbound.slot).Nodup := by
    rw [hkeys]
    exact pairwise_map.mpr (rows_pairwise rows)
  exact hnodup.sublist (filter_sublist.map _)

theorem listed_of_mem (hnow : now ∈ readings h) (hmem : record ∈ recoverRows true now rows) : Listed rows h record := by
  obtain ⟨hrow, hrecov⟩ := mem_filter.mp hmem
  obtain ⟨⟨slot, stored⟩, hstor, rfl⟩ := mem_map.mp hrow
  have hget := mem_rows.mp hstor
  simp only [StoredOutbound.recoverable, Bool.and_eq_true, Bool.or_eq_true, decide_eq_true_eq,
    Bool.not_true, Bool.false_eq_true, false_or] at hrecov
  refine ⟨by rw [hsl slot stored hget]; exact hget, hrecov.1.2, ?_⟩
  refine hrecov.2.imp id fun hdue next hnext => ⟨now, hnow, ?_⟩
  rw [hnext] at hdue
  exact of_decide_eq_true hdue

end

theorem readings_snoc (t : Transition Outbox OutAct) : readings (h ++ [t]) = readings h ++ t.act.readings := by
  simp [readings]

variable {ctx : Context} {o o' : Outbox} {a : OutAct}

theorem InFlight.advanced (hfly : InFlight h o) (hstep : outStep ctx o (.advance task input) = some o')
    (hsub : readings h ⊆ readings h') : InFlight h' o' := by
  obtain ⟨hmem, next, hres, hrows, htsk⟩ := outResume_of_advance hstep
  have hperm := (perm_cons_erase hmem).flatMap_right OutTask.slots
  have hnodup := hperm.nodup_iff.mp hfly.distinct
  obtain ⟨hown, hothers, hdisj⟩ := nodup_append'.mp hnodup
  have hsl := outResume_slots hres
  -- The messages of the other tasks are not those of this one.
  have hoth {task' : OutTask} (htask' : task' ∈ o.tasks.erase task) {slot : MessageRef}
      (hslot : slot ∈ task'.slots) : slot ∉ task.slots := fun hin =>
    hdisj hin (mem_flatMap.mpr ⟨task', htask', hslot⟩)
  constructor
  · rw [htsk, flatMap_append]
    exact hothers.append (hown.sublist hsl) fun slot hslot hin => hdisj (hsl.subset hin) hslot
  · intro task' htask' slot hslot
    rw [hrows]
    refine (outResume_get hres slot).2 ?_
    rw [htsk] at htask'
    rcases mem_append.mp htask' with hold | hnew
    · exact hfly.stored task' (mem_of_mem_erase hold) slot hslot
    · exact hfly.stored task hmem slot (hsl.subset (mem_flatMap.mpr ⟨task', hnew, hslot⟩))
  · intro task' htask'
    rw [hrows]
    rw [htsk] at htask'
    rcases mem_append.mp htask' with hold | hnew
    · exact (hfly.current task' (mem_of_mem_erase hold)).frame
        (fun slot hslot => (outResume_get hres slot).1 (hoth hold hslot)) hsub
    · exact (hfly.current task hmem).next hown hres hnew hsub

theorem InFlight.sent (hfly : InFlight h o) (record : StoredOutbound)
    (hfree : o.rows.get record.slot = none) (hpend : record.state = .pending) (hsub : readings h ⊆ readings h') :
    InFlight h' ⟨o.rows.put record.slot record, o.tasks ++ [.sending record .caller]⟩ := by
  have hoth {task : OutTask} (htask : task ∈ o.tasks) {slot : MessageRef} (hslot : slot ∈ task.slots) :
      slot ≠ record.slot := by
    rintro rfl
    exact hfly.stored task htask _ hslot hfree
  have hsl : OutTask.slots (.sending record .caller) = [record.slot] := rfl
  constructor
  · rw [flatMap_append, flatMap_singleton, hsl]
    refine hfly.distinct.append (nodup_singleton _) fun slot hslot hnew => ?_
    obtain ⟨task, htask, hslot⟩ := mem_flatMap.mp hslot
    exact hoth htask hslot (mem_singleton.mp hnew)
  · intro task htask slot hslot
    rw [get_put]
    split_ifs with hsame
    · simp
    · rcases mem_append.mp htask with hold | hnew
      · exact hfly.stored task hold slot hslot
      · cases mem_singleton.mp hnew
        exact absurd (mem_singleton.mp hslot) hsame
  · intro task htask
    rcases mem_append.mp htask with hold | hnew
    · exact (hfly.current task hold).frame (fun slot hslot => get_put_ne _ _ (hoth hold hslot)) hsub
    · cases mem_singleton.mp hnew
      refine ⟨⟨record, get_put_self _ _ _, ?_, .inl hpend, .inl hpend⟩, ?_⟩
      · rw [← hpend]
      · intro r hr
        cases hr

theorem inFlight_of_pass (hsl : ∀ slot row, o.rows.get slot = some row → row.slot = slot)
    (hnow : now ∈ readings h) : InFlight h ⟨o.rows, [.recovering (recoverRows true now o.rows)]⟩ := by
  have hlist {record : StoredOutbound} (hmem : record ∈ recoverRows true now o.rows) :
      Listed o.rows h record := listed_of_mem hsl hnow hmem
  constructor
  · rw [flatMap_singleton]
    exact recoverRows_slots_nodup hsl true now
  · intro task htask slot hslot
    cases mem_singleton.mp htask
    obtain ⟨record, hrec, rfl⟩ := mem_map.mp hslot
    rw [(hlist hrec).stored]
    simp
  · intro task htask
    cases mem_singleton.mp htask
    exact fun record hrec => hlist hrec

/-- Every orderly act keeps what is in flight in order, and is one event of the rows. -/
theorem InFlight.kept (hfly : InFlight h o)
    (hsl : ∀ slot row, o.rows.get slot = some row → row.slot = slot) (hstep : outStep ctx o a = some o')
    (hord : orderly ⟨o, a, o'⟩ = true) :
    InFlight (h ++ [⟨o, a, o'⟩]) o' ∧ RowEvent h o.rows (failure ⟨o, a, o'⟩) o'.rows := by
  have hsub : readings h ⊆ readings (h ++ [⟨o, a, o'⟩]) := by
    rw [readings_snoc]
    exact subset_append_left _ _
  cases a with
  | deliver call key now created =>
    have hfree : o.rows.get call.message.ref = none := Option.isNone_iff_eq_none.mp hord
    rcases deliverTx_eq call (call.request ctx key now) created o.rows with ⟨stored, hrow, -⟩ | ⟨-, htx⟩
    · rw [show (call.request ctx key now).message.ref = call.message.ref from rfl, hfree] at hrow
      cases hrow
    · simp only [outStep, outAct, htx] at hstep
      cases hstep
      exact ⟨hfly.sent (call.record (call.request ctx key now) created) hfree rfl hsub,
        .created (call.record (call.request ctx key now) created) hfree rfl rfl⟩
  | recover scheduled now =>
    simp only [orderly, Bool.and_eq_true, List.isEmpty_iff] at hord
    obtain ⟨rfl, hidle⟩ := hord
    cases hstep
    rw [hidle, nil_append]
    refine ⟨inFlight_of_pass hsl ?_, .quiet⟩
    rw [readings_snoc]
    exact mem_append_right _ (mem_singleton_self now)
  | advance task =>
    refine ⟨hfly.advanced hstep hsub, ?_⟩
    obtain ⟨hmem, next, hres, hrows, -⟩ := outResume_of_advance hstep
    rw [hrows]
    exact (hfly.current task hmem).event hres
  | crash => cases hord

end Tasks

/-! ## Bounded retry -/

def Steady (h : List (Transition Outbox OutAct)) : Prop := (readings h).Pairwise (· ≤ ·)

section Runs

variable {ctx : Context} {start o : Outbox} {h : List (Transition Outbox OutAct)} {t : Transition Outbox OutAct}
  {now : Int}

theorem steady_snoc (hstd : Steady (h ++ [t])) :
    Steady h ∧ ∀ reading ∈ readings h, ∀ now ∈ t.act.readings, reading ≤ now := by
  rw [Steady, readings_snoc, pairwise_append] at hstd
  exact ⟨hstd.1, hstd.2.2⟩

theorem failure_instant {slot : MessageRef} {attempt : Option Nat}
    (hfail : failure t = some (slot, attempt, now)) : now ∈ t.act.readings := by
  unfold failure at hfail
  split at hfail
  · next hact =>
    split_ifs at hfail
    cases hfail
    rw [hact]
    exact mem_singleton_self _
  · cases hfail

/-- In an orderly run over a steady clock the ledger holds, and what is in flight is what the rows say. -/
theorem series_of_run (hidle : start.tasks = []) (hsl : ∀ slot row, start.rows.get slot = some row → row.slot = slot)
    (hrun : Run (outStep ctx) start h o) (hord : ∀ t ∈ h, orderly t = true) (hstd : Steady h) :
    Ledger start.rows h o.rows ∧ InFlight h o := by
  induction hrun with
  | nil =>
    refine ⟨⟨hsl, fun _ => id, fun slot row hrow _ => ?_, fun _ _ => rfl, fun _ => Nat.zero_le _,
      fun t ht => (by cases ht), fun i hi => absurd hi (by simp)⟩, ⟨?_, ?_, ?_⟩⟩
    · exact ⟨by simp [attempts, hrow, failureCount], .inl rfl⟩
    · rw [hidle]
      exact nodup_nil
    · rw [hidle]
      exact fun task htask => by cases htask
    · rw [hidle]
      exact fun task htask => by cases htask
  | @snoc past o o' a hprev hstep ih =>
    obtain ⟨hbef, hclock⟩ := steady_snoc hstd
    obtain ⟨hled, hfly⟩ := ih (fun t ht => hord t (mem_append_left _ ht)) hbef
    obtain ⟨hfly', hev⟩ := hfly.kept hled.slots hstep (hord _ (by simp))
    exact ⟨hled.event hev hclock fun _ _ _ => failure_instant, hfly'⟩

theorem retransmission_listed {record : StoredOutbound} (hfly : InFlight h t.before)
    (hstep : outStep ctx t.before t.act = some t.after) (hretry : retransmission t = some (record, now)) :
    Listed t.before.rows h record ∧ now < record.request.retryUntil ∧ now ∈ t.act.readings := by
  unfold retransmission at hretry
  split at hretry
  · next first rest instant hact =>
    split_ifs at hretry with hredrive
    cases hretry
    rw [hact] at hstep ⊢
    refine ⟨hfly.current _ (outResume_of_advance hstep).1 record mem_cons_self, ?_, mem_singleton_self _⟩
    unfold StoredOutbound.action at hredrive
    split_ifs at hredrive with hwin
    omega
  · cases hretry

end Runs

/-- Take any rows under their identities, nothing in flight, a clock that does not go back, and any run of
scheduled passes that neither overlap nor are aborted, with new messages sent at any time but none sent again.
Then of every message at most `maxAttempts` failed attempts are recorded, and they are numbered on from those
its row had made.  A pass transmits a record only inside its window, and only once `backoffMs` of the number of
every earlier failure has passed since that failure was recorded, all of them being short of the maximum.  Once
the maximum is reached the record is unreachable. -/
theorem retries_bounded (ctx : Context) {start o : Outbox} {h : List (Transition Outbox OutAct)}
    (hidle : start.tasks = []) (hslots : ∀ slot row, start.rows.get slot = some row → row.slot = slot)
    (hrun : Run (outStep ctx) start h o) (horderly : ∀ t ∈ h, orderly t = true) (hsteady : Steady h) :
    (∀ slot, failureCount h slot ≤ maxAttempts) ∧
    EveryStep (fun past t => ∀ slot number instant, failure t = some (slot, some number, instant) →
      number = attempts start.rows slot + failureCount (past ++ [t]) slot) h ∧
    EveryStep (fun past t => ∀ record now, retransmission t = some (record, now) →
      now < record.request.retryUntil ∧ ∀ earlier ∈ past, ∀ attempt instant,
        failure earlier = some (record.slot, attempt, instant) →
        ∃ number, attempt = some number ∧ number < maxAttempts ∧ instant + backoffMs number ≤ now) h ∧
    ∀ t ∈ h, ∀ slot number instant, failure t = some (slot, some number, instant) → maxAttempts ≤ number →
      ∃ row, o.rows.get slot = some row ∧ row.state = .unreachable := by
  obtain ⟨hled, -⟩ := series_of_run hidle hslots hrun horderly hsteady
  refine ⟨hled.bounded, hled.numbered, ?_, ?_⟩
  · intro i hi record now hretry
    -- The run up to the transmission.
    have hspl : h = h.take i ++ h[i] :: h.drop (i + 1) := by
      rw [getElem_cons_drop, take_append_drop]
    rw [hspl] at hrun hsteady
    obtain ⟨hpast, hstep, -⟩ := hrun.split_at
    rw [append_cons] at hsteady
    have hstd' : Steady (h.take i ++ [h[i]]) := by
      rw [Steady, readings, flatMap_append, pairwise_append] at hsteady
      exact hsteady.1
    obtain ⟨hbef, hclock⟩ := steady_snoc hstd'
    obtain ⟨hled, hfly⟩ := series_of_run hidle hslots hpast (fun t ht => horderly t (mem_of_mem_take ht)) hbef
    obtain ⟨hlist, hwin, hnow⟩ := retransmission_listed hfly hstep hretry
    refine ⟨hwin, fun earlier hearlier attempt instant hfail => ?_⟩
    exact hled.waited hlist.stored hlist.isOpen hlist.due
      (fun reading hread => hclock reading hread now hnow) hearlier hfail
  · intro t ht slot number instant hfail hlast
    obtain ⟨row, hrow, -, -, hdead⟩ := hled.waits t ht slot (some number) instant hfail
    exact ⟨row, hrow, hdead number rfl hlast⟩

namespace Scenario

/-- A record that failed once at instant zero, with its window open until 100000. -/
def waitingRecord : StoredOutbound :=
  { failedRecord none with request := { (failedRecord none).request with retryUntil := 100000 } }

def twoPasses : List OutAct :=
  let failure := failureOf (.other "down")
  let failed := (waitingRecord.updated (failedUpdate failure (some 2) 24000)).trimmed
  let first := { waitingRecord with state := SendState.pending }
  let second := { failed with state := SendState.pending }
  [.recover true 24000, .advance (.recovering [waitingRecord]) (.go 24000),
    .advance (.sending first (.pass [])) (.failed (.other "down")),
    .advance (.failing first failure (.pass [])) (.go 24000),
    .advance (.scheduling first failure (some 2) (.pass [])) (.go 24000),
    .advance (.reporting first failure .unknown (.pass [])) (.go 24000),
    .advance (.recovering []) (.go 24000),
    .recover true 72000, .advance (.recovering [failed]) (.go 72000),
    .advance (.sending second (.pass [])) (.replied (.string "receipt")),
    .advance (.accept second (.string "receipt") (.pass [])) (.go 72000)]

end Scenario

open Scenario in
/-- The second attempt of a record fails and its third is accepted, each after its delay. -/
theorem retries_bounded_two_passes : ∃ h o, Run (outStep client) ⟨Table.put ∅ ⟨"ann", "m"⟩ waitingRecord, []⟩ h o ∧
      failureCount h ⟨"ann", "m"⟩ = 1 ∧ (h.filterMap retransmission).map Prod.snd = [24000, 72000] ∧
      ∀ slot, failureCount h slot ≤ maxAttempts := by
  obtain ⟨h, o, hrun, hcnt, htimes, hord, hstd⟩ := exists_run (outStep client)
    ⟨Table.put ∅ ⟨"ann", "m"⟩ waitingRecord, []⟩ twoPasses
    (fun h _ => failureCount h ⟨"ann", "m"⟩ = 1 ∧
      (h.filterMap retransmission).map Prod.snd = [24000, 72000] ∧ (∀ t ∈ h, orderly t = true) ∧
      (readings h).Pairwise (· ≤ ·))
    (by decide +kernel)
  have hsl : ∀ slot row, Table.get (Table.put ∅ ⟨"ann", "m"⟩ waitingRecord) slot = some row → row.slot = slot := by
    intro slot row hrow
    rcases get_put_cases hrow with ⟨rfl, rfl⟩ | ⟨-, hrow⟩
    · rfl
    · cases hrow
  exact ⟨h, o, hrun, hcnt, htimes, (retries_bounded client rfl hsl hrun hord hstd).1⟩

end Onlyne.Client
