import Onlyne.Client.Outbox

/-!
# Client: what one act of the outbox does

Every act of the outbox leaves the rows, writes the record of a message that is sent for the first time or
again, or commits a record that a task holds.  The records a task holds were read from the rows, or are held by
the task it continues.
-/

namespace Onlyne.Client

open Foundation List
open Messages (Message MessageRef)

/-! ## What a task holds and commits -/

def Ret.records : Ret → List StoredOutbound
  | .caller => []
  | .pass rest => rest

def OutTask.records : OutTask → List StoredOutbound
  | .sending record ret | .accept record _ ret | .failing record _ ret | .scheduling record _ _ ret
  | .reporting record _ _ ret => record :: ret.records
  | .recovering rows => rows
  | .expiring record rest => record :: rest

def OutTask.commits : OutTask → OutInput → Option (StoredOutbound × Update)
  | .accept record receipt _, .go _ => some (record, { state := .accepted, receipt := some receipt })
  | .scheduling record failure attempt _, .go now => some (record, failedUpdate failure attempt now)
  | .expiring record _, .go _ => some (record, { state := .unknown, error := some windowClosed })
  | _, _ => none

theorem OutTask.mem_records_of_commits {task : OutTask} {input : OutInput} {record : StoredOutbound}
    {change : Update} (h : task.commits input = some (record, change)) : record ∈ task.records := by
  unfold OutTask.commits at h
  split at h <;> cases h <;> exact mem_cons_self

/-! ## What a write leaves of a record -/

section Updates

variable {record : StoredOutbound} {change : Update} (context : Option String)

@[simp] theorem resent_request : (record.resent context).request = record.request := by
  unfold StoredOutbound.resent
  split <;> rfl

@[simp] theorem resent_digest : (record.resent context).digest = record.digest := by
  unfold StoredOutbound.resent
  split <;> rfl

@[simp] theorem resent_receipt : (record.resent context).receipt = record.receipt := by
  unfold StoredOutbound.resent
  split <;> rfl

@[simp] theorem resent_localContext : (record.resent context).localContext = context.or record.localContext := by
  unfold StoredOutbound.resent
  split <;> rfl

theorem resent_state : (record.resent context).state = if record.state = .accepted then .accepted else .pending := by
  unfold StoredOutbound.resent
  split_ifs with h
  · exact h
  · rfl

@[simp] theorem updated_request : (record.updated change).trimmed.request = record.request := by
  unfold StoredOutbound.trimmed
  split <;> rfl

@[simp] theorem updated_digest : (record.updated change).trimmed.digest = some record.digestOr := by
  unfold StoredOutbound.trimmed
  split <;> rfl

@[simp] theorem updated_state : (record.updated change).trimmed.state = change.state := by
  unfold StoredOutbound.trimmed
  split <;> rfl

@[simp] theorem updated_receipt : (record.updated change).trimmed.receipt = change.receipt.or record.receipt := by
  unfold StoredOutbound.trimmed
  split <;> rfl

@[simp] theorem updated_localContext : (record.updated change).trimmed.localContext = record.localContext := by
  unfold StoredOutbound.trimmed
  split <;> rfl

end Updates

theorem OutTask.commits_receipt {task : OutTask} {input : OutInput} {record : StoredOutbound}
    {change : Update} (h : task.commits input = some (record, change)) (hrcpt : change.receipt ≠ none) :
    change.state = .accepted := by
  unfold OutTask.commits at h
  split at h <;> cases h
  · rfl
  all_goals exact absurd rfl hrcpt

section Steps

variable {ctx : Context} {o o' : Outbox} {a : OutAct}

/-! ## Rows -/

/-- The rows after a commit: another record is accepted already, or the record is written. -/
theorem commit_eq (record : StoredOutbound) (change : Update) (rows : OutboundRows) :
    commit record change rows = rows ∧ (∃ current, rows.get record.slot = some current ∧ current.state = .accepted) ∨
    commit record change rows = rows.put record.slot (record.updated change).trimmed ∧
      ∀ current, rows.get record.slot = some current → current.state ≠ .accepted := by
  unfold commit
  split_ifs with hacc
  · obtain ⟨current, hcur, hst⟩ := (Option.any_eq_true _ _).mp hacc
    exact .inl ⟨rfl, current, hcur, of_decide_eq_true hst⟩
  · refine .inr ⟨rfl, fun current hcur hst => hacc ?_⟩
    rw [hcur]
    exact decide_eq_true hst

/-- The act is one that writes nothing: a send that conflicts, or a commit that comes after the acceptance. -/
def Quiet (ctx : Context) (o : Outbox) : OutAct → Prop
  | .deliver call key now created =>
    deliverTx call (call.request ctx key now) created o.rows = .error identityConflict
  | .advance task input => ∀ record change, task.commits input = some (record, change) →
    ∃ current, o.rows.get record.slot = some current ∧ current.state = .accepted
  | .recover _ _ | .crash => True

inductive OutChange (ctx : Context) (o : Outbox) : OutAct → OutboundRows → Prop where
  -- The rows stay.
  | kept (a : OutAct) (quiet : Quiet ctx o a) : OutChange ctx o a o.rows
  -- A message is sent again, and nothing of its record changes.
  | repeated (call : Delivery) (key : String) (now created : Int) (stored : StoredOutbound)
      (row : o.rows.get call.message.ref = some stored)
      (same : stored.digestOr = messageDigest (call.request ctx key now))
      (unchanged : stored.resent call.options.context = stored) :
      OutChange ctx o (.deliver call key now created) o.rows
  -- A message is sent for the first time.
  | sent (call : Delivery) (key : String) (now created : Int)
      (free : o.rows.get call.message.ref = none) :
      OutChange ctx o (.deliver call key now created)
        (o.rows.put call.message.ref (call.record (call.request ctx key now) created))
  -- A message is sent again.
  | resent (call : Delivery) (key : String) (now created : Int) (stored : StoredOutbound)
      (row : o.rows.get call.message.ref = some stored)
      (same : stored.digestOr = messageDigest (call.request ctx key now)) :
      OutChange ctx o (.deliver call key now created)
        (o.rows.put call.message.ref (stored.resent call.options.context))
  -- A task commits the record it holds.
  | committed (task : OutTask) (input : OutInput) (record : StoredOutbound) (change : Update)
      (held : task ∈ o.tasks) (commits : task.commits input = some (record, change))
      (unaccepted : ∀ current, o.rows.get record.slot = some current → current.state ≠ .accepted) :
      OutChange ctx o (.advance task input) (o.rows.put record.slot (record.updated change).trimmed)

theorem deliverTx_eq (call : Delivery) (request : SendRequest) (created : Int) (rows : OutboundRows) :
    (∃ stored, rows.get request.message.ref = some stored ∧ (stored.digestOr ≠ messageDigest request ∧
          deliverTx call request created rows = .error identityConflict ∨
        stored.digestOr = messageDigest request ∧ (stored.resent call.options.context = stored ∧
              deliverTx call request created rows = .ok (stored, rows) ∨
            deliverTx call request created rows = .ok (stored.resent call.options.context,
              rows.put request.message.ref (stored.resent call.options.context))))) ∨
    rows.get request.message.ref = none ∧ deliverTx call request created rows =
      .ok (call.record request created, rows.put request.message.ref (call.record request created)) := by
  unfold deliverTx
  cases hrow : rows.get request.message.ref with
  | none => exact .inr ⟨rfl, rfl⟩
  | some stored =>
    refine .inl ⟨stored, rfl, ?_⟩
    dsimp only
    split_ifs with hdig hsame
    · exact .inl ⟨hdig, rfl⟩
    · exact .inr ⟨not_not.mp hdig, .inl ⟨hsame, rfl⟩⟩
    · exact .inr ⟨not_not.mp hdig, .inr rfl⟩

variable {rows : OutboundRows} {task : OutTask} {input : OutInput} {record : StoredOutbound}

theorem deliverTx_ok (call : Delivery) {request : SendRequest} (created : Int)
    (h : ∀ stored, rows.get request.message.ref = some stored → stored.digestOr = messageDigest request) :
    ∃ sent, deliverTx call request created rows = .ok sent := by
  rcases deliverTx_eq call request created rows with
    ⟨stored, hrow, ⟨hoth, -⟩ | ⟨-, ⟨-, htx⟩ | htx⟩⟩ | ⟨-, htx⟩
  · exact absurd (h stored hrow) hoth
  all_goals exact ⟨_, htx⟩

theorem acceptStep_rows (rows : OutboundRows) (record : StoredOutbound) (receipt : Json) (ret : Ret) :
    (acceptStep rows record receipt ret).rows = commit record { state := .accepted, receipt := some receipt } rows := by
  unfold acceptStep
  split
  · rfl
  · cases ret <;> rfl

theorem recoverStep_rows (rows : OutboundRows) (now : Int) (records : List StoredOutbound) :
    (recoverStep rows now records).rows = rows := by
  unfold recoverStep
  split
  · rfl
  · split <;> rfl

theorem outResume_rows {next : OutOutcome} (h : outResume rows task input = some next) :
    task.commits input = none ∧ next.rows = rows ∨
      ∃ record change, task.commits input = some (record, change) ∧ next.rows = commit record change rows := by
  unfold outResume at h
  split at h <;> cases h
  case h_1 => exact .inl ⟨by unfold OutTask.commits; split <;> first | rfl | contradiction, rfl⟩
  case h_4 => exact .inr ⟨_, _, rfl, acceptStep_rows _ _ _ _⟩
  case h_6 => exact .inr ⟨_, _, rfl, rfl⟩
  case h_7 ret _ =>
    refine .inl ⟨rfl, ?_⟩
    cases ret <;> rfl
  case h_8 => exact .inl ⟨rfl, recoverStep_rows _ _ _⟩
  case h_9 => exact .inr ⟨_, _, rfl, rfl⟩
  all_goals exact .inl ⟨rfl, rfl⟩

theorem outResume_of_advance (hstep : outStep ctx o (.advance task input) = some o') :
    task ∈ o.tasks ∧ ∃ next, outResume o.rows task input = some next ∧ o'.rows = next.rows ∧
      o'.tasks = o.tasks.erase task ++ next.tasks := by
  unfold outStep outAct at hstep
  dsimp only at hstep
  split_ifs at hstep with hmem
  · obtain ⟨_, hnext, rfl⟩ := Option.map_eq_some_iff.mp hstep
    obtain ⟨next, hres, rfl⟩ := Option.map_eq_some_iff.mp hnext
    exact ⟨hmem, next, hres, rfl, rfl⟩
  · cases hstep

theorem outStep_change (hstep : outStep ctx o a = some o') : OutChange ctx o a o'.rows := by
  cases a with
  | deliver call key now created =>
    rcases deliverTx_eq call (call.request ctx key now) created o.rows with
      ⟨stored, hrow, ⟨-, htx⟩ | ⟨hdig, ⟨hsame, htx⟩ | htx⟩⟩ | ⟨hfree, htx⟩ <;>
      simp only [outStep, outAct, htx] at hstep <;> cases hstep
    · exact .kept _ htx
    · exact .repeated call key now created stored hrow hdig hsame
    · exact .resent call key now created stored hrow hdig
    · exact .sent call key now created hfree
  | recover | crash =>
    cases hstep
    exact .kept _ trivial
  | advance task input =>
    obtain ⟨hmem, next, hres, hrows, -⟩ := outResume_of_advance hstep
    rw [hrows]
    rcases outResume_rows hres with ⟨hnone, hkept⟩ | ⟨record, change, hcommits, hcom⟩
    · rw [hkept]
      refine .kept _ fun record change hcommits => ?_
      rw [hnone] at hcommits
      cases hcommits
    · rw [hcom]
      rcases commit_eq record change o.rows with ⟨hkept, hacc⟩ | ⟨hput, hunacc⟩
      · rw [hkept]
        refine .kept _ fun record' change' hcom' => ?_
        rw [hcommits] at hcom'
        cases hcom'
        exact hacc
      · rw [hput]
        exact .committed task input record change hmem hcommits hunacc

/-! ## Records in flight -/

/-- The record is one of a list, up to the state a recovery pass gives it. -/
def FromRecords (records : List StoredOutbound) (record : StoredOutbound) : Prop :=
  ∃ earlier ∈ records, record = earlier ∨ record = { earlier with state := .pending }

theorem fromRecords_of_mem {records : List StoredOutbound} (h : record ∈ records) :
    FromRecords records record := ⟨record, h, .inl rfl⟩

theorem outResume_records {next : OutTask} {outcome : OutOutcome} (h : outResume rows task input = some outcome)
    (hnext : next ∈ outcome.tasks) (hrec : record ∈ next.records) : FromRecords task.records record := by
  -- A transmission that is over goes on with the rest of its pass.
  have hret {rows : OutboundRows} {slot : MessageRef} {answer : SendOutcome} {ret : Ret}
      {first : StoredOutbound} (hnext : next ∈ (returned rows slot answer ret).tasks) :
      FromRecords (first :: ret.records) record := by
    cases ret with
    | caller => cases hnext
    | pass =>
      cases mem_singleton.mp hnext
      exact fromRecords_of_mem (mem_cons_of_mem _ hrec)
  unfold outResume at h
  split at h <;> cases h
  case h_1 => cases hnext
  case h_4 receipt ret _ =>
    unfold acceptStep at hnext
    split at hnext
    · cases mem_singleton.mp hnext
      exact fromRecords_of_mem hrec
    · exact hret hnext
  case h_7 => exact hret hnext
  case h_8 records now =>
    unfold recoverStep at hnext
    split at hnext
    · cases hnext
    · split at hnext <;> cases mem_singleton.mp hnext
      · exact fromRecords_of_mem (mem_cons_of_mem _ hrec)
      · exact fromRecords_of_mem hrec
      · rcases mem_cons.mp hrec with rfl | hrest
        · exact ⟨_, mem_cons_self, .inr rfl⟩
        · exact fromRecords_of_mem (mem_cons_of_mem _ hrest)
  case h_9 =>
    cases mem_singleton.mp hnext
    exact fromRecords_of_mem (mem_cons_of_mem _ hrec)
  all_goals
    cases mem_singleton.mp hnext
    exact fromRecords_of_mem hrec

/-- The records in flight after an act were in flight before it, or are in the rows now. -/
theorem outStep_records (hstep : outStep ctx o a = some o') (htask : task ∈ o'.tasks) (hrec : record ∈ task.records) :
    (∃ earlier ∈ o.tasks, FromRecords earlier.records record) ∨ ∃ key, o'.rows.get key = some record := by
  have hheld (htask : task ∈ o.tasks) : (∃ earlier ∈ o.tasks, FromRecords earlier.records record) ∨
      ∃ key, o'.rows.get key = some record := .inl ⟨task, htask, fromRecords_of_mem hrec⟩
  cases a with
  | deliver call key now created =>
    rcases deliverTx_eq call (call.request ctx key now) created o.rows with
      ⟨stored, hrow, ⟨-, htx⟩ | ⟨-, ⟨-, htx⟩ | htx⟩⟩ | ⟨-, htx⟩ <;>
      simp only [outStep, outAct, htx] at hstep <;> cases hstep
    · exact hheld htask
    all_goals
      rcases mem_append.mp htask with hold | hnew
      · exact hheld hold
      cases mem_singleton.mp hnew
      cases mem_singleton.mp hrec
    · exact .inr ⟨_, hrow⟩
    · exact .inr ⟨_, Table.get_put_self _ _ _⟩
    · exact .inr ⟨_, Table.get_put_self _ _ _⟩
  | recover =>
    cases hstep
    rcases mem_append.mp htask with hold | hnew
    · exact hheld hold
    cases mem_singleton.mp hnew
    obtain ⟨⟨key, stored⟩, hrow, rfl⟩ := mem_map.mp (mem_filter.mp hrec).1
    exact .inr ⟨key, Table.mem_rows.mp hrow⟩
  | advance earlier =>
    obtain ⟨hmem, next, hres, -, htsk⟩ := outResume_of_advance hstep
    rw [htsk] at htask
    rcases mem_append.mp htask with hold | hnew
    · exact hheld (mem_of_mem_erase hold)
    · exact .inl ⟨earlier, hmem, outResume_records hres hnew hrec⟩
  | crash =>
    cases hstep
    cases htask

end Steps

end Onlyne.Client
