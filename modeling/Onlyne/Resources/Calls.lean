import Onlyne.Resources.Changes

/-!
# Resources: what one act can do to the calls in flight

`step_tasks` says once which calls can be in flight after an act: those that were, and the ones the act
leads to.  `Resumes` lists the steps from one await of a call to the next, each with what the call read or
committed there.  What a call in flight remembers is proved against it.
-/

namespace Onlyne.Resources

open Foundation List Option

/-- `Resumes ctx s task input s' next`: continuing `task` with `input` over the rows `s` leaves the rows
`s'` and leads to the call in flight `next`. -/
inductive Resumes (ctx : Context) (s : Store) : Task → Input → Store → Task → Prop where
  -- `operate`
  | prior {call : Call} {clock} (free : s.operation.get call.key = none) :
      Resumes ctx s (.prior call) (.go clock) s (.admitted call)
  | priorFound {call : Call} {clock} {intent : Intent}
      (row : s.operation.get call.key = some intent) (same : intent.record.digest = call.digest)
      (pending : intent.record.result.state = .pending) :
      Resumes ctx s (.prior call) (.go clock) s (.resume call intent.record)
  | initiates {call : Call} {clock target deadline resource}
      (handover : call.handover = true) (bound : s.resource.get call.ref = some resource)
      (named : target ≠ "") :
      Resumes ctx s (.admitted call) (.go clock) s (.initiate call target deadline resource)
  | queries {call : Call} {clock resource} (other : call.handover = false) :
      Resumes ctx s (.admitted call) (.go clock) s (.query call resource)
  | validates {call : Call} {clock} {resource : Resource} (other : call.handover = false)
      (bound : s.resource.get call.ref = some resource) (handler : resource.binding.handler = call.actor) :
      Resumes ctx s (.admitted call) (.go clock) s (.validate call resource)
  | readEvent {call clock resource eventId} :
      Resumes ctx s (.query call resource) (.go clock) s (.readEvent call eventId)
  | readLog {call clock resource query} :
      Resumes ctx s (.query call resource) (.go clock) s (.readLog call query)
  | fetchEvent {call clock eventId} :
      Resumes ctx s (.readEvent call eventId) (.go clock) s (.fetchEvent call eventId)
  | scanLog {call clock query} : Resumes ctx s (.readLog call query) (.go clock) s (.scanLog call query)
  -- `resume`
  | asks {call clock record} : Resumes ctx s (.resume call record) (.go clock) s (.asking call record)
  | resumeSettle {call record outcome} :
      Resumes ctx s (.asking call record) (.driver (some outcome)) s (.resumeSettle call outcome)
  | resumeRead {call record outcome} :
      Resumes ctx s (.asking call record) (.driver outcome) s (.resumeRead call record)
  -- `initiate`
  | found {call : Call} {target deadline resource clock intent} (row : s.handover.get call.key = some intent) :
      Resumes ctx s (.initiate call target deadline resource) (.go clock) s (.report call)
  | opened {call : Call} {target deadline resource fresh clock} {s' : Store}
      (row : s'.handover.get call.key = some (call.handoverIntent target deadline fresh)) :
      Resumes ctx s (.initiate call target deadline resource) (.go clock) s'
        (.handshake call (call.handoverIntent target deadline fresh))
  | expires {call : Call} {intent : HandoverIntent} {clock reason} :
      Resumes ctx s (.handshake call intent) (.go clock) s
        (.abort call.ref intent.operationId reason none (.caller call))
  | probes {call intent clock} : Resumes ctx s (.handshake call intent) (.go clock) s (.probing call intent)
  | waited {call intent} : Resumes ctx s (.probing call intent) .timeout s (.report call)
  | unreached {call : Call} {intent : HandoverIntent} {input reason error} :
      Resumes ctx s (.probing call intent) input s
        (.abort call.ref intent.operationId reason error (.caller call))
  | accepted {call : Call} {intent : HandoverIntent} {value cursor}
      (answer : probeAnswerOf value = .ok (.accept cursor)) :
      Resumes ctx s (.probing call intent) (.replied value) s
        (.commit call.ref intent.operationId cursor (.caller call))
  -- Handovers that a recovery pass settles.
  | abortedNext {ref id reason error clock rest s'} :
      Resumes ctx s (.abort ref id reason error (.pass rest)) (.go clock) s' (.recoverHandovers rest)
  | committedNext {ref id cursor fresh now rest s'} :
      Resumes ctx s (.commit ref id cursor (.pass rest)) (.id now fresh) s' (.recoverHandovers rest)
  -- `claimOperation` and `execute`
  | validated {call resource} : Resumes ctx s (.validate call resource) (.hook none) s (.claim call resource)
  | claimFound {call : Call} {resource clock} {intent : Intent}
      (row : s.operation.get call.key = some intent) (same : intent.record.digest = call.digest)
      (pending : intent.record.result.state = .pending) :
      Resumes ctx s (.claim call resource) (.go clock) s (.resume call intent.record)
  | claimed {call : Call} {resource clock intent} {s' : Store}
      (free : s.operation.get call.key = none) (row : s'.operation.get call.key = some intent)
      (handovers : s'.handover = s.handover) :
      Resumes ctx s (.claim call resource) (.go clock) s' (.execute call resource)
  | executes {call resource clock} : Resumes ctx s (.execute call resource) (.go clock) s (.executing call)
  | undriven {call resource clock outcome} :
      Resumes ctx s (.execute call resource) (.go clock) s (.settle call outcome false)
  | lateCall {call} : Resumes ctx s (.executing call) .timeout s (.late call)
  | reports {call input outcome} : Resumes ctx s (.executing call) input s (.settle call outcome false)
  | reportsLate {call input outcome} : Resumes ctx s (.late call) input s (.settle call outcome true)
  -- `recover`
  | retires {clock : Clock} {events s'}
      (scan : expireEvents ctx clock.first s = .ok (events, s')) (due : events ≠ []) :
      Resumes ctx s .expire (.go clock) s' (.retire events)
  | expiredNext {clock s'} : Resumes ctx s .expire (.go clock) s' .handovers
  | retired {events} : Resumes ctx s (.retire events) (.hook none) s (.forget events)
  | forgotten {events clock s'} : Resumes ctx s (.forget events) (.go clock) s' .handovers
  | scansHandovers {clock} : Resumes ctx s .handovers (.go clock) s (.recoverHandovers s.handover.rows)
  | passes {clock row rest} :
      Resumes ctx s (.recoverHandovers (row :: rest)) (.go clock) s (.recoverHandovers rest)
  | handoversDone {clock} : Resumes ctx s (.recoverHandovers []) (.go clock) s .intents
  | recoverExpires {clock} {row : HandoverRow} {rest reason} :
      Resumes ctx s (.recoverHandovers (row :: rest)) (.go clock) s
        (.abort row.1.1 row.2.operationId reason none (.pass rest))
  | readsBack {clock row rest} :
      Resumes ctx s (.recoverHandovers (row :: rest)) (.go clock) s (.readBack row rest)
  | unanswered {input row rest} : Resumes ctx s (.readBack row rest) input s (.recoverHandovers rest)
  | readAbort {input} {row : HandoverRow} {rest reason} : Resumes ctx s (.readBack row rest) input s
        (.abort row.1.1 row.2.operationId reason none (.pass rest))
  | readAccept {value} {row : HandoverRow} {rest cursor}
      (answer : probeAnswerOf value = .ok (.accept cursor)) :
      Resumes ctx s (.readBack row rest) (.replied value) s
        (.commit row.1.1 row.2.operationId cursor (.pass rest))
  | scansIntents {clock} : Resumes ctx s .intents (.go clock) s (.recoverIntents s.operation.rows)
  | intentDone {clock row rest} :
      Resumes ctx s (.recoverIntents (row :: rest)) (.go clock) s (.recoverIntents rest)
  | recoverAsks {clock} {row : OperationRow} {rest} (owed : row.2.owed = true) :
      Resumes ctx s (.recoverIntents (row :: rest)) (.go clock) s
        (.recoverQuery row.1.1 row.2.record.request.operationId row.2.late rest)
  | recoverOrphan {clock} {row : OperationRow} {rest} (owed : row.2.owed = true) :
      Resumes ctx s (.recoverIntents (row :: rest)) (.go clock) s
        (.recoverSettle row.1.1 row.2.record.request.operationId (driverOutcome none) row.2.late rest)
  | recoverReport {ref id late rest outcome} :
      Resumes ctx s (.recoverQuery ref id late rest) (.driver (some outcome)) s
        (.recoverSettle ref id outcome late rest)
  | recoverSilence {ref id late rest outcome} :
      Resumes ctx s (.recoverQuery ref id late rest) (.driver outcome) s (.recoverIntents rest)
  | recoverNext {ref id outcome late rest clock s'} :
      Resumes ctx s (.recoverSettle ref id outcome late rest) (.go clock) s' (.recoverIntents rest)
  -- `probe`
  | decides {sender probe deadline clock} :
      Resumes ctx s (.probe sender probe deadline) (.go clock) s (.decide sender probe deadline)
  | records {sender probe deadline now policy answer}
      (decided : decideProbe probe deadline now policy = .ok answer) :
      Resumes ctx s (.decide sender probe deadline) (.decided now policy) s (.record sender probe answer)

/-- `Starts ctx n a s' task`: the act `a` of the node `n` leaves the rows `s'` and leads to the call in
flight `task`. -/
inductive Starts (ctx : Context) (n : Node) : Act → Store → Task → Prop where
  | operate {call : Call} (owner : call.ref.owner = ctx.node) :
      Starts ctx n (.operate call) n.store (.prior call)
  | recover : Starts ctx n .recover n.store .expire
  | probe {sender probe deadline} (checks : probeChecks ctx sender probe = .ok deadline) :
      Starts ctx n (.probe sender probe) n.store (.probe sender probe deadline)
  | advance {task next input s'} (waiting : task ∈ n.tasks)
      (resumes : Resumes ctx n.store task input s' next) : Starts ctx n (.advance task input) s' next

/-! ## Inversion -/

section Inversion

variable {ctx : Context} {s : Store} {next : Task}
  {call : Call} {record : OperationRecord} {clock : Clock} {resource : Resource} {task : Task} {input : Input}

theorem mem_resumed_tasks (h : next ∈ (resumed s call record).tasks) :
    record.digest = call.digest ∧ record.result.state = .pending ∧ next = .resume call record := by
  unfold resumed at h
  split_ifs at h with hdig hst
  · cases h
  · cases h
  · exact ⟨not_not.mp hdig, not_not.mp hst, mem_singleton.mp h⟩

theorem requireText_eq_ok {value : Option String} {message text : String} :
    requireText value message = .ok text ↔ value = some text := by
  cases value <;> simp [requireText]

/-- The path of an operation: a handover is initiated, everything else queried or validated. -/
theorem admitted_resumes (h : next ∈ (admittedStep ctx s call).tasks) :
    Resumes ctx s (.admitted call) (.go clock) (admittedStep ctx s call).store next := by
  unfold admittedStep at h ⊢
  split at h
  · cases h
  · next task hdisp =>
    cases mem_singleton.mp h
    simp only [dispatch, live, bind_eq_ok, requireValue_eq_ok, failIf_eq_ok, Except.ok.injEq] at hdisp
    obtain ⟨resource, ⟨_, hrow, -, -, rfl⟩, -, -, -, -, -, -, hdisp⟩ := hdisp
    split_ifs at hdisp with hrev hhand hquery
    · simp only [initiateChecks, bind_eq_ok, requireText_eq_ok, filter_eq_some_iff] at hdisp
      obtain ⟨-, -, target, ⟨-, hnamed⟩, deadline, -, -, -, htask⟩ := hdisp
      cases htask
      exact .initiates hhand hrow (of_decide_eq_true hnamed)
    · obtain ⟨-, -, htask⟩ := bind_eq_ok.mp hdisp
      cases htask
      exact .queries (by simpa using hhand)
    · simp only [bind_eq_ok, failIf_eq_ok] at hdisp
      obtain ⟨-, hmay, -, -, htask⟩ := hdisp
      cases htask
      simp only [Bool.not_eq_true] at hhand hquery
      simp only [hhand, mayOperate, hquery, Bool.not_false, Bool.true_and, Bool.not_eq_false',
        Bool.false_eq_true, if_false, decide_eq_true_eq] at hmay
      exact .validates hhand hrow hmay

theorem initiate_resumes {target deadline : String}
    (h : next ∈ (initiateStep ctx s call target deadline resource clock).tasks) :
    Resumes ctx s (.initiate call target deadline resource) (.go clock)
      (initiateStep ctx s call target deadline resource clock).store next := by
  unfold initiateStep at h ⊢
  split at h
  · cases h
  · next htx =>
    cases mem_singleton.mp h
    rcases initiateTx_ok htx with ⟨-, rfl, hrow, -⟩ | ⟨hclm, -⟩
    · exact .found hrow
    · cases hclm
  · next htx =>
    cases mem_singleton.mp h
    rcases initiateTx_ok htx with ⟨hclm, -⟩ | ⟨-, -, fresh, record, -, -, -, rfl, rfl⟩
    · cases hclm
    · exact .opened (Table.get_put_self _ _ _)

variable {outcome : Option Settlement} {rest : List OperationRow}
  {result : Except Thrown (OperationResult × Store)} {intent : HandoverIntent}

theorem mem_settled_tasks {to_ : Next} (h : next ∈ (settled s to_ result).tasks) :
    ∃ rest, to_ = .pass rest ∧ next = .recoverHandovers rest := by
  unfold settled at h
  split at h
  · split at h
    · cases h
    · exact ⟨_, rfl, mem_singleton.mp h⟩
  · split at h <;> cases h

theorem claim_resumes (h : next ∈ (claimStep ctx s call resource clock).tasks) :
    Resumes ctx s (.claim call resource) (.go clock) (claimStep ctx s call resource clock).store next := by
  unfold claimStep at h ⊢
  split at h
  · cases h
  · next htx =>
    obtain ⟨hdig, hst, rfl⟩ := mem_resumed_tasks h
    rcases claimOperation_ok htx with ⟨-, rfl, intent, hrow, rfl, -⟩ | ⟨hclm, -⟩
    · rw [Outcome.Reads.store (resumed_reads ..)]
      exact .claimFound hrow hdig hst
    · cases hclm
  · next htx =>
    cases mem_singleton.mp h
    rcases claimOperation_ok htx with ⟨hclm, -⟩ | ⟨-, hfree, fresh, -, -, rfl, rfl⟩
    · cases hclm
    · exact .claimed hfree (Table.get_put_self _ _ _) rfl

theorem expire_resumes (h : next ∈ (expireStep ctx s clock.first).tasks) :
    Resumes ctx s .expire (.go clock) (expireStep ctx s clock.first).store next := by
  unfold expireStep at h ⊢
  split at h
  · cases h
  · next scan =>
    split_ifs at h ⊢ with hnone
    · cases mem_singleton.mp h
      exact .expiredNext
    · cases mem_singleton.mp h
      exact .retires scan (by simpa using hnone)

theorem recoverIntent_resumes {rows : List OperationRow} (h : next ∈ (recoverIntent s rows).tasks) :
    Resumes ctx s (.recoverIntents rows) (.go clock) (recoverIntent s rows).store next := by
  unfold recoverIntent at h ⊢
  split at h
  · cases h
  · next ref id intent rest =>
    let row : OperationRow := ((ref, id), intent)
    split_ifs at h ⊢ with hdone hbd
    · cases mem_singleton.mp h
      exact .intentDone
    · cases mem_singleton.mp h
      have howed : row.2.owed = true := by simpa using hdone
      exact .recoverAsks howed
    · cases mem_singleton.mp h
      have howed : row.2.owed = true := by simpa using hdone
      exact .recoverOrphan howed

/-- A task that continues leads on in one of the ways listed. -/
theorem resume_resumes {outcome : Outcome} (h : resume ctx s task input = some outcome)
    (hnext : next ∈ outcome.tasks) : Resumes ctx s task input outcome.store next := by
  unfold resume at h
  split at h
  all_goals cases h
  all_goals first
    -- The call ends.
    | (cases hnext; done)
    -- It goes on in one way only.
    | (cases mem_singleton.mp hnext; constructor)
    -- It goes on by what it read or committed.
    | exact admitted_resumes hnext
    | exact initiate_resumes hnext
    | exact claim_resumes hnext
    | exact expire_resumes hnext
    | exact recoverIntent_resumes hnext
    | (obtain ⟨rest, hpass, rfl⟩ := mem_settled_tasks hnext; cases hpass; done)
    | (obtain ⟨rest, rfl, rfl⟩ := mem_settled_tasks hnext; constructor)
    | (rcases mem_cons.mp hnext with rfl | hnext
       · exact .lateCall
       · cases mem_singleton.mp hnext
         exact .reports)
    -- Each branch of the step ends the call or goes on in one way.
    | (revert hnext
       simp only [priorStep, resumed, queryStep, readEventStep, fetchEventStep, readLogStep, scanLogStep,
         resumeStep, askingStep, handshakeStep, probedStep, executeStep, reported, recoverHandover, readBackStep, readBackFailed,
         recoverReport, recovered, probeStep, decideStep, recordStep, decided]
       repeat' split
       all_goals intro hnext
       all_goals first
         | (cases hnext; done)
         | (cases mem_singleton.mp hnext; constructor <;> first | assumption | exact not_not.mp ‹_›))

/-- The calls in flight after an act: those that were, and the ones it leads to. -/
theorem step_tasks {n n' : Node} {a : Act} (h : step ctx n a = some n') (htask : task ∈ n'.tasks) :
    task ∈ n.tasks ∨ Starts ctx n a n'.store task := by
  obtain ⟨⟨m, output⟩, hact, rfl⟩ := map_eq_some_iff.mp h
  cases a
  case advance =>
    simp only [act] at hact
    split_ifs at hact with hwait
    obtain ⟨outcome, hout, heq⟩ := map_eq_some_iff.mp hact
    cases heq
    rcases mem_append.mp htask with hold | hnew
    · exact .inl (mem_of_mem_erase hold)
    · exact .inr (.advance hwait (resume_resumes hout hnew))
  all_goals
    simp only [act, requireOwner] at hact
    repeat' split at hact
  all_goals
    cases hact
    first
    | exact .inl htask
    | cases htask
    | (rcases mem_append.mp htask with hold | hnew
       · exact .inl hold
       · cases mem_singleton.mp hnew
         right
         first | exact .recover | exact .probe ‹_› | exact .operate (not_not.mp (of_decide_eq_false (failIf_eq_ok.mp ‹_›))))

theorem mem_tasks_of_advance {n n' : Node} (h : step ctx n (.advance task input) = some n') : task ∈ n.tasks := by
  obtain ⟨r, hact, -⟩ := map_eq_some_iff.mp h
  simp only [act] at hact
  split_ifs at hact with hwait
  exact hwait

end Inversion

end Onlyne.Resources
