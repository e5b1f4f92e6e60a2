import Onlyne.Resources.Node

/-!
# Resources: what one act can do to the rows

`step_change` says once how an act changes the rows of a node, with everything the act has checked in the
transaction that writes.  What holds of the rows in every run is proved against `Change`.
-/

namespace Onlyne.Resources

open Foundation

/-! ## The transactions that commit -/

section Transactions

variable {ctx : Context} {tx tx' : Store} {event : ResourceEvent} {receipt : AckReceipt} {input : EventInput}
  {claimed : Bool} {call : Call}

theorem follows_ok {a b : String} {forward : Bool} (h : follows a b = .ok forward) :
    ∃ left right, decimal a = .ok left ∧ decimal b = .ok right ∧ forward = decide (right < left) := by
  simp only [follows, bind_eq_ok, Except.ok.injEq] at h
  obtain ⟨left, hleft, right, hright, rfl⟩ := h
  exact ⟨left, right, hleft, hright, rfl⟩

variable {actor : NodeId} {resource : Resource} {ref : ResourceRef} {clock : Clock} {id cursor fresh : String}
  {intent : HandoverIntent} {answer : OperationResult} {now : Int}

theorem register_ok {result : Resource} (h : register ctx actor resource tx = .ok (result, tx')) :
    tx' = tx ∨ resource.resourceRef.owner = ctx.node ∧ resource.binding.handler ≠ "" ∧
      tx.resource.get resource.resourceRef = none ∧ (∃ cursor, decimal resource.binding.cursor = .ok cursor) ∧
      (∃ seq, decimal resource.eventSeq = .ok seq) ∧
      tx' = { tx with resource := tx.resource.put resource.resourceRef resource } := by
  simp only [register, bind_eq_ok, requireEndpoint, failIf_eq_ok, checked_eq_ok] at h
  obtain ⟨-, -, -, hown, -, hhdl, cursor, hcurs, seq, hseq, -, -, h⟩ := h
  unfold registerTx at h
  split at h
  · split_ifs at h
    cases h
    exact .inl rfl
  · next hfree =>
    cases h
    exact .inr ⟨by simpa using hown, by simpa using hhdl, hfree, ⟨cursor, hcurs⟩, ⟨seq, hseq⟩, rfl⟩

theorem appendEvent_ok (h : appendEvent ctx ref input clock resource tx = .ok (event, tx')) :
    ∃ seq, decimal resource.eventSeq = .ok seq ∧ event.resourceRef = ref ∧
      event.eventId = toString (seq + 1) ∧ event.sourceId = input.sourceId ∧ event.expired = false ∧ tx' = { tx with
        resource := tx.resource.put ref { resource with eventSeq := event.eventId }
        event := tx.event.put (ref, event.eventId) event
        source := tx.source.put (ref, input.sourceId) event.eventId } := by
  simp only [appendEvent, bind_eq_ok, checked_eq_ok] at h
  obtain ⟨seq, hseq, expires, -, h⟩ := h
  cases h
  exact ⟨seq, hseq, rfl, rfl, rfl, rfl, rfl⟩

theorem receive_ok (h : receive ctx actor ref input clock tx = .ok (event, tx')) :
    tx' = tx ∨ ∃ resource, tx.resource.get ref = some resource ∧
      ((tx.source.get (ref, input.sourceId)).filter fun eventId => eventId ≠ "") = none ∧
      appendEvent ctx ref input clock resource tx = .ok (event, tx') := by
  simp only [receive, bind_eq_ok, requireValue_eq_ok] at h
  obtain ⟨-, -, -, -, -, -, resource, hrsc, h⟩ := h
  split at h
  · simp only [bind_eq_ok, requireValue_eq_ok] at h
    obtain ⟨event, -, h⟩ := h
    cases h
    exact .inl rfl
  · next hnew => exact .inr ⟨resource, hrsc, hnew, h⟩

/-- The work of an acknowledgement moves the cursor forward, or leaves the rows. -/
theorem ackWork_ok (h : ackWork actor ref id tx = .ok (receipt, tx')) :
    tx' = tx ∨ ∃ resource event, tx.resource.get ref = some resource ∧
      resource.binding.handler = actor ∧ tx.event.get (ref, id) = some event ∧
      follows id resource.binding.cursor = .ok true ∧ tx' = { tx with
        resource := tx.resource.put ref { resource with binding := { resource.binding with cursor := id } } } := by
  simp only [ackWork, bind_eq_ok, requireValue_eq_ok, failIf_eq_ok, checked_eq_ok] at h
  obtain ⟨resource, hrsc, -, hhdl, event, hev, forward, hfwd, h⟩ := h
  split_ifs at h with hgoes
  · cases h
    subst hgoes
    exact .inr ⟨resource, event, hrsc, by simpa using hhdl, hev, hfwd, rfl⟩
  · cases h
    exact .inl rfl

/-- An acknowledgement answers from its row, or runs its work and records the answer. -/
theorem ack_ok {mutation : Mutation} (h : ack ctx actor ref id mutation clock tx = .ok (receipt, tx')) :
    tx' = tx ∨ ∃ tx₁ slot row, ackWork actor ref id tx = .ok (receipt, tx₁) ∧
      tx' = { tx₁ with idempotency := tx₁.idempotency.put slot row } := by
  simp only [ack, bind_eq_ok, mutate_eq_once] at h
  obtain ⟨-, -, -, -, -, -, h⟩ := h
  rcases once_ok h with ⟨-, hsame⟩ | ⟨-, -, tx₁, hwork, hfill⟩
  · exact .inl hsame
  · exact .inr ⟨tx₁, _, _, hwork, hfill⟩

theorem claimOperation_ok {record : OperationRecord}
    (h : claimOperation ctx call clock tx = .ok ((record, claimed), tx')) :
    (claimed = false ∧ tx' = tx ∧ ∃ intent, tx.operation.get call.key = some intent ∧
      intent.record = record ∧ record.digest = call.digest) ∨
    (claimed = true ∧ tx.operation.get call.key = none ∧ ∃ fresh, tx.resource.get call.ref = some fresh ∧
      mayOperate fresh call.actor call.request.operation = true ∧
      record = call.record ctx ⟨call.request.operationId, .pending, none, none⟩ clock.third fresh.revision ∧
      tx' = { tx with operation := tx.operation.put call.key ⟨record, true⟩ }) := by
  simp only [claimOperation, bind_eq_ok, failIf_eq_ok] at h
  obtain ⟨-, -, h⟩ := h
  split at h
  · next intent hrow =>
    split_ifs at h with hdig
    cases h
    exact .inl ⟨rfl, rfl, intent, hrow, rfl, not_not.mp hdig⟩
  · next hfree =>
    simp only [bind_eq_ok, requireValue_eq_ok, failIf_eq_ok] at h
    obtain ⟨-, -, fresh, hfr, -, hmay, h⟩ := h
    split_ifs at h with hrev
    cases h
    exact .inr ⟨rfl, hfree, fresh, hfr, by simpa using hmay, rfl, rfl⟩

variable {state state' : List ResourceEvent × Store} {sources : Table (ResourceRef × String) String}
  {result : OperationResult}

theorem settle_ok {outcome : Settlement} {late : Bool} (h : settle ref id outcome late tx = .ok (result, tx')) :
    tx' = tx ∨ ∃ intent, tx.operation.get (ref, id) = some intent ∧
      replaceable intent.record.result.state late = true ∧ tx' = { tx with
        operation := tx.operation.put (ref, id)
          ⟨intent.record.settled (outcome.result id), outcome.state = .unknown⟩ } := by
  unfold settle at h
  split at h
  · cases h
  · next intent hrow =>
    split_ifs at h with hreplace
    · cases h
      exact .inr ⟨intent, hrow, hreplace, rfl⟩
    · cases h
      exact .inl rfl

theorem closeHandover_ok {state : HandoverState} (h : closeHandover ref id intent state result tx = .ok (answer, tx')) :
    ∃ row, tx.operation.get (ref, id) = some row ∧ tx' = tx.close ref id intent state row result := by
  simp only [closeHandover, bind_eq_ok, requireValue_eq_ok] at h
  obtain ⟨row, hrow, h⟩ := h
  cases h
  exact ⟨row, hrow, rfl⟩

theorem abortWith_ok {reason : String} {error : Option Failure}
    (h : abortWith intent reason error tx = .ok (answer, tx')) : tx' = tx ∨ intent.state = .open_ ∧ ∃ row result,
      tx.operation.get (intent.resourceRef, intent.operationId) = some row ∧ result.state = .aborted ∧
      tx' = tx.close intent.resourceRef intent.operationId intent .aborted row result := by
  unfold abortWith at h
  split_ifs at h with hopen
  · simp only [bind_eq_ok] at h
    obtain ⟨result, -, h⟩ := h
    cases h
    exact .inl rfl
  · obtain ⟨row, hrow, htx⟩ := closeHandover_ok h
    exact .inr ⟨not_not.mp hopen, row, _, hrow, rfl, htx⟩

/-- The switch moves the binding to the target under the fresh revision, with a cursor that is not pushed
back. -/
theorem switchHandler_ok (h : switchHandler ref id cursor intent resource fresh tx = .ok (answer, tx')) :
    ∃ position row result, (position = resource.binding.cursor ∧ follows cursor resource.binding.cursor = .ok false ∨
        position = cursor ∧ follows cursor resource.binding.cursor = .ok true) ∧
      fresh ≠ resource.revision ∧ tx.operation.get (ref, id) = some row ∧ result.state = .committed ∧
      tx' = (tx.bind ref (resource.handedTo intent.target position fresh)).close ref id intent
        .committed row result := by
  simp only [switchHandler, bind_eq_ok, checked_eq_ok, nextRevision, failIf_eq_ok] at h
  obtain ⟨forward, hfwd, revision, ⟨-, -, -, hfr, hrev⟩, h⟩ := h
  cases hrev
  obtain ⟨row, hrow, htx⟩ := closeHandover_ok h
  refine ⟨_, row, _, ?_, by simpa using hfr, hrow, rfl, htx⟩
  cases forward with
  | true => exact .inr ⟨rfl, hfwd⟩
  | false => exact .inl ⟨rfl, hfwd⟩

theorem commitHandover_ok (h : commitHandover ctx ref id cursor now fresh tx = .ok (answer, tx')) :
    ∃ intent, tx.handover.get (ref, id) = some intent ∧ (tx' = tx ∨
      (∃ reason error, abortWith intent reason error tx = .ok (answer, tx')) ∨
      intent.state = .open_ ∧ ∃ resource, tx.resource.get ref = some resource ∧
        resource.revision = intent.expectedRevision ∧ resource.binding.handler = intent.initiator ∧
        switchHandler ref id cursor intent resource fresh tx = .ok (answer, tx')) := by
  simp only [commitHandover, bind_eq_ok, requireValue_eq_ok] at h
  obtain ⟨intent, hint, h⟩ := h
  refine ⟨intent, hint, ?_⟩
  split_ifs at h with hopen
  · simp only [bind_eq_ok] at h
    obtain ⟨result, -, h⟩ := h
    cases h
    exact .inl rfl
  · simp only [bind_eq_ok, checked_eq_ok] at h
    obtain ⟨deadline, -, h⟩ := h
    split_ifs at h with hpassed
    · exact .inr (.inl ⟨_, _, h⟩)
    · simp only [bind_eq_ok, requireValue_eq_ok] at h
      obtain ⟨resource, hrsc, h⟩ := h
      split_ifs at h with hrev hhdl
      · exact .inr (.inl ⟨_, _, h⟩)
      · exact .inr (.inl ⟨_, _, h⟩)
      · exact .inr (.inr ⟨not_not.mp hopen, resource, hrsc, not_not.mp hrev, not_not.mp hhdl, h⟩)

/-- An initiation finds the handover of its id, or writes it together with the operation row. -/
theorem initiateTx_ok {target deadline : String}
    (h : initiateTx ctx call target deadline resource clock tx = .ok ((intent, claimed), tx')) :
    (claimed = false ∧ tx' = tx ∧ tx.handover.get call.key = some intent ∧ intent.digest = call.digest) ∨
    (claimed = true ∧ tx.handover.get call.key = none ∧ ∃ fresh record,
      tx.resource.get call.ref = some fresh ∧ fresh.binding.handler = call.actor ∧
      record = call.record ctx ⟨call.request.operationId, .unknown, none, some probeWaitOutcome⟩
        clock.third fresh.revision ∧ intent = call.handoverIntent target deadline fresh ∧ tx' = { tx with
        operation := tx.operation.put call.key ⟨record, false⟩
        handover := tx.handover.put call.key intent }) := by
  unfold initiateTx at h
  split at h
  · next existing hrow =>
    split_ifs at h with hdig
    cases h
    exact .inl ⟨rfl, rfl, hrow, not_not.mp hdig⟩
  · next hfree =>
    simp only [bind_eq_ok, requireValue_eq_ok] at h
    obtain ⟨-, -, fresh, hfr, h⟩ := h
    split_ifs at h with hrev
    simp only [bind_eq_ok, failIf_eq_ok] at h
    obtain ⟨-, hhdl, h⟩ := h
    cases h
    exact .inr ⟨rfl, hfree, fresh, _, hfr, by simpa using hhdl, rfl, rfl, rfl⟩

theorem recordProbe_ok {sender : NodeId} {probe : HandoverProbe} {answer recorded : ProbeAnswer}
    (h : recordProbe sender probe answer tx = .ok (recorded, tx')) :
    (tx' = tx ∧ ∃ record, tx.probe.get probe.operationId = some record ∧
      repeatedProbe record sender probe = .ok recorded) ∨
    (tx.probe.get probe.operationId = none ∧ recorded = answer ∧ tx' = { tx with
      probe := tx.probe.put probe.operationId ⟨sender, probe.digest, answer⟩ }) := by
  unfold recordProbe at h
  split at h
  · next record hrow =>
    simp only [bind_eq_ok] at h
    obtain ⟨recorded, hrec, h⟩ := h
    cases h
    exact .inl ⟨rfl, record, hrow, hrec⟩
  · next hfree =>
    cases h
    exact .inr ⟨hfree, rfl, rfl⟩

theorem expireEvent_ok {value : ResourceEvent} (h : expireEvent ctx sources now state value = .ok state') :
    ∃ rows, state'.2 = { state.2 with event := rows } := by
  simp only [expireEvent, bind_eq_ok, checked_eq_ok] at h
  obtain ⟨expires, -, h⟩ := h
  split_ifs at h
  all_goals
    cases h
    exact ⟨_, rfl⟩

theorem expireFold_ok {values : List ResourceEvent}
    (h : values.foldlM (expireEvent ctx sources now) state = .ok state') :
    ∃ rows, state'.2 = { state.2 with event := rows } := by
  induction values generalizing state with
  | nil =>
    cases h
    exact ⟨_, rfl⟩
  | cons value rest ih =>
    obtain ⟨next, hnext, hrest⟩ := bind_eq_ok.mp h
    obtain ⟨rows, hrows⟩ := expireEvent_ok hnext
    obtain ⟨rows', hrows'⟩ := ih hrest
    rw [hrows', hrows]
    exact ⟨rows', rfl⟩

theorem expireEvents_ok {events : List ResourceEvent} (h : expireEvents ctx now tx = .ok (events, tx')) :
    ∃ rows, tx' = { tx with event := rows } :=
  expireFold_ok h

theorem retireSources_eq (events : List ResourceEvent) (tx : Store) :
    ∃ rows, retireSources events tx = { tx with source := rows } := by
  unfold retireSources
  induction events generalizing tx with
  | nil => exact ⟨tx.source, rfl⟩
  | cons event rest ih =>
    rw [List.foldl_cons]
    obtain ⟨rows, hrows⟩ := ih (retireSource tx event)
    rw [hrows]
    unfold retireSource
    split_ifs <;> exact ⟨_, rfl⟩

end Transactions

/-! ## One act -/

/-- The task settles an operation with an outcome; `late` when it may replace an unknown result. -/
inductive Settles : Task → ResourceRef → String → Settlement → Bool → Prop where
  | resumed {call : Call} {outcome} :
      Settles (.resumeSettle call outcome) call.ref call.request.operationId outcome false
  | reported {call : Call} {outcome late} :
      Settles (.settle call outcome late) call.ref call.request.operationId outcome late
  | recovered {ref id outcome late rest} : Settles (.recoverSettle ref id outcome late rest) ref id outcome late

inductive Aborting : Task → ResourceRef → String → Prop where
  | asked {ref id reason error next} : Aborting (.abort ref id reason error next) ref id
  -- A commit that comes too late aborts.
  | instead {ref id cursor next} : Aborting (.commit ref id cursor next) ref id

/-- `Change ctx s a s'`: the act `a` takes the rows `s` to the rows `s'`. -/
inductive Change (ctx : Context) (s : Store) : Act → Store → Prop where
  | same {a} : Change ctx s a s
  | registered {actor} {resource : Resource}
      (owner : resource.resourceRef.owner = ctx.node) (handler : resource.binding.handler ≠ "")
      (free : s.resource.get resource.resourceRef = none)
      (cursor : ∃ position, decimal resource.binding.cursor = .ok position)
      (seq : ∃ last, decimal resource.eventSeq = .ok last) :
      Change ctx s (.register actor resource) (s.bind resource.resourceRef resource)
  | received {actor ref} {input : EventInput} {clock} {resource : Resource} {event : ResourceEvent} {last}
      (row : s.resource.get ref = some resource) (seq : decimal resource.eventSeq = .ok last)
      (new : ((s.source.get (ref, input.sourceId)).filter fun eventId => eventId ≠ "") = none)
      (home : event.resourceRef = ref) (number : event.eventId = toString (last + 1))
      (source : event.sourceId = input.sourceId) (retained : event.expired = false) :
      Change ctx s (.receive actor ref input clock) { s with
        resource := s.resource.put ref { resource with eventSeq := event.eventId }
        event := s.event.put (ref, event.eventId) event
        source := s.source.put (ref, input.sourceId) event.eventId }
  | acked {actor ref id mutation clock}
      {resource : Resource} {event slot answered} (row : s.resource.get ref = some resource)
      (handler : resource.binding.handler = actor) (event : s.event.get (ref, id) = some event)
      (forward : follows id resource.binding.cursor = .ok true) :
      Change ctx s (.ack actor ref id mutation clock) { s with
        resource := s.resource.put ref { resource with binding := { resource.binding with cursor := id } }
        idempotency := s.idempotency.put slot answered }
  | answered {actor ref id mutation clock slot answered} : Change ctx s (.ack actor ref id mutation clock)
        { s with idempotency := s.idempotency.put slot answered }
  | claimed {call : Call} {resource fresh : Resource} {clock : Clock} {record}
      (free : s.operation.get call.key = none) (row : s.resource.get call.ref = some fresh)
      (may : mayOperate fresh call.actor call.request.operation = true)
      (new : record = call.record ctx ⟨call.request.operationId, .pending, none, none⟩ clock.third
        fresh.revision) : Change ctx s (.advance (.claim call resource) (.go clock))
        { s with operation := s.operation.put call.key ⟨record, true⟩ }
  | settled {task input ref id} {outcome : Settlement}
      {late} {intent : Intent} (settles : Settles task ref id outcome late)
      (row : s.operation.get (ref, id) = some intent)
      (may : replaceable intent.record.result.state late = true) :
      Change ctx s (.advance task input) { s with
        operation := s.operation.put (ref, id)
          ⟨intent.record.settled (outcome.result id), outcome.state = .unknown⟩ }
  | initiated {call : Call} {target deadline} {resource fresh : Resource} {clock : Clock}
      {record} (free : s.handover.get call.key = none)
      (row : s.resource.get call.ref = some fresh) (handler : fresh.binding.handler = call.actor)
      (new : record = call.record ctx
        ⟨call.request.operationId, .unknown, none, some probeWaitOutcome⟩ clock.third fresh.revision) :
      Change ctx s (.advance (.initiate call target deadline resource) (.go clock)) { s with
        operation := s.operation.put call.key ⟨record, false⟩
        handover := s.handover.put call.key (call.handoverIntent target deadline fresh) }
  | aborted {task input ref id} {intent : HandoverIntent}
      {row} {result : OperationResult} (aborting : Aborting task ref id)
      (handover : s.handover.get (ref, id) = some intent) (unfinished : intent.state = .open_)
      (operation : s.operation.get (intent.resourceRef, intent.operationId) = some row)
      (outcome : result.state = .aborted) : Change ctx s (.advance task input)
        (s.close intent.resourceRef intent.operationId intent .aborted row result)
  | switched {ref id cursor fresh position next now}
      {intent : HandoverIntent} {resource : Resource} {row} {result : OperationResult}
      (handover : s.handover.get (ref, id) = some intent) (unfinished : intent.state = .open_)
      (bound : s.resource.get ref = some resource) (revision : resource.revision = intent.expectedRevision)
      (initiator : resource.binding.handler = intent.initiator) (drawn : fresh ≠ resource.revision)
      (forward : position = resource.binding.cursor ∧ follows cursor resource.binding.cursor = .ok false ∨
        position = cursor ∧ follows cursor resource.binding.cursor = .ok true)
      (operation : s.operation.get (ref, id) = some row) (outcome : result.state = .committed) :
      Change ctx s (.advance (.commit ref id cursor next) (.id now fresh))
        ((s.bind ref (resource.handedTo intent.target position fresh)).close ref id intent .committed
          row result)
  | expired {clock : Clock} {events rows}
      (scan : expireEvents ctx clock.first s = .ok (events, { s with event := rows })) :
      Change ctx s (.advance .expire (.go clock)) { s with event := rows }
  | forgotten {events clock rows} (gone : retireSources events s = { s with source := rows }) :
      Change ctx s (.advance (.forget events) (.go clock)) { s with source := rows }
  | recorded {sender} {probe : HandoverProbe} {answer clock} (free : s.probe.get probe.operationId = none) :
      Change ctx s (.advance (.record sender probe answer) (.go clock))
        { s with probe := s.probe.put probe.operationId ⟨sender, probe.digest, answer⟩ }

def Outcome.AnswersOnly (outcome : Outcome) : Prop :=
  ∀ output ∈ outcome.output, ∃ call answer, output = .answered call answer

structure Outcome.Reads (s : Store) (outcome : Outcome) : Prop where
  store : outcome.store = s
  answersOnly : outcome.AnswersOnly

section Steps

variable {ctx : Context} {s : Store} {resource : Resource} {next : Next}

/-! The steps that only read leave the rows and answer. -/

variable (call : Call) (record : OperationRecord) (intent : HandoverIntent)

@[simp] theorem answer_reads (result : Except Thrown OperationResult) : (answer s call result).Reads s where
  store := rfl
  answersOnly _ hout := ⟨call, result, List.mem_singleton.mp hout⟩

@[simp] theorem proceed_reads (task : Task) : (proceed s task).Reads s where
  store := rfl
  answersOnly _ hout := by cases hout

@[simp] theorem resumed_reads : (resumed s call record).Reads s := by
  unfold resumed
  split_ifs
  · exact answer_reads _ _
  · exact answer_reads _ _
  · exact proceed_reads _

/-! The others commit their transaction. -/

/-- A settled handover or operation leads on from the rows of its transaction. -/
theorem settled_store (next : Next) (result : Except Thrown (OperationResult × Store)) :
    (settled s next result).store = committed s result := by
  unfold settled
  repeat' split
  all_goals rfl

theorem reported_store (outcome : Settlement) (late : Bool) (result : Except Thrown (OperationResult × Store)) :
    (reported s call outcome late result).store = committed s result := by
  unfold reported
  repeat' split
  all_goals rfl

theorem recovered_store (rest : List OperationRow) (result : Except Thrown (OperationResult × Store)) :
    (recovered s rest result).store = committed s result := by
  unfold recovered
  split <;> rfl

/-- What holds of unchanged rows and of every commit holds of the rows after a transaction. -/
theorem committed_cases {α : Type} {P : Store → Prop} {result : Except Thrown (α × Store)} (same : P s)
    (commits : ∀ value s', result = .ok (value, s') → P s') : P (committed s result) := by
  cases result with
  | error => exact same
  | ok value => exact commits value.1 value.2 rfl

variable {task : Task} {input : Input} {ref : ResourceRef} {id reason : String} {clock : Clock}

theorem settle_change {outcome : Settlement} {late : Bool} (settles : Settles task ref id outcome late) :
    Change ctx s (.advance task input) (committed s (settle ref id outcome late s)) := by
  refine committed_cases .same ?_
  intro result s' h
  rcases settle_ok h with rfl | ⟨intent, hrow, hreplace, rfl⟩
  · exact .same
  · exact .settled settles hrow hreplace

variable {error : Option Failure}

theorem abortWith_change {intent : HandoverIntent} {result : OperationResult}
    {s' : Store} (aborting : Aborting task ref id) (handover : s.handover.get (ref, id) = some intent)
    (h : abortWith intent reason error s = .ok (result, s')) : Change ctx s (.advance task input) s' := by
  rcases abortWith_ok h with rfl | ⟨hopen, row, result, hrow, hst, rfl⟩
  · exact .same
  · exact .aborted aborting handover hopen hrow hst

theorem commit_change {cursor fresh : String} {now : Int} :
    Change ctx s (.advance (.commit ref id cursor next) (.id now fresh))
      (committed s (commitHandover ctx ref id cursor now fresh s)) := by
  refine committed_cases .same ?_
  intro result s' h
  obtain ⟨intent, hint, rfl | ⟨reason, error, habort⟩ | ⟨hopen, resource, hrsc, hrev,
    hinit, hswitch⟩⟩ := commitHandover_ok h
  · exact .same
  · exact abortWith_change .instead hint habort
  · obtain ⟨position, row, result, hpos, hdrawn, hrow, hst, rfl⟩ := switchHandler_ok hswitch
    exact .switched hint hopen hrsc hrev hinit hdrawn hpos hrow hst

theorem initiate_change {call : Call} {target deadline : String} :
    Change ctx s (.advance (.initiate call target deadline resource) (.go clock))
      (initiateStep ctx s call target deadline resource clock).store := by
  unfold initiateStep
  split
  · exact .same
  · next h =>
    rcases initiateTx_ok h with ⟨-, rfl, -⟩ | ⟨hclm, -⟩
    · exact .same
    · cases hclm
  · next h =>
    rcases initiateTx_ok h with ⟨hclm, -⟩ | ⟨-, hfree, fresh, record, hrow, hhdl, hrec, rfl, rfl⟩
    · cases hclm
    · exact .initiated hfree hrow hhdl hrec

theorem claim_change {call : Call} : Change ctx s (.advance (.claim call resource) (.go clock))
      (claimStep ctx s call resource clock).store := by
  unfold claimStep
  split
  · exact .same
  · next h =>
    rw [(resumed_reads _ _).store]
    rcases claimOperation_ok h with ⟨-, rfl, -⟩ | ⟨hclm, -⟩
    · exact .same
    · cases hclm
  · next h =>
    rcases claimOperation_ok h with ⟨hclm, -⟩ | ⟨-, hfree, fresh, hrow, hmay, hrec, rfl⟩
    · cases hclm
    · exact .claimed hfree hrow hmay hrec

theorem expire_change : Change ctx s (.advance .expire (.go clock)) (expireStep ctx s clock.first).store := by
  unfold expireStep
  split
  · exact .same
  · next events s' h =>
    obtain ⟨rows, rfl⟩ := expireEvents_ok h
    split_ifs <;> exact .expired h

theorem record_change {sender : NodeId} {probe : HandoverProbe} {answer : ProbeAnswer} :
    Change ctx s (.advance (.record sender probe answer) (.go clock)) (recordStep s sender probe answer).store := by
  unfold recordStep
  split
  · exact .same
  · next h =>
    rcases recordProbe_ok h with ⟨rfl, -⟩ | ⟨hfree, -, rfl⟩
    · exact .same
    · exact .recorded hfree

theorem abort_change : Change ctx s (.advance (.abort ref id reason error next) input)
      (committed s (abortHandover ref id reason error s)) := by
  refine committed_cases .same ?_
  intro result s' habort
  simp only [abortHandover, bind_eq_ok, requireValue_eq_ok] at habort
  obtain ⟨intent, hint, habort⟩ := habort
  exact abortWith_change .asked hint habort

theorem forget_change {events : List ResourceEvent} :
    Change ctx s (.advance (.forget events) (.go clock)) (retireSources events s) := by
  obtain ⟨rows, hrows⟩ := retireSources_eq events s
  rw [hrows]
  exact .forgotten hrows

/-- A task that continues changes the rows in one of the ways listed. -/
theorem resume_change {next : Outcome} (h : resume ctx s task input = some next) :
    Change ctx s (.advance task input) next.store := by
  unfold resume at h
  split at h
  all_goals cases h
  all_goals first
    | exact initiate_change
    | exact claim_change
    | exact expire_change
    | exact forget_change
    | exact record_change
    | (rw [settled_store]; first | exact settle_change .resumed | exact abort_change | exact commit_change)
    | (rw [reported_store]; first | exact settle_change .reported | exact .same)
    | (rw [recovered_store]; exact settle_change .recovered)
    -- The other steps write nothing, whatever they read.
    | exact .same
    | (simp only [priorStep, resumed, admittedStep, queryStep, readEventStep, fetchEventStep, readLogStep,
         scanLogStep, resumeStep, askingStep, handshakeStep, decided, probedStep, executeStep, recoverHandover,
         readBackStep, readBackFailed, recoverIntent, recoverReport, probeStep, decideStep]
       repeat' split
       all_goals exact .same)

/-- An act changes the rows in one of the ways listed. -/
theorem step_change {n n' : Node} {a : Act} (h : step ctx n a = some n') : Change ctx n.store a n'.store := by
  obtain ⟨⟨m, output⟩, hact, rfl⟩ := Option.map_eq_some_iff.mp h
  cases a with
  | register =>
    cases hact
    refine committed_cases .same ?_
    intro result s' hreg
    rcases register_ok hreg with rfl | ⟨hown, hhdl, hfree, hcurs, hseq, rfl⟩
    · exact .same
    · exact .registered hown hhdl hfree hcurs hseq
  | receive =>
    cases hact
    refine committed_cases .same ?_
    intro event s' hrecv
    rcases receive_ok hrecv with rfl | ⟨resource, hrow, hnew, happ⟩
    · exact .same
    · obtain ⟨last, hseq, hhome, hnum, hsrc, hretained, rfl⟩ := appendEvent_ok happ
      exact .received hrow hseq hnew hhome hnum hsrc hretained
  | ack =>
    cases hact
    refine committed_cases .same ?_
    intro receipt s' hack
    rcases ack_ok hack with rfl | ⟨tx₁, slot, answered, hwork, rfl⟩
    · exact .same
    · rcases ackWork_ok hwork with rfl | ⟨resource, event, hrow, hhdl, hev, hfwd, rfl⟩
      · exact .answered
      · exact .acked hrow hhdl hev hfwd
  | operate | probe =>
    simp only [act] at hact
    split at hact <;> cases hact <;> exact .same
  | recover | probeAnswer | crash =>
    cases hact
    exact .same
  | advance =>
    simp only [act] at hact
    split_ifs at hact
    obtain ⟨next, hnext, heq⟩ := Option.map_eq_some_iff.mp hact
    cases heq
    exact resume_change hnext

end Steps

end Onlyne.Resources
