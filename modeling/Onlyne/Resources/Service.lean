import Onlyne.Resources.Types

/-!
# Resources: the transactions

The transactions of `resources.ts`, each a function of the stored rows.  A transaction that throws is rolled
back, so it returns new rows only together with its result.  A call of the service is a chain of these
transactions with awaits in between.
-/

namespace Onlyne.Resources

open Foundation
open Core (field throws)

/-! ## Failures -/

def failIf (condition : Bool) (code : ErrorCode) (message : String) : Except Thrown Unit :=
  if condition then .error (throws code message) else .ok ()

/-- The value of a helper that fails with an `OnlyneError`. -/
def checked {α : Type} : Except Failure α → Except Thrown α
  | .ok value => .ok value
  | .error failure => .error (.onlyne failure)

def requireValue {α : Type} : Option α → Except Thrown α
  | some value => .ok value
  | none => .error (throws .notFound "The requested record is unavailable.")

section

variable (ctx : Context) (call : Call) (actor : NodeId) (ref : ResourceRef) (resource : Resource)

def revisionConflict : Thrown :=
  .onlyne (onlyneError .revisionConflict "The resource binding changed."
    (some (.object [("current_revision", .string resource.revision)])))

def idConflict : Thrown := throws .idConflict "The operation ID is bound to another request."

def unknownOutcome : Failure :=
  ⟨.unavailable, "The operation outcome is unknown; the resource driver did not report one.", true, none⟩

def waitOutcome : Failure :=
  ⟨.unavailable, "The local wait for the resource driver expired; the external outcome is unknown.", true,
    none⟩

def probeWaitOutcome : Failure :=
  ⟨.unavailable, "The handover probe has not answered within the local wait; query the operation by id.",
    true, none⟩

@[simp] theorem failIf_eq_ok {condition : Bool} {code : ErrorCode} {message : String} {u : Unit} :
    failIf condition code message = .ok u ↔ condition = false := by
  cases condition <;> simp [failIf]

@[simp] theorem checked_eq_ok {α : Type} {x : Except Failure α} {a : α} : checked x = .ok a ↔ x = .ok a := by
  cases x <;> simp [checked]

@[simp] theorem requireValue_eq_ok {α : Type} {x : Option α} {a : α} : requireValue x = .ok a ↔ x = some a := by
  cases x <;> simp [requireValue]

/-! ## Rights and positions -/

/-- The queries, which the endpoint answers from its own state. -/
def isQuery (operation : String) : Bool :=
  operation = "read" || operation = "describe" || operation = "list_events"

def mayRead (actor : NodeId) : Bool :=
  resource.binding.handler = actor || resource.logReaders.contains actor

def mayOperate (actor : NodeId) (operation : String) : Bool :=
  if isQuery operation then mayRead resource actor else resource.binding.handler = actor

/-- `bySequence(a, b) > 0` -/
def follows (a b : String) : Except Failure Bool := do
  let left ← decimal a
  let right ← decimal b
  .ok (right < left)

/-- `ctx.owner` -/
def requireOwner (owner : NodeId) : Except Thrown Unit :=
  failIf (owner ≠ ctx.node) .forbidden "This node does not serve the requested owner."

def requireEndpoint : Except Thrown Unit :=
  failIf (actor ≠ ctx.node) .forbidden "Only the resource endpoint registers and receives here."

/-- The resource under a reference, which must be the one its row is for. -/
def live (tx : Store) (ref : ResourceRef) : Except Thrown Resource := do
  let resource ← requireValue (tx.resource.get ref)
  failIf (resource.resourceRef ≠ ref) .internal "The stored resource does not match its key."
  .ok resource

def nextRevision (id : String) : Except Thrown String := do
  failIf (resource.revision = "") .internal "The resource revision is missing."
  failIf (id = resource.revision) .internal "The id source reused the current resource revision."
  .ok id

/-! ## Registration and events -/

/-- The transaction of `register`, after its checks. -/
def registerTx (tx : Store) : Except Thrown (Resource × Store) :=
  match tx.resource.get resource.resourceRef with
  | some stored =>
    if canonical stored.json ≠ canonical resource.json then
      .error (throws .idConflict "The resource is already registered with another definition.")
    else .ok (stored, tx)
  | none => .ok (resource, { tx with resource := tx.resource.put resource.resourceRef resource })

/-- The endpoint declares a resource it serves; repeating a registration returns the stored one. -/
def register (tx : Store) : Except Thrown (Resource × Store) := do
  requireEndpoint ctx actor
  failIf (resource.resourceRef.owner ≠ ctx.node) .forbidden
    "This node does not serve the requested owner."
  failIf (resource.binding.handler = "") .invalidRequest "A resource registration carries its handler."
  let _ ← checked (decimal resource.binding.cursor)
  let _ ← checked (decimal resource.eventSeq)
  failIf (resource.retentionMs < 0) .invalidRequest "retention_ms must be a non-negative integer."
  registerTx resource tx

/-- What `receive` is given. -/
structure EventInput where
  sourceId : String
  data : Data
  expiresAt : Option String := none
  deriving DecidableEq, Repr

/-- The transaction of `receive` when the platform event is new. -/
def appendEvent (input : EventInput) (clock : Clock)
    (resource : Resource) (tx : Store) : Except Thrown (ResourceEvent × Store) := do
  let seq ← checked (decimal resource.eventSeq)
  let eventId := toString (seq + 1)
  let event : ResourceEvent :=
    { resourceRef := ref, eventId := eventId, sourceId := input.sourceId, data := input.data
      received := ctx.isoString clock.first
      expiresAt := input.expiresAt.getD (ctx.isoString (clock.second + resource.retentionMs))
      expired := false }
  let _ ← checked (utc ctx.dateParse event.expiresAt)
  .ok (event, { tx with
    resource := tx.resource.put ref { resource with eventSeq := eventId }
    event := tx.event.put (ref, eventId) event
    source := tx.source.put (ref, input.sourceId) eventId })

/-- A platform event is appended once; a repeated one returns the stored event. -/
def receive (input : EventInput) (clock : Clock) (tx : Store) : Except Thrown (ResourceEvent × Store) := do
  requireOwner ctx ref.owner
  requireEndpoint ctx actor
  failIf (input.sourceId = "") .invalidRequest "An inbound event needs its platform identifier."
  let resource ← requireValue (tx.resource.get ref)
  match (tx.source.get (ref, input.sourceId)).filter fun eventId => eventId ≠ "" with
  | some eventId => do
    let event ← requireValue (tx.event.get (ref, eventId))
    .ok (event, tx)
  | none => appendEvent ctx ref input clock resource tx

/-! ## Acknowledgement -/

/-- The work of `ack`: the cursor of the handler moves forward, or stays. -/
def ackWork (id : String) (tx : Store) : Except Thrown (AckReceipt × Store) := do
  let resource ← requireValue (tx.resource.get ref)
  failIf (resource.binding.handler ≠ actor) .forbidden "Only the current handler acknowledges events."
  let _ ← requireValue (tx.event.get (ref, id))
  let forward ← checked (follows id resource.binding.cursor)
  if forward then
    let moved := { resource with binding := { resource.binding with cursor := id } }
    .ok (⟨ref, id⟩, { tx with resource := tx.resource.put ref moved })
  else .ok (⟨ref, resource.binding.cursor⟩, tx)

/-- Run `work` once for each idempotency key of a caller. -/
def mutate (operation : String) (mutation : Mutation) (body : Json)
    (clock : Clock) (work : Store → Except Thrown (AckReceipt × Store)) (tx : Store) :
    Except Thrown (AckReceipt × Store) := do
  failIf (actor = "") .unauthenticated "Authentication is required."
  failIf (mutation.idempotencyKey = "") .invalidRequest "An idempotency key is required."
  let slot := (actor, operation, mutation.idempotencyKey)
  let digest := Core.fingerprint ctx.toContext
    (.object [("body", body), ("retry_until", .string mutation.retryUntil)])
  match tx.idempotency.get slot with
  | some previous =>
    if previous.1 ≠ digest then
      .error (throws .idConflict "The idempotency key is bound to another request.")
    else .ok (previous.2, tx)
  | none => do
    Core.deadline ctx.toContext clock.first clock.second mutation.retryUntil
    let (result, tx') ← work tx
    .ok (result, { tx' with idempotency := tx'.idempotency.put slot (digest, result) })

def ack (id : String) (mutation : Mutation) (clock : Clock) (tx : Store) : Except Thrown (AckReceipt × Store) := do
  requireOwner ctx ref.owner
  mutate ctx actor ("resource_ack:" ++ ref.owner ++ "/" ++ ref.id) mutation
    (.object [("id", .string id)]) clock (ackWork actor ref id) tx

def ackSlots : Slots Store (NodeId × String × String) String AckReceipt where
  get s name := s.idempotency.get name
  fill s name row := { s with idempotency := s.idempotency.put name row }
  get_fill s name row := by simp
  get_fill_ne s name name' row hne := by simp [Table.get_put_ne _ _ hne]

theorem mutate_eq_once (operation : String) (mutation : Mutation)
    (body : Json) (clock : Clock) (work : Store → Except Thrown (AckReceipt × Store)) (tx : Store) :
    mutate ctx actor operation mutation body clock work tx = (do
      failIf (actor = "") .unauthenticated "Authentication is required."
      failIf (mutation.idempotencyKey = "") .invalidRequest "An idempotency key is required."
      once ackSlots (throws .idConflict "The idempotency key is bound to another request.")
        (actor, operation, mutation.idempotencyKey) (Core.fingerprint ctx.toContext
          (.object [("body", body), ("retry_until", .string mutation.retryUntil)]))
        (Core.deadline ctx.toContext clock.first clock.second mutation.retryUntil) work tx) := by
  unfold mutate once
  refine bind_congr fun _ => bind_congr fun _ => ?_
  dsimp only [ackSlots]
  cases tx.idempotency.get (actor, operation, mutation.idempotencyKey) with
  | none =>
    cases Core.deadline ctx.toContext clock.first clock.second mutation.retryUntil with
    | error => rfl
    | ok =>
      cases work tx with
      | error => rfl
      | ok => rfl
  | some previous =>
    dsimp only
    split_ifs <;> first | rfl | contradiction

/-! ## Operations -/

/-- A call of `operate`. -/
structure Call where
  actor : NodeId
  ref : ResourceRef
  request : OperationRequest
  deriving DecidableEq, Repr

def Call.key : ResourceRef × String := (call.ref, call.request.operationId)

def Call.content : Json := requestContent call.actor call.ref call.request

def Call.digest : String := digestOf call.actor call.ref call.request

def Call.record (result : OperationResult) (now : Int) (revision : String) : OperationRecord :=
  { actor := call.actor, request := call.request, digest := call.digest, result := result
    resourceRef := call.ref, acceptedAt := ctx.isoString now, authorizedRevision := revision }

/-- Admission and the claim share one transaction: the caller finds the intent of its operation id, or
writes it and owns the single external effect. -/
def claimOperation (clock : Clock) (tx : Store) : Except Thrown ((OperationRecord × Bool) × Store) := do
  failIf (call.actor = "") .unauthenticated "Authentication is required."
  match tx.operation.get call.key with
  | some existing =>
    if existing.record.digest ≠ call.digest then .error idConflict
    else .ok ((existing.record, false), tx)
  | none => do
    Core.deadline ctx.toContext clock.first clock.second call.request.retryUntil
    let fresh ← requireValue (tx.resource.get call.ref)
    failIf (!mayOperate fresh call.actor call.request.operation) .forbidden
      "The authenticated caller may not perform this operation."
    if call.request.expectedRevision.any fun expected => expected ≠ fresh.revision then
      .error (revisionConflict fresh)
    else
      let record := call.record ctx ⟨call.request.operationId, .pending, none, none⟩ clock.third
        fresh.revision
      .ok ((record, true), { tx with operation := tx.operation.put call.key ⟨record, true⟩ })

/-- Whether an outcome may replace the recorded result: a result that is certain is never
overwritten. -/
def replaceable (state : OperationState) (replaceUnknown : Bool) : Bool :=
  state = .pending || replaceUnknown && state = .unknown

def OperationRecord.settled (record : OperationRecord) (result : OperationResult) : OperationRecord :=
  { record with result := result }

/-- Settle an operation; an unknown outcome stays owed to recovery. -/
def settle (id : String) (outcome : Settlement) (replaceUnknown : Bool)
    (tx : Store) : Except Thrown (OperationResult × Store) :=
  match tx.operation.get (ref, id) with
  | none => .error (throws .notFound "The requested record is unavailable.")
  | some intent =>
    if replaceable intent.record.result.state replaceUnknown then
      let result := outcome.result id
      let row : Intent := ⟨intent.record.settled result, result.state = .unknown⟩
      .ok (result, { tx with operation := tx.operation.put (ref, id) row })
    else .ok (intent.record.result, tx)

def resultOf (tx : Store) (ref : ResourceRef) (id : String) : Except Thrown OperationResult := do
  let intent ← requireValue (tx.operation.get (ref, id))
  .ok intent.record.result

/-! ## Handovers -/

def Store.bind (tx : Store) (ref : ResourceRef) (resource : Resource) : Store :=
  { tx with resource := tx.resource.put ref resource }

def Store.close (tx : Store) (ref : ResourceRef) (id : String) (intent : HandoverIntent)
    (state : HandoverState) (row : Intent) (result : OperationResult) : Store :=
  { tx with
    handover := tx.handover.put (ref, id) { intent with state := state }
    operation := tx.operation.put (ref, id) ⟨row.record.settled result, false⟩ }

/-- Write the end of a handover together with the result of its operation. -/
def closeHandover (id : String) (intent : HandoverIntent) (state : HandoverState)
    (result : OperationResult) (tx : Store) : Except Thrown (OperationResult × Store) := do
  let row ← requireValue (tx.operation.get (ref, id))
  .ok (result, tx.close ref id intent state row result)

def abortWith (intent : HandoverIntent) (reason : String) (error : Option Failure) (tx : Store) :
    Except Thrown (OperationResult × Store) :=
  if intent.state ≠ .open_ then do
    let result ← resultOf tx intent.resourceRef intent.operationId
    .ok (result, tx)
  else
    closeHandover intent.resourceRef intent.operationId intent .aborted
      ⟨intent.operationId, .aborted, some (.object [("reason", .string reason)]), error⟩ tx

def abortHandover (id reason : String) (error : Option Failure)
    (tx : Store) : Except Thrown (OperationResult × Store) := do
  let intent ← requireValue (tx.handover.get (ref, id))
  abortWith intent reason error tx

def Resource.handedTo (handler : NodeId) (cursor revision : String) : Resource :=
  { resource with binding := ⟨handler, cursor⟩, revision := revision }

/-- The switch itself: the target becomes the handler under a new revision, and the cursor is not pushed
back. -/
def switchHandler (id cursor : String) (intent : HandoverIntent)
    (resource : Resource) (fresh : String) (tx : Store) : Except Thrown (OperationResult × Store) := do
  let forward ← checked (follows cursor resource.binding.cursor)
  let position := if forward then cursor else resource.binding.cursor
  let revision ← nextRevision resource fresh
  closeHandover ref id intent .committed
    ⟨id, .committed, some (.object [("handler", .string intent.target), ("cursor", .string position),
      ("revision", .string revision)]), none⟩
    (tx.bind ref (resource.handedTo intent.target position revision))

/-- The single point where a handover takes effect: deadline, revision and initiator are checked again in
this transaction. -/
def commitHandover (id cursor : String) (now : Int)
    (fresh : String) (tx : Store) : Except Thrown (OperationResult × Store) := do
  let intent ← requireValue (tx.handover.get (ref, id))
  if intent.state ≠ .open_ then
    let result ← resultOf tx ref id
    .ok (result, tx)
  else
    let deadline ← checked (utc ctx.dateParse intent.deadline)
    if deadline ≤ now then abortWith intent "deadline_passed" none tx
    else
      let resource ← requireValue (tx.resource.get ref)
      if resource.revision ≠ intent.expectedRevision then
        abortWith intent "revision_changed" (some ⟨.revisionConflict,
          "The resource binding changed before the handover could commit.", false,
          some (.object [("current_revision", .string resource.revision)])⟩) tx
      else if resource.binding.handler ≠ intent.initiator then
        abortWith intent "initiator_released" (some ⟨.forbidden,
          "The initiator no longer holds this resource.", false, none⟩) tx
      else switchHandler ref id cursor intent resource fresh tx

def Call.handoverIntent (target deadline : String) (fresh : Resource) : HandoverIntent :=
  { operationId := call.request.operationId, resourceRef := call.ref, initiator := call.actor
    target := target, kind := fresh.kind, operations := fresh.operations
    metadata := dataField call.request.data "metadata", expectedRevision := fresh.revision
    deadline := deadline, cursor := fresh.binding.cursor, digest := call.digest, state := .open_ }

/-- The transaction of `initiate`: the intent is durable before the probe leaves. -/
def initiateTx (target deadline : String) (resource : Resource)
    (clock : Clock) (tx : Store) : Except Thrown ((HandoverIntent × Bool) × Store) :=
  match tx.handover.get call.key with
  | some existing =>
    if existing.digest ≠ call.digest then .error idConflict else .ok ((existing, false), tx)
  | none => do
    Core.deadline ctx.toContext clock.first clock.second call.request.retryUntil
    let fresh ← requireValue (tx.resource.get call.ref)
    if fresh.revision ≠ resource.revision ||
        call.request.expectedRevision.any (fun expected => expected ≠ fresh.revision) then
      .error (revisionConflict fresh)
    else do
      failIf (fresh.binding.handler ≠ call.actor) .forbidden
        "Only the current handler starts a handover."
      let record := call.record ctx
        ⟨call.request.operationId, .unknown, none, some probeWaitOutcome⟩ clock.third fresh.revision
      let intent := call.handoverIntent target deadline fresh
      .ok ((intent, true), { tx with
        operation := tx.operation.put call.key ⟨record, false⟩
        handover := tx.handover.put call.key intent })

def HandoverIntent.probe (intent : HandoverIntent) : HandoverProbe :=
  { operationId := intent.operationId, resource := intent.resourceRef, kind := intent.kind
    operations := intent.operations, metadata := intent.metadata, initiator := intent.initiator
    cursor := intent.cursor, deadline := intent.deadline }

def probeFailure : Option Thrown → String × Option Failure
  | some (.onlyne failure) =>
    if (failure.details.bind (field · "required_action")).isNone then
      ("unreachable", some failure)
    else ("untrusted_target", some failure)
  | _ => ("unreachable", none)

/-- `typeof value === 'object' && value !== null` -/
def isRecord : Json → Bool
  | .array _ | .object _ => true
  | _ => false

/-- A target's answer names a position or a reason; anything else is a broken peer. -/
def probeAnswerOf (value : Json) : Except Thrown ProbeAnswer := do
  failIf (!isRecord value) .unavailable "The target answered a probe without a body."
  match field value "answer", field value "cursor", field value "reason" with
  | some (.string "accept"), some (.string cursor), _ => do
    let _ ← checked (decimal cursor)
    .ok (.accept cursor)
  | some (.string "accept"), _, _ =>
    .error (throws .unavailable "The target accepted a probe without a cursor.")
  | some (.string "reject"), _, some (.string reason) => do
    failIf (reason = "") .unavailable "The target rejected a probe without a reason."
    .ok (.reject reason)
  | some (.string "reject"), _, _ =>
    .error (throws .unavailable "The target rejected a probe without a reason.")
  | _, _, _ =>
    .error (throws .unavailable
      "The target answered a probe with an answer the protocol does not define.")

/-! ## The target of a handover -/

/-- The checks of `probe` before it looks at its record; the deadline of the probe. -/
def probeChecks (sender : NodeId) (probe : HandoverProbe) : Except Thrown Int := do
  failIf (sender = "") .unauthenticated "Authentication is required."
  failIf (probe.operationId = "") .invalidRequest "A probe carries its operation id."
  let _ ← checked (decimal probe.cursor)
  checked (utc ctx.dateParse probe.deadline)

def repeatedProbe (record : ProbeRecord) (sender : NodeId) (probe : HandoverProbe) : Except Thrown ProbeAnswer :=
  if record.sender ≠ sender || record.digest ≠ probe.digest then
    .error (throws .idConflict "The operation ID is bound to another probe.")
  else .ok record.answer

/-- The target's own policy decides; `policy` is what its hook answers, when there is one. -/
def decideProbe (probe : HandoverProbe) (deadline now : Int)
    (policy : Option (Except Thrown ProbeAnswer)) : Except Thrown ProbeAnswer :=
  if deadline ≤ now then .ok (.reject "deadline_passed")
  else
    match policy with
    | none => .ok (.accept probe.cursor)
    | some (.error thrown) => .error thrown
    | some (.ok (.accept cursor)) => do
      let _ ← checked (decimal cursor)
      .ok (.accept cursor)
    | some (.ok (.reject reason)) => do
      failIf (reason = "") .internal
        "The handover policy returned an answer the protocol does not define."
      .ok (.reject reason)

/-- The transaction of `probe`: the first answer under an operation id is the one that stays. -/
def recordProbe (sender : NodeId) (probe : HandoverProbe) (answer : ProbeAnswer) (tx : Store) :
    Except Thrown (ProbeAnswer × Store) :=
  match tx.probe.get probe.operationId with
  | some raced => do
    let answer ← repeatedProbe raced sender probe
    .ok (answer, tx)
  | none =>
    .ok (answer, { tx with probe := tx.probe.put probe.operationId ⟨sender, probe.digest, answer⟩ })

def probeAnswer (sender : NodeId) (operationId : String) (tx : Store) : Except Thrown ProbeAnswer := do
  let record ← requireValue (tx.probe.get operationId)
  failIf (record.sender ≠ sender) .notFound "The requested probe is unavailable."
  .ok record.answer

/-! ## Retention -/

/-- One event of the expiry scan: an event past its time is marked, and announced while its source row
still names it. -/
def expireEvent (sources : Table (ResourceRef × String) String) (now : Int)
    (state : List ResourceEvent × Store) (value : ResourceEvent) : Except Thrown (List ResourceEvent × Store) := do
  let expires ← checked (utc ctx.dateParse value.expiresAt)
  if expires > now then .ok state
  else
    let expired := { value with expired := true }
    let marked :=
      if value.expired then state.2
      else { state.2 with event := state.2.event.put (value.resourceRef, value.eventId) expired }
    let pending :=
      if sources.get (value.resourceRef, value.sourceId) = some value.eventId then state.1 ++ [value]
      else state.1
    .ok (pending, marked)

/-- The first transaction of `expireEvents`; the events to retire. -/
def expireEvents (now : Int) (tx : Store) : Except Thrown (List ResourceEvent × Store) :=
  (tx.event.rows.map Prod.snd).foldlM (expireEvent ctx tx.source now) ([], tx)

/-- The source row of a retired event goes, when it still names the event. -/
def retireSource (tx : Store) (event : ResourceEvent) : Store :=
  if tx.source.get (event.resourceRef, event.sourceId) = some event.eventId then
    { tx with source := tx.source.delete (event.resourceRef, event.sourceId) }
  else tx

/-- The second transaction of `expireEvents`. -/
def retireSources (events : List ResourceEvent) (tx : Store) : Store := events.foldl retireSource tx

/-! ## Reading the log -/

structure LogQuery where
  cursor : Option String := none
  pageSize : Option Int := none
  since : Option String := none
  deriving DecidableEq, Repr

def logQuery (data : Option Data) : LogQuery where
  cursor := stringField data "cursor"
  pageSize :=
    match (dataField data "page_size").map Subtype.val with
    | some (.number text) => some (text.toInt?.getD 0)
    | _ => none
  since := stringField data "since"

def logScope (since : Option String) : Json :=
  .object ([("kind", .string "log"), ("owner", .string ref.owner), ("id", .string ref.id),
    ("actor", .string actor)] ++ optional "since" (since.map .string))

def cursorText (scope : Json) (after : String) : String :=
  encodeURIComponent (canonical (.object [("scope", scope), ("after", .string after)]))

/-- The events of a resource after a position, in the order of their ids. -/
def logEvents (tx : Store) (ref : ResourceRef) (since : Option String) : Except Thrown (List ResourceEvent) := do
  let events := (tx.event.rows.filter fun row => row.1.1 = ref).map Prod.snd
  let kept ← checked (filterChecked
    (fun event => since.elim (.ok true) fun since => follows event.eventId since) events)
  .ok (sortedByNumber (fun event => ((decimal event.eventId).toOption).getD 0) kept)

def logPage (query : LogQuery) (tx : Store) : Except Thrown Json := do
  let events ← logEvents tx ref query.since
  let scope := logScope actor ref query.since
  -- An empty cursor text is no cursor.
  let cursor := (query.cursor.filter fun text => text ≠ "").map ctx.readCursor
  let shown ← checked (page events ⟨cursor, query.pageSize⟩ (canonical scope) ResourceEvent.eventId
    follows)
  let next := match shown.nextCursor with
    | some (.decoded _ after) => Json.string (cursorText scope after)
    | _ => .null
  .ok (.object [("items", .array (shown.items.map ResourceEvent.json)), ("next_cursor", next)])

end

end Onlyne.Resources
