import Onlyne.Resources.Service

/-!
# Resources: one node and its calls in flight

The calls of `ResourceService` read, wait for the driver or for a peer, and commit in several transactions,
and other calls run in between.  A node is its rows together with its calls in flight, tasks that interleave at
transaction boundaries as those of `Onlyne.Trust.Node`.

What comes from outside is an `Input`: the readings of the clock, a fresh id, the outcome of the driver or of
a hook, the answer of a peer, which may also stay silent or come late.
-/

namespace Onlyne.Resources

open Foundation

/-! ## Calls in flight -/

abbrev HandoverRow := (ResourceRef × String) × HandoverIntent

abbrev OperationRow := (ResourceRef × String) × Intent

/-- Where a settled handover leads: to the answer of its caller, or on in a recovery pass. -/
inductive Next where
  | caller (call : Call)
  | pass (rest : List HandoverRow)
  deriving DecidableEq, Repr

inductive Task where
  -- `operate` before it reads the row of its operation id.
  | prior (call : Call)
  -- `operate` before it reads the resource.
  | admitted (call : Call)
  -- `query`, and the two reads of `readEvent` and `readLog`.
  | query (call : Call) (resource : Resource)
  | readEvent (call : Call) (eventId : String)
  | fetchEvent (call : Call) (eventId : String)
  | readLog (call : Call) (query : LogQuery)
  | scanLog (call : Call) (query : LogQuery)
  -- `resume` before it reads the resource.
  | resume (call : Call) (record : OperationRecord)
  -- `resume` waiting for the driver's `query`.
  | asking (call : Call) (record : OperationRecord)
  -- `resume` before it settles what the driver reported.
  | resumeSettle (call : Call) (outcome : Settlement)
  -- `resume` before it reads the record again.
  | resumeRead (call : Call) (record : OperationRecord)
  -- `initiate` before its transaction.
  | initiate (call : Call) (target deadline : String) (resource : Resource)
  -- `initiate` before it reads the recorded result.
  | report (call : Call)
  -- `initiate` before it looks at the deadline and sends the probe.
  | handshake (call : Call) (intent : HandoverIntent)
  -- `initiate` waiting for the answer of the target.
  | probing (call : Call) (intent : HandoverIntent)
  -- Before `abortHandover`.
  | abort (ref : ResourceRef) (id reason : String) (error : Option Failure) (next : Next)
  -- Before `commitHandover`.
  | commit (ref : ResourceRef) (id cursor : String) (next : Next)
  -- `operate` waiting for the driver's `validate`.
  | validate (call : Call) (resource : Resource)
  -- Before `claimOperation`.
  | claim (call : Call) (resource : Resource)
  -- `execute` before it calls the driver.
  | execute (call : Call) (resource : Resource)
  -- `execute` waiting for the driver.
  | executing (call : Call)
  -- The driver's call that its caller stopped waiting for.
  | late (call : Call)
  -- Before the settlement of an operation; `late` when its caller has its answer already.
  | settle (call : Call) (outcome : Settlement) (late : Bool)
  -- `recover` before `expireEvents`, inside the hook that retires events, and before their rows go.
  | expire
  | retire (events : List ResourceEvent)
  | forget (events : List ResourceEvent)
  -- `recover` before it lists the handovers.
  | handovers
  -- `recover` with the handovers it still has to look at.
  | recoverHandovers (rows : List HandoverRow)
  -- `recover` waiting for the answer the target recorded.
  | readBack (row : HandoverRow) (rest : List HandoverRow)
  -- `recover` before it lists the operations.
  | intents
  -- `recover` with the operations it still has to look at.
  | recoverIntents (rows : List OperationRow)
  -- `recover` waiting for the driver's `query`.
  | recoverQuery (ref : ResourceRef) (id : String) (late : Bool) (rest : List OperationRow)
  -- `recover` before it settles an operation.
  | recoverSettle (ref : ResourceRef) (id : String) (outcome : Settlement) (late : Bool)
      (rest : List OperationRow)
  -- `probe` before it reads its record.
  | probe (sender : NodeId) (probe : HandoverProbe) (deadline : Int)
  -- `probe` waiting for the policy.
  | decide (sender : NodeId) (probe : HandoverProbe) (deadline : Int)
  -- `probe` before it records its answer.
  | record (sender : NodeId) (probe : HandoverProbe) (answer : ProbeAnswer)
  deriving DecidableEq, Repr

inductive Input where
  -- The readings of the clock.
  | go (clock : Clock)
  -- The readings of the clock and a fresh id.
  | id (now : Int) (id : String)
  -- A hook returned, or threw.
  | hook (thrown : Option Thrown)
  -- The driver reported an outcome, or none.
  | driver (outcome : Option Settlement)
  -- The local wait expired.
  | timeout
  -- The body of a peer's answer.
  | replied (value : Json)
  -- The request failed, or the store did.
  | failed (thrown : Thrown)
  -- The clock and the answer of the policy hook, when there is one.
  | decided (now : Int) (policy : Option (Except Thrown ProbeAnswer))
  -- The call ends here without any effect.
  | lost

inductive Output where
  | answered (call : Call) (answer : Except Thrown OperationResult)
  -- `drivers.execute` is called.
  | executed (resource : Resource) (request : OperationRequest)
  -- A probe is posted to the target.
  | posted (target : NodeId) (probe : HandoverProbe)
  -- The target is asked for the answer it recorded.
  | asked (target : NodeId) (operationId : String)
  -- The driver is told which events left retention.
  | retired (events : List ResourceEvent)
  -- The answer to a probe of `sender`.
  | probed (sender : NodeId) (probe : HandoverProbe) (answer : Except Thrown ProbeAnswer)
  -- The recorded answer `sender` asked for.
  | recorded (sender : NodeId) (operationId : String) (answer : Except Thrown ProbeAnswer)
  deriving DecidableEq

/-- The rows after a step of a task, the tasks that follow it, and what it does outside. -/
structure Outcome where
  store : Store
  tasks : List Task := []
  output : List Output := []

def answer (s : Store) (call : Call) (answer : Except Thrown OperationResult) : Outcome :=
  ⟨s, [], [.answered call answer]⟩

section

variable (ctx : Context) (s : Store) (sender : NodeId) (call : Call) (record : OperationRecord)

def proceed (task : Task) : Outcome := ⟨s, [task], []⟩

def stop : Outcome := ⟨s, [], []⟩

/-! ## Operations -/

def Call.handover (call : Call) : Bool := call.request.operation = "handover"

/-- `resume` up to its first await: a retried operation never executes twice. -/
def resumed : Outcome :=
  if record.digest ≠ call.digest then answer s call (.error idConflict)
  else if record.result.state ≠ .pending then answer s call (.ok record.result)
  else proceed s (.resume call record)

def requireText (value : Option String) (message : String) : Except Thrown String :=
  match value with
  | some text => .ok text
  | none => .error (Core.throws .invalidRequest message)

/-- The checks of `initiate` before its transaction. -/
def initiateChecks (resource : Resource) : Except Thrown Task := do
  let target ← requireText ((stringField call.request.data "target").filter fun text => text ≠ "")
    "A handover names its target."
  let deadline ← requireText (stringField call.request.data "handover_deadline")
    "A handover carries a handover_deadline."
  let _ ← checked (utc ctx.dateParse deadline)
  .ok (.initiate call target deadline resource)

/-- The checks of `operate` on the resource, and the path its operation takes. -/
def dispatch (s : Store) : Except Thrown Task := do
  let resource ← live s call.ref
  failIf (!mayRead resource call.actor) .notFound "The requested resource is unavailable."
  failIf (!resource.operations.contains call.request.operation) .unsupportedDelivery
    "The resource does not declare this operation."
  failIf (call.handover && resource.binding.handler ≠ call.actor) .forbidden
    "Only the current handler starts a handover."
  if call.request.expectedRevision.any fun expected => expected ≠ resource.revision then
    .error (revisionConflict resource)
  else do
    failIf (!call.handover && !mayOperate resource call.actor call.request.operation) .forbidden
      "The authenticated caller may not perform this operation."
    if call.handover then initiateChecks ctx call resource
    else if isQuery call.request.operation then .ok (.query call resource)
    else do
      failIf (!ctx.driver) .unsupportedDelivery
        "This node declares no resource driver, so it cannot validate or execute the operation."
      .ok (.validate call resource)

/-- `operate` with the row of its operation id. -/
def priorStep : Outcome :=
  match s.operation.get call.key with
  | some prior => resumed s call prior.record
  | none => proceed s (.admitted call)

def admittedStep : Outcome :=
  match dispatch ctx call s with
  | .error thrown => answer s call (.error thrown)
  | .ok task => proceed s task

def resumeStep : Outcome :=
  match live s call.ref with
  | .error thrown => answer s call (.error thrown)
  | .ok _ => proceed s (.asking call record)

/-- `resume` with the report of the driver; silence keeps the recorded state. -/
def askingStep : Option Settlement → Outcome
  | some outcome =>
    if outcome.state ≠ .pending then proceed s (.resumeSettle call outcome)
    else proceed s (.resumeRead call record)
  | none => proceed s (.resumeRead call record)

def queried (data : Json) : Except Thrown OperationResult :=
  .ok ⟨call.request.operationId, .committed, some data, none⟩

/-- `query` up to its first await. -/
def queryStep (resource : Resource) : Outcome :=
  if call.request.operation = "describe" then answer s call (queried call resource.json)
  else if call.request.operation = "read" then
    match (stringField call.request.data "event_id").filter fun text => text ≠ "" with
    | none =>
      answer s call (.error (Core.throws .invalidRequest "read names the event_id to return."))
    | some eventId => proceed s (.readEvent call eventId)
  else proceed s (.readLog call (logQuery call.request.data))

/-- The reader of a resource, checked again by `readEvent` and `readLog`. -/
def requireReader : Except Thrown Unit := do
  let resource ← live s call.ref
  failIf (!mayRead resource call.actor) .notFound "The requested resource is unavailable."

def readEventStep (eventId : String) : Outcome :=
  match requireReader s call with
  | .error thrown => answer s call (.error thrown)
  | .ok () => proceed s (.fetchEvent call eventId)

def fetchEventStep (eventId : String) : Outcome :=
  match requireValue (s.event.get (call.ref, eventId)) with
  | .error thrown => answer s call (.error thrown)
  | .ok event => answer s call (queried call event.json)

def readLogStep (query : LogQuery) : Outcome :=
  match (do
    requireReader s call
    let _ ← checked ((query.since.map decimal).getD (.ok 0))
    .ok () : Except Thrown Unit) with
  | .error thrown => answer s call (.error thrown)
  | .ok () => proceed s (.scanLog call query)

def scanLogStep (query : LogQuery) : Outcome :=
  match logPage ctx call.actor call.ref query s with
  | .error thrown => answer s call (.error thrown)
  | .ok shown => answer s call (queried call shown)

def unwritten (outcome : Settlement) : OperationResult :=
  { operationId := call.request.operationId
    state := if outcome.state = .committed then .committed else .unknown
    data := outcome.data }

/-- `report`: the caller gets the settled result, unless it has its answer already. -/
def reported (outcome : Settlement) (late : Bool) : Except Thrown (OperationResult × Store) → Outcome
  | .ok (result, s') => if late then stop s' else answer s' call (.ok result)
  | .error _ => if late then stop s else answer s call (.ok (unwritten call outcome))

def driverOutcome : Option Settlement → Settlement
  | some outcome => outcome
  | none => ⟨.unknown, none, some unknownOutcome⟩

/-- `execute` up to its first await: the only place where the effect happens. -/
def executeStep (resource : Resource) : Outcome :=
  if ctx.driver then ⟨s, [.executing call], [.executed resource call.request]⟩
  else proceed s (.settle call (driverOutcome none) false)

def claimStep (resource : Resource) (clock : Clock) : Outcome :=
  match claimOperation ctx call clock s with
  | .error thrown => answer s call (.error thrown)
  | .ok ((record, false), s') => resumed s' call record
  | .ok ((_, true), s') => proceed s' (.execute call resource)

/-! ## Handovers -/

def settled (next : Next) : Except Thrown (OperationResult × Store) → Outcome
  | .ok (result, s') =>
    match next with
    | .caller call => answer s' call (.ok result)
    | .pass rest => proceed s' (.recoverHandovers rest)
  | .error thrown =>
    match next with
    | .caller call => answer s call (.error thrown)
    -- What a recovery pass throws ends it.
    | .pass _ => stop s

def initiateStep (target deadline : String) (resource : Resource) (clock : Clock) : Outcome :=
  match initiateTx ctx call target deadline resource clock s with
  | .error thrown => answer s call (.error thrown)
  | .ok ((_, false), s') => proceed s' (.report call)
  | .ok ((intent, true), s') => proceed s' (.handshake call intent)

/-- `requireValue(await intentOf(…)).record.result` -/
def reportStep : Outcome :=
  answer s call (resultOf s call.ref call.request.operationId)

def handshakeStep (intent : HandoverIntent) (now : Int) : Outcome :=
  match checked (utc ctx.dateParse intent.deadline) with
  | .error thrown => answer s call (.error thrown)
  | .ok deadline =>
    if deadline ≤ now then
      proceed s (.abort call.ref intent.operationId "deadline_passed" none (.caller call))
    else ⟨s, [.probing call intent], [.posted intent.target intent.probe]⟩

def decided (ref : ResourceRef) (id : String) (next : Next) : ProbeAnswer → Outcome
  | .accept cursor => proceed s (.commit ref id cursor next)
  | .reject reason => proceed s (.abort ref id reason none next)

/-- The probe did not reach its target, or got no answer that counts. -/
def unreached (intent : HandoverIntent) (thrown : Option Thrown) : Outcome :=
  let failure := probeFailure thrown
  proceed s (.abort call.ref intent.operationId failure.1 failure.2 (.caller call))

/-- `probeTarget` with the answer of the target. -/
def probedStep (intent : HandoverIntent) (value : Json) : Outcome :=
  match probeAnswerOf value with
  | .error _ => unreached s call intent none
  | .ok answer => decided s call.ref intent.operationId (.caller call) answer

/-! ## Recovery -/

def recoverHandover (now : Int) : List HandoverRow → Outcome
  | [] => proceed s .intents
  | row :: rest =>
    if row.2.state ≠ .open_ then proceed s (.recoverHandovers rest)
    else
      match utc ctx.dateParse row.2.deadline with
      | .error _ => stop s
      | .ok deadline =>
        if deadline ≤ now then
          proceed s (.abort row.1.1 row.2.operationId "deadline_passed" none (.pass rest))
        else ⟨s, [.readBack row rest], [.asked row.2.target row.2.operationId]⟩

/-- `recordedAnswer` with the body of the answer. -/
def readBackStep (row : HandoverRow) (rest : List HandoverRow) (value : Json) : Outcome :=
  match probeAnswerOf value with
  | .error _ => proceed s (.recoverHandovers rest)
  | .ok answer => decided s row.1.1 row.2.operationId (.pass rest) answer

/-- `recordedAnswer` without one: only a missing record ends the handover. -/
def readBackFailed (row : HandoverRow) (rest : List HandoverRow) : Thrown → Outcome
  | .onlyne failure =>
    if failure.code = .notFound then
      proceed s (.abort row.1.1 row.2.operationId "no_answer" none (.pass rest))
    else proceed s (.recoverHandovers rest)
  | .other _ => proceed s (.recoverHandovers rest)

def Intent.owed (intent : Intent) : Bool := intent.settle && !intent.record.result.state.final

/-- The result of the operation is unknown, so a report of the driver may replace it. -/
def Intent.late (intent : Intent) : Bool := intent.record.result.state = .unknown

def recoverIntent : List OperationRow → Outcome
  | [] => stop s
  | ((ref, _), intent) :: rest =>
    if !intent.owed then proceed s (.recoverIntents rest)
    else if (s.resource.get ref).isSome then
      proceed s (.recoverQuery ref intent.record.request.operationId intent.late rest)
    else
      proceed s (.recoverSettle ref intent.record.request.operationId (driverOutcome none) intent.late
        rest)

def recoverReport (ref : ResourceRef) (id : String) (late : Bool)
    (rest : List OperationRow) : Option Settlement → Outcome
  | some outcome =>
    if outcome.state ≠ .pending then proceed s (.recoverSettle ref id outcome late rest)
    else proceed s (.recoverIntents rest)
  | none => proceed s (.recoverIntents rest)

/-- A recovery pass after a settlement; what it throws ends it. -/
def recovered (rest : List OperationRow) : Except Thrown (OperationResult × Store) → Outcome
  | .ok (_, s') => proceed s' (.recoverIntents rest)
  | .error _ => stop s

def expireStep (now : Int) : Outcome :=
  match expireEvents ctx now s with
  | .error _ => stop s
  | .ok (events, s') =>
    if events.isEmpty then proceed s' .handovers
    else ⟨s', [.retire events], [.retired events]⟩

/-! ## The target of a handover -/

def probeStep (probe : HandoverProbe) (deadline : Int) : Outcome :=
  match s.probe.get probe.operationId with
  | some existing => ⟨s, [], [.probed sender probe (repeatedProbe existing sender probe)]⟩
  | none => proceed s (.decide sender probe deadline)

def decideStep (probe : HandoverProbe) (deadline now : Int)
    (policy : Option (Except Thrown ProbeAnswer)) : Outcome :=
  match decideProbe probe deadline now policy with
  | .error thrown => ⟨s, [], [.probed sender probe (.error thrown)]⟩
  | .ok answer => proceed s (.record sender probe answer)

def recordStep (probe : HandoverProbe) (answer : ProbeAnswer) : Outcome :=
  match recordProbe sender probe answer s with
  | .error thrown => ⟨s, [], [.probed sender probe (.error thrown)]⟩
  | .ok (answer, s') => ⟨s', [], [.probed sender probe (.ok answer)]⟩

/-! ## The steps of a call -/

/-- One step of a task that was taken off the list of calls in flight. -/
def resume : Task → Input → Option Outcome
  | _, .lost => some (stop s)
  | .prior call, .go _ => some (priorStep s call)
  | .admitted call, .go _ => some (admittedStep ctx s call)
  | .query call resource, .go _ => some (queryStep s call resource)
  | .readEvent call eventId, .go _ => some (readEventStep s call eventId)
  | .fetchEvent call eventId, .go _ => some (fetchEventStep s call eventId)
  | .readLog call query, .go _ => some (readLogStep s call query)
  | .scanLog call query, .go _ => some (scanLogStep ctx s call query)
  | .resume call record, .go _ => some (resumeStep s call record)
  | .asking call record, .driver outcome => some (askingStep s call record outcome)
  | .resumeSettle call outcome, .go _ =>
    some (settled s (.caller call) (settle call.ref call.request.operationId outcome false s))
  | .resumeRead call record, .go _ =>
    some (answer s call (.ok (((s.operation.get call.key).map fun intent => intent.record).getD
      record).result))
  | .initiate call target deadline resource, .go clock =>
    some (initiateStep ctx s call target deadline resource clock)
  | .report call, .go _ => some (reportStep s call)
  | .handshake call intent, .go clock => some (handshakeStep ctx s call intent clock.first)
  | .probing call _, .timeout => some (proceed s (.report call))
  | .probing call intent, .failed thrown => some (unreached s call intent (some thrown))
  | .probing call intent, .replied value => some (probedStep s call intent value)
  | .abort ref id reason error next, .go _ =>
    some (settled s next (abortHandover ref id reason error s))
  | .commit ref id cursor next, .id now fresh =>
    some (settled s next (commitHandover ctx ref id cursor now fresh s))
  | .validate call _, .hook (some thrown) => some (answer s call (.error thrown))
  | .validate call resource, .hook none => some (proceed s (.claim call resource))
  | .claim call resource, .go clock => some (claimStep ctx s call resource clock)
  | .execute call resource, .go _ => some (executeStep ctx s call resource)
  | .executing call, .timeout =>
    some ⟨s, [.late call, .settle call ⟨.unknown, none, some waitOutcome⟩ false], []⟩
  | .executing call, .driver outcome => some (proceed s (.settle call (driverOutcome outcome) false))
  | .late call, .driver outcome => some (proceed s (.settle call (driverOutcome outcome) true))
  | .settle call outcome late, .go _ =>
    some (reported s call outcome late (settle call.ref call.request.operationId outcome late s))
  | .settle call outcome late, .failed thrown => some (reported s call outcome late (.error thrown))
  | .expire, .go clock => some (expireStep ctx s clock.first)
  | .retire events, .hook none => some (proceed s (.forget events))
  | .retire _, .hook (some _) => some (stop s)
  | .forget events, .go _ => some (proceed (retireSources events s) .handovers)
  | .handovers, .go _ => some (proceed s (.recoverHandovers s.handover.rows))
  | .recoverHandovers rows, .go clock => some (recoverHandover ctx s clock.first rows)
  | .readBack _ rest, .timeout => some (proceed s (.recoverHandovers rest))
  | .readBack row rest, .failed thrown => some (readBackFailed s row rest thrown)
  | .readBack row rest, .replied value => some (readBackStep s row rest value)
  | .intents, .go _ => some (proceed s (.recoverIntents s.operation.rows))
  | .recoverIntents rows, .go _ => some (recoverIntent s rows)
  | .recoverQuery ref id late rest, .driver outcome => some (recoverReport s ref id late rest outcome)
  | .recoverSettle ref id outcome late rest, .go _ =>
    some (recovered s rest (settle ref id outcome late s))
  | .probe sender probe deadline, .go _ => some (probeStep s sender probe deadline)
  | .decide sender probe deadline, .decided now policy =>
    some (decideStep s sender probe deadline now policy)
  | .record sender probe answer, .go _ => some (recordStep s sender probe answer)
  | _, _ => none

/-! ## The node -/

structure Node where
  store : Store := {}
  tasks : List Task := []

inductive Act where
  | register (actor : NodeId) (resource : Resource)
  | receive (actor : NodeId) (ref : ResourceRef) (input : EventInput) (clock : Clock)
  | ack (actor : NodeId) (ref : ResourceRef) (id : String) (mutation : Mutation) (clock : Clock)
  | operate (call : Call)
  -- A recovery pass begins.
  | recover
  -- A probe of `sender` arrives.
  | probe (sender : NodeId) (probe : HandoverProbe)
  -- `sender` asks for the answer to its probe.
  | probeAnswer (sender : NodeId) (operationId : String)
  -- The process ends and starts again over the same rows.
  | crash
  -- A call in flight continues.
  | advance (task : Task) (input : Input)

/-- The rows after a call of one transaction; one that throws leaves them. -/
def committed {α : Type} (s : Store) : Except Thrown (α × Store) → Store
  | .ok (_, s') => s'
  | .error _ => s

def act (n : Node) : Act → Option (Node × List Output)
  | .register actor resource =>
    some ({ n with store := committed n.store (register ctx actor resource n.store) }, [])
  | .receive actor ref input clock =>
    some ({ n with store := committed n.store (receive ctx actor ref input clock n.store) }, [])
  | .ack actor ref id mutation clock =>
    some ({ n with store := committed n.store (ack ctx actor ref id mutation clock n.store) }, [])
  | .operate call =>
    match requireOwner ctx call.ref.owner with
    | .error thrown => some (n, [.answered call (.error thrown)])
    | .ok () => some ({ n with tasks := n.tasks ++ [.prior call] }, [])
  | .recover => some ({ n with tasks := n.tasks ++ [.expire] }, [])
  | .probe sender probe =>
    match probeChecks ctx sender probe with
    | .error thrown => some (n, [.probed sender probe (.error thrown)])
    | .ok deadline => some ({ n with tasks := n.tasks ++ [.probe sender probe deadline] }, [])
  | .probeAnswer sender operationId =>
    some (n, [.recorded sender operationId (probeAnswer sender operationId n.store)])
  | .crash => some ({ n with tasks := [] }, [])
  | .advance task input =>
    if task ∈ n.tasks then
      (resume ctx n.store task input).map fun next =>
        (⟨next.store, n.tasks.erase task ++ next.tasks⟩, next.output)
    else none

def step (n : Node) (a : Act) : Option Node := (act ctx n a).map Prod.fst

end

/-! ## Calls for scenarios

A node whose deadlines all lie ahead of its clock, and the calls that open a handover on it. -/

namespace Scenario

def context (node : NodeId) : Context where
  node := node
  dateParse _ := some 1000
  digest text := text
  isoString _ := ""
  readCursor _ := .malformed

def clock : Clock := ⟨0, 0, 0⟩

def deadline : String := "2026-01-01T00:00:00Z"

/-- A resource held by `handler` under its first revision. -/
def resource (owner id handler : String) : Resource where
  resourceRef := ⟨owner, id⟩
  kind := "chat"
  operations := ["send", "handover"]
  binding := ⟨handler, "0"⟩
  logReaders := []
  revision := "first"
  eventSeq := "0"
  retentionMs := 0

section

variable (resource : Resource) (id target : String)

/-- The handler of a resource asks to hand it to `target`. -/
def handoverCall : Call where
  actor := resource.binding.handler
  ref := resource.resourceRef
  request :=
    { idempotencyKey := id, retryUntil := deadline, operationId := id, operation := "handover"
      data := some ⟨.object [("target", .string target), ("handover_deadline", .string deadline)], rfl⟩ }

def sendCall : Call where
  actor := resource.binding.handler
  ref := resource.resourceRef
  request := { idempotencyKey := id, retryUntil := deadline, operationId := id, operation := "send" }

/-- The acts up to the transaction that opens a handover, and the probe that follows it. -/
def opening : List Act :=
  let call := handoverCall resource id target
  [.operate call, .advance (.prior call) (.go clock), .advance (.admitted call) (.go clock),
    .advance (.initiate call target deadline resource) (.go clock),
    .advance (.handshake call (call.handoverIntent target deadline resource)) (.go clock)]

def sending : List Act :=
  let call := sendCall resource id
  [.operate call, .advance (.prior call) (.go clock), .advance (.admitted call) (.go clock),
    .advance (.validate call resource) (.hook none), .advance (.claim call resource) (.go clock),
    .advance (.execute call resource) (.go clock),
    .advance (.executing call) (.driver (some ⟨.committed, none, none⟩)),
    .advance (.settle call ⟨.committed, none, none⟩ false) (.go clock)]

end

end Scenario

end Onlyne.Resources
