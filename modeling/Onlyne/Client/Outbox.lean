import Onlyne.Client.Types

/-!
# Client: the outbound half

How `OnlyneClient` records a message it sends, transmits it, and re-drives the records that are still open.

A transmission reads a record, waits for the storing endpoint outside of any transaction, and commits the
record as it read it with what changed; a recovery pass does so for every record of one scan.  The calls in
flight are tasks, which hold the records they have read and interleave as those of `Onlyne.Trust.Node`.

What comes from outside is an `Input`: the reading of the clock, the answer of the storing endpoint or the
failure of the request.  A call whose signal was aborted, or that never returns, is `Input.lost`.
-/

namespace Onlyne.Client

open Foundation
open Messages (Message MessageRef DeliveryPlan)

/-! ## Transactions -/

abbrev OutboundRows := Table MessageRef StoredOutbound

structure SendOptions where
  retryUntil : Option Int := none
  idempotencyKey : Option String := none
  expectedAuthor : Option NodeId := none
  requested : Option String := none
  context : Option String := none
  deriving DecidableEq, Repr

/-- A call of `#deliver`. -/
structure Delivery where
  target : NodeId
  message : Message
  plan : DeliveryPlan
  options : SendOptions := {}
  addressee : Option NodeId := none
  deriving DecidableEq, Repr

/-- The declared window never exceeds the node's supported maximum. -/
def window (ctx : Context) (now : Int) (requested : Option Int) : Int :=
  let ceiling := now + ctx.retryMaxMs
  match requested with
  | none => ceiling
  | some requested => if requested < ceiling then requested else ceiling

def Delivery.request (ctx : Context) (call : Delivery) (fresh : String) (now : Int) : SendRequest where
  idempotencyKey := call.options.idempotencyKey.getD fresh
  retryUntil := window ctx now call.options.retryUntil
  message := call.message
  targetEndpoint := call.target
  plan := call.plan

/-- The record of a message that is sent for the first time. -/
def Delivery.record (call : Delivery) (request : SendRequest) (created : Int) : StoredOutbound where
  request := request
  expectedAuthor := call.options.expectedAuthor.getD call.target
  state := .pending
  digest := some (messageDigest request)
  createdAt := some created
  addressee := call.addressee.filter fun addressee => addressee ≠ call.target
  requested := call.options.requested.filter fun requested => requested ≠ call.addressee.getD call.target
  localContext := call.options.context

section

variable (record : StoredOutbound) (scheduled : Bool) (failure : Failure) (attempt : Option Nat)

def StoredOutbound.digestOr : String :=
  record.digest.getD (messageDigest record.request)

def identityConflict : Thrown :=
  Core.throws .idConflict "This message identity is already bound to different content."

/-- The record of a message that is sent again: it keeps the first request identity.  The consumption identity
belongs to the caller waiting now, and anything but acceptance starts a fresh attempt series. -/
def StoredOutbound.resent (stored : StoredOutbound) (context : Option String) : StoredOutbound :=
  let recontexted := { stored with localContext := context.or stored.localContext }
  if stored.state = .accepted then recontexted
  else { recontexted with state := .pending, attempt := none, nextAttempt := none }

/-- The transaction of `#deliver`: the same message identity with different content is a conflict, never a
rewrite. -/
def deliverTx (call : Delivery) (request : SendRequest) (created : Int) (rows : OutboundRows) :
    Except Thrown (StoredOutbound × OutboundRows) :=
  match rows.get request.message.ref with
  | some stored =>
    if stored.digestOr ≠ messageDigest request then .error identityConflict
    -- A send that changes nothing of the record writes nothing.
    else if stored.resent call.options.context = stored then .ok (stored, rows)
    else .ok (stored.resent call.options.context,
      rows.put request.message.ref (stored.resent call.options.context))
  | none => .ok (call.record request created, rows.put request.message.ref (call.record request created))

structure Update where
  state : SendState
  receipt : Option Json := none
  error : Option Failure := none
  attempt : Option Nat := none
  nextAttempt : Option Int := none
  deriving DecidableEq, Repr

/-- `{ ...record, ...change, digest }` -/
def StoredOutbound.updated (change : Update) : StoredOutbound :=
  { record with
    state := change.state
    receipt := change.receipt.or record.receipt
    error := change.error.or record.error
    attempt := change.attempt.or record.attempt
    nextAttempt := change.nextAttempt.or record.nextAttempt
    digest := some record.digestOr }

/-- A settled record owes no further attempt, and a dead letter carries no schedule. -/
def StoredOutbound.trimmed : StoredOutbound :=
  match record.state with
  | .accepted => { record with error := none, nextAttempt := none, attempt := none }
  | .refused => { record with nextAttempt := none, attempt := none }
  | .unreachable => { record with nextAttempt := none }
  | .pending | .unknown => record

/-- `#commit`: acceptance is final. -/
def commit (change : Update) (rows : OutboundRows) : OutboundRows :=
  if (rows.get record.slot).any fun current => current.state = .accepted then rows
  else rows.put record.slot (record.updated change).trimmed

/-! ## Recovery -/

/-- The record is one a recovery pass looks at: a scheduled pass leaves a failed record until its next attempt
is due. -/
def StoredOutbound.recoverable (now : Int) : Bool :=
  record.digest.isSome && (record.state = .pending || record.state = .unknown) &&
    (!scheduled || record.state = .pending || record.nextAttempt.all fun next => next ≤ now)

def recoverRows (now : Int) (rows : OutboundRows) : List StoredOutbound :=
  (rows.rows.map Prod.snd).filter fun record => record.recoverable scheduled now

inductive RowAction where
  | skip
  -- The window closed before this node learned the admission.
  | expire
  | redrive
  deriving DecidableEq, Repr

def StoredOutbound.action (now : Int) : RowAction :=
  if record.request.retryUntil ≤ now then
    if record.state ≠ .unknown then .expire else .skip
  else .redrive

def windowClosed : Failure :=
  ⟨.retryWindowExpired, "The window closed before this node learned the admission.", false, none⟩

/-! ## Calls in flight -/

/-- Where a transmission leads: to its caller, or on in a recovery pass. -/
inductive Ret where
  | caller
  | pass (rest : List StoredOutbound)
  deriving DecidableEq, Repr

inductive OutTask where
  -- `#transmit` waiting for the storing endpoint.
  | sending (record : StoredOutbound) (ret : Ret)
  -- `#transmit` before it commits the acceptance.
  | accept (record : StoredOutbound) (receipt : Json) (ret : Ret)
  -- `#transmit` before it reads how many attempts the record has made.
  | failing (record : StoredOutbound) (failure : Failure) (ret : Ret)
  -- `#transmit` before it commits the failure.
  | scheduling (record : StoredOutbound) (failure : Failure) (attempt : Option Nat) (ret : Ret)
  -- `#transmit` before it reads the record for its answer.
  | reporting (record : StoredOutbound) (failure : Failure) (state : SendState) (ret : Ret)
  -- `#recover` with the records it still has to look at.
  | recovering (rows : List StoredOutbound)
  -- `#recover` before it settles a record whose window closed.
  | expiring (record : StoredOutbound) (rest : List StoredOutbound)
  deriving DecidableEq, Repr

inductive OutInput where
  -- The reading of the clock.
  | go (now : Int)
  -- The body of the answer.
  | replied (receipt : Json)
  -- The request failed.
  | failed (thrown : Thrown)
  -- The call ends here without any effect.
  | lost

structure SendOutcome where
  admission : SendState
  receipt : Option Json := none
  error : Option Failure := none
  deriving DecidableEq, Repr

inductive OutOutput where
  -- The request of a record is handed to its storing endpoint.
  | posted (record : StoredOutbound)
  -- The caller gets its answer.
  | answered (slot : MessageRef) (outcome : Except Thrown SendOutcome)
  deriving DecidableEq

/-- The rows after a step of a task, the tasks that follow it, and what it does outside. -/
structure OutOutcome where
  rows : OutboundRows
  tasks : List OutTask := []
  output : List OutOutput := []

def returned (rows : OutboundRows) (slot : MessageRef) (outcome : SendOutcome) : Ret → OutOutcome
  | .caller => ⟨rows, [], [.answered slot (.ok outcome)]⟩
  | .pass rest => ⟨rows, [.recovering rest], []⟩

/-- `#transmit` up to its first await. -/
def transmit (rows : OutboundRows) (record : StoredOutbound) (ret : Ret) : OutOutcome :=
  ⟨rows, [.sending record ret], [.posted record]⟩

/-- The acceptance is committed.  A body without fields cannot be asked for its guarantee, and that failure is
treated like one of the request. -/
def acceptStep (rows : OutboundRows) (record : StoredOutbound) (receipt : Json) (ret : Ret) : OutOutcome :=
  let rows' := commit record { state := .accepted, receipt := some receipt } rows
  match receipt with
  | .null => ⟨rows', [.failing record (failureOf (.other "Cannot read properties of null")) ret], []⟩
  | _ => returned rows' record.slot { admission := .accepted, receipt := some receipt } ret

/-- A retryable failure is one attempt of a bounded series; a recorded refusal carries no series at all. -/
def failedAttempt (rows : OutboundRows) (record : StoredOutbound) (failure : Failure) : Option Nat :=
  if admissionOf failure = .refused then none
  else some (((rows.get record.slot).bind fun previous => previous.attempt).getD 0 + 1)

def exhausted : Bool := attempt.any fun attempt => maxAttempts ≤ attempt

def failedState : SendState :=
  if exhausted attempt then .unreachable else admissionOf failure

def failedUpdate (now : Int) : Update where
  state := failedState failure attempt
  error := some failure
  attempt := attempt
  nextAttempt := if exhausted attempt then none else attempt.map fun attempt => now + backoffMs attempt

end

def failedOutcome (rows : OutboundRows) (record : StoredOutbound) (failure : Failure) (state : SendState) :
    SendOutcome :=
  let stored := rows.get record.slot
  { admission := (stored.map fun stored => stored.state).getD state
    receipt := (stored.bind fun stored => stored.receipt).or record.receipt
    error := if stored.any fun stored => stored.state = .accepted then none else some failure }

def recoverStep (rows : OutboundRows) (now : Int) : List StoredOutbound → OutOutcome
  | [] => ⟨rows, [], []⟩
  | record :: rest =>
    match record.action now with
    | .skip => ⟨rows, [.recovering rest], []⟩
    | .expire => ⟨rows, [.expiring record rest], []⟩
    -- A recovered record has no caller left to consume a reply.
    | .redrive => transmit rows { record with state := .pending } (.pass rest)

/-- One step of a task that was taken off the list of calls in flight. -/
def outResume (rows : OutboundRows) : OutTask → OutInput → Option OutOutcome
  | _, .lost => some ⟨rows, [], []⟩
  | .sending record ret, .replied receipt => some ⟨rows, [.accept record receipt ret], []⟩
  | .sending record ret, .failed thrown => some ⟨rows, [.failing record (failureOf thrown) ret], []⟩
  | .accept record receipt ret, .go _ => some (acceptStep rows record receipt ret)
  | .failing record failure ret, .go _ =>
    some ⟨rows, [.scheduling record failure (failedAttempt rows record failure) ret], []⟩
  | .scheduling record failure attempt ret, .go now =>
    some ⟨commit record (failedUpdate failure attempt now) rows,
      [.reporting record failure (failedState failure attempt) ret], []⟩
  | .reporting record failure state ret, .go _ =>
    some (returned rows record.slot (failedOutcome rows record failure state) ret)
  | .recovering records, .go now => some (recoverStep rows now records)
  | .expiring record rest, .go _ =>
    some ⟨commit record { state := .unknown, error := some windowClosed } rows, [.recovering rest], []⟩
  | _, _ => none

/-! ## The outbox -/

/-- The outbound rows of a client, and its calls in flight on them. -/
structure Outbox where
  rows : OutboundRows := ∅
  tasks : List OutTask := []

inductive OutAct where
  -- A message is sent, with a drawn key and the readings of the clock.
  | deliver (call : Delivery) (fresh : String) (now created : Int)
  -- A recovery pass begins: one of the maintenance loop is scheduled, one a caller asks for is not.
  | recover (scheduled : Bool) (now : Int)
  -- A call in flight continues.
  | advance (task : OutTask) (input : OutInput)
  -- The process ends and starts again over the same rows.
  | crash

def outAct (ctx : Context) (o : Outbox) : OutAct → Option (Outbox × List OutOutput)
  | .deliver call fresh now created =>
    match deliverTx call (call.request ctx fresh now) created o.rows with
    | .error thrown => some (o, [.answered call.message.ref (.error thrown)])
    | .ok (record, rows) => some (⟨rows, o.tasks ++ [.sending record .caller]⟩, [.posted record])
  | .recover scheduled now =>
    some ({ o with tasks := o.tasks ++ [.recovering (recoverRows scheduled now o.rows)] }, [])
  | .advance task input =>
    if task ∈ o.tasks then
      (outResume o.rows task input).map fun next =>
        (⟨next.rows, o.tasks.erase task ++ next.tasks⟩, next.output)
    else none
  | .crash => some ({ o with tasks := [] }, [])

def outStep (ctx : Context) (o : Outbox) (a : OutAct) : Option Outbox := (outAct ctx o a).map Prod.fst

end Onlyne.Client
