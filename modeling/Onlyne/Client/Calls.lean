import Onlyne.Client.Outbox
import Onlyne.Client.Inbox

/-!
# Client: the calls of the inbound half

`receive`, `confirmConsumption`, `reconcile`, `maintain` and the wait of a `send` for its reply, cut at their
awaits.  A call in flight stands at one await and holds what it has read so far: the records of a scan, the rows
of a page, the failures it will throw at its end.

Bringing one entry to the host is `Work`, and `After` says what the call goes on with when that work returns or
throws.  The loops of a maintenance pass and of a reconciliation are the other tasks.  A step runs from one await
to the next, and every transaction is a step of its own: the code behind it runs in a later step, so what it
decides on may have changed meanwhile.

From outside come the reading of the clock, the answers of peers, of local services and of the host, and their
failures.  `Input.failed` at a transaction is a failure of the store, which leaves the rows as they were.
-/

namespace Onlyne.Client

open Foundation
open Messages (Message MessageRef ThreadRef Entry Attention DeliveryPlan Grant)
open Resources (ResourceRef)

/-! ## Bringing one entry to the host -/

structure Arrival where
  obligationId : String
  record : LocalAttention
  -- The entry a runtime binding handed over; none for a row that was pulled from its owner.
  entry : Option Entry
  deriving DecidableEq, Repr

inductive Work where
  -- `receive` before its transaction.
  | receiving (entry : Entry) (obligationId : String) (context : Option String)
  -- `#store` before its transaction.
  | storing (ref : ThreadRef) (attention : Attention)
  -- Behind that transaction.
  | arrived (arrival : Arrival)
  -- `#ack` waiting for the owner, and before its transaction.
  | acking (arrival : Arrival)
  | ackRecord (arrival : Arrival)
  -- Behind the acknowledgement.
  | landed (arrival : Arrival)
  -- `#settleResourceAttention` waiting for the resource, before its transactions, and behind the last one.
  | describing (entry : Entry) (record : LocalAttention) (resource : ResourceRef) (begun : Int)
  | checkFailed (record : LocalAttention) (thrown : Thrown)
  | settling (entry : Entry) (record : LocalAttention) (settlement : AttentionSettlement)
  | settled (entry : Entry) (changed : Bool)
  -- `#consume` before and behind the look at the message the entry answers.
  | relating (entry : Entry) (record : LocalAttention)
  | routing (entry : Entry) (record : LocalAttention) (outbound : Option StoredOutbound)
  -- `#consume` before and behind the look at the consumption of the entry.
  | checking (entry : Entry) (record : LocalAttention) (requested : String)
  | decided (entry : Entry) (record : LocalAttention) (requested : String) (consumed : Bool)
  -- `#consume` waiting for the host.
  | injecting (entry : Entry)
  -- `confirmConsumption` before and behind its transaction.
  | confirming (entry : Entry) (context : Option String) (via : Via) (begun : Int)
  | confirmed (entry : Entry) (place : Option String)
  -- `#deliverTodo` before and behind its look at the todo, waiting for the hook, and before its last transaction.
  | todoLook (entry : Entry) (context : String)
  | todoCall (entry : Entry) (context : String)
  | todoHook (entry : Entry) (context : String)
  | todoDone (entry : Entry) (context : String)
  deriving DecidableEq, Repr

inductive Flow where
  | next (work : Work)
  | back
  | raise (thrown : Thrown)
  deriving DecidableEq, Repr

inductive Input where
  -- The reading of the clock, and what the notification hook of the host throws.
  | go (now : Int) (notify : Option Thrown)
  -- The awaited call returned.
  | done
  -- It threw.
  | failed (thrown : Thrown)
  -- A page of a listing.
  | grants (items : List Grant) (cursor : Option String)
  | refs (items : List ThreadRef) (cursor : Option String)
  | attention (items : List Attention) (cursor : Option String)
  -- The peers this node has exchanged trust with.
  | peers (nodes : List NodeId) (now : Int)
  -- The handler of a resource and its revision.
  | described (handler : NodeId) (revision : String)
  -- The host's answer to an injection.
  | injected (context : String) (consumed : Bool) (now : Int)
  -- The reply a wait was released with, or found among the rows; the wait ended without one.
  | replied
  | searched
  | ended
  -- The signal of the caller is aborted where the code looks at it.
  | aborted
  -- The call never continues.
  | lost
  deriving DecidableEq, Repr

inductive Output where
  -- `runtime.inject` is called for the row of an obligation.
  | inject (obligationId : String) (entry : Entry) (context : String) (plan : Option DeliveryPlan)
  | todo (entry : Entry) (context : String)
  | notify (entry : Entry)
  -- A wait returns its reply.
  | replied (entry : Entry) (withheld : Bool)
  -- The call of a caller ends, with what it throws.
  | ended (failures : List Thrown)
  deriving DecidableEq, Repr

/-- The rows and the registry after a step, what becomes of the work, and what is done outside. -/
structure Worked where
  rows : InboundRows
  awaiting : AwaitedReplies
  flow : Flow
  output : List Output := []

section Work

variable (ctx : Context) (outbound : OutboundRows) (rows : InboundRows) (awaiting : AwaitedReplies)

section

variable (entry : Entry) (arrival : Arrival) (record : LocalAttention) (resource : ResourceRef) (begun : Int)

/-- `#consume` once its context is known.  An await that owns the body of the reply in that context presents it
itself. -/
def route (outbound : Option StoredOutbound) : Flow :=
  if awaiting.waiting entry (some (requestedContext ctx entry record outbound)) then .back
  else .next (.checking entry record (requestedContext ctx entry record outbound))

/-- `#consume` behind the check of the resource. -/
def consider : Flow :=
  if !ctx.runtime then .back
  else if (entry.message.inReplyTo).any fun related => related.sender = ctx.node then
    .next (.relating entry record)
  else route ctx awaiting entry record none

/-- `#consume` up to its first await. -/
def consume (now : Int) : Flow :=
  if record.injected then .back
  else
    match resourceRefOf entry with
    | some resource => .next (.describing entry record resource now)
    | none => consider ctx awaiting entry record

/-- `receive` and `#store` behind the acknowledgement. -/
def land (now : Int) : Worked :=
  match arrival.entry with
  | some entry => ⟨rows, awaiting, consume ctx awaiting entry arrival.record now, []⟩
  | none =>
    match arrival.record.attention.entry with
    | none => ⟨rows, awaiting, .back, []⟩
    | some entry =>
      ⟨rows, awaiting.settle entry,
        if arrival.record.attention.expired then .back
        else consume ctx (awaiting.settle entry) entry arrival.record now, []⟩

/-- `receive` and `#store` once their row is stored: only an entry that was handed over releases its waiters
before the acknowledgement. -/
def arrive : Worked :=
  ⟨rows, (arrival.entry.map awaiting.settle).getD awaiting,
    .next (if arrival.record.attention.acked then .landed arrival else .acking arrival), []⟩

/-- `#store` behind its transaction. -/
def pulled (obligationId : String) : Option LocalAttention → Flow
  | none => .back
  | some record => .next (.arrived ⟨obligationId, record, none⟩)

/-- `#deliverTodo` up to its first await. -/
def deliverTodo (context : String) : Flow :=
  if ctx.runtime && ctx.todo then .next (.todoLook entry context) else .back

/-- The hook of the host is notified, and `flow` follows unless the hook throws. -/
def notifying (awaiting : AwaitedReplies) (notify : Option Thrown) (flow : Flow) : Worked :=
  if ctx.runtime then ⟨rows, awaiting, (notify.map Flow.raise).getD flow, [.notify entry]⟩
  else ⟨rows, awaiting, flow, []⟩

def described (handler : NodeId) (revision : String) : Flow :=
  if handler = ctx.node then consider ctx awaiting entry record
  else .next (.settling entry record (.handover resource handler revision begun))

/-- The description of a resource failed: it is gone, or the check counts as failed. -/
def undescribed (thrown : Thrown) : Flow :=
  if (failureOf thrown).code = .notFound then .next (.settling entry record (.undeliverable resource begun))
  else .next (.checkFailed record thrown)

/-- `#consume` behind its look at the consumption: the shared record and the todo it owes are all that is left
to write, or the host is asked. -/
def present (requested : String) (consumed : Bool) (now : Int) : Worked :=
  if consumed then ⟨rows, awaiting, .next (.confirming entry (some requested) .toolResult now), []⟩
  else ⟨rows, awaiting, .next (.injecting entry),
    [.inject record.attention.obligationId entry requested record.attention.plan]⟩

/-- `confirmConsumption` behind its transaction. -/
def afterConfirm (place : Option String) (notify : Option Thrown) : Worked :=
  match place with
  | none => ⟨rows, awaiting.forget entry, .back, []⟩
  | some place =>
    notifying ctx rows entry (awaiting.releaseContext entry place) notify (deliverTodo ctx entry place)

/-- `#settleResourceAttention` behind its transaction. -/
def afterSettle (changed : Bool) (notify : Option Thrown) : Worked :=
  if changed then notifying ctx rows entry (awaiting.forget entry) notify .back
  else ⟨rows, awaiting, .back, []⟩

end

/-- The work goes on without touching the rows or the registry. -/
def onward (flow : Flow) : Worked := ⟨rows, awaiting, flow, []⟩

def workStep : Work → Input → Option Worked
  | .receiving entry id context, .go _ _ =>
    some ⟨(receiveTx ctx entry id context rows).2, awaiting,
      .next (.arrived ⟨id, (receiveTx ctx entry id context rows).1, some entry⟩), []⟩
  | .storing ref attention, .go _ _ =>
    some ⟨(storeTx ctx ref attention rows).2, awaiting,
      pulled (obligationIdOf ctx ref attention) (storeTx ctx ref attention rows).1, []⟩
  | .arrived arrival, .go _ _ => some (arrive rows awaiting arrival)
  | .acking arrival, .done => some (onward rows awaiting (.next (.ackRecord arrival)))
  -- Reconciliation sends the acknowledgement again.
  | .acking arrival, .failed _ => some (onward rows awaiting (.next (.landed arrival)))
  | .ackRecord arrival, .go _ _ =>
    some ⟨ackTx arrival.obligationId rows, awaiting, .next (.landed arrival), []⟩
  | .landed arrival, .go now _ => some (land ctx rows awaiting arrival now)
  | .describing entry record resource begun, .described handler revision =>
    some (onward rows awaiting (described ctx awaiting entry record resource begun handler revision))
  | .describing entry record resource begun, .failed thrown =>
    some (onward rows awaiting (undescribed entry record resource begun thrown))
  | .checkFailed record thrown, .go _ _ =>
    some ⟨checkFailedTx record.attention.obligationId rows, awaiting, .raise thrown, []⟩
  | .settling entry record settlement, .go _ _ =>
    some ⟨(settleTx record.attention.obligationId settlement rows).2, awaiting,
      .next (.settled entry (settleTx record.attention.obligationId settlement rows).1), []⟩
  | .settled entry changed, .go _ notify => some (afterSettle ctx rows awaiting entry changed notify)
  | .relating entry record, .go _ _ =>
    some (onward rows awaiting (.next (.routing entry record (entry.message.inReplyTo.bind outbound.get))))
  | .routing entry record outbound, .go _ _ =>
    some (onward rows awaiting (route ctx awaiting entry record outbound))
  | .checking entry record requested, .go _ _ =>
    some (onward rows awaiting (.next (.decided entry record requested (alreadyConsumed entry requested rows))))
  | .decided entry record requested consumed, .go now _ =>
    some (present rows awaiting entry record requested consumed now)
  | .injecting entry, .injected context consumed now =>
    some (onward rows awaiting (if consumed then .next (.confirming entry (some context) .fragment now) else .back))
  | .confirming entry context via begun, .go _ _ =>
    some ⟨(confirmTx ctx entry context via begun rows).2, awaiting,
      .next (.confirmed entry (confirmTx ctx entry context via begun rows).1), []⟩
  | .confirmed entry place, .go _ notify => some (afterConfirm ctx rows awaiting entry place notify)
  | .todoLook entry context, .go _ _ =>
    some (onward rows awaiting (if todoOwed entry context rows then .next (.todoCall entry context) else .back))
  | .todoCall entry context, .go _ _ =>
    some ⟨rows, awaiting, .next (.todoHook entry context), [.todo entry context]⟩
  | .todoHook entry context, .done => some (onward rows awaiting (.next (.todoDone entry context)))
  | .todoDone entry context, .go _ _ => some ⟨todoDoneTx entry context rows, awaiting, .back, []⟩
  -- Whatever else fails is thrown.
  | .arrived _, .failed _ | .landed _, .failed _ | .settled _ _, .failed _ | .routing _ _ _, .failed _
  | .decided _ _ _ _, .failed _ | .confirmed _ _, .failed _ | .todoCall _ _, .failed _ => none
  | _, .failed thrown => some (onward rows awaiting (.raise thrown))
  | _, _ => none

end Work

/-! ## The loops around it -/

/-- One pass of `#reconcile`. -/
structure Round where
  -- When it began.
  begun : Int
  -- The threads it has still to come to.
  rest : List ThreadRef
  -- The failures so far of the maintenance pass it belongs to; none when a caller asked for it.
  failures : Option (List Thrown)
  deriving DecidableEq, Repr

/-- `#reconcileThread` for one thread. -/
structure Pull where
  ref : ThreadRef
  -- A retry series was recorded for the thread.
  series : Bool
  -- The pages read so far.
  fetched : Nat
  round : Round
  deriving DecidableEq, Repr

/-- What a call goes on with when the handling of an entry is over. -/
inductive After where
  | caller
  | todos (rest : List PendingTodo) (failures : List Thrown)
  | inbox (rest : List LocalAttention) (failures : List Thrown)
  | items (rest : List Attention) (cursor : Option String) (pull : Pull)
  deriving DecidableEq, Repr

/-- The notices a pass delivers to their recipients, and the grants it confirms to their owners. -/
inductive GrantLoop where
  | deliver
  | confirm
  deriving DecidableEq, Repr

inductive Task where
  | work (work : Work) (after : After)
  -- `#deliverGrants` and `#confirmGrants`: the listing, the loop, and the call it waits for.
  | listing (loop : GrantLoop) (found : List Grant) (fetched : Nat)
  | offers (loop : GrantLoop) (rest : List Grant)
  | offering (loop : GrantLoop) (rest : List Grant)
  -- `#resyncGrants`: the scan, the loop, the listing of a peer, the repair, and `#peerAnswered`.
  | peers
  | owners (rest : List NodeId)
  | asking (peer : NodeId) (fetched : Nat) (rest : List NodeId)
  | repairing (peer : NodeId) (rest : List NodeId)
  | answering (peer : NodeId) (caught : Bool) (rest : List NodeId)
  -- `#replayTodos` and `#replayInbox`: the scan and the loop.
  | listTodos
  | todos (rest : List PendingTodo) (failures : List Thrown)
  | listInbox (failures : List Thrown)
  | inbox (rest : List LocalAttention) (failures : List Thrown)
  -- `#knownRefs`: the scan and the listing.
  | known (begun : Int) (failures : Option (List Thrown))
  | owning (begun : Int) (granted owned : List ThreadRef) (fetched : Nat) (failures : Option (List Thrown))
  -- `#reconcile`: the loop, and what it writes behind a thread.
  | threads (round : Round)
  | clearing (pull : Pull)
  | reporting (pull : Pull) (thrown : Thrown)
  -- `#reconcileThread`: the page it waits for, and the loop over the page.
  | pulling (pull : Pull) (cursor : Option String)
  | items (rest : List Attention) (cursor : Option String) (pull : Pull)
  -- `maintain` waiting for the trust service.
  | redriving (failures : List Thrown)
  -- The wait of a `send`: before it is registered, waiting, before and behind the look at the consumption of the
  -- reply, and before it is released.
  | registering (record : StoredOutbound)
  | watching (waiter : Waiter) (record : StoredOutbound)
  | returning (waiter : Waiter) (record : StoredOutbound) (entry : Entry)
  | holding (waiter : Waiter) (entry : Entry) (context : String) (consumed : Bool)
  | releasing (waiter : Waiter)
  deriving DecidableEq, Repr

/-- The rows and the registry after a step of a call, the await it leads to, and what it does outside. -/
structure Outcome where
  rows : InboundRows
  awaiting : AwaitedReplies
  task : Option Task := none
  output : List Output := []

def notTerminated (message : String) : Thrown := Core.throws .cursorExpired message

section

variable (round : Round) (ctx : Context) (pull : Pull) (after : After) (thrown : Thrown)

/-- `#reconcile` throws: a maintenance pass goes on with the trust service. -/
def Round.fails : Option Task × List Output :=
  match round.failures with
  | none => (none, [.ended [thrown]])
  | some failures => (some (.redriving (failures ++ [thrown])), [])

/-- `#reconcileThread` throws: a thread of another owner is reported. -/
def Pull.fails (ctx : Context) (pull : Pull) (thrown : Thrown) : Option Task × List Output :=
  if pull.ref.owner = ctx.node then pull.round.fails thrown else (some (.reporting pull thrown), [])

def After.returns : After → Option Task × List Output
  | .caller => (none, [.ended []])
  | .todos rest failures => (some (.todos rest failures), [])
  | .inbox rest failures => (some (.inbox rest failures), [])
  | .items rest cursor pull => (some (.items rest cursor pull), [])

def After.throws : Option Task × List Output :=
  match after with
  | .caller => (none, [.ended [thrown]])
  | .todos rest failures => (some (.todos rest (failures ++ [thrown])), [])
  | .inbox rest failures => (some (.inbox rest (failures ++ [thrown])), [])
  | .items _ _ pull => pull.fails ctx thrown

def After.follow : Flow → Option Task × List Output
  | .next work => (some (.work work after), [])
  | .back => after.returns
  | .raise thrown => after.throws ctx thrown

def askFailed (peer : NodeId) (rest : List NodeId) (thrown : Thrown) : Task :=
  if (failureOf thrown).code = .notFound then .answering peer true rest else .owners rest

/-- `#reconcile` comes to its next thread. -/
def Round.come (rows : InboundRows) : Option Task × List Output :=
  match round.rest with
  | [] =>
    match round.failures with
    | none => (none, [.ended []])
    | some failures => (some (.redriving failures), [])
  | ref :: rest =>
    if (rows.backoff.get ref).any fun backoff =>
        backoff.dead || (round.failures.isSome && decide (round.begun < backoff.nextAttempt)) then
      (some (.threads { round with rest := rest }), [])
    else
      (some (.pulling ⟨ref, (rows.backoff.get ref).isSome, 0, { round with rest := rest }⟩ none), [])

/-- `#reconcileThread` returned. -/
def Pull.over : Option Task := some (if pull.series then .clearing pull else .threads pull.round)

/-- `#reconcileThread` comes to its next row, or to its next page. -/
def Pull.come (cursor : Option String) : List Attention → Option Task × List Output
  | attention :: rest =>
    -- The list answers for the thread it was asked about.
    if attention.threadRef.id ≠ pull.ref.id then (some (.items rest cursor pull), [])
    else (some (.work (.storing pull.ref attention) (.items rest cursor pull)), [])
  | [] =>
    if cursor.isNone then (pull.over, [])
    else if pull.fetched < maxCursorPages then (some (.pulling pull cursor), [])
    else pull.fails ctx (notTerminated "The attention list did not terminate.")

/-- `#replayInbox` comes to its next record, and what is left of the registry then. -/
def comeInbox (awaiting : AwaitedReplies) (record : LocalAttention)
    (rest : List LocalAttention) (failures : List Thrown) (now : Int) : AwaitedReplies × Option Task × List Output :=
  match record.attention.entry with
  | none => (awaiting, some (.inbox rest failures), [])
  | some entry =>
    -- An entry already durable here answers a live await even when the runtime never saw it.
    (awaiting.settle entry,
      if record.injected || record.attention.expired then (some (.inbox rest failures), [])
      else (After.inbox rest failures).follow ctx (consume ctx (awaiting.settle entry) entry record now))

/-- A page of a listing: another page is asked for, or the listing is complete, or it does not terminate. -/
def listed (cursor : Option String) (fetched : Nat) (again complete : Task) (endless : Option Task × List Output) :
    Option Task × List Output :=
  if cursor.isNone then (some complete, [])
  else if fetched + 1 < maxCursorPages then (some again, [])
  else endless

def fails : Option Task × List Output := (none, [.ended [thrown]])

end

def listEndless : Thrown := notTerminated "The list did not terminate."

section Tasks

variable (ctx : Context) (outbound : OutboundRows) (rows : InboundRows) (awaiting : AwaitedReplies)

/-- The steps of a call that neither write a row nor touch the registry. -/
def loopStep : Task → Input → Option (Option Task × List Output)
  | .listing loop found fetched, .grants items cursor =>
    some (listed cursor fetched (.listing loop (found ++ items) (fetched + 1)) (.offers loop (found ++ items))
      (fails listEndless))
  | .listing _ _ _, .failed thrown => some (fails thrown)
  | .offers loop (grant :: rest), .go _ _ =>
    some (some (if loop = .confirm && grant.acked then .offers loop rest else .offering loop rest), [])
  | .offers .deliver [], .go _ _ => some (some (.listing .confirm [] 0), [])
  | .offers .confirm [], .go _ _ => some (some .peers, [])
  -- The next pass retries.
  | .offering loop rest, .done | .offering loop rest, .failed _ => some (some (.offers loop rest), [])
  | .peers, .peers nodes now => some (some (.owners (duePeers nodes now rows)), [])
  | .peers, .failed thrown => some (fails thrown)
  | .owners (peer :: rest), .go _ _ => some (some (.asking peer 0 rest), [])
  | .owners [], .go _ _ => some (some .listTodos, [])
  | .asking peer fetched rest, .grants _ cursor =>
    some (listed cursor fetched (.asking peer (fetched + 1) rest) (.repairing peer rest)
      (some (askFailed peer rest listEndless), []))
  | .asking peer _ rest, .failed thrown => some (some (askFailed peer rest thrown), [])
  | .repairing peer rest, .done => some (some (.answering peer false rest), [])
  | .repairing peer rest, .failed thrown => some (some (askFailed peer rest thrown), [])
  | .answering peer caught rest, .failed thrown =>
    some (if caught then fails thrown else (some (askFailed peer rest thrown), []))
  | .listTodos, .go _ _ => some (some (.todos rows.owedTodos []), [])
  | .listTodos, .failed thrown => some (fails thrown)
  | .todos (row :: rest) failures, .go _ _ =>
    some ((After.todos rest failures).follow ctx (deliverTodo ctx row.entry row.context))
  | .todos [] failures, .go _ _ => some (some (.listInbox failures), [])
  | .listInbox failures, .go _ _ => some (some (.inbox rows.queued failures), [])
  | .listInbox _, .failed thrown => some (fails thrown)
  | .inbox [] failures, .go now _ => some (some (.known now (some failures)), [])
  | .known begun failures, .refs granted _ => some (some (.owning begun granted [] 0 failures), [])
  | .known begun failures, .failed thrown => some (Round.fails ⟨begun, [], failures⟩ thrown)
  | .owning begun granted owned fetched failures, .refs items cursor =>
    some (listed cursor fetched (.owning begun granted (owned ++ items) (fetched + 1) failures)
      (.threads ⟨begun, knownRefs granted (owned ++ items), failures⟩)
      (Round.fails ⟨begun, [], failures⟩ listEndless))
  | .owning begun _ _ _ failures, .failed thrown => some (Round.fails ⟨begun, [], failures⟩ thrown)
  | .threads round, .go _ _ => some (round.come rows)
  | .threads round, .failed thrown => some (round.fails thrown)
  | .pulling pull _, .attention items cursor =>
    some (some (.items items cursor { pull with fetched := pull.fetched + 1 }), [])
  | .pulling pull _, .failed thrown => some (pull.fails ctx thrown)
  | .items rest cursor pull, .go _ _ => some (pull.come ctx cursor rest)
  | .clearing pull, .failed thrown => some (pull.fails ctx thrown)
  | .reporting pull _, .failed thrown => some (pull.round.fails thrown)
  | .redriving failures, .done => some (none, [.ended failures])
  | .redriving failures, .failed thrown => some (none, [.ended (failures ++ [thrown])])
  -- An aborted pass stops at the next look at its signal; `#reconcileThread` returns as if it were through.
  | .offers _ _, .aborted | .owners _, .aborted | .asking _ _ _, .aborted | .repairing _ _, .aborted
  | .listTodos, .aborted | .todos _ _, .aborted | .listInbox _, .aborted | .inbox _ _, .aborted =>
    some (none, [.ended []])
  | .threads round, .aborted => some (Round.come { round with rest := [] } rows)
  | .pulling pull _, .aborted | .items _ _ pull, .aborted => some (pull.over, [])
  | .watching waiter record, .replied =>
    (awaiting.answers.get waiter.token).map fun entry => (some (.returning waiter record entry), [])
  | .watching waiter record, .searched =>
    some (((evidence record rows).map fun entry => Task.returning waiter record entry).or
      (some (.watching waiter record)), [])
  | .watching waiter _, .ended => some (some (.releasing waiter), [])
  | .returning waiter record entry, .go _ _ =>
    some (some (.holding waiter entry (record.localContext.getD ctx.node)
      (alreadyConsumed entry (record.localContext.getD ctx.node) rows)), [])
  | .returning waiter _ _, .failed _ => some (some (.releasing waiter), [])
  | _, _ => none

def resume : Task → Input → Option Outcome
  | _, .lost => some ⟨rows, awaiting, none, []⟩
  | .work work after, input =>
    (workStep ctx outbound rows awaiting work input).map fun worked =>
      ⟨worked.rows, worked.awaiting, (after.follow ctx worked.flow).1,
        worked.output ++ (after.follow ctx worked.flow).2⟩
  | .answering peer _ rest, .go now _ => some ⟨peerAnsweredTx peer now rows, awaiting, some (.owners rest), []⟩
  | .inbox (record :: rest) failures, .go now _ =>
    some ⟨rows, (comeInbox ctx awaiting record rest failures now).1,
      (comeInbox ctx awaiting record rest failures now).2.1, (comeInbox ctx awaiting record rest failures now).2.2⟩
  | .clearing pull, .go _ _ =>
    some ⟨{ rows with backoff := rows.backoff.delete pull.ref }, awaiting, some (.threads pull.round), []⟩
  | .reporting pull thrown, .go now _ =>
    some ⟨reportTx pull.ref (failureOf thrown) now rows, awaiting, some (.threads pull.round), []⟩
  | .registering record, .go _ _ =>
    some ⟨rows, awaiting.register record, some (.watching (awaiting.waiterOf record) record), []⟩
  | .holding waiter entry context consumed, .go _ _ =>
    -- The body is in the caller's hands: it is held until the host confirms its consumption.
    some ⟨rows, if consumed then awaiting else awaiting.hold entry context, some (.releasing waiter),
      [.replied entry consumed]⟩
  | .releasing waiter, .go _ _ => some ⟨rows, awaiting.release waiter, none, []⟩
  | task, input =>
    (loopStep ctx rows awaiting task input).map fun next => ⟨rows, awaiting, next.1, next.2⟩

end Tasks

end Onlyne.Client
