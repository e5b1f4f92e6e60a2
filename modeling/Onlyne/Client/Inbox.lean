import Onlyne.Client.Awaited

/-!
# Client: the transactions of the inbound half

What `OnlyneClient` stores for an entry that is brought to its attention, and every transaction by which it
changes these rows: the merge of a row its owner lists, the acknowledgement, the settlement of an entry whose
resource went elsewhere, the confirmation of a consumption with the todo it owes, and the retry series of the
threads it reconciles.
-/

namespace Onlyne.Client

open Foundation
open Messages (Message MessageRef ThreadRef Entry Attention)
open Resources (ResourceRef)

structure InboundRows where
  inbox : Table String LocalAttention := ∅
  consumed : Table ContextSlot ConsumptionRecord := ∅
  todo : Table ContextSlot PendingTodo := ∅
  backoff : Table ThreadRef ReconcileBackoff := ∅
  -- When a trusted owner last answered.
  mark : Table NodeId Int := ∅

/-! ## Scans -/

section

variable (ctx : Context) (entry : Entry) (obligationId : String) (context : Option String) (rows : InboundRows)

def InboundRows.scanInbox : List LocalAttention :=
  (sortedBy (fun row : String × LocalAttention => key ["inbox", row.1]) rows.inbox.rows).map Prod.snd

def todoKey (slot : ContextSlot) : String :=
  key ["todo", slot.context, slot.threadRef.owner, slot.threadRef.id, toString slot.seq]

/-- The todos whose hook has not succeeded, in the order of their threads. -/
def InboundRows.owedTodos : List PendingTodo :=
  (((sortedBy (fun row : ContextSlot × PendingTodo => todoKey row.1) rows.todo.rows).map Prod.snd).filter
    fun row => !row.done).insertionSort fun a b => replayBefore (some a.entry) (some b.entry)

def InboundRows.queued : List LocalAttention :=
  rows.scanInbox.insertionSort fun a b => replayBefore a.attention.entry b.attention.entry

/-! ## Evidence -/

def attentionOf (recipient : NodeId) : Attention where
  obligationId := obligationId
  recipient := recipient
  threadRef := entry.threadRef
  seq := entry.seq
  messageRef := entry.message.ref
  authenticatedAuthor := entry.authenticatedAuthor
  acked := false
  entry := some entry

/-- Owner-authenticated evidence only: `owner` is the node the evidence came from, and `held` the copy this
node already has, used when the owner's row carries no body. -/
def attest (attention : Attention) (owner : NodeId) (held : Option Entry) : Bool :=
  attention.recipient = ctx.node && attention.threadRef.owner = owner &&
    match attention.entry.or held with
    | none => attention.expired
    | some entry =>
      entry.threadRef = attention.threadRef && entry.seq = attention.seq &&
        entry.message.ref = attention.messageRef &&
        entry.authenticatedAuthor = attention.authenticatedAuthor &&
        entry.message.sender = entry.authenticatedAuthor && entry.authenticatedAuthor ≠ ""

/-- Legal reply evidence already on this node for the original of a record. -/
def evidence (record : StoredOutbound) (rows : InboundRows) : Option Entry :=
  (sortedByNumber (fun entry : Entry => entry.seq) ((rows.scanInbox.filterMap fun row => row.attention.entry).filter
    fun entry => isReply record.slot entry && entry.authenticatedAuthor = record.expectedAuthor)).head?

/-! ## Arrival -/

/-- The transaction of `receive`. -/
def receiveTx : LocalAttention × InboundRows :=
  match rows.inbox.get obligationId with
  | some stored => (stored, rows)
  | none =>
    let record := { attention := attentionOf entry obligationId ctx.node, context := context }
    (record, { rows with inbox := rows.inbox.put obligationId record })

/-- The identity under which a row of an owner's list is stored. -/
def obligationIdOf (ref : ThreadRef) (attention : Attention) : String :=
  if attention.obligationId ≠ "" then attention.obligationId
  else key [ref.owner, ref.id, attention.messageRef.sender, attention.messageRef.id, ctx.node]

/-- A row of an owner's list over the local copy: an owner that strips the body never takes back the copy this
node holds. -/
def merged (previous : Option LocalAttention) (obligationId : String) (attention : Attention) : LocalAttention where
  attention := { attention with
    obligationId := obligationId
    entry := attention.entry.or (previous.bind fun row => row.attention.entry) }
  context := (previous.bind fun row => row.context).or (attention.plan.bind fun plan => plan.context)
  injected := previous.any fun row => row.injected
  settlement := previous.bind fun row => row.settlement
  resourceCheckFailures := previous.bind fun row => row.resourceCheckFailures

def sameAttention (previous : Option LocalAttention) (row : LocalAttention) : Bool :=
  previous.any fun previous => canonical (attentionJson previous.attention) = canonical (attentionJson row.attention)

/-- The transaction of `#store`; no record when the row is no evidence. -/
def storeTx (ref : ThreadRef) (attention : Attention) (rows : InboundRows) : Option LocalAttention × InboundRows :=
  let id := obligationIdOf ctx ref attention
  let previous := rows.inbox.get id
  if attest ctx attention ref.owner (previous.bind fun row => row.attention.entry) then
    if sameAttention previous (merged previous id attention) then (previous, rows)
    else (some (merged previous id attention),
      { rows with inbox := rows.inbox.put id (merged previous id attention) })
  else (none, rows)

/-- The transaction of `#ack`. -/
def ackTx : InboundRows :=
  match rows.inbox.get obligationId with
  | some stored =>
    if stored.attention.acked then rows
    else { rows with
      inbox := rows.inbox.put obligationId { stored with attention := { stored.attention with acked := true } } }
  | none => rows

/-! ## Settlement -/

/-- The resource an entry is about, when its author owns it. -/
def resourceRefOf : Option ResourceRef :=
  match (entry.message.routing.bind fun routing => routing.data).bind fun data =>
    Core.field data "resource_ref" with
  | some ref =>
    match Core.field ref "owner", Core.field ref "id" with
    | some (.string owner), some (.string id) =>
      if owner = entry.authenticatedAuthor then some ⟨owner, id⟩ else none
    | _, _ => none
  | none => none

def checkFailedTx : InboundRows :=
  match rows.inbox.get obligationId with
  | some current =>
    if current.injected then rows
    else { rows with
      inbox := rows.inbox.put obligationId
        { current with resourceCheckFailures := some (current.resourceCheckFailures.getD 0 + 1) } }
  | none => rows

/-- The settlement of an entry without its consumption, and whether it took effect. -/
def settleTx (settlement : AttentionSettlement) (rows : InboundRows) : Bool × InboundRows :=
  match rows.inbox.get obligationId with
  | some current =>
    if current.injected then (false, rows)
    else (true, { rows with
      inbox := rows.inbox.put obligationId { current with injected := true, settlement := some settlement } })
  | none => (false, rows)

/-! ## Consumption -/

/-- The context in which a reply to a message of this node is consumed. -/
def replyContext (outbound : Option StoredOutbound) : Option String :=
  outbound.bind fun outbound =>
    if outbound.expectedAuthor = entry.authenticatedAuthor && isReply outbound.slot entry then
      some (outbound.localContext.getD ctx.node)
    else none

/-- The context is the reply's, then the obligation's own, then the plan's, then this node. -/
def requestedContext (record : LocalAttention) (outbound : Option StoredOutbound) : String :=
  (((replyContext ctx entry outbound).or record.context).or
    (record.attention.plan.bind fun plan => plan.context)).getD ctx.node

/-- The named context already confirmed this entry through any delivery path. -/
def alreadyConsumed (context : String) (rows : InboundRows) : Bool :=
  (rows.consumed.get (contextSlot context entry)).any fun record => record.confirmed

def LocalAttention.isOf (row : LocalAttention) (entry : Entry) : Bool :=
  row.attention.entry.any fun held => held.threadRef = entry.threadRef && held.seq = entry.seq

/-- The row after the consumption of an entry: it keeps the context the entry landed in. -/
def LocalAttention.confirmed (row : LocalAttention) : LocalAttention :=
  if row.isOf entry && row.settlement.isNone && !row.injected then
    { row with injected := true, context := row.context.or context }
  else row

/-- Where an entry counts as consumed: the confirmed context, then the one it landed in, then this node.  An
entry all of whose rows are settled is not consumed any more. -/
def consumedIn : Option String :=
  let found := rows.scanInbox.filter fun row => row.isOf entry
  let consumable := found.filter fun row => row.settlement.isNone
  if !found.isEmpty && consumable.isEmpty then none
  else some ((context.or (consumable.findSome? fun row => row.context)).getD ctx.node)

/-- The todo a consumption owes.  A host without a todo hook owes none. -/
def oweTodo (context : String) (todo : Table ContextSlot PendingTodo) : Table ContextSlot PendingTodo :=
  if ctx.runtime && ctx.todo && (todo.get (contextSlot context entry)).isNone then
    todo.put (contextSlot context entry) ⟨entry, context, false⟩
  else todo

/-- The transaction of `confirmConsumption`, and where the entry counts as consumed. -/
def confirmTx (via : Via) (now : Int) (rows : InboundRows) : Option String × InboundRows :=
  match consumedIn ctx entry context rows with
  | none => (none, rows)
  | some place =>
    (some place, { rows with
      inbox := rows.inbox.mapValues (LocalAttention.confirmed entry context)
      consumed :=
        if alreadyConsumed entry place rows then rows.consumed
        else rows.consumed.put (contextSlot place entry) ⟨true, via, now⟩
      todo := oweTodo ctx entry place rows.todo })

def todoOwed (context : String) (rows : InboundRows) : Bool :=
  (rows.todo.get (contextSlot context entry)).any fun todo => !todo.done

def todoDoneTx (context : String) (rows : InboundRows) : InboundRows :=
  match rows.todo.get (contextSlot context entry) with
  | some current => { rows with todo := rows.todo.put (contextSlot context entry) { current with done := true } }
  | none => rows

end

/-! ## Reconciliation -/

/-- One failed attempt of the series of a thread; one that reaches the limit parks the thread. -/
def reportTx (ref : ThreadRef) (failure : Failure) (now : Int) (rows : InboundRows) : InboundRows :=
  let attempt := ((rows.backoff.get ref).map fun previous => previous.attempt).getD 0 + 1
  { rows with backoff := rows.backoff.put ref ⟨attempt, now + backoffMs attempt, failure, maxAttempts ≤ attempt⟩ }

/-- A trusted owner answered: the retry series of its threads start over. -/
def peerAnsweredTx (peer : NodeId) (now : Int) (rows : InboundRows) : InboundRows :=
  { rows with
    mark := rows.mark.put peer now
    backoff := rows.backoff.deleteWhere fun ref _ => ref.owner = peer }

/-- The trusted owners that are to be asked for their memberships again. -/
def duePeers (peers : List NodeId) (now : Int) (rows : InboundRows) : List NodeId :=
  peers.filter fun peer => (rows.mark.get peer).all fun asked => grantResyncMs ≤ now - asked

/-- Every thread this node knows: from accepted grant notices, and its own. -/
def knownRefs (granted owned : List ThreadRef) : List ThreadRef := (granted ++ owned).eraseDups

/-! ## The message service of this node

Two of its transactions write rows of the inbox: the admission of an entry for this node, and the change of an
obligation by an acknowledgement or the end of its retention. -/

/-- The local copy of an obligation towards this node, unless it has one. -/
def admittedTx (attention : Attention) (context : Option String) (rows : InboundRows) : InboundRows :=
  if (rows.inbox.get attention.obligationId).isSome then rows
  else { rows with inbox := rows.inbox.put attention.obligationId { attention := attention, context := context } }

def revisedTx (attention : Attention) (rows : InboundRows) : InboundRows :=
  match rows.inbox.get attention.obligationId with
  | some current =>
    { rows with inbox := rows.inbox.put attention.obligationId { current with attention := attention } }
  | none => rows

end Onlyne.Client
