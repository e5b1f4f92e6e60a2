import Onlyne.Foundation.Run
import Onlyne.Messages.Reads

/-!
# Messages: the calls of a node

The `ack` and `expire` calls of `messages.ts`, and the system the message and thread services form:
a state is the store, an act is a call with everything it is given from outside.  Every call reads
and writes the store in one transaction, so an interleaving of calls is a sequence of their
transactions.
-/

namespace Onlyne.Messages

open Foundation

/-! ## Acknowledgement -/

section Work

variable {D : Type}

section

variable (ctx : Context D) (ref : ThreadRef) (beforeSeq : String) (tx : Store D)

/-- The local copy of an obligation follows its attention row. -/
def updateInbox (obligationId : String) (attention : Attention) : Store D :=
  match tx.inbox.get obligationId with
  | none => tx
  | some row => { tx with inbox := tx.inbox.put obligationId { row with attention := attention } }

/-- The work of `ack`. -/
def ackWork (auth : Auth) (ref : ThreadRef) (id : String) (tx : Store D) : Except Halt (Result × Store D) := do
  let _ ← loadThread ctx tx ref
  let attention ← requireValue (tx.attention.get (ref, id))
  failIf (attention.recipient ≠ auth.actor) .notFound
    "This attention obligation is not addressed to the caller."
  let acked := { attention with acked := true }
  .ok (.acked, updateInbox { tx with attention := tx.attention.put (ref, id) acked } id acked)

def canonicalRef : String :=
  "\x7b\"id\":" ++ quote ref.id ++ ",\"owner\":" ++ quote ref.owner ++ "\x7d"

/-! ## Expiry -/

def stripAttention (identity : MessageRef) (row : (ThreadRef × String) × Attention) : Store D :=
  if row.2.messageRef ≠ identity || row.2.expired then tx
  else
    let stripped := { row.2 with entry := none, expired := true }
    updateInbox { tx with attention := tx.attention.put row.1 stripped } row.2.obligationId stripped

/-- Expire one entry below the position: its record becomes a tombstone that keeps the digest and the
window, never the body. -/
def expireRow (now : Int) (tx : Store D) (row : (ThreadRef × Nat) × Entry) : Except Halt (Store D) := do
  let before ← checked (decimal beforeSeq)
  let identity := row.2.message.ref
  if row.2.seq ≥ before then .ok tx
  else
    let record ← requireValue (tx.message.get identity)
    failIf (after ctx record.retryUntil now) .conflict "The replay window is still open."
    let buried := { tx with
      message := tx.message.put identity ⟨record.digest, .tombstone, record.retryUntil⟩
      entry := tx.entry.delete row.1
      entryRef := tx.entryRef.delete identity }
    .ok ((attentionRows buried row.1.1).foldl (fun rows => stripAttention rows identity) buried)

/-- The transaction of `expire`; `now` is the clock at the row of each number. -/
def expireTx (now : Nat → Int) (tx : Store D) : Except Halt (Store D) := do
  let _ ← loadThread ctx tx ref
  (entryRows tx ref).foldlM (fun rows row => expireRow ctx beforeSeq (now row.1.2) rows row) tx

end

def expire (ctx : Context D) (store : Store D) (auth : Auth) (ref : ThreadRef) (beforeSeq : String)
    (now : Nat → Int) : Except Halt (Store D) := do
  ctx.owner ref.owner
  failIf (auth.actor ≠ ctx.node) .forbidden "Only the owner may expire history."
  expireTx ctx ref beforeSeq now store

end Work

/-! ## The system -/

inductive Call where
  | admitRequest (auth : Auth) (request : SendRequest) (input : AdmitInput)
  | create (auth : Auth) (mutation : Mutation) (title : String) (id : Option String)
      (default : Bool) (input : MutateInput)
  | close (auth : Auth) (ref : ThreadRef) (mutation : Mutation) (input : MutateInput)
  | member (auth : Auth) (ref : ThreadRef) (peer : NodeId) (patch : MemberPatch)
      (mutation : Mutation) (input : MutateInput)
  | permits (auth : Auth) (permit : ReplyPermit) (mutation : Mutation) (input : MutateInput)
  | ackGrant (auth : Auth) (id : String) (mutation : Mutation) (input : MutateInput)
  | ack (auth : Auth) (ref : ThreadRef) (id : String) (mutation : Mutation) (input : MutateInput)
  -- The read that strips what it may not show.
  | attention (auth : Auth) (ref : ThreadRef) (options : PageOptions Scope)
  | expire (auth : Auth) (ref : ThreadRef) (beforeSeq : String) (now : Nat → Int)
  -- The sending side of the node writes or drops one of its rows.
  | outbound (ref : MessageRef) (row : Option Outbound)

inductive Answer where
  | receipt (value : Receipt)
  | result (value : Result)
  | attention (value : Page Attention Scope)
  | expiredBefore (seq : String)
  | done

/-- A transaction that throws leaves the rows as they were. -/
def transaction {D α : Type} (store : Store D) (answer : α → Answer) :
    Except Halt (α × Store D) → Option (Except Thrown Answer × Store D)
  | .error .looping => none
  | .error (.threw thrown) => some (.error thrown, store)
  | .ok (value, store') => some (.ok (answer value), store')

section Calls

variable {D : Type} [DecidableEq D]

def ack (ctx : Context D) (store : Store D) (auth : Auth) (ref : ThreadRef) (id : String)
    (mutation : Mutation) (input : MutateInput) : Except Halt (Result × Store D) :=
  mutate ctx store auth ("attention-ack/" ++ canonicalRef ref ++ "/" ++ id) mutation .ack input
    (ackWork ctx auth ref id)

/-- The answer of a call and the rows it leaves, or nothing while a loop of it is running. -/
def perform (ctx : Context D) (store : Store D) : Call → Option (Except Thrown Answer × Store D)
  | .admitRequest auth request input =>
    (Messages.admitRequest ctx store auth request input).map fun r => (r.1.map Answer.receipt, r.2)
  | .create auth mutation title id default input =>
    transaction store .result (Messages.create ctx store auth mutation title id default input)
  | .close auth ref mutation input =>
    transaction store .result (Messages.close ctx store auth ref mutation input)
  | .member auth ref peer patch mutation input =>
    transaction store .result (Messages.member ctx store auth ref peer patch mutation input)
  | .permits auth permit mutation input =>
    transaction store .result (Messages.permits ctx store auth permit mutation input)
  | .ackGrant auth id mutation input =>
    transaction store .result (Messages.ackGrant ctx store auth id mutation input)
  | .ack auth ref id mutation input =>
    transaction store .result (Messages.ack ctx store auth ref id mutation input)
  | .attention auth ref options =>
    transaction store .attention (Messages.attention ctx store auth ref options)
  | .expire auth ref beforeSeq now =>
    transaction store (fun _ => .expiredBefore beforeSeq)
      ((Messages.expire ctx store auth ref beforeSeq now).map fun store' => ((), store'))
  | .outbound ref row =>
    let outbound := match row with
      | some value => store.outbound.put ref value
      | none => store.outbound.delete ref
    some (.ok .done, { store with outbound := outbound })

def step (ctx : Context D) (store : Store D) (call : Call) : Option (Store D) :=
  (perform ctx store call).map Prod.snd

end Calls

/-! ## Scenarios -/

namespace Scenario

/-- The node `n`, whose digest is the digested value itself. -/
def context : Context Digested where
  node := "n"
  guarantee := .durable
  dateParse text := if text = "2030-01-01T00:00:00Z" then some 100 else none
  toISOString _ := some "1970-01-01T00:00:00.000Z"
  fingerprint := id

/-- A message of `b`, to a thread or to whoever answers for the node. -/
def message (id msg : String) (thread : Option ThreadRef := none) : Message where
  id := id
  sender := "b"
  deliveryKind := "note"
  msg := msg
  routing := thread.map fun ref => { thread := some ref }

/-- The request of `b` to admit a message. -/
def request (key : String) (message : Message) : SendRequest where
  idempotencyKey := key
  retryUntil := "2030-01-01T00:00:00Z"
  message := message
  targetEndpoint := "n"
  plan := { response := .known .async, execution := .known .existing }

/-- An owner that welcomes first contacts into the thread `u`. -/
def welcoming : AdmitInput where
  inboundThread := some (.ok true)
  windowStart := 0
  windowEnd := 0
  landingNow := 0
  permitNow := 0
  createdNow := 0
  entryNow := 0
  revision := "rev"
  receiptId := "receipt"
  uuids := ["u"]

def contactRef : ThreadRef := ⟨"n", "u"⟩

/-- `b` sends a message. -/
def sends (key : String) (message : Message) (input : AdmitInput := welcoming) : Call :=
  .admitRequest { actor := "b" } (request key message) input

end Scenario

end Onlyne.Messages
