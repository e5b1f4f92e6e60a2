import Onlyne.Core.Text
import Onlyne.Foundation.Table

/-!
# Messages: data model

The records of `types.ts` that the message and thread services store, the rows of the store, and
what a call is given from outside: the configuration, the digest, clock readings, drawn
identifiers and the answers of the host's hooks.

Rows are keyed by the parts of their storage key, and positions (`seq`, `next_seq`, `event_seq`,
event ids) are natural numbers: the source keeps them as decimal strings and only ever parses,
compares and increments them.
-/

namespace Onlyne.Messages

open Foundation

/-! ## References -/

structure ThreadRef where
  owner : NodeId
  id : String
  deriving DecidableEq, Repr

structure MessageRef where
  sender : NodeId
  id : String
  deriving DecidableEq, Repr

/-- A value of a closed list as it arrives: one of the list, or any other text. -/
inductive Wire (α : Type) where
  | known (value : α)
  | unknown (text : String)
  deriving DecidableEq, Repr

/-! ## Requests -/

/-- The authenticated caller, and whom it may represent. -/
structure Auth where
  actor : NodeId
  sender : Option NodeId := none
  replyAuthority : Option NodeId := none
  deriving DecidableEq, Repr

inductive Relation where
  | reply
  | followup
  deriving DecidableEq, Repr

structure Meta where
  thread : Option ThreadRef := none
  inReplyTo : Option MessageRef := none
  relation : Option Relation := none
  mentions : Option (List String) := none
  parts : Option (List Json) := none
  data : Option Json := none
  deriving DecidableEq, Repr

structure Message where
  id : String
  sender : NodeId
  deliveryKind : String
  msg : String
  routing : Option Meta := none
  deriving DecidableEq, Repr

def Message.ref (message : Message) : MessageRef := ⟨message.sender, message.id⟩

def Message.inReplyTo (message : Message) : Option MessageRef := message.routing.bind Meta.inReplyTo

def Message.relation (message : Message) : Option Relation := message.routing.bind Meta.relation

inductive ResponseMode where
  | none
  | async
  | await
  deriving DecidableEq, Repr

inductive ExecutionMode where
  | existing
  | new
  deriving DecidableEq, Repr

structure DeliveryPlan where
  response : Wire ResponseMode
  execution : Wire ExecutionMode
  context : Option String := none
  deriving DecidableEq, Repr

/-- The key that makes a call repeatable, and how long the caller may repeat it. -/
structure Mutation where
  idempotencyKey : String
  retryUntil : String
  deriving DecidableEq, Repr

structure SendRequest extends Mutation where
  message : Message
  targetEndpoint : NodeId
  plan : DeliveryPlan
  deriving DecidableEq, Repr

/-! ## Stored records -/

inductive Guarantee where
  | durable
  | bindingDefined
  deriving DecidableEq, Repr

structure Receipt where
  messageRef : MessageRef
  receiptId : String
  guarantee : Guarantee
  threadRef : ThreadRef
  seq : Nat
  plan : DeliveryPlan
  threadCreated : Bool
  previousSeq : Int
  inReplyTo : Option MessageRef
  deriving DecidableEq, Repr

structure Entry where
  threadRef : ThreadRef
  seq : Nat
  message : Message
  authenticatedAuthor : NodeId
  replyAuthority : NodeId
  stampedAt : String
  deriving DecidableEq, Repr

inductive ThreadState where
  | opened
  | closed
  deriving DecidableEq, Repr

/-- A thread row: the next sequence number and the last event id. -/
structure Thread where
  threadRef : ThreadRef
  title : String
  state : ThreadState
  nextSeq : Nat
  eventSeq : Nat
  createdAt : String
  closedAt : Option String
  deriving DecidableEq, Repr

inductive MemberState where
  | requested
  | active
  | revoked
  | denied
  deriving DecidableEq, Repr

inductive Access where
  | read
  | post
  deriving DecidableEq, Repr

structure ReadScope where
  peers : Option (List NodeId) := none
  sinceSeq : Option String := none
  relatedTo : Option MessageRef := none
  deriving DecidableEq, Repr

structure Member where
  peer : NodeId
  state : MemberState
  access : List Access
  readScope : ReadScope
  revision : String
  deriving DecidableEq, Repr

/-- The notice an owner keeps until the recipient confirms its membership. -/
structure Grant where
  id : String
  recipient : NodeId
  threadRef : ThreadRef
  revision : String
  acked : Bool
  deriving DecidableEq, Repr

inductive EventBody where
  | message (ref : MessageRef) (seq : Nat)
  | membership (member : Member)
  | threadClosed
  deriving DecidableEq, Repr

structure Event where
  id : Nat
  threadRef : ThreadRef
  body : EventBody
  deriving DecidableEq, Repr

/-- Leave to answer one message without being a member. -/
structure ReplyPermit where
  messageRef : MessageRef
  grantee : NodeId
  landing : ThreadRef
  expiresAt : String
  remaining : Int
  revoked : Bool
  followup : Bool
  deriving DecidableEq, Repr

/-- The obligation to bring an entry to the attention of a recipient.  `expired` is the disposition:
only the tombstone is left. -/
structure Attention where
  obligationId : String
  recipient : NodeId
  threadRef : ThreadRef
  seq : Nat
  messageRef : MessageRef
  authenticatedAuthor : NodeId
  acked : Bool
  expired : Bool := false
  plan : Option DeliveryPlan := none
  entry : Option Entry := none
  deriving DecidableEq, Repr

structure LocalAttention where
  attention : Attention
  context : Option String
  injected : Bool
  deriving DecidableEq, Repr

/-- A message this node sent, as far as a reply to it is routed by it. -/
structure Outbound where
  request : SendRequest
  expectedAuthor : NodeId
  deriving DecidableEq, Repr

/-- What is remembered of an identity: its receipt, a refusal, or that its entry has expired. -/
inductive Verdict where
  | admitted (receipt : Receipt)
  | refused (failure : Failure)
  | tombstone
  deriving DecidableEq, Repr

structure Remembered (D : Type) where
  digest : D
  verdict : Verdict
  retryUntil : String
  deriving DecidableEq

/-- The request an idempotency key of a sender is bound to. -/
structure Binding (D : Type) where
  digest : D
  identity : MessageRef
  deriving DecidableEq

inductive Result where
  | thread (value : Thread)
  | member (value : Member)
  | grant (value : Grant)
  | permit (value : ReplyPermit)
  | acked
  deriving DecidableEq, Repr

structure Answered (D : Type) where
  digest : D
  result : Result
  deriving DecidableEq

structure Store (D : Type) where
  thread : Table ThreadRef Thread := ∅
  entry : Table (ThreadRef × Nat) Entry := ∅
  entryRef : Table MessageRef Entry := ∅
  message : Table MessageRef (Remembered D) := ∅
  messageKey : Table (NodeId × String) (Binding D) := ∅
  event : Table (ThreadRef × Nat) Event := ∅
  member : Table (ThreadRef × NodeId) Member := ∅
  permit : Table (MessageRef × NodeId) ReplyPermit := ∅
  attention : Table (ThreadRef × String) Attention := ∅
  inbox : Table String LocalAttention := ∅
  notice : Table String Grant := ∅
  default : Table NodeId ThreadRef := ∅
  outbound : Table MessageRef Outbound := ∅
  idempotency : Table (NodeId × String × String) (Answered D) := ∅

/-! ## Digests -/

/-- The part of a membership row a caller may ask for. -/
structure MemberPatch where
  state : Option (Wire MemberState) := none
  access : Option (List (Wire Access)) := none
  readScope : Option ReadScope := none
  -- The names of the scope that are none of the known ones.
  unknownScope : List String := []
  revision : Option String := none
  deriving DecidableEq, Repr

inductive Body where
  | create (title : String) (id : Option String) (default : Bool)
  | close (ref : ThreadRef)
  | member (ref : ThreadRef) (peer : NodeId) (patch : MemberPatch)
  | permit (value : ReplyPermit)
  | ack
  | ackGrant (id : String)
  deriving DecidableEq, Repr

inductive Digested where
  | request (message : Message) (targetEndpoint : NodeId) (plan : DeliveryPlan) (retryUntil : String)
  | content (message : Message) (targetEndpoint : NodeId)
  | mutation (body : Body) (retryUntil : String)
  deriving DecidableEq, Repr

/-- What a node is set up with.  `dateParse` and `toISOString` are the platform's, with no value where
`Date.parse` is `NaN` and where `toISOString` throws; `fingerprint` is the digest of the canonical
form of a value. -/
structure Context (D : Type) where
  node : NodeId
  retryMaxMs : Int := 86400000
  guarantee : Guarantee
  dateParse : String → Option Int
  toISOString : Int → Option String
  fingerprint : Digested → D

/-! ## Stopped calls -/

/-- Why a call does not get to its result: it throws, or a loop of it has not ended. -/
inductive Halt where
  | threw (thrown : Thrown)
  | looping

/-- The `fail` of `core.ts`. -/
def fail {α : Type} (code : ErrorCode) (message : String) : Except Halt α :=
  .error (.threw (.onlyne (onlyneError code message)))

/-- A check: `if (condition) fail(code, message)`. -/
def failIf (condition : Bool) (code : ErrorCode) (message : String) : Except Halt Unit :=
  if condition then fail code message else .ok ()

/-- The value of a helper that fails with an `OnlyneError`. -/
def checked {α : Type} : Except Failure α → Except Halt α
  | .ok value => .ok value
  | .error failure => .error (.threw (.onlyne failure))

def asked {α : Type} : Except Thrown α → Except Halt α
  | .ok value => .ok value
  | .error thrown => .error (.threw thrown)

/-- The `requireValue` of `core.ts`. -/
def requireValue {α : Type} : Option α → Except Halt α
  | some value => .ok value
  | none => fail .notFound "The requested record is unavailable."

/-! A call that gets to its result has passed every check on the way. -/

@[simp] theorem fail_ne_ok {α : Type} {code : ErrorCode} {message : String} {a : α} : fail code message ≠ .ok a := by
  simp [fail]

@[simp] theorem fail_ne_looping {α : Type} {code : ErrorCode} {message : String} :
    (fail code message : Except Halt α) ≠ .error .looping := by
  simp [fail]

theorem failIf_bind_ne_looping {α : Type} {condition : Bool} {code : ErrorCode} {message : String}
    {rest : Except Halt α} (h : rest ≠ .error .looping) :
    (failIf condition code message >>= fun _ => rest) ≠ .error .looping := by
  cases condition with
  | false => exact h
  | true => exact fail_ne_looping

@[simp] theorem failIf_eq_ok {condition : Bool} {code : ErrorCode} {message : String} {u : Unit} :
    failIf condition code message = .ok u ↔ condition = false := by
  cases condition <;> simp [failIf]

@[simp] theorem checked_eq_ok {α : Type} {outcome : Except Failure α} {a : α} :
    checked outcome = .ok a ↔ outcome = .ok a := by
  cases outcome <;> simp [checked]

@[simp] theorem requireValue_eq_ok {α : Type} {value : Option α} {a : α} :
    requireValue value = .ok a ↔ value = some a := by
  cases value <;> simp [requireValue]

namespace Context

variable {D : Type}

def owner (ctx : Context D) (owner : NodeId) : Except Halt Unit :=
  failIf (owner ≠ ctx.node) .forbidden "This node does not serve the requested owner."

/-- The admission window must end after now and within the supported maximum; the clock is read twice. -/
def deadline (ctx : Context D) (first second : Int) (retryUntil : String) : Except Halt Unit := do
  let time ← checked (utc ctx.dateParse retryUntil)
  failIf (time ≤ first) .retryWindowExpired "The admission window expired."
  failIf (time > second + ctx.retryMaxMs) .invalidRequest
    "The admission window exceeds the supported maximum."

/-- A time stamp; the platform throws when the clock is out of the range of dates. -/
def stamp (ctx : Context D) (now : Int) : Except Halt String :=
  match ctx.toISOString now with
  | some text => .ok text
  | none => .error (.threw (.other "RangeError: Invalid time value"))

end Context

end Onlyne.Messages
