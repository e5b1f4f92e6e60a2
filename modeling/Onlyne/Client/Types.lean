import Mathlib.Algebra.Group.Nat.Defs
import Onlyne.Messages.Types
import Onlyne.Resources.Types

/-!
# Client: data model

The records of `types.ts` and `delivery.ts` that `OnlyneClient` stores, the digests it compares, and the bounds
of its retry series.

An instant is a number of milliseconds: the source keeps it as a UTC text that it makes with `toISOString` and
reads with `utc`, which are inverse to each other.  A receipt is the JSON value the storing endpoint answered,
which nobody checks.
-/

namespace Onlyne.Client

open Foundation
open Messages (Message MessageRef ThreadRef Entry Attention DeliveryPlan Wire Relation)
open Resources (ResourceRef optional)

/-! ## Configuration -/

structure Context where
  node : NodeId
  -- The host supplies a runtime, and a todo hook with it.
  runtime : Bool := true
  todo : Bool := true
  -- `options.retry_max_ms`
  retryMaxMs : Int := 86400000

/-- Attempts one series makes before its record becomes a dead letter. -/
def maxAttempts : Nat := 10

def maxCursorPages : Nat := 10000

/-- A trusted owner is asked for the memberships it holds for this node at most this often. -/
def grantResyncMs : Int := 300000

def retryBaseMs : Nat := 24000

def retryMaxMs : Nat := 900000

/-- The delay before attempt number `attempt` of one series. -/
def backoffMs (attempt : Nat) : Int := (min (retryBaseMs * 2 ^ (attempt - 1)) retryMaxMs : Nat)

/-! ## Failures -/

/-- Codes the peer records as a terminal refusal before acceptance. -/
def terminal : ErrorCode → Bool
  | .invalidRequest | .forbidden | .notAMember | .notFound | .idConflict | .revisionConflict | .conflict
  | .threadClosed | .retryWindowExpired | .payloadTooLarge | .unsupportedMediaType | .unsupportedDelivery
  | .ambiguousTarget | .ambiguousResource => true
  | _ => false

/-- The failure a thrown value carries; any other value is a transport that failed without a response. -/
def failureOf : Thrown → Failure
  | .onlyne failure => failure
  | .other text => ⟨.unavailable, text, true, none⟩

/-! ## Outbound records -/

/-- What this node knows of the admission of a message it sent. -/
inductive SendState where
  | pending
  | accepted
  | refused
  | unknown
  -- The dead letter of a bounded retry series.
  | unreachable
  deriving DecidableEq, Repr

/-- Anything that is not a recorded refusal leaves the admission unknown. -/
def admissionOf (failure : Failure) : SendState :=
  if !failure.retryable && terminal failure.code then .refused else .unknown

structure SendRequest where
  idempotencyKey : String
  retryUntil : Int
  message : Message
  targetEndpoint : NodeId
  plan : DeliveryPlan
  deriving DecidableEq, Repr

structure StoredOutbound where
  request : SendRequest
  expectedAuthor : NodeId
  state : SendState
  receipt : Option Json := none
  error : Option Failure := none
  createdAt : Option Int := none
  addressee : Option NodeId := none
  requested : Option String := none
  -- Failed attempts in the current retry series, and when the next one is due.
  attempt : Option Nat := none
  nextAttempt : Option Int := none
  digest : Option String := none
  -- The sender's own consumption identity for the awaited reply.
  localContext : Option String := none
  deriving DecidableEq, Repr

def StoredOutbound.slot (record : StoredOutbound) : MessageRef := record.request.message.ref

/-! ## Inbound records -/

/-- Why the delivery of an entry ended without its consumption. -/
inductive AttentionSettlement where
  | handover (resourceRef : ResourceRef) (handler : NodeId) (revision : String) (settledAt : Int)
  | undeliverable (resourceRef : ResourceRef) (settledAt : Int)
  deriving DecidableEq, Repr

structure LocalAttention where
  attention : Attention
  context : Option String := none
  injected : Bool := false
  settlement : Option AttentionSettlement := none
  resourceCheckFailures : Option Nat := none
  deriving DecidableEq, Repr

inductive Via where
  | toolResult
  | fragment
  deriving DecidableEq, Repr

/-- An entry in a context: the slot of its consumption and of the todo it owes. -/
structure ContextSlot where
  context : String
  threadRef : ThreadRef
  seq : Nat
  deriving DecidableEq, Repr

def contextSlot (context : String) (entry : Entry) : ContextSlot := ⟨context, entry.threadRef, entry.seq⟩

structure ConsumptionRecord where
  confirmed : Bool
  via : Via
  confirmedAt : Int
  deriving DecidableEq, Repr

structure PendingTodo where
  entry : Entry
  context : String
  done : Bool
  deriving DecidableEq, Repr

/-- The bounded retry series for one known thread that reconciliation could not pull. -/
structure ReconcileBackoff where
  attempt : Nat
  nextAttempt : Int
  failure : Failure
  dead : Bool
  deriving DecidableEq, Repr

/-! ## Digests -/

def threadJson (ref : ThreadRef) : Json := .object [("owner", .string ref.owner), ("id", .string ref.id)]

def messageRefJson (ref : MessageRef) : Json := .object [("sender", .string ref.sender), ("id", .string ref.id)]

def relationJson : Relation → Json
  | .reply => .string "reply"
  | .followup => .string "followup"

def textsJson (texts : List String) : Json := .array (texts.map .string)

/-- Request identity for one delivery.  The plan, the idempotency key and `retry_until` describe delivery, not
the message. -/
def messageDigest (request : SendRequest) : String :=
  let routing := request.message.routing
  canonical (.object [
    ("sender", .string request.message.sender),
    ("target_endpoint", .string request.targetEndpoint),
    ("thread_ref", ((routing.bind fun r => r.thread).map threadJson).getD .null),
    ("in_reply_to", ((routing.bind fun r => r.inReplyTo).map messageRefJson).getD .null),
    ("relation", ((routing.bind fun r => r.relation).map relationJson).getD .null),
    ("mentions", ((routing.bind fun r => r.mentions).map textsJson).getD .null),
    ("delivery_kind", .string request.message.deliveryKind),
    ("msg", .string request.message.msg),
    ("parts", ((routing.bind fun r => r.parts).map .array).getD .null),
    ("data", (routing.bind fun r => r.data).getD .null)])

def metaJson (routing : Messages.Meta) : Json :=
  .object (optional "thread" (routing.thread.map threadJson) ++
    optional "in_reply_to" (routing.inReplyTo.map messageRefJson) ++
    optional "relation" (routing.relation.map relationJson) ++
    optional "mentions" (routing.mentions.map textsJson) ++
    optional "parts" (routing.parts.map .array) ++ optional "data" routing.data)

def messageJson (message : Message) : Json :=
  .object ([("id", .string message.id), ("sender", .string message.sender),
    ("delivery_kind", .string message.deliveryKind), ("msg", .string message.msg)] ++
    optional "meta" (message.routing.map metaJson))

def entryJson (entry : Entry) : Json :=
  .object [("thread_ref", threadJson entry.threadRef), ("seq", .string (toString entry.seq)),
    ("message", messageJson entry.message), ("authenticated_author", .string entry.authenticatedAuthor),
    ("reply_authority", .string entry.replyAuthority), ("at", .string entry.stampedAt)]

def responseJson : Wire Messages.ResponseMode → Json
  | .known .none => .string "none"
  | .known .async => .string "async"
  | .known .await => .string "await"
  | .unknown text => .string text

def executionJson : Wire Messages.ExecutionMode → Json
  | .known .existing => .string "existing"
  | .known .new => .string "new"
  | .unknown text => .string text

def planJson (plan : DeliveryPlan) : Json :=
  .object ([("response", responseJson plan.response), ("execution", executionJson plan.execution)] ++
    optional "context" (plan.context.map .string))

def attentionJson (attention : Attention) : Json :=
  .object ([("obligation_id", .string attention.obligationId), ("recipient", .string attention.recipient),
    ("thread_ref", threadJson attention.threadRef), ("seq", .string (toString attention.seq)),
    ("message_ref", messageRefJson attention.messageRef),
    ("authenticated_author", .string attention.authenticatedAuthor), ("acked", .bool attention.acked)] ++
    optional "disposition" (if attention.expired then some (.string "expired") else none) ++
    optional "plan" (attention.plan.map planJson) ++ optional "entry" (attention.entry.map entryJson))

/-! ## Replies -/

/-- A legitimate reply to `original`: same reference, reply relation, a different authenticated author. -/
def isReply (original : MessageRef) (entry : Entry) : Bool :=
  entry.message.inReplyTo = some original &&
    (entry.message.relation = none || entry.message.relation = some .reply) &&
    entry.authenticatedAuthor ≠ original.sender

/-- Replay order is the thread's own: owner, id, then the sequence as a number. -/
def replayBefore : Option Entry → Option Entry → Bool
  | none, _ => true
  | some _, none => false
  | some a, some b =>
    if a.threadRef.owner ≠ b.threadRef.owner then textLt a.threadRef.owner b.threadRef.owner
    else if a.threadRef.id ≠ b.threadRef.id then textLt a.threadRef.id b.threadRef.id
    else a.seq ≤ b.seq

end Onlyne.Client
