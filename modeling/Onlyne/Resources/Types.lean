import Onlyne.Core.Mutate

/-!
# Resources: types and rows

The records of `resources.ts`: a resource with the binding of its handler, its event log, the operations
asked of it, the handovers of its binding, and the answers this node gave to the probes of others.

A store keeps one table for each kind of row, under the parts of the storage key that name the row.  What a
request carries as free data is a `Data`, a JSON value whose numbers are printed as numbers.  The shape
checks of a JSON body are the types here.
-/

namespace Onlyne.Resources

open Foundation List

/-! ## Data -/

abbrev Data := { value : Json // value.plain = true }

theorem field_plain {value found : Json} {name : String} (h : value.plain = true)
    (hfield : Core.field value name = some found) : found.plain = true := by
  cases value with
  | object =>
    obtain ⟨entry, hent, rfl⟩ := Option.map_eq_some_iff.mp hfield
    rw [Json.plain, plainFields_eq, all_eq_true] at h
    exact h entry (mem_of_find?_eq_some hent)
  | _ => cases hfield

def Data.field (data : Data) (name : String) : Option Data :=
  (Core.field data.1 name).pmap (fun value h => ⟨value, h⟩) fun _ hfield => field_plain data.2 hfield

section

variable (data : Option Data) (actor : NodeId) (name : String) (ref : ResourceRef) (request : OperationRequest)

def dataField : Option Data := data.bind (Data.field · name)

def stringField : Option String :=
  match (dataField data name).map Subtype.val with
  | some (.string value) => some value
  | _ => none

def optional : Option Json → List (String × Json)
  | none => []
  | some value => [(name, value)]

/-! ## Resources and events -/

structure ResourceRef where
  owner : NodeId
  id : String
  deriving DecidableEq, Repr

structure Binding where
  handler : NodeId
  cursor : String
  deriving DecidableEq, Repr

structure Resource where
  resourceRef : ResourceRef
  kind : String
  operations : List String
  binding : Binding
  logReaders : List NodeId
  revision : String
  eventSeq : String
  retentionMs : Int
  data : Option Data := none
  deriving DecidableEq, Repr

structure ResourceEvent where
  resourceRef : ResourceRef
  eventId : String
  sourceId : String
  data : Data
  received : String
  expiresAt : String
  expired : Bool
  deriving DecidableEq, Repr

structure AckReceipt where
  resourceRef : ResourceRef
  cursor : String
  deriving DecidableEq, Repr

/-! ## Operations -/

structure Mutation where
  idempotencyKey : String
  retryUntil : String
  deriving DecidableEq, Repr

structure OperationRequest extends Mutation where
  operationId : String
  operation : String
  expectedRevision : Option String := none
  data : Option Data := none
  deriving DecidableEq, Repr

inductive OperationState where
  | committed
  | pending
  | aborted
  | unknown
  deriving DecidableEq, Repr

def OperationState.final : OperationState → Bool
  | .committed | .aborted => true
  | .pending | .unknown => false

structure OperationResult where
  operationId : String
  state : OperationState
  data : Option Json := none
  error : Option Failure := none
  deriving DecidableEq, Repr

structure Settlement where
  state : OperationState
  data : Option Json := none
  error : Option Failure := none
  deriving DecidableEq, Repr

/-- The result of the operation `id` that an outcome settles. -/
def Settlement.result (outcome : Settlement) (id : String) : OperationResult :=
  ⟨id, outcome.state, outcome.data, outcome.error⟩

structure OperationRecord where
  actor : NodeId
  request : OperationRequest
  digest : String
  result : OperationResult
  resourceRef : ResourceRef
  acceptedAt : String
  authorizedRevision : String
  deriving DecidableEq, Repr

/-- The row of an operation; `settle` when a recovery pass still asks the driver about it. -/
structure Intent where
  record : OperationRecord
  settle : Bool
  deriving DecidableEq, Repr

/-! ## Handovers -/

inductive HandoverState where
  -- The only unfinished state.
  | open_
  | committed
  | aborted
  deriving DecidableEq, Repr

structure HandoverIntent where
  operationId : String
  resourceRef : ResourceRef
  initiator : NodeId
  target : NodeId
  kind : String
  operations : List String
  metadata : Option Data
  expectedRevision : String
  deadline : String
  cursor : String
  digest : String
  state : HandoverState
  deriving DecidableEq, Repr

/-- The probe an endpoint sends to the node it wants to become handler. -/
structure HandoverProbe where
  operationId : String
  resource : ResourceRef
  kind : String
  operations : List String
  metadata : Option Data
  initiator : NodeId
  cursor : String
  deadline : String
  deriving DecidableEq, Repr

inductive ProbeAnswer where
  | accept (cursor : String)
  | reject (reason : String)
  deriving DecidableEq, Repr

/-- The answer the target recorded, under the id of the operation alone. -/
structure ProbeRecord where
  sender : NodeId
  digest : String
  answer : ProbeAnswer
  deriving DecidableEq, Repr

/-! ## The store -/

/-- The rows of the resource service, and the idempotency rows of its acknowledgements. -/
structure Store where
  resource : Table ResourceRef Resource := ∅
  operation : Table (ResourceRef × String) Intent := ∅
  event : Table (ResourceRef × String) ResourceEvent := ∅
  source : Table (ResourceRef × String) String := ∅
  handover : Table (ResourceRef × String) HandoverIntent := ∅
  probe : Table String ProbeRecord := ∅
  idempotency : Table (NodeId × String × String) (String × AckReceipt) := ∅

structure Context extends Core.Context where
  node : NodeId
  -- `new Date(time).toISOString()`
  isoString : Int → String
  -- The host declares a resource driver.
  driver : Bool := true
  -- What a cursor text decodes to: the canonical text of its scope, and its position.
  readCursor : String → Cursor String

structure Clock where
  first : Int
  second : Int
  third : Int
  deriving DecidableEq, Repr

/-! ## JSON forms -/

def ResourceRef.json : Json :=
  .object [("owner", .string ref.owner), ("id", .string ref.id)]

def Resource.json (resource : Resource) : Json :=
  .object ([("resource_ref", resource.resourceRef.json), ("kind", .string resource.kind),
    ("operations", .array (resource.operations.map .string)),
    ("binding", .object [("handler", .string resource.binding.handler),
      ("cursor", .string resource.binding.cursor)]),
    ("log_readers", .array (resource.logReaders.map .string)),
    ("revision", .string resource.revision), ("event_seq", .string resource.eventSeq),
    ("retention_ms", .number (toString resource.retentionMs))] ++
    optional "data" (resource.data.map Subtype.val))

def ResourceEvent.json (event : ResourceEvent) : Json :=
  .object [("resource_ref", event.resourceRef.json), ("event_id", .string event.eventId),
    ("source_id", .string event.sourceId), ("data", event.data.1), ("at", .string event.received),
    ("expires_at", .string event.expiresAt), ("expired", .bool event.expired)]

def HandoverProbe.json (probe : HandoverProbe) : Json :=
  .object ([("operation_id", .string probe.operationId), ("resource", probe.resource.json),
    ("kind", .string probe.kind), ("operations", .array (probe.operations.map .string))] ++
    optional "metadata" (probe.metadata.map Subtype.val) ++
    [("initiator", .string probe.initiator), ("cursor", .string probe.cursor),
      ("deadline", .string probe.deadline)])

def ProbeAnswer.json : ProbeAnswer → Json
  | .accept cursor => .object [("answer", .string "accept"), ("cursor", .string cursor)]
  | .reject reason => .object [("answer", .string "reject"), ("reason", .string reason)]

def requestContent : Json :=
  .object ([("actor", .string actor), ("resource_ref", ref.json),
    ("operation", .string request.operation)] ++
    optional "expected_revision" (request.expectedRevision.map .string) ++
    optional "data" (request.data.map Subtype.val))

def digestOf : String :=
  stringify (requestContent actor ref request)

end

def HandoverProbe.digest (probe : HandoverProbe) : String := stringify probe.json

/-! ## Digests tell apart what they cover -/

variable {name : String} {ref ref' : ResourceRef} {request request' : OperationRequest}
  {entry : String × Json}

theorem optional_plain {value : Option Data} (h : entry ∈ optional name (value.map Subtype.val)) :
    entry.2.plain = true := by
  cases value with
  | none => cases h
  | some value =>
    cases mem_singleton.mp h
    exact value.2

theorem optional_string_plain {value : Option String}
    (h : entry ∈ optional name (value.map .string)) : entry.2.plain = true := by
  cases value with
  | none => cases h
  | some =>
    cases mem_singleton.mp h
    rfl

theorem ResourceRef.json_plain (ref : ResourceRef) : ref.json.plain = true := rfl

theorem ResourceRef.json_injective (h : ref.json = ref'.json) : ref = ref' := by
  cases ref
  cases ref'
  cases h
  rfl

theorem requestContent_plain (actor : NodeId) (ref : ResourceRef) (request : OperationRequest) :
    (requestContent actor ref request).plain = true := by
  rw [requestContent, Json.plain, plainFields_eq, all_append, all_append, Bool.and_eq_true,
    Bool.and_eq_true, all_eq_true, all_eq_true, all_eq_true]
  refine ⟨⟨?_, fun _ => optional_string_plain⟩, fun _ => optional_plain⟩
  simp [Json.plain, ref.json_plain]

theorem HandoverProbe.json_plain (probe : HandoverProbe) : probe.json.plain = true := by
  rw [HandoverProbe.json, Json.plain, plainFields_eq, all_append, all_append,
    Bool.and_eq_true, Bool.and_eq_true, all_eq_true, all_eq_true, all_eq_true]
  refine ⟨⟨?_, fun _ => optional_plain⟩, ?_⟩
  · simp [Json.plain, probe.resource.json_plain]
  · simp [Json.plain]

theorem digestOf_eq_iff {actor actor' : NodeId} : digestOf actor ref request = digestOf actor' ref' request' ↔
      requestContent actor ref request = requestContent actor' ref' request' := by
  constructor
  · exact stringify_injective (requestContent_plain _ _ _) (requestContent_plain _ _ _)
  · exact congrArg stringify

theorem operation_eq_of_content {actor actor' : NodeId}
    (h : requestContent actor ref request = requestContent actor' ref' request') :
    request.operation = request'.operation := by
  simp only [requestContent, Json.object.injEq, cons_append, List.cons.injEq, Prod.mk.injEq, Json.string.injEq] at h
  exact h.2.2.1.2

theorem HandoverProbe.digest_names {probe probe' : HandoverProbe} (h : probe.digest = probe'.digest) :
    probe.operationId = probe'.operationId ∧ probe.resource = probe'.resource := by
  have hjson := stringify_injective probe.json_plain probe'.json_plain h
  simp only [HandoverProbe.json, Json.object.injEq, cons_append, List.cons.injEq, Prod.mk.injEq,
    Json.string.injEq] at hjson
  exact ⟨hjson.1.2, ResourceRef.json_injective hjson.2.1.2⟩

end Onlyne.Resources
