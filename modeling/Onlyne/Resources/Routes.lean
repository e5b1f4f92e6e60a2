import Onlyne.Resources.Service

/-!
# Resources: the bodies of requests

What `routes/shared.ts` makes of the JSON body of an operation or of a handover probe: fields are taken by
name and checked, unknown ones are refused, and only the free data of an operation and the metadata of a probe
are passed on as they are.  The second half says what the order of the fields in a body can change: nothing
but the order inside what is passed on.
-/

namespace Onlyne.Resources

open Foundation List Option
open Core (field throws)

namespace Routes

/-! ## Checks -/

def invalidRequest (message : String) : Thrown := throws .invalidRequest message

def member (value : Data) (name : String) : Option Json := field value.1 name

def names : Json → Option (List String)
  | .object fields => some (fields.map Prod.fst)
  | _ => none

def shape (value : Json) (at_ : String) (keys : List String) : Except Thrown Unit :=
  match names value with
  | none => .error (invalidRequest (at_ ++ " must be a JSON object."))
  | some names =>
    match names.find? fun name => !keys.contains name with
    | some name => .error (invalidRequest (at_ ++ "." ++ name ++ " is not a field this endpoint accepts."))
    | none => .ok ()

def string (value : Option Json) (at_ : String) : Except Thrown String :=
  match value with
  | some (.string text) =>
    if text = "" then .error (invalidRequest (at_ ++ " must be a non-empty string.")) else .ok text
  | _ => .error (invalidRequest (at_ ++ " must be a non-empty string."))

section

variable (value : Option Json) (headers : Headers) (body : Data) (at_ : String)

def optionalString : Except Thrown (Option String) :=
  match value with
  | none => .ok none
  | some value => do
    let text ← string (some value) at_
    .ok (some text)

/-- The entries of an array of strings, each named by its index. -/
def stringsFrom (at_ : String) : Nat → List Json → Except Thrown (List String)
  | _, [] => .ok []
  | index, entry :: rest => do
    let text ← string (some entry) (at_ ++ "[" ++ toString index ++ "]")
    let texts ← stringsFrom at_ (index + 1) rest
    .ok (text :: texts)

def strings : Except Thrown (List String) :=
  match value with
  | some (.array entries) => stringsFrom at_ 0 entries
  | _ => .error (invalidRequest (at_ ++ " must be an array."))

def resourceRef : Except Thrown ResourceRef := do
  let value := value.getD .null
  shape value at_ ["owner", "id"]
  let owner ← string (field value "owner") (at_ ++ ".owner")
  let id ← string (field value "id") (at_ ++ ".id")
  .ok ⟨owner, id⟩

/-! ## Bodies -/

/-- The headers a mutation may come with instead of its fields. -/
structure Headers where
  idempotencyKey : Option String := none
  retryUntil : Option String := none
  deriving DecidableEq, Repr

def agreed (header field : Option String) (message : String) : Except Thrown (Option String) :=
  match header, field with
  | some header, some field =>
    if header ≠ field then .error (invalidRequest message) else .ok (some header)
  | header, field => .ok (header.or field)

def mutation (body : Json) : Except Thrown Mutation := do
  let field ← optionalString (field body "idempotency_key") "idempotency_key"
  let key ← agreed headers.idempotencyKey field "Idempotency-Key and idempotency_key disagree."
  match key with
  | none => .error (invalidRequest "An Idempotency-Key header is required.")
  | some key => do
    let field ← optionalString (Core.field body "retry_until") "retry_until"
    let deadline ← agreed headers.retryUntil field "X-Onlyne-Retry-Until and retry_until disagree."
    let retryUntil ← string (deadline.map .string) "retry_until"
    .ok ⟨key, retryUntil⟩

def operationRequest : Except Thrown OperationRequest := do
  shape body.1 "body"
    ["idempotency_key", "retry_until", "operation_id", "operation", "expected_revision", "data"]
  let mutation ← mutation headers body.1
  let operationId ← string (member body "operation_id") "operation_id"
  let operation ← string (member body "operation") "operation"
  let expectedRevision ← optionalString (member body "expected_revision") "expected_revision"
  .ok { toMutation := mutation, operationId, operation, expectedRevision, data := body.field "data" }

def probeBody : Except Thrown HandoverProbe := do
  shape body.1 "body" ["operation_id", "resource", "kind", "operations", "metadata", "initiator", "cursor",
    "deadline"]
  let operationId ← string (member body "operation_id") "operation_id"
  let resource ← resourceRef (member body "resource") "resource"
  let kind ← string (member body "kind") "kind"
  let operations ← strings (member body "operations") "operations"
  let initiator ← string (member body "initiator") "initiator"
  let cursor ← string (member body "cursor") "cursor"
  let deadline ← string (member body "deadline") "deadline"
  .ok { operationId, resource, kind, operations, metadata := body.field "metadata", initiator, cursor,
        deadline }

end

/-! ## The order of the fields -/

section Order

theorem find?_orderedInsert (entry : String × Json) (entries : List (String × Json)) (name : String) :
    (entries.orderedInsert (fun a b : String × Json => textUnits a.1 ≤ textUnits b.1) entry).find?
        (fun e => e.1 = name) = (entry :: entries).find? fun e => e.1 = name := by
  induction entries with
  | nil => rfl
  | cons first rest ih =>
    rw [orderedInsert_cons]
    split_ifs with hle
    · rfl
    · by_cases hfst : first.1 = name
      · -- An entry that is passed over has another name.
        have hent : entry.1 ≠ name := by
          intro hname
          rw [hname, hfst] at hle
          exact hle le_rfl
        simp [hfst, hent]
      · rw [find?_cons_of_neg (by simpa using hfst), ih]
        by_cases hent : entry.1 = name
        · simp [hent]
        · simp [hent, hfst]

theorem find?_sortedBy (entries : List (String × Json)) (name : String) :
    (sortedBy Prod.fst entries).find? (fun e => e.1 = name) = entries.find? fun e => e.1 = name := by
  unfold sortedBy
  induction entries with
  | nil => rfl
  | cons entry rest ih =>
    rw [insertionSort_cons, find?_orderedInsert, find?_cons, ih, find?_cons]

/-- A field of a value with its fields in order is that field with its own in order. -/
theorem field_normal (value : Json) (name : String) : field value.normal name = (field value name).map Json.normal := by
  cases value with
  | object =>
    rw [Json.normal, field, field, find?_sortedBy, normalFields_eq, find?_map, Option.map_map, Option.map_map]
    rfl
  | _ => rfl

variable {at_ : String} {body' body : Json} {request : OperationRequest} {probe : HandoverProbe}
  {keys : List String} {headers : Headers} (value : Option Json)

theorem field_same (h : body.normal = body'.normal) (name : String) :
    (field body name).map Json.normal = (field body' name).map Json.normal := by
  rw [← field_normal, h, field_normal]

/-- The order inside a value does not matter to a check that looks for a string. -/
theorem string_normal (at_ : String) : string (value.map Json.normal) at_ = string value at_ := by
  cases value with
  | none => rfl
  | some value => cases value <;> rfl

theorem string_same (h : body.normal = body'.normal) (name at_ : String) :
    string (field body name) at_ = string (field body' name) at_ := by
  rw [← string_normal, field_same h, string_normal]

theorem optionalString_same (h : body.normal = body'.normal) (name at_ : String) :
    optionalString (field body name) at_ = optionalString (field body' name) at_ := by
  have hsame := field_same h name
  cases hfield : field body name with
  | none =>
    rw [hfield, map_none] at hsame
    rw [map_eq_none_iff.mp hsame.symm]
  | some value =>
    rw [hfield, map_some] at hsame
    obtain ⟨value', hfield', hval⟩ := map_eq_some_iff.mp hsame.symm
    have hstring : string (some value) at_ = string (some value') at_ := by
      rw [← string_normal (some value), map_some, ← hval, ← map_some, string_normal]
    rw [hfield']
    simp only [optionalString, hstring]

theorem stringsFrom_normal (at_ : String) (index : Nat) (entries : List Json) :
    stringsFrom at_ index (entries.map Json.normal) = stringsFrom at_ index entries := by
  induction entries generalizing index with
  | nil => rfl
  | cons entry rest ih =>
    have hent := string_normal (some entry) (at_ ++ "[" ++ toString index ++ "]")
    rw [map_some] at hent
    simp only [map_cons, stringsFrom, ih, hent]

theorem strings_normal (at_ : String) : strings (value.map Json.normal) at_ = strings value at_ := by
  cases value with
  | none => rfl
  | some value =>
    cases value with
    | array entries =>
      rw [map_some, Json.normal, normalItems_eq]
      exact stringsFrom_normal at_ 0 entries
    | _ => rfl

theorem strings_same (h : body.normal = body'.normal) (name at_ : String) :
    strings (field body name) at_ = strings (field body' name) at_ := by
  rw [← strings_normal, field_same h, strings_normal]

theorem shape_object_iff {fields : List (String × Json)} :
    shape (.object fields) at_ keys = .ok () ↔ ∀ name ∈ fields.map Prod.fst, keys.contains name = true := by
  unfold shape names
  dsimp only
  cases hfind : (fields.map Prod.fst).find? fun name => !keys.contains name with
  | none => simpa using hfind
  | some name =>
    obtain ⟨hnot, hmem⟩ := And.intro (find?_some hfind) (mem_of_find?_eq_some hfind)
    simp only [reduceCtorEq, false_iff]
    intro hall
    rw [hall name hmem] at hnot
    cases hnot

/-- The check of the names passes for a body exactly when it passes for the body in order. -/
theorem shape_normal (value : Json) (at_ : String) (keys : List String) :
    shape value.normal at_ keys = .ok () ↔ shape value at_ keys = .ok () := by
  cases value with
  | object fields =>
    have hnm (name : String) : name ∈ (sortedBy Prod.fst (normalFields fields)).map Prod.fst ↔
        name ∈ fields.map Prod.fst := by
      have hperm : (sortedBy Prod.fst (normalFields fields)).Perm (normalFields fields) := perm_insertionSort _ _
      rw [(hperm.map Prod.fst).mem_iff, normalFields_eq, List.map_map]
      rfl
    rw [Json.normal, shape_object_iff, shape_object_iff]
    simp only [hnm]
  | _ => rfl

section

variable (h : body.normal = body'.normal)
include h

theorem shape_same : shape body at_ keys = .ok () ↔ shape body' at_ keys = .ok () := by
  rw [← shape_normal, h, shape_normal]

theorem resourceRef_same {name : String} {ref : ResourceRef} :
    resourceRef (field body name) at_ = .ok ref ↔ resourceRef (field body' name) at_ = .ok ref := by
  have hval : ((field body name).getD .null).normal = ((field body' name).getD .null).normal := by
    have hnull : Json.normal .null = .null := rfl
    rw [← Option.getD_map Json.normal, ← Option.getD_map Json.normal, hnull, field_same h]
  simp only [resourceRef, bind_eq_ok, shape_same hval, string_same hval]

theorem mutation_same (headers : Headers) : mutation headers body = mutation headers body' := by
  simp only [mutation, optionalString_same h]

end

/-! ### Bodies -/

/-- An operation request is determined by its headers and its body in order, up to its data. -/
theorem operationRequest_same {body body' : Data}
    (h : body.1.normal = body'.1.normal) (hreq : operationRequest headers body = .ok request) :
    operationRequest headers body' = .ok { request with data := body'.field "data" } := by
  simp only [operationRequest, bind_eq_ok, member] at hreq ⊢
  obtain ⟨_, hshape, m, hmut, id, hid, operation, hop, expected, hexp, heq⟩ := hreq
  refine ⟨(), (shape_same h).mp hshape, m, mutation_same h headers ▸ hmut, id,
    string_same h _ _ ▸ hid, operation, string_same h _ _ ▸ hop, expected,
    optionalString_same h _ _ ▸ hexp, ?_⟩
  cases heq
  rfl

/-- Whatever the headers, bodies that differ in order ask for one operation, up to its data. -/
theorem operationRequest_agrees {headers' : Headers} {body body' : Data}
    (h : body.1.normal = body'.1.normal) {request' : OperationRequest}
    (hreq : operationRequest headers body = .ok request) (hreq' : operationRequest headers' body' = .ok request') :
    request = { request' with toMutation := request.toMutation, data := body.field "data" } ∧
      request'.data = body'.field "data" := by
  simp only [operationRequest, bind_eq_ok, member] at hreq hreq'
  obtain ⟨_, -, m, -, id, hid, operation, hop, expected, hexp, heq⟩ := hreq
  obtain ⟨_, -, m', -, id', hid', operation', hop', expected', hexp', heq'⟩ := hreq'
  rw [string_same h, hid'] at hid
  rw [string_same h, hop'] at hop
  rw [optionalString_same h, hexp'] at hexp
  cases hid
  cases hop
  cases hexp
  cases heq
  cases heq'
  exact ⟨rfl, rfl⟩

theorem probeBody_same {body body' : Data} (h : body.1.normal = body'.1.normal) (hprobe : probeBody body = .ok probe) :
    probeBody body' = .ok { probe with metadata := body'.field "metadata" } := by
  simp only [probeBody, bind_eq_ok, member] at hprobe ⊢
  obtain ⟨_, hshape, id, hid, resource, hrsc, kind, hkind, operations, hops, initiator,
    hinit, cursor, hcurs, deadline, hdl, heq⟩ := hprobe
  refine ⟨(), (shape_same h).mp hshape, id, string_same h _ _ ▸ hid, resource,
    (resourceRef_same h).mp hrsc, kind, string_same h _ _ ▸ hkind, operations,
    strings_same h _ _ ▸ hops, initiator, string_same h _ _ ▸ hinit, cursor,
    string_same h _ _ ▸ hcurs, deadline, string_same h _ _ ▸ hdl, ?_⟩
  cases heq
  rfl

theorem probeBody_metadata {body : Data} (h : probeBody body = .ok probe) : probe.metadata = body.field "metadata" := by
  simp only [probeBody, bind_eq_ok] at h
  obtain ⟨-, -, id, -, resource, -, kind, -, operations, -, initiator, -, cursor, -, deadline, -, heq⟩ := h
  cases heq
  rfl

end Order

end Routes

end Onlyne.Resources
