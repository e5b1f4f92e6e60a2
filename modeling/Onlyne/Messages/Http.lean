import Onlyne.Messages.Node
import Onlyne.Resources.Routes
import Onlyne.Client.Types

/-!
# Messages: admission over HTTP

`POST /messages` and `POST /threads/{owner}/{id}/messages` of `routes/threads.ts`: the body is decoded by the
rules of `routes/shared.ts`, and what they let through is handed to `admit`.

The decoder takes no empty text where the service takes some, and the binding has a limit for the body that the
service has not, so the two do not accept the same requests.  `Decodes` states once what a decoder does with an
encoded value; `post_admission` says what a caller of the binding gets instead of what `admit` answers.
-/

namespace Onlyne.Messages

open Foundation Option
open Core (field throws)
open Client (threadJson messageRefJson relationJson textsJson metaJson messageJson responseJson
  executionJson planJson)
open Resources (optional)
open Resources.Routes (Headers shape string optionalString strings invalidRequest)

namespace Http

/-! ## The decoder -/

def given {α : Type} (value : Json) (name : String) (read : Json → Except Thrown α) : Except Thrown (Option α) :=
  match field value name with
  | none => .ok none
  | some field => (read field).map some

section

variable (text : String) (value : Json) (at_ : String)

def record : Except Thrown Json :=
  match value with
  | .object fields => .ok (.object fields)
  | _ => .error (invalidRequest (at_ ++ " must be a JSON object."))

def list : Except Thrown (List Json) :=
  match value with
  | .array entries => .ok entries
  | _ => .error (invalidRequest (at_ ++ " must be an array."))

def reference (first second : String) (value : Json) (at_ : String) : Except Thrown (String × String) := do
  shape value at_ [first, second]
  let a ← string (field value first) (at_ ++ "." ++ first)
  let b ← string (field value second) (at_ ++ "." ++ second)
  .ok (a, b)

def threadRef : Except Thrown ThreadRef :=
  (reference "owner" "id" value at_).map fun r => ⟨r.1, r.2⟩

def messageRef : Except Thrown MessageRef :=
  (reference "sender" "id" value at_).map fun r => ⟨r.1, r.2⟩

def responseMode : Except Thrown ResponseMode :=
  if text = "none" then .ok .none
  else if text = "async" then .ok .async
  else if text = "await" then .ok .await
  else .error (invalidRequest (at_ ++ ".response must be none, async or await."))

def executionMode : Except Thrown ExecutionMode :=
  if text = "existing" then .ok .existing
  else if text = "new" then .ok .new
  else .error (invalidRequest (at_ ++ ".execution must be existing or new."))

def deliveryPlan : Except Thrown DeliveryPlan := do
  shape value at_ ["response", "execution", "context"]
  let response ← string (field value "response") (at_ ++ ".response")
  let response ← responseMode response at_
  let execution ← string (field value "execution") (at_ ++ ".execution")
  let execution ← executionMode execution at_
  let context ← optionalString (field value "context") (at_ ++ ".context")
  .ok { response := .known response, execution := .known execution, context := context }

def relation (text : Option String) (at_ : String) : Except Thrown (Option Relation) :=
  if text = none then .ok none
  else if text = some "reply" then .ok (some .reply)
  else if text = some "followup" then .ok (some .followup)
  else .error (invalidRequest (at_ ++ ".relation must be reply or followup."))

def messageMeta : Except Thrown Meta := do
  shape value at_ ["thread", "in_reply_to", "relation", "mentions", "parts", "data"]
  let text ← optionalString (field value "relation") (at_ ++ ".relation")
  let relation ← relation text at_
  let thread ← given value "thread" fun field => threadRef field (at_ ++ ".thread")
  let inReplyTo ← given value "in_reply_to" fun field => messageRef field (at_ ++ ".in_reply_to")
  let mentions ← given value "mentions" fun field => strings (some field) (at_ ++ ".mentions")
  let parts ← given value "parts" fun field => list field (at_ ++ ".parts")
  let data ← given value "data" fun field => record field (at_ ++ ".data")
  .ok { thread, inReplyTo, relation, mentions, parts, data }

def message : Except Thrown Message := do
  shape value at_ ["id", "sender", "delivery_kind", "msg", "meta"]
  let id ← string (field value "id") (at_ ++ ".id")
  let sender ← string (field value "sender") (at_ ++ ".sender")
  let deliveryKind ← string (field value "delivery_kind") (at_ ++ ".delivery_kind")
  let msg ← string (field value "msg") (at_ ++ ".msg")
  let routing ← given value "meta" fun field => messageMeta field (at_ ++ ".meta")
  .ok { id, sender, deliveryKind, msg, routing }

/-- The message of a body that was sent to the path of a thread. -/
def addressed (content : Message) (at_ : Option ThreadRef) : Except Thrown Message :=
  match at_ with
  | none => .ok content
  | some ref =>
    if (content.routing.bind Meta.thread).any (· ≠ ref) then
      .error (invalidRequest "The message thread must match the request path.")
    else .ok { content with routing := some { content.routing.getD {} with thread := some ref } }

def required (name : String) : Json := (field value name).getD .null

end

def sendRequest (headers : Headers) (body : Json) (at_ : Option ThreadRef) : Except Thrown SendRequest := do
  shape body "body" ["idempotency_key", "retry_until", "message", "target_endpoint", "plan"]
  let content ← message (required body "message") "message"
  let content ← addressed content at_
  let mutation ← Resources.Routes.mutation headers body
  let targetEndpoint ← string (field body "target_endpoint") "target_endpoint"
  let plan ← deliveryPlan (required body "plan") "plan"
  .ok { idempotencyKey := mutation.idempotencyKey, retryUntil := mutation.retryUntil
        message := content, targetEndpoint := targetEndpoint, plan := plan }

/-! ## The route -/

inductive RawBody where
  | empty
  | malformed
  | parsed (value : Json)

structure Request where
  -- The thread of the path; the route of the reply authority names none.
  path : Option ThreadRef := none
  -- The declared length, when the header is a decimal number.
  contentLength : Option Nat := none
  -- The media type without its parameters.
  mediaType : String := "application/json"
  headers : Headers := {}
  body : RawBody

def defaultBytes : Nat := 1048576

def json (limit : Nat) (request : Request) : Except Thrown Json :=
  if request.contentLength.any (· > limit) then
    .error (throws .payloadTooLarge ("The request body exceeds " ++ toString limit ++ " bytes."))
  else if request.mediaType ≠ "application/json" then
    .error (throws .unsupportedMediaType "Content-Type must be application/json.")
  else
    match request.body with
    | .empty => .error (invalidRequest "A JSON body is required.")
    | .malformed => .error (invalidRequest "The request body is not valid UTF-8 JSON.")
    | .parsed value => .ok value

def failure : Thrown → Failure
  | .onlyne error => error
  | .other _ => onlyneError .internal "The node failed to complete the request."

section Post

variable {D : Type} [DecidableEq D]

def decoded (limit : Nat) (request : Request) : Except Thrown SendRequest := do
  let body ← json limit request
  sendRequest request.headers body request.path

/-- The answer to an authenticated `POST` of a message, and the rows it leaves. -/
def post (ctx : Context D) (limit : Nat) (store : Store D) (auth : Auth) (request : Request)
    (input : AdmitInput) : Option (Except Failure Receipt × Store D) :=
  match decoded limit request with
  | .error thrown => some (.error (failure thrown), store)
  | .ok sent => (admitRequest ctx store auth sent input).map fun r => (r.1.mapError failure, r.2)

end Post

/-! ## What a decoder does -/

section Decodes

variable {α β : Type}

/-- A decoder returns the encoded value when every text in it is filled, and refuses it otherwise. -/
def Decodes (read : Except Thrown α) (value : α) (filled : Bool) : Prop :=
  if filled then read = .ok value else ∃ text, read = .error (invalidRequest text)

namespace Decodes

variable {read : Except Thrown α} {value : α} {next : α → Except Thrown β} {value' : β}
  {filled filled' : Bool}

theorem ok (value : α) : Decodes (.ok value) value true := rfl

section

variable (h : Decodes read value filled)
include h

theorem bind (h' : Decodes (next value) value' filled') : Decodes (read >>= next) value' (filled && filled') := by
  cases filled with
  | false =>
    obtain ⟨text, rfl⟩ := h
    exact ⟨text, rfl⟩
  | true =>
    cases h
    exact h'

theorem map (f : α → β) : Decodes (read.map f) (f value) filled := by
  cases filled with
  | false =>
    obtain ⟨text, rfl⟩ := h
    exact ⟨text, rfl⟩
  | true =>
    cases h
    rfl

theorem last (hnext : next value = .ok value') : Decodes (read >>= next) value' filled := by
  cases filled with
  | false =>
    obtain ⟨text, rfl⟩ := h
    exact ⟨text, rfl⟩
  | true =>
    cases h
    exact hnext

end

/-- A decoder that lets everything through leaves the verdict to the next one. -/
theorem after (h : read = .ok value) (h' : Decodes (next value) value' filled) :
    Decodes (read >>= next) value' filled := by
  cases h
  exact h'

theorem string (text at_ : String) : Decodes (Resources.Routes.string (some (.string text)) at_) text (text ≠ "") := by
  by_cases hemp : text = ""
  · simp [Decodes, Resources.Routes.string, hemp]
  · simp [Decodes, Resources.Routes.string, hemp]

theorem optionalString (text : Option String) (at_ : String) :
    Decodes (Resources.Routes.optionalString (text.map .string) at_) text (text.all (· ≠ "")) := by
  cases text with
  | none => exact ok none
  | some text => exact (string text at_).last rfl

theorem given {json : Json} {name : String} {encode : α → Json} {value : Option α}
    {check : α → Bool} {read : Json → Except Thrown α} (hfield : field json name = value.map encode)
    (hread : ∀ v, value = some v → Decodes (read (encode v)) v (check v)) :
    Decodes (Http.given json name read) value (value.all check) := by
  unfold Http.given
  rw [hfield]
  cases value with
  | none => exact ok none
  | some v => exact (hread v rfl).map some

theorem strings (texts : List String) (at_ : String) :
    Decodes (Resources.Routes.strings (some (textsJson texts)) at_) texts (texts.all (· ≠ "")) := by
  have hfrom (index : Nat) : Decodes (Resources.Routes.stringsFrom at_ index (texts.map .string)) texts
      (texts.all (· ≠ "")) := by
    induction texts generalizing index with
    | nil => exact ok []
    | cons text rest ih => exact (string text _).bind ((ih (index + 1)).last rfl)
  exact hfrom 0

end Decodes

end Decodes

/-! ## Encoded values -/

def requestJson (request : SendRequest) : Json :=
  .object [("idempotency_key", .string request.idempotencyKey),
    ("retry_until", .string request.retryUntil), ("message", messageJson request.message),
    ("target_endpoint", .string request.targetEndpoint), ("plan", planJson request.plan)]

section Fields

theorem field_cons (entry : String × Json) (entries : List (String × Json)) (name : String) :
    field (.object (entry :: entries)) name =
      if entry.1 = name then some entry.2 else field (.object entries) name := by
  unfold field
  by_cases h : entry.1 = name
  · simp [h]
  · simp [h]

theorem field_optional (name' : String) (value : Option Json) (entries : List (String × Json))
    (name : String) : field (.object (optional name' value ++ entries)) name =
      if name' = name then value.or (field (.object entries) name) else field (.object entries) name := by
  cases value with
  | none => simp [Resources.optional]
  | some => simp [Resources.optional, field_cons]

theorem field_optional_last (name' : String) (value : Option Json) (name : String) :
    field (.object (optional name' value)) name = if name' = name then value else none := by
  cases value with
  | none => simp [Resources.optional, field]
  | some => simp [Resources.optional, field, apply_ite]

theorem mem_optional {name : String} {value : Option Json} {entry : String × Json} :
    entry ∈ optional name value ↔ entry.1 = name ∧ value = some entry.2 := by
  cases value <;> simp [Resources.optional, Prod.ext_iff, eq_comm]

theorem shape_of_mem {fields : List (String × Json)} {at_ : String} {keys : List String}
    (h : ∀ entry ∈ fields, entry.1 ∈ keys) : shape (.object fields) at_ keys = .ok () := by
  apply Resources.Routes.shape_object_iff.mpr
  intro name hname
  obtain ⟨entry, hent, rfl⟩ := List.mem_map.mp hname
  exact List.contains_iff_mem.mpr (h entry hent)

end Fields

/-! ## Encoded requests -/

def threadFilled (ref : ThreadRef) : Bool := ref.owner ≠ "" && ref.id ≠ ""

def refFilled (ref : MessageRef) : Bool := ref.sender ≠ "" && ref.id ≠ ""

def metaFilled (routing : Meta) : Bool :=
  routing.thread.all threadFilled && (routing.inReplyTo.all refFilled &&
    routing.mentions.all fun texts => texts.all (· ≠ ""))

def messageFilled (message : Message) : Bool :=
  message.id ≠ "" && (message.sender ≠ "" && (message.deliveryKind ≠ "" && (message.msg ≠ "" &&
    message.routing.all metaFilled)))

def requestFilled (request : SendRequest) : Bool :=
  messageFilled request.message && ((request.idempotencyKey ≠ "" && request.retryUntil ≠ "") &&
    (request.targetEndpoint ≠ "" && request.plan.context.all (· ≠ "")))

def isObject : Json → Bool
  | .object _ => true
  | _ => false

def wellTyped (request : SendRequest) : Bool :=
  (request.plan.response matches .known _) && (request.plan.execution matches .known _) &&
    (request.message.routing.bind Meta.data).all isObject

theorem reference_decodes {first second : String} (hne : first ≠ second) (a b at_ : String) :
    Decodes (reference first second (.object [(first, .string a), (second, .string b)]) at_) (a, b)
      (a ≠ "" && b ≠ "") := by
  have ha : field (.object [(first, .string a), (second, .string b)]) first = some (.string a) := by
    simp [field_cons]
  have hb : field (.object [(first, .string a), (second, .string b)]) second = some (.string b) := by
    simp [field_cons, hne]
  refine .after (shape_of_mem (by simp)) ?_
  rw [ha, hb]
  exact (Decodes.string a _).bind ((Decodes.string b _).last rfl)

theorem threadRef_decodes (ref : ThreadRef) (at_ : String) :
    Decodes (threadRef (threadJson ref) at_) ref (threadFilled ref) :=
  (reference_decodes (by decide) ref.owner ref.id at_).map fun r => (⟨r.1, r.2⟩ : ThreadRef)

theorem messageRef_decodes (ref : MessageRef) (at_ : String) :
    Decodes (messageRef (messageRefJson ref) at_) ref (refFilled ref) :=
  (reference_decodes (by decide) ref.sender ref.id at_).map fun r => (⟨r.1, r.2⟩ : MessageRef)

theorem relation_read (value : Option Relation) (at_ : String) :
    ∃ text, optionalString (value.map relationJson) (at_ ++ ".relation") = .ok text ∧
      relation text at_ = .ok value := by
  cases value with
  | none => exact ⟨none, rfl, rfl⟩
  | some value =>
    cases value with
    | reply => exact ⟨some "reply", rfl, rfl⟩
    | followup => exact ⟨some "followup", rfl, rfl⟩

/-- The metadata of a message, of which the decoder passes the parts on as they are. -/
theorem messageMeta_decodes (routing : Meta) (hdata : routing.data.all isObject = true)
    (at_ : String) : Decodes (messageMeta (metaJson routing) at_) routing (metaFilled routing) := by
  have hshape : shape (metaJson routing) at_
      ["thread", "in_reply_to", "relation", "mentions", "parts", "data"] = .ok () :=
    shape_of_mem (by simp +contextual [mem_optional, or_imp])
  have hfield : field (metaJson routing) "thread" = routing.thread.map threadJson ∧
      field (metaJson routing) "in_reply_to" = routing.inReplyTo.map messageRefJson ∧
      field (metaJson routing) "relation" = routing.relation.map relationJson ∧
      field (metaJson routing) "mentions" = routing.mentions.map textsJson ∧
      field (metaJson routing) "parts" = routing.parts.map .array ∧
      field (metaJson routing) "data" = routing.data.map id := by
    simp [metaJson, field_optional, field_optional_last]
  obtain ⟨hthr, hinReplyTo, hrel, hmentions, hparts, hfree⟩ := hfield
  obtain ⟨text, htext, hread⟩ := relation_read routing.relation at_
  have hlist : given (metaJson routing) "parts" (fun field => list field (at_ ++ ".parts")) = .ok routing.parts := by
    unfold given
    rw [hparts]
    cases routing.parts <;> rfl
  have hrec : given (metaJson routing) "data" (fun field => record field (at_ ++ ".data")) = .ok routing.data := by
    unfold given
    rw [hfree]
    cases hval : routing.data with
    | none => rfl
    | some data =>
      rw [hval] at hdata
      cases data with
      | object => rfl
      | _ => cases hdata
  refine .after hshape ?_
  rw [hrel]
  refine .after htext (.after hread ?_)
  refine .bind (.given hthr fun ref _ => threadRef_decodes ref _) ?_
  refine .bind (.given hinReplyTo fun ref _ => messageRef_decodes ref _) ?_
  refine .last (.given hmentions fun texts _ => .strings texts _) ?_
  rw [hlist, hrec]
  rfl

theorem message_decodes (message : Message)
    (hdata : (message.routing.bind Meta.data).all isObject = true) (at_ : String) :
    Decodes (Http.message (messageJson message) at_) message (messageFilled message) := by
  have hshape : shape (messageJson message) at_ ["id", "sender", "delivery_kind", "msg", "meta"] = .ok () :=
    shape_of_mem (by simp +contextual [mem_optional, or_imp])
  have hfield : field (messageJson message) "id" = some (.string message.id) ∧
      field (messageJson message) "sender" = some (.string message.sender) ∧
      field (messageJson message) "delivery_kind" = some (.string message.deliveryKind) ∧
      field (messageJson message) "msg" = some (.string message.msg) ∧
      field (messageJson message) "meta" = message.routing.map metaJson := by
    simp [messageJson, field_cons, field_optional_last]
  obtain ⟨hid, hsend, hkind, hmsg, hmeta⟩ := hfield
  refine .after hshape ?_
  refine .bind (.string _ _) (.bind (.string _ _) (.bind (.string _ _) (.bind (.string _ _) ?_)))
  refine .last (.given hmeta fun routing hrouting => ?_) rfl
  apply messageMeta_decodes
  rw [hrouting] at hdata
  exact hdata

theorem responseMode_read (mode : ResponseMode) (at_ : String) :
    ∃ text, string (some (responseJson (.known mode))) (at_ ++ ".response") = .ok text ∧
      responseMode text at_ = .ok mode := by
  cases mode with
  | none => exact ⟨"none", rfl, rfl⟩
  | async => exact ⟨"async", rfl, rfl⟩
  | await => exact ⟨"await", rfl, rfl⟩

theorem executionMode_read (mode : ExecutionMode) (at_ : String) :
    ∃ text, string (some (executionJson (.known mode))) (at_ ++ ".execution") = .ok text ∧
      executionMode text at_ = .ok mode := by
  cases mode with
  | existing => exact ⟨"existing", rfl, rfl⟩
  | new => exact ⟨"new", rfl, rfl⟩

theorem deliveryPlan_decodes (response : ResponseMode) (execution : ExecutionMode)
    (context : Option String) (at_ : String) :
    Decodes (deliveryPlan (planJson ⟨.known response, .known execution, context⟩) at_)
      ⟨.known response, .known execution, context⟩ (context.all (· ≠ "")) := by
  have hshape : shape (planJson ⟨.known response, .known execution, context⟩) at_
      ["response", "execution", "context"] = .ok () :=
    shape_of_mem (by simp +contextual [mem_optional, or_imp])
  have hfield : field (planJson ⟨.known response, .known execution, context⟩) "response" =
        some (responseJson (.known response)) ∧
      field (planJson ⟨.known response, .known execution, context⟩) "execution" =
        some (executionJson (.known execution)) ∧
      field (planJson ⟨.known response, .known execution, context⟩) "context" = context.map .string := by
    simp [planJson, field_cons, field_optional_last]
  obtain ⟨hresp, hexec, hctx⟩ := hfield
  obtain ⟨_, hresponseText, hresponseMode⟩ := responseMode_read response at_
  obtain ⟨_, hexecutionText, hexecutionMode⟩ := executionMode_read execution at_
  refine .after hshape ?_
  rw [hresp, hexec, hctx]
  refine .after hresponseText (.after hresponseMode ?_)
  refine .after hexecutionText (.after hexecutionMode ?_)
  exact .last (.optionalString context _) rfl

/-! ## The decoded request -/

/-- This HTTP request carries an admission request: as its whole body, with the headers that may repeat a field
of it, at the route of the reply authority or at the path of the thread the message names. -/
structure Carries (http : Request) (request : SendRequest) : Prop where
  body : http.body = .parsed (requestJson request)
  mediaType : http.mediaType = "application/json"
  key : ∀ key, http.headers.idempotencyKey = some key → key = request.idempotencyKey
  deadline : ∀ text, http.headers.retryUntil = some text → text = request.retryUntil
  path : ∀ ref, http.path = some ref → request.message.routing.bind Meta.thread = some ref

variable {http : Request} {request : SendRequest}

section

variable (h : Carries http request)
include h

theorem mutation_decodes : Decodes (Resources.Routes.mutation http.headers (requestJson request))
      ⟨request.idempotencyKey, request.retryUntil⟩ (request.idempotencyKey ≠ "" && request.retryUntil ≠ "") := by
  have hfield : field (requestJson request) "idempotency_key" = (some request.idempotencyKey).map .string ∧
      field (requestJson request) "retry_until" = (some request.retryUntil).map .string := by
    simp [requestJson, field_cons]
  have hagr {header : Option String} {field : String} (message : String)
      (hheader : ∀ text, header = some text → text = field) :
      Resources.Routes.agreed header (some field) message = .ok (some field) := by
    cases header with
    | none => rfl
    | some text =>
      cases hheader text rfl
      simp [Resources.Routes.agreed]
  refine .bind (.optionalString (some request.idempotencyKey) _) (.after (hagr _ h.key) ?_)
  -- The deadline is looked at twice, as a field and as what the header and the field agree on.
  rw [← Bool.and_self (decide (request.retryUntil ≠ ""))]
  exact .bind (.optionalString (some request.retryUntil) _) (.after (hagr _ h.deadline) (.last (.string _ _) rfl))

theorem addressed_eq : addressed request.message http.path = .ok request.message := by
  cases hpath : http.path with
  | none => rfl
  | some ref =>
    obtain ⟨routing, hrouting, hthr⟩ := bind_eq_some_iff.mp (h.path ref hpath)
    unfold addressed
    simp only [hrouting, bind_some, hthr, any_some, ne_eq, not_true_eq_false,
      decide_false, Bool.false_eq_true, if_false, getD_some]
    -- The thread of the path is the one the message names.
    rw [← hthr, ← hrouting]

/-- The decoder gives a carried request back when all its texts are filled, and refuses it otherwise. -/
theorem sendRequest_decodes (htyped : wellTyped request = true) :
    Decodes (sendRequest http.headers (requestJson request) http.path) request (requestFilled request) := by
  have hshape : shape (requestJson request) "body"
      ["idempotency_key", "retry_until", "message", "target_endpoint", "plan"] = .ok () :=
    shape_of_mem (by simp)
  have hfield : required (requestJson request) "message" = messageJson request.message ∧
      field (requestJson request) "target_endpoint" = some (.string request.targetEndpoint) ∧
      required (requestJson request) "plan" = planJson request.plan := by
    simp [required, requestJson, field_cons]
  obtain ⟨hmsg, htgt, hplan⟩ := hfield
  unfold wellTyped at htyped
  rw [Bool.and_eq_true, Bool.and_eq_true] at htyped
  obtain ⟨⟨hresp, hexec⟩, hdata⟩ := htyped
  have hplanned : Decodes (deliveryPlan (planJson request.plan) "plan") request.plan
      (request.plan.context.all (· ≠ "")) := by
    generalize request.plan = plan at hresp hexec
    obtain ⟨response, execution, context⟩ := plan
    cases response with
    | unknown => cases hresp
    | known response =>
      cases execution with
      | unknown => cases hexec
      | known execution => exact deliveryPlan_decodes response execution context _
  refine .after hshape ?_
  refine .bind (message_decodes request.message hdata _) (.after (addressed_eq h) ?_)
  refine .bind (mutation_decodes h) ?_
  exact .bind (.string _ _) (.last hplanned rfl)

end

section Admission

variable {D : Type} [DecidableEq D]

def oversized (limit : Nat) (http : Request) : Bool := http.contentLength.any (· > limit)

/-- The code the binding refuses a request with that it does not hand on. -/
def refusalCode (limit : Nat) (http : Request) : ErrorCode :=
  if oversized limit http then .payloadTooLarge else .invalidRequest

def coded (r : Except Failure Receipt × Store D) : Except ErrorCode Receipt × Store D :=
  (r.1.mapError Failure.code, r.2)

/-- The outcome of the embedded call; what a host hook throws has the code of an internal failure. -/
def embedded (ctx : Context D) (store : Store D) (auth : Auth) (request : SendRequest)
    (input : AdmitInput) : Option (Except ErrorCode Receipt × Store D) :=
  (admitRequest ctx store auth request input).map fun r => coded (r.1.mapError failure, r.2)

/-- A request within the limit whose texts are filled is handed to the service as it is. -/
theorem decoded_ok {limit : Nat} {http : Request} {request : SendRequest} (h : Carries http request)
    (htyped : wellTyped request = true) (hfits : oversized limit http = false)
    (hfilled : requestFilled request = true) : decoded limit http = .ok request := by
  have hread := sendRequest_decodes h htyped
  rw [hfilled] at hread
  have hjson : json limit http = .ok (requestJson request) := by
    simp [json, show http.contentLength.any (· > limit) = false from hfits, h.mediaType, h.body]
  unfold decoded
  rw [hjson]
  exact hread

theorem decoded_refused {limit : Nat} {http : Request} {request : SendRequest}
    (h : Carries http request) (htyped : wellTyped request = true)
    (hstop : oversized limit http = true ∨ requestFilled request = false) :
    ∃ text, decoded limit http = .error (throws (refusalCode limit http) text) := by
  unfold decoded refusalCode
  cases hfits : oversized limit http with
  | true =>
    have hjson : json limit http = .error (throws .payloadTooLarge
        ("The request body exceeds " ++ toString limit ++ " bytes.")) := by
      simp [json, show http.contentLength.any (· > limit) = true from hfits]
    rw [hjson]
    exact ⟨_, rfl⟩
  | false =>
    have hjson : json limit http = .ok (requestJson request) := by
      simp [json, show http.contentLength.any (· > limit) = false from hfits, h.mediaType, h.body]
    rw [hfits] at hstop
    have hread := sendRequest_decodes h htyped
    rw [hstop.resolve_left Bool.false_ne_true] at hread
    obtain ⟨text, hread⟩ := hread
    rw [hjson]
    exact ⟨text, hread⟩

section Outcome

variable (ctx : Context D) (limit : Nat) (s : Store D) (auth : Auth) (input : AdmitInput)
  {http : Request} {request : SendRequest}

section

variable (h : Carries http request) (htyped : wellTyped request = true)
include h htyped

theorem post_handed (hfits : oversized limit http = false) (hfilled : requestFilled request = true) :
    (post ctx limit s auth http input).map coded = embedded ctx s auth request input := by
  unfold post embedded
  rw [decoded_ok h htyped hfits hfilled]
  exact Option.map_map _ _ _

theorem post_refused (hstop : oversized limit http = true ∨ requestFilled request = false) :
    (post ctx limit s auth http input).map coded = some (.error (refusalCode limit http), s) := by
  obtain ⟨text, hdecoded⟩ := decoded_refused h htyped hstop
  unfold post
  rw [hdecoded]
  rfl

end

/-- Over HTTP a well-typed request has the outcome of the embedded call when its body is within the limit and
no text in it is empty.  Any other request the binding refuses itself, with `payload_too_large` or
`invalid_request`, and leaves the rows as they are; so there the two agree exactly when the embedded call
refuses with the same code and leaves the rows too, as it does for an `invalid_request` of its own checks. -/
theorem post_admission (hcarries : Carries http request) (htyped : wellTyped request = true) :
    (oversized limit http = false → requestFilled request = true →
      (post ctx limit s auth http input).map coded = embedded ctx s auth request input) ∧
    (oversized limit http = true ∨ requestFilled request = false →
      (post ctx limit s auth http input).map coded = some (.error (refusalCode limit http), s)) ∧
    (oversized limit http = false → ∀ refused, admitChecks ctx auth request = .error refused →
      refused.code = .invalidRequest →
      (post ctx limit s auth http input).map coded = embedded ctx s auth request input) := by
  have hhanded := post_handed ctx limit s auth input hcarries htyped
  have hstop := post_refused ctx limit s auth input hcarries htyped
  refine ⟨hhanded, hstop, fun hfits refused hchk hcode => ?_⟩
  cases hfilled : requestFilled request with
  | true => exact hhanded hfits hfilled
  | false =>
    have hrfs : embedded ctx s auth request input = some (.error refused.code, s) := by
      simp [embedded, admitRequest, hchk, coded, failure, Except.mapError]
    rw [hstop (.inr hfilled), hrfs, hcode, refusalCode, hfits]
    rfl

end Outcome

end Admission

namespace Scenario

def carrier (request : SendRequest) : Request := { body := .parsed (requestJson request) }

/-- A message of `b`. -/
def greeting : SendRequest := Messages.Scenario.request "k1" (Messages.Scenario.message "m1" "hello")

/-- A message of `b` with an empty text. -/
def blank : SendRequest := Messages.Scenario.request "k1" (Messages.Scenario.message "m1" "")

theorem carrier_carries (request : SendRequest) (length : Option Nat) :
    Carries { carrier request with contentLength := length } request where
  body := rfl
  mediaType := rfl
  key := nofun
  deadline := nofun
  path := nofun

def admitsFirst (request : SendRequest) : Bool :=
  (embedded Messages.Scenario.context {} { actor := "b" } request Messages.Scenario.welcoming).any
    fun r => r.1.toBool

end Scenario

open Http.Scenario in
/-- A first contact of `b` is admitted alike through the binding and by the embedded call. -/
theorem post_admission_greeting : admitsFirst greeting = true ∧
      (post Messages.Scenario.context defaultBytes {} { actor := "b" }
        (carrier greeting) Messages.Scenario.welcoming).map coded =
        embedded Messages.Scenario.context {} { actor := "b" } greeting Messages.Scenario.welcoming := by
  refine ⟨by decide +kernel, ?_⟩
  have hpost := post_admission Messages.Scenario.context defaultBytes {} { actor := "b" }
    Messages.Scenario.welcoming (carrier_carries greeting none) (by decide)
  exact hpost.1 rfl (by decide)

open Http.Scenario in
/-- An empty text is admitted by the embedded call and refused by the binding, and so is a body whose declared
length is beyond the limit. -/
theorem binding_refuses_more : (admitsFirst blank = true ∧ wellTyped blank = true ∧ Carries (carrier blank) blank ∧
      (post Messages.Scenario.context defaultBytes {} { actor := "b" }
        (carrier blank) Messages.Scenario.welcoming).map coded =
        some (.error .invalidRequest, {})) ∧
    admitsFirst greeting = true ∧ wellTyped greeting = true ∧
      Carries { carrier greeting with contentLength := some 2000000 } greeting ∧
      (post Messages.Scenario.context defaultBytes {} { actor := "b" }
        { carrier greeting with contentLength := some 2000000 }
        Messages.Scenario.welcoming).map coded = some (.error .payloadTooLarge, {}) := by
  refine ⟨⟨by decide +kernel, by decide, carrier_carries _ none, ?_⟩, by decide +kernel,
    by decide, carrier_carries _ _, ?_⟩
  · exact post_refused _ _ _ _ _ (carrier_carries blank none) (by decide) (.inr (by decide))
  · exact post_refused _ _ _ _ _ (carrier_carries greeting _) (by decide) (.inl (by decide))

end Http

end Onlyne.Messages
