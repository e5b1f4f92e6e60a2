import Onlyne.Resources.Operations
import Onlyne.Resources.Routes

/-!
# Resources: a request that is sent again

Two bodies are the same JSON value when they differ in nothing but the order of their fields, at any depth.
The digests of operations and probes serialise the data and the metadata of a body as they came, so the second
of two such bodies is taken for a retry of the first exactly when those parts come in the same order.
-/

namespace Onlyne.Resources

open Foundation Routes

/-! ## Digests of bodies -/

theorem optional_data_injective {name : String} {data data' : Option Data}
    (h : optional name (data.map Subtype.val) = optional name (data'.map Subtype.val)) : data = data' := by
  cases data <;> cases data' <;> simp_all [optional, Subtype.ext_iff]

/-- Of requests that agree on everything but their data the digests agree when the data does. -/
theorem digestOf_data_iff {actor : NodeId} {ref : ResourceRef} {request request' : OperationRequest}
    (hop : request.operation = request'.operation) (hexp : request.expectedRevision = request'.expectedRevision) :
    digestOf actor ref request = digestOf actor ref request' ↔ request.data = request'.data := by
  rw [digestOf_eq_iff, requestContent, requestContent, hop, hexp, Json.object.injEq, List.append_cancel_left_eq]
  exact ⟨optional_data_injective, fun h => by rw [h]⟩

theorem HandoverProbe.digest_metadata_iff {probe : HandoverProbe} {metadata : Option Data} :
    probe.digest = { probe with metadata := metadata }.digest ↔ probe.metadata = metadata := by
  constructor
  · intro h
    have hjson := stringify_injective probe.json_plain (HandoverProbe.json_plain _) h
    rw [HandoverProbe.json, HandoverProbe.json, Json.object.injEq, List.append_cancel_right_eq,
      List.append_cancel_left_eq] at hjson
    exact optional_data_injective hjson
  · rintro rfl
    rfl

/-! ## Retries and conflicts -/

def retry (s : Store) (call : Call) (record : OperationRecord) : Outcome :=
  if record.result.state ≠ .pending then answer s call (.ok record.result)
  else proceed s (.resume call record)

structure Remembered (s : Store) (call : Call) (record : OperationRecord) : Prop where
  row : ∃ settle, s.operation.get call.key = some ⟨record, settle⟩
  digest : record.digest = call.digest
  handover : ∀ handover, s.handover.get call.key = some handover → handover.digest = call.digest

/-- Wherever the call looks for the record of its operation id it is taken for a retry. -/
structure Retried (ctx : Context) (s : Store) (call : Call) (record : OperationRecord) : Prop where
  prior : priorStep s call = retry s call record
  claim : ∀ resource clock, claimStep ctx s call resource clock = retry s call record
  initiate : (s.handover.get call.key).isSome → ∀ target deadline resource clock,
    initiateStep ctx s call target deadline resource clock = proceed s (.report call)
  report : reportStep s call = answer s call (.ok record.result)

/-- Wherever the call looks for the record of its operation id it is answered with a conflict. -/
structure Conflicts (ctx : Context) (s : Store) (call : Call) : Prop where
  prior : priorStep s call = answer s call (.error idConflict)
  claim : ∀ resource clock, claimStep ctx s call resource clock = answer s call (.error idConflict)
  initiate : (s.handover.get call.key).isSome → ∀ target deadline resource clock,
    initiateStep ctx s call target deadline resource clock = answer s call (.error idConflict)

section Operations

variable (ctx : Context) {s : Store} {call call' : Call} {record : OperationRecord}

theorem resumed_of_digest {s : Store} {call : Call} {record : OperationRecord} (hdig : record.digest = call.digest) :
    resumed s call record = retry s call record := by
  unfold resumed retry
  rw [if_neg (not_not.mpr hdig)]

section

variable (hfst : Remembered s call record) (hac : call'.actor ≠ "") (hkey : call'.key = call.key)
include hfst hac hkey

theorem Remembered.retried (hdig : call'.digest = call.digest) : Retried ctx s call' record := by
  obtain ⟨settle, hrow⟩ := hfst.row
  have hsame : record.digest = call'.digest := hfst.digest.trans hdig.symm
  rw [← hkey] at hrow
  refine ⟨?_, fun resource clock => ?_, fun hhand target deadline resource clock => ?_, ?_⟩
  · unfold priorStep
    rw [hrow]
    exact resumed_of_digest hsame
  · have hclm : claimOperation ctx call' clock s = .ok ((record, false), s) := by
      simp [claimOperation, failIf, hac, hrow, hsame, bind, Except.bind]
    unfold claimStep
    rw [hclm]
    exact resumed_of_digest hsame
  · obtain ⟨handover, hhand⟩ := Option.isSome_iff_exists.mp hhand
    have hagr : handover.digest = call'.digest := (hfst.handover handover (hkey ▸ hhand)).trans hdig.symm
    have htx : initiateTx ctx call' target deadline resource clock s = .ok ((handover, false), s) := by
      unfold initiateTx
      rw [hhand]
      exact if_neg (not_not.mpr hagr)
    unfold initiateStep
    rw [htx]
  · unfold reportStep resultOf
    rw [show (call'.ref, call'.request.operationId) = call'.key from rfl, hrow]
    rfl

theorem Remembered.conflicts (hdig : call'.digest ≠ call.digest) : Conflicts ctx s call' := by
  obtain ⟨settle, hrow⟩ := hfst.row
  have hoth : record.digest ≠ call'.digest := by
    rw [hfst.digest]
    exact hdig.symm
  rw [← hkey] at hrow
  refine ⟨priorStep_conflict hrow hoth, fun resource clock => claimStep_conflict hac hrow hoth,
    fun hhand target deadline resource clock => ?_⟩
  obtain ⟨handover, hhand⟩ := Option.isSome_iff_exists.mp hhand
  refine initiateStep_conflict hhand ?_
  rw [hfst.handover handover (hkey ▸ hhand)]
  exact hdig.symm

end

theorem Retried.not_conflicts {ctx : Context} (hretry : Retried ctx s call record) : ¬ Conflicts ctx s call := by
  intro hconf
  have h := hretry.prior.symm.trans hconf.prior
  unfold retry at h
  split_ifs at h
  · simp [answer] at h
  · simp [answer, proceed] at h

theorem Remembered.retried_iff (hfst : Remembered s call record) (hac : call'.actor ≠ "")
    (hkey : call'.key = call.key) : (Retried ctx s call' record ↔ call'.digest = call.digest) ∧
      (Conflicts ctx s call' ↔ call'.digest ≠ call.digest) := by
  by_cases hdig : call'.digest = call.digest
  · have hretry := hfst.retried ctx hac hkey hdig
    exact ⟨iff_of_true hretry hdig, iff_of_false hretry.not_conflicts (not_not.mpr hdig)⟩
  · have hconf := hfst.conflicts ctx hac hkey hdig
    exact ⟨iff_of_false (fun h => h.not_conflicts hconf) hdig, iff_of_true hconf hdig⟩

end Operations

section Probes

variable {s : Store} {sender : NodeId} {probe : HandoverProbe} {record : ProbeRecord}

def probeConflict : Thrown := Core.throws .idConflict "The operation ID is bound to another probe."

def ProbeAnswered (s : Store) (sender : NodeId) (probe : HandoverProbe) (answer : Except Thrown ProbeAnswer) : Prop :=
  (∀ deadline, probeStep s sender probe deadline = ⟨s, [], [.probed sender probe answer]⟩) ∧
    ∀ fresh, recordStep s sender probe fresh = ⟨s, [], [.probed sender probe answer]⟩

theorem probeAnswered_of_record (sender : NodeId) (hrow : s.probe.get probe.operationId = some record) :
    ProbeAnswered s sender probe (repeatedProbe record sender probe) := by
  refine ⟨fun deadline => ?_, fun fresh => ?_⟩
  · unfold probeStep
    rw [hrow]
  · unfold recordStep recordProbe
    rw [hrow]
    cases hrep : repeatedProbe record sender probe <;> simp [hrep, bind, Except.bind]

theorem ProbeAnswered.answer_unique {answer answer' : Except Thrown ProbeAnswer}
    (h : ProbeAnswered s sender probe answer) (h' : ProbeAnswered s sender probe answer') : answer = answer' := by
  have heq := (h.1 0).symm.trans (h'.1 0)
  simpa using heq

/-- A probe that finds its id recorded gets the recorded answer exactly when the digests agree. -/
theorem probeAnswered_iff (hrow : s.probe.get probe.operationId = some record) (hsend : record.sender = sender) :
    (ProbeAnswered s sender probe (.ok record.answer) ↔ record.digest = probe.digest) ∧
      (ProbeAnswered s sender probe (.error probeConflict) ↔ record.digest ≠ probe.digest) := by
  have hans := probeAnswered_of_record sender hrow
  by_cases hdig : record.digest = probe.digest
  · have hrep : repeatedProbe record sender probe = .ok record.answer := by
      simp [repeatedProbe, hsend, hdig]
    rw [hrep] at hans
    refine ⟨iff_of_true hans hdig, iff_of_false (fun h => ?_) (not_not.mpr hdig)⟩
    cases hans.answer_unique h
  · have hrep : repeatedProbe record sender probe = .error probeConflict := by
      simp [repeatedProbe, hdig, probeConflict]
    rw [hrep] at hans
    refine ⟨iff_of_false (fun h => ?_) hdig, iff_of_true hans hdig⟩
    cases hans.answer_unique h

end Probes

/-! ## Bodies that differ in order -/

/-- Let two bodies be the same JSON value.  Of operations, the second body is accepted with the headers of the
first and asks for the same operation id; where the first is recorded, the second is taken for a retry exactly
when the data comes in the same order, and is answered with a conflict otherwise.  Of probes the same holds
with the metadata. -/
theorem retried_iff_same_order (ctx : Context) {body body' : Data} (hsame : body.1.normal = body'.1.normal) :
    (∀ headers request, operationRequest headers body = .ok request →
      operationRequest headers body' = .ok { request with data := body'.field "data" } ∧
      ∀ headers' request', operationRequest headers' body' = .ok request' → request'.operationId = request.operationId ∧
        ∀ actor ref s record, actor ≠ "" → Remembered s ⟨actor, ref, request⟩ record →
          (Retried ctx s ⟨actor, ref, request'⟩ record ↔ body.field "data" = body'.field "data") ∧
          (Conflicts ctx s ⟨actor, ref, request'⟩ ↔ body.field "data" ≠ body'.field "data")) ∧
    ∀ probe, probeBody body = .ok probe →
      ∃ probe', probeBody body' = .ok probe' ∧ probe'.operationId = probe.operationId ∧
        ∀ s record, s.probe.get probe.operationId = some record → record.digest = probe.digest →
          (ProbeAnswered s record.sender probe' (.ok record.answer) ↔ body.field "metadata" = body'.field "metadata") ∧
          (ProbeAnswered s record.sender probe' (.error probeConflict) ↔
            body.field "metadata" ≠ body'.field "metadata") := by
  constructor
  · intro headers request hreq
    refine ⟨operationRequest_same hsame hreq, fun headers' request' hreq' => ?_⟩
    obtain ⟨hagr, hdata'⟩ := operationRequest_agrees hsame hreq hreq'
    have hid : request'.operationId = request.operationId := by rw [hagr]
    have hdata : request.data = body.field "data" := by rw [hagr]
    refine ⟨hid, fun actor ref s record hac hfst => ?_⟩
    have hdig : digestOf actor ref request' = digestOf actor ref request ↔ body.field "data" = body'.field "data" := by
      rw [eq_comm, digestOf_data_iff (by rw [hagr]) (by rw [hagr]), hdata, hdata']
    have hkey : Call.key ⟨actor, ref, request'⟩ = Call.key ⟨actor, ref, request⟩ := congrArg (Prod.mk ref) hid
    have hretry := hfst.retried_iff ctx (hac : Call.actor ⟨actor, ref, request'⟩ ≠ "") hkey
    exact ⟨hretry.1.trans hdig, hretry.2.trans (not_congr hdig)⟩
  · intro probe hprobe
    refine ⟨_, probeBody_same hsame hprobe, rfl, fun s record hrow hdig => ?_⟩
    have hmeta : record.digest = { probe with metadata := body'.field "metadata" }.digest ↔
        body.field "metadata" = body'.field "metadata" := by
      rw [hdig, HandoverProbe.digest_metadata_iff, probeBody_metadata hprobe]
    have hans := probeAnswered_iff (hrow : s.probe.get
      { probe with metadata := body'.field "metadata" }.operationId = some record) rfl
    exact ⟨hans.1.trans hmeta, hans.2.trans (not_congr hmeta)⟩

namespace Scenario

def sendBody (fields : List (String × Json)) : Json :=
  .object [("idempotency_key", .string "key"), ("retry_until", .string deadline),
    ("operation_id", .string "op"), ("operation", .string "send"), ("data", .object fields)]

def greeting : Data := ⟨sendBody [("text", .string "hi"), ("to", .string "bob")], rfl⟩

/-- The same value, with the fields of its data the other way round. -/
def turnedGreeting : Data := ⟨sendBody [("to", .string "bob"), ("text", .string "hi")], rfl⟩

/-- The same value, with its own fields the other way round. -/
def turnedBody : Data :=
  ⟨.object [("data", .object [("text", .string "hi"), ("to", .string "bob")]),
    ("operation", .string "send"), ("operation_id", .string "op"), ("retry_until", .string deadline),
    ("idempotency_key", .string "key")], rfl⟩

def sendRequest (body : Data) : OperationRequest :=
  { idempotencyKey := "key", retryUntil := deadline, operationId := "op", operation := "send"
    data := body.field "data" }

def driven (resource : Resource) (call : Call) : List Act :=
  [.operate call, .advance (.prior call) (.go clock), .advance (.admitted call) (.go clock),
    .advance (.validate call resource) (.hook none), .advance (.claim call resource) (.go clock),
    .advance (.execute call resource) (.go clock),
    .advance (.executing call) (.driver (some ⟨.committed, none, none⟩)),
    .advance (.settle call ⟨.committed, none, none⟩ false) (.go clock)]

def sentRows : Store :=
  let call : Call := ⟨"ann", ⟨"hub", "chat"⟩, sendRequest greeting⟩
  { operation := Table.put ∅ call.key
      ⟨call.record (context "hub") ⟨"op", .committed, none, none⟩ 0 "first", false⟩ }

end Scenario

open Scenario in
/-- A committed send comes again with the fields of its body in another order, but not those of its data. -/
theorem retried_iff_same_order_greeting : operationRequest {} turnedBody = .ok (sendRequest greeting) ∧
      Retried (context "hub") sentRows ⟨"ann", ⟨"hub", "chat"⟩, sendRequest greeting⟩
        (Call.record (context "hub") ⟨"ann", ⟨"hub", "chat"⟩, sendRequest greeting⟩
          ⟨"op", .committed, none, none⟩ 0 "first") := by
  have hturned : operationRequest {} turnedBody = .ok (sendRequest greeting) := by decide +kernel
  have hsame : greeting.1.normal = turnedBody.1.normal := by decide +kernel
  obtain ⟨-, hagain⟩ := (retried_iff_same_order (context "hub") hsame).1 {} (sendRequest greeting) (by decide +kernel)
  obtain ⟨-, hretry⟩ := hagain {} (sendRequest greeting) hturned
  refine ⟨hturned, (hretry "ann" ⟨"hub", "chat"⟩ sentRows _ (by decide) ⟨⟨false, ?_⟩, rfl, ?_⟩).1.mpr ?_⟩
  · simp [sentRows]
  · intro handover hrow
    cases hrow
  · decide +kernel

open Scenario in
/-- A send is committed, and comes again with the fields of its data in another order: the same JSON value
under the same operation id is answered with a conflict. -/
theorem reordered_data_conflicts : greeting.1.normal = turnedGreeting.1.normal ∧
    operationRequest {} greeting = .ok (sendRequest greeting) ∧
    operationRequest {} turnedGreeting = .ok (sendRequest turnedGreeting) ∧ ∃ h n, Run (step (context "hub")) {} h n ∧
      (∃ t ∈ h, outputs (context "hub") t = some [.answered ⟨"ann", ⟨"hub", "chat"⟩, sendRequest greeting⟩
        (.ok ⟨"op", .committed, none, none⟩)]) ∧ ∃ t ∈ h, outputs (context "hub") t = some [.answered
        ⟨"ann", ⟨"hub", "chat"⟩, sendRequest turnedGreeting⟩ (.error idConflict)] := by
  refine ⟨by decide +kernel, by decide +kernel, by decide +kernel, ?_⟩
  let chat := resource "hub" "chat" "ann"
  let first : Call := ⟨"ann", ⟨"hub", "chat"⟩, sendRequest greeting⟩
  let second : Call := ⟨"ann", ⟨"hub", "chat"⟩, sendRequest turnedGreeting⟩
  exact exists_run _ _
    (.register "hub" chat :: driven chat first ++ [.operate second, .advance (.prior second) (.go clock)]) _
    (by decide +kernel)

end Onlyne.Resources
