import Onlyne.Client.OutboxChanges

/-!
# Client: what the record of a sent message keeps

Transmissions and recovery passes commit whole records that they read before they waited for the network.  Over
every interleaving of those commits with sends, the acceptance of a message, its request, its digest and its
receipt stay.  Its local context does not: a commit writes back the context of the record it read, so the
context of the latest send stays exactly as long as no commit holds another one.
-/

namespace Onlyne.Client

open Foundation Table Option
open Messages (Message MessageRef)

/-! ## Acceptance, request, digest and receipt -/

structure RowKept (row row' : StoredOutbound) : Prop where
  request : row'.request = row.request
  digest : row'.digest = row.digest
  accepted : row.state = .accepted → row'.state = .accepted
  receipt : ∀ receipt, row.receipt = some receipt → row'.receipt = some receipt

def Kept (rows rows' : OutboundRows) : Prop :=
  ∀ slot row, rows.get slot = some row → ∃ row', rows'.get slot = some row' ∧ RowKept row row'

theorem RowKept.refl (row : StoredOutbound) : RowKept row row := ⟨rfl, rfl, id, fun _ => id⟩

theorem RowKept.trans {row row' row'' : StoredOutbound} (h : RowKept row row') (h' : RowKept row' row'') :
    RowKept row row'' where
  request := h'.request.trans h.request
  digest := h'.digest.trans h.digest
  accepted := h'.accepted ∘ h.accepted
  receipt receipt := h'.receipt receipt ∘ h.receipt receipt

theorem Kept.refl (rows : OutboundRows) : Kept rows rows := fun _ row hrow => ⟨row, hrow, .refl row⟩

theorem Kept.trans {rows rows' rows'' : OutboundRows} (h : Kept rows rows') (h' : Kept rows' rows'') :
    Kept rows rows'' := by
  intro slot row hrow
  obtain ⟨row', hrow', hkept⟩ := h slot row hrow
  obtain ⟨row'', hrow'', hkept'⟩ := h' slot row' hrow'
  exact ⟨row'', hrow'', hkept.trans hkept'⟩

theorem Kept.put {rows : OutboundRows} {slot : MessageRef} {row' : StoredOutbound}
    (h : ∀ row, rows.get slot = some row → RowKept row row') : Kept rows (rows.put slot row') := by
  intro slot' row hrow
  by_cases hslot : slot' = slot
  · subst hslot
    exact ⟨row', get_put_self _ _ _, h row hrow⟩
  · exact ⟨row, by rw [get_put_ne _ _ hslot]; exact hrow, .refl row⟩

structure Backed (rows : OutboundRows) (record : StoredOutbound) : Prop where
  row : ∃ stored, rows.get record.slot = some stored ∧ stored.request = record.request ∧
    stored.digest = record.digest ∧ (record.receipt ≠ none → stored.state = .accepted)

/-- The rows are stored under their identity with their digest, a receipt comes with acceptance, and every
record in flight is backed. -/
structure Identified (o : Outbox) : Prop where
  slot : ∀ slot row, o.rows.get slot = some row → row.slot = slot
  digest : ∀ slot row, o.rows.get slot = some row → row.digest = some (messageDigest row.request)
  receipt : ∀ slot row, o.rows.get slot = some row → row.receipt ≠ none → row.state = .accepted
  held : ∀ task ∈ o.tasks, ∀ record ∈ task.records, Backed o.rows record

section Steps

variable {ctx : Context} {o o' : Outbox} {a : OutAct} {rows : OutboundRows}

theorem Backed.kept {rows' : OutboundRows} {record : StoredOutbound} (h : Backed rows record)
    (hkept : Kept rows rows') : Backed rows' record := by
  obtain ⟨stored, hrow, hreq, hdig, hrcpt⟩ := h.row
  obtain ⟨stored', hrow', hstor⟩ := hkept _ _ hrow
  exact ⟨stored', hrow', hstor.request.trans hreq, hstor.digest.trans hdig, fun h => hstor.accepted (hrcpt h)⟩

theorem Identified.change_kept (h : Identified o) (hchg : OutChange ctx o a rows) : Kept o.rows rows := by
  cases hchg with
  | kept _ _ | repeated => exact .refl _
  | sent call key now created free =>
    refine .put fun row hrow => ?_
    rw [free] at hrow
    cases hrow
  | resent call key now created stored row =>
    refine .put fun row' hrow => ?_
    rw [row] at hrow
    cases hrow
    exact ⟨resent_request _, resent_digest _, fun hacc => by rw [resent_state, if_pos hacc],
      fun receipt hrcpt => by rw [resent_receipt, hrcpt]⟩
  | committed task input record change held commits unaccepted =>
    refine .put fun row hrow => ?_
    -- The row is not accepted, so it has no receipt to lose.
    have hopen := unaccepted row hrow
    obtain ⟨stored, hstor, hreq, hdig, -⟩ := (h.held task held record (OutTask.mem_records_of_commits commits)).row
    rw [hrow] at hstor
    cases hstor
    have hfixed : some record.digestOr = row.digest := by
      rw [StoredOutbound.digestOr, ← hdig, ← hreq, h.digest _ _ hrow]
      rfl
    refine ⟨updated_request.trans hreq.symm, updated_digest.trans hfixed, fun h => absurd h hopen, ?_⟩
    intro receipt hrcpt
    exact absurd (h.receipt _ _ hrow (by rw [hrcpt]; simp)) hopen

theorem Identified.row_kept (h : Identified o) (hchg : OutChange ctx o a rows)
    {slot : MessageRef} {row : StoredOutbound} (hrow : rows.get slot = some row) :
    row.slot = slot ∧ row.digest = some (messageDigest row.request) ∧ (row.receipt ≠ none → row.state = .accepted) := by
  have hold {slot : MessageRef} {row : StoredOutbound} (hrow : o.rows.get slot = some row) :
      row.slot = slot ∧ row.digest = some (messageDigest row.request) ∧ (row.receipt ≠ none → row.state = .accepted) :=
    ⟨h.slot slot row hrow, h.digest slot row hrow, h.receipt slot row hrow⟩
  cases hchg with
  | kept | repeated => exact hold hrow
  | sent =>
    rcases get_put_cases hrow with ⟨rfl, rfl⟩ | ⟨-, hrow⟩
    · exact ⟨rfl, rfl, fun hrcpt => absurd rfl hrcpt⟩
    · exact hold hrow
  | resent call key now created stored found =>
    rcases get_put_cases hrow with ⟨rfl, rfl⟩ | ⟨-, hrow⟩
    · obtain ⟨hslot, hdig, hrcpt⟩ := hold found
      refine ⟨?_, ?_, fun hsome => ?_⟩
      · rw [StoredOutbound.slot, resent_request]
        exact hslot
      · rw [resent_digest, resent_request]
        exact hdig
      · rw [resent_receipt] at hsome
        rw [resent_state, if_pos (hrcpt hsome)]
    · exact hold hrow
  | committed task input record change held commits unaccepted =>
    rcases get_put_cases hrow with ⟨rfl, rfl⟩ | ⟨-, hrow⟩
    · obtain ⟨stored, hstor, hreq, hdig, hrcpt⟩ :=
        (h.held task held record (OutTask.mem_records_of_commits commits)).row
      refine ⟨?_, ?_, fun hsome => ?_⟩
      · rw [StoredOutbound.slot, updated_request]
        rfl
      · rw [updated_digest, updated_request, StoredOutbound.digestOr, ← hdig, ← hreq, (hold hstor).2.1]
        rfl
      · rw [updated_state]
        rw [updated_receipt] at hsome
        cases hchanged : change.receipt with
        | some => exact OutTask.commits_receipt commits (by rw [hchanged]; simp)
        | none =>
          rw [hchanged, none_or] at hsome
          exact absurd (hrcpt hsome) (unaccepted stored hstor)
    · exact hold hrow

theorem Identified.kept (h : Identified o) (hstep : outStep ctx o a = some o') : Identified o' := by
  have hchg := outStep_change hstep
  refine ⟨fun slot row hrow => (h.row_kept hchg hrow).1, fun slot row hrow => (h.row_kept hchg hrow).2.1,
    fun slot row hrow => (h.row_kept hchg hrow).2.2, fun task htask record hrec => ?_⟩
  -- A record in flight was in flight before, or was read from the rows now.
  rcases outStep_records hstep htask hrec with ⟨earlier, hearlier, first, hfst, hsame⟩ | ⟨slot, hrow⟩
  · have hbacked := (h.held earlier hearlier first hfst).kept (h.change_kept hchg)
    rcases hsame with rfl | rfl
    · exact hbacked
    · exact ⟨hbacked.row⟩
  · obtain ⟨hslot, -, hrcpt⟩ := h.row_kept hchg hrow
    refine ⟨record, ?_, rfl, rfl, hrcpt⟩
    rw [hslot]
    exact hrow

theorem identified_empty : Identified {} where
  slot slot row hrow := by cases hrow
  digest slot row hrow := by cases hrow
  receipt slot row hrow := by cases hrow
  held task htask := by cases htask

theorem identified_of_run {h : List (Transition Outbox OutAct)} (hrun : Run (outStep ctx) {} h o) : Identified o :=
  hrun.invariant identified_empty fun _ _ _ hident hstep => hident.kept hstep

end Steps

/-- From any state of a run of the outbox to a later one, whatever the sends, transmissions, retries and
recovery passes do in between: a message that is accepted stays accepted, its request and its digest stay those
of the first write, and a receipt stays the one that was stored. -/
theorem outbound_records_kept (ctx : Context) {h : List (Transition Outbox OutAct)} {o : Outbox}
    (hrun : Run (outStep ctx) {} h o) : ∀ t ∈ h, Kept t.before.rows o.rows := by
  refine (hrun.induction_on (I := fun h o => ∀ t ∈ h, Kept t.before.rows o.rows) (by simp) ?_)
  intro h o a o' hrun hkept hstep
  have hnow : Kept o.rows o'.rows := (identified_of_run hrun).change_kept (outStep_change hstep)
  intro t ht
  rcases List.mem_append.mp ht with hold | hnew
  · exact (hkept t hold).trans hnow
  · cases List.mem_singleton.mp hnew
    exact hnow

namespace Scenario

def client : Context where
  node := "ann"

def plan : Messages.DeliveryPlan := ⟨.known .none, .known .existing, none⟩

def delivery (context : Option String) : Delivery where
  target := "bob"
  message := ⟨"m", "ann", "note", "hi", none⟩
  plan := plan
  options := { retryUntil := some 1000, idempotencyKey := some "key", context := context }

def sentRecord (context : Option String) : StoredOutbound :=
  (delivery context).record ((delivery context).request client "key" 0) 0

def failedRecord (context : Option String) : StoredOutbound :=
  ((sentRecord context).updated (failedUpdate (failureOf (.other "down")) (some 1) 0)).trimmed

def failingSend (context : Option String) : List OutAct :=
  let record := sentRecord context
  let failure := failureOf (.other "down")
  [.deliver (delivery context) "key" 0 0, .advance (.sending record .caller) (.failed (.other "down")),
    .advance (.failing record failure .caller) (.go 0),
    .advance (.scheduling record failure (some 1) .caller) (.go 0),
    .advance (.reporting record failure .unknown .caller) (.go 0)]

end Scenario

open Scenario in
/-- A send fails, a recovery pass that a caller asks for delivers it, and the receipt is stored. -/
theorem outbound_records_kept_delivered :
    ∃ h o, Run (outStep client) {} h o ∧ (∃ row, o.rows.get ⟨"ann", "m"⟩ = some row ∧
      row.state = .accepted ∧ row.receipt = some (.string "receipt")) ∧ ∀ t ∈ h, Kept t.before.rows o.rows := by
  let record := { failedRecord none with state := SendState.pending }
  obtain ⟨h, o, hrun, hrow⟩ := exists_run (outStep client) {}
    (failingSend none ++ [.recover false 1, .advance (.recovering [failedRecord none]) (.go 1),
      .advance (.sending record (.pass [])) (.replied (.string "receipt")),
      .advance (.accept record (.string "receipt") (.pass [])) (.go 1)])
    (fun _ o => ∃ row ∈ o.rows.get ⟨"ann", "m"⟩, row.state = .accepted ∧ row.receipt = some (.string "receipt"))
    (by decide +kernel)
  exact ⟨h, o, hrun, hrow, outbound_records_kept client hrun⟩

/-! ## The local context -/

def contextOf (rows : OutboundRows) (slot : MessageRef) : Option String :=
  (rows.get slot).bind fun record => record.localContext

def sentContext (ctx : Context) (t : Transition Outbox OutAct) (slot : MessageRef) : Option String :=
  match t.act with
  | .deliver call key now created =>
    match deliverTx call (call.request ctx key now) created t.before.rows with
    | .ok _ => if call.message.ref = slot then call.options.context else none
    | .error _ => none
  | _ => none

def latestContext (ctx : Context) (h : List (Transition Outbox OutAct)) (slot : MessageRef) : Option String :=
  h.foldl (fun latest t => (sentContext ctx t slot).or latest) none

/-- A commit that takes effect holds the local context of the row it overwrites. -/
def commitsContext (t : Transition Outbox OutAct) : Bool :=
  match t.act with
  | .advance task input =>
    match task.commits input with
    | some (record, _) => (t.before.rows.get record.slot).all fun (current : StoredOutbound) =>
        current.state = .accepted || record.localContext = current.localContext
    | none => true
  | _ => true

section Contexts

variable {ctx : Context} {o o' : Outbox} {a : OutAct}

theorem latestContext_snoc (h : List (Transition Outbox OutAct)) (t : Transition Outbox OutAct) (slot : MessageRef) :
    latestContext ctx (h ++ [t]) slot = (sentContext ctx t slot).or (latestContext ctx h slot) := by
  simp [latestContext]

theorem contextOf_put (rows : OutboundRows) (slot slot' : MessageRef) (record : StoredOutbound) :
    contextOf (rows.put slot record) slot' = if slot' = slot then record.localContext else contextOf rows slot' := by
  unfold contextOf
  rw [get_put]
  split_ifs <;> rfl

theorem sentContext_deliver {call : Delivery} {key : String} {now created : Int}
    (h : ∀ stored, o.rows.get call.message.ref = some stored →
      stored.digestOr = messageDigest (call.request ctx key now)) (slot : MessageRef) :
    sentContext ctx ⟨o, .deliver call key now created, o'⟩ slot =
      if call.message.ref = slot then call.options.context else none := by
  have hsent : ∃ sent, deliverTx call (call.request ctx key now) created o.rows = .ok sent :=
    deliverTx_ok call created h
  obtain ⟨sent, htx⟩ := hsent
  simp only [sentContext, htx]

theorem contextOf_put_sent (call : Delivery) {record : StoredOutbound}
    (hctx : record.localContext = call.options.context.or (contextOf o.rows call.message.ref))
    (slot : MessageRef) : contextOf (o.rows.put call.message.ref record) slot =
      (if call.message.ref = slot then call.options.context else none).or (contextOf o.rows slot) := by
  rw [contextOf_put]
  by_cases hslot : slot = call.message.ref
  · rw [if_pos hslot, if_pos hslot.symm, hctx, hslot]
  · rw [if_neg hslot, if_neg (Ne.symm hslot), none_or]

theorem Quiet.sentContext (hq : Quiet ctx o a) (slot : MessageRef) : sentContext ctx ⟨o, a, o'⟩ slot = none := by
  cases a with
  | deliver =>
    unfold Quiet at hq
    simp only [Client.sentContext, hq]
  | recover | advance | crash => rfl

theorem Quiet.commitsContext (hq : Quiet ctx o a) : commitsContext ⟨o, a, o'⟩ = true := by
  cases a with
  | advance =>
    simp only [Client.commitsContext]
    split
    · next record change hcom =>
      obtain ⟨current, hcur, hst⟩ := hq record change hcom
      rw [hcur]
      simp [hst]
    · rfl
  | deliver | recover | crash => rfl

/-- An act writes the contexts of sends and nothing else exactly if its commit holds the current one. -/
theorem contexts_step_iff (hident : Identified o) (hstep : outStep ctx o a = some o') :
    (∀ slot, contextOf o'.rows slot = (sentContext ctx ⟨o, a, o'⟩ slot).or (contextOf o.rows slot)) ↔
      commitsContext ⟨o, a, o'⟩ = true := by
  have hchg := outStep_change hstep
  generalize hrows : o'.rows = rows at hchg
  cases hchg with
  | kept _ quiet =>
    refine iff_of_true (fun slot => ?_) quiet.commitsContext
    rw [quiet.sentContext, none_or]
  | repeated call key now created stored row same unchanged =>
    refine iff_of_true (fun slot => ?_) rfl
    rw [sentContext_deliver fun stored' hrow => by rw [row] at hrow; cases hrow; exact same]
    split_ifs with hslot
    · have hctx := congrArg StoredOutbound.localContext unchanged
      rw [resent_localContext] at hctx
      rw [← hslot, contextOf, row]
      exact hctx.symm
    · rw [none_or]
  | sent call key now created free =>
    refine iff_of_true (fun slot => ?_) rfl
    rw [sentContext_deliver fun stored hrow => by rw [free] at hrow; cases hrow]
    refine contextOf_put_sent call ?_ slot
    rw [contextOf, free]
    simp [Delivery.record]
  | resent call key now created stored row same =>
    refine iff_of_true (fun slot => ?_) rfl
    rw [sentContext_deliver fun stored' hrow => by rw [row] at hrow; cases hrow; exact same]
    refine contextOf_put_sent call ?_ slot
    rw [resent_localContext, contextOf, row]
    rfl
  | committed task input record change held commits unaccepted =>
    obtain ⟨current, hcur, -⟩ := (hident.held task held record (OutTask.mem_records_of_commits commits)).row
    have hcom : commitsContext ⟨o, .advance task input, o'⟩ = true ↔ record.localContext = current.localContext := by
      simp [commitsContext, commits, hcur, unaccepted current hcur]
    rw [hcom]
    simp only [contextOf_put, updated_localContext, sentContext, none_or]
    constructor
    · intro hall
      have hslot := hall record.slot
      rw [if_pos rfl, contextOf, hcur] at hslot
      exact hslot
    · intro hsame slot
      split_ifs with hslot
      · rw [hslot, contextOf, hcur, hsame]
        rfl
      · rfl

end Contexts

/-- In a run of the outbox the stored local context of every message is at every moment the one its latest send
wrote, exactly when every commit that takes effect holds the local context of the row it overwrites. -/
theorem local_context_latest_iff (ctx : Context) {h : List (Transition Outbox OutAct)} {o : Outbox}
    (hrun : Run (outStep ctx) {} h o) :
    EveryStep (fun past t => ∀ slot, contextOf t.after.rows slot = latestContext ctx (past ++ [t]) slot) h ↔
      ∀ t ∈ h, commitsContext t = true := by
  refine hrun.everyStep_iff_of
    (I := fun h o => ∀ slot, contextOf o.rows slot = latestContext ctx h slot) (fun _ => rfl) ?_
  intro past o a o' hprev hstep hlast
  simp only [latestContext_snoc, ← hlast]
  exact contexts_step_iff (identified_of_run hprev) hstep

open Scenario in
/-- A message is sent again in another context after its first transmission has failed and was recorded: every
stored context is the latest. -/
theorem local_context_latest_iff_resent :
    ∃ h o, Run (outStep client) {} h o ∧ contextOf o.rows ⟨"ann", "m"⟩ = some "b" ∧
      EveryStep (fun past t => ∀ slot, contextOf t.after.rows slot = latestContext client (past ++ [t]) slot) h := by
  obtain ⟨h, o, hrun, hfacts⟩ := exists_run (outStep client) {}
    (failingSend (some "a") ++ [.deliver (delivery (some "b")) "key" 0 0])
    (fun h o => contextOf o.rows ⟨"ann", "m"⟩ = some "b" ∧ ∀ t ∈ h, commitsContext t = true)
    (by decide +kernel)
  exact ⟨h, o, hrun, hfacts.1, (local_context_latest_iff client hrun).mpr hfacts.2⟩

open Scenario in
/-- A message is sent again in another context while its first transmission is in flight: the failure of the
first transmission is committed with the record it read, and the context of the second send is lost. -/
theorem commit_reverts_context : ∃ h o, Run (outStep client) {} h o ∧ latestContext client h ⟨"ann", "m"⟩ = some "b" ∧
      contextOf o.rows ⟨"ann", "m"⟩ = some "a" := by
  let record := sentRecord (some "a")
  let failure := failureOf (.other "down")
  exact exists_run _ _ [.deliver (delivery (some "a")) "key" 0 0, .deliver (delivery (some "b")) "key" 0 0,
      .advance (.sending record .caller) (.failed (.other "down")),
      .advance (.failing record failure .caller) (.go 0),
      .advance (.scheduling record failure (some 1) .caller) (.go 0)]
    _ (by decide +kernel)

end Onlyne.Client
