import Onlyne.Messages.EventList

/-!
# Messages: the trace hook

An admission calls the trace hook of the host at two places: for a duplicate, before it replays what is
recorded, and for a new inbox row, in the middle of its writes.  What the hook throws is thrown by the
admission, so a hook that throws is not a mere observer.  `admit_untraced_iff` says exactly when an
admission does what it would do without a hook.
-/

namespace Onlyne.Messages

open Foundation List Option

/-! ## Without a hook -/

def AdmitInput.untraced (input : AdmitInput) : AdmitInput :=
  { input with
    traceDuplicate := .ok ()
    traceReceived := .ok () }

def Call.untraced : Call → Call
  | .admitRequest auth request input => .admitRequest auth request input.untraced
  | call => call

section Sites

variable {D : Type} {plan : DeliveryPlan} {nodes : List NodeId} {entry : Entry}

/-! ## Where the hook is called -/

def receives (ctx : Context D) (tx : Store D) (attention : Attention) : Bool :=
  attention.recipient = ctx.node && (tx.inbox.get attention.obligationId).isNone

/-- One of these recipients is this node, and has no inbox row of the entry yet. -/
def receivedBy (ctx : Context D) (tx : Store D) (entry : Entry) (plan : DeliveryPlan)
    (recipients : List NodeId) : Bool :=
  recipients.any fun node => receives ctx tx (attentionFor entry plan node)

variable (ctx : Context D) (tx : Store D)

theorem writeAttention_eq (attention : Attention) (plan : DeliveryPlan) (trace : Except Thrown Unit) :
    writeAttention ctx tx attention plan trace = if receives ctx tx attention then
        (trace, { tx with
          attention := tx.attention.put (attention.threadRef, attention.obligationId) attention
          inbox := tx.inbox.put attention.obligationId
            { attention := attention, context := plan.context, injected := false } })
      else (.ok (), { tx with
        attention := tx.attention.put (attention.threadRef, attention.obligationId) attention }) := by
  unfold writeAttention receives
  by_cases hnode : attention.recipient = ctx.node
  · cases hinbox : tx.inbox.get attention.obligationId <;> simp [hnode]
  · simp [hnode]

theorem writeAttentions_quiet {ctx : Context D} {tx : Store D}
    (h : receivedBy ctx tx entry plan nodes = false) (trace : Except Thrown Unit) :
    writeAttentions ctx entry plan trace tx nodes = writeAttentions ctx entry plan (.ok ()) tx nodes := by
  induction nodes generalizing tx with
  | nil => rfl
  | cons node rest ih =>
    rw [receivedBy, any_cons, Bool.or_eq_false_iff] at h
    unfold writeAttentions
    rw [writeAttention_eq, writeAttention_eq, h.1]
    exact ih h.2

theorem writeAttentions_traced {ctx : Context D} {tx : Store D}
    (h : receivedBy ctx tx entry plan nodes = true) (thrown : Thrown) :
    (writeAttentions ctx entry plan (.error thrown) tx nodes).1 = .error thrown := by
  induction nodes generalizing tx with
  | nil => cases h
  | cons node rest ih =>
    unfold writeAttentions
    rw [writeAttention_eq]
    cases hfst : receives ctx tx (attentionFor entry plan node) with
    | true => rfl
    | false =>
      rw [receivedBy, any_cons, hfst] at h
      exact ih h

theorem writeEntry_inbox (auth : Auth) (request : SendRequest) (input : AdmitInput) (digest requestDigest : D)
    (staged : Staged) : (writeEntry ctx tx auth request input digest requestDigest staged).inbox = tx.inbox := by
  simp only [writeEntry, openContact, spendPermit]
  cases staged.firstContact <;> cases staged.spent <;> cases request.message.inReplyTo <;> rfl

/-- The hook is called in the middle of the writes of this admission. -/
def Staged.received (staged : Staged) (ctx : Context D) (tx : Store D) (auth : Auth) (request : SendRequest) : Bool :=
  receivedBy ctx tx (staged.entry auth request.message) request.plan staged.recipients

section Append

variable {ctx : Context D} {tx : Store D} {auth : Auth} {request : SendRequest} {input : AdmitInput}
  {digest requestDigest : D} {staged : Staged}

theorem append_untraced (h : staged.received ctx tx auth request = true → input.traceReceived = .ok ()) :
    append ctx tx auth request input digest requestDigest staged =
      append ctx tx auth request input.untraced digest requestDigest staged := by
  cases hrecv : staged.received ctx tx auth request with
  | true =>
    have hinput : input.traceReceived = input.untraced.traceReceived := h hrecv
    unfold append
    rw [hinput]
    rfl
  | false =>
    have hwr : receivedBy ctx (writeEntry ctx tx auth request input digest requestDigest staged)
        (staged.entry auth request.message) request.plan staged.recipients = false := by
      unfold receivedBy receives
      rw [writeEntry_inbox]
      exact hrecv
    unfold append
    dsimp only
    rw [writeAttentions_quiet hwr]
    rfl

theorem append_traced {thrown : Thrown} (h : staged.received ctx tx auth request = true)
    (htrace : input.traceReceived = .error thrown) :
    (append ctx tx auth request input digest requestDigest staged).1 = .error thrown := by
  have hwr : receivedBy ctx (writeEntry ctx tx auth request input digest requestDigest staged)
      (staged.entry auth request.message) request.plan staged.recipients = true := by
    unfold receivedBy receives
    rw [writeEntry_inbox]
    exact h
  have hthr := writeAttentions_traced hwr thrown
  unfold append
  dsimp only
  rw [htrace]
  generalize writeAttentions ctx (staged.entry auth request.message) request.plan (.error thrown)
    (writeEntry ctx tx auth request input digest requestDigest staged) staged.recipients = rows at hthr
  obtain ⟨outcome, tx'⟩ := rows
  subst hthr
  rfl

end Append

theorem stage_untraced (message : Message) (input : AdmitInput) :
    stage ctx tx message input.untraced = stage ctx tx message input := by
  have hmentions (owner : NodeId) (members : List Member) (nodes : List NodeId)
      (mentions : List String) : mentionedRecipients owner members input.untraced nodes mentions =
        mentionedRecipients owner members input nodes mentions := by
    induction mentions generalizing nodes with
    | nil => rfl
    | cons mention rest ih =>
      unfold mentionedRecipients
      simp only [ih]
      rfl
  unfold stage recipients
  simp only [hmentions]
  rfl

inductive TraceSite (D : Type) where
  -- For what is recorded, before it is replayed.
  | duplicate (old : Remembered D)
  -- For a new inbox row, after it is written.
  | received

section

variable (ctx : Context D) (tx : Store D) (request : SendRequest) (input : AdmitInput)

def staging : Except Halt Staged := do
  ctx.deadline input.windowStart input.windowEnd request.retryUntil
  stage ctx tx request.message input

theorem staging_untraced : staging ctx tx request input.untraced = staging ctx tx request input := by
  unfold staging
  rw [stage_untraced]
  rfl

/-- The decision on a fresh identity writes a new inbox row. -/
def decisionReceives (auth : Auth) (request : SendRequest) (input : AdmitInput) : Bool :=
  match staging ctx tx request input with
  | .error _ => false
  | .ok staged => staged.received ctx tx auth request

def notifyThrows : Option Thrown :=
  match input.notifyInbound, input.notifyPending with
  | .error thrown, _ => some thrown
  | .ok _, .error thrown => some thrown
  | .ok _, .ok _ => none

/-- What is recorded for an identity, as the answer to a request that repeats it. -/
def replay (old : Remembered D) [DecidableEq D] : Except Failure Receipt :=
  if old.digest ≠ contentDigest ctx request then
    .error (onlyneError .idConflict "This message identity has different content.")
  else
    match old.verdict with
    | .admitted receipt => .ok receipt
    | .tombstone =>
      .error (onlyneError .retryWindowExpired "Only the message tombstone remains.")
    | .refused failure => .error failure

end

end Sites

section Admissions

variable {D : Type} [DecidableEq D] {thrown : Thrown} {staged : Staged}

section

variable (ctx : Context D) (tx : Store D) (auth : Auth) (request : SendRequest) (input : AdmitInput)

/-- The place where this admission calls the hook, if it does. -/
def traceSite : Option (TraceSite D) :=
  match admitChecks ctx auth request, input.supports with
  | .ok _, .ok supported =>
    if boundElsewhere ctx tx auth request then none
    else
      match tx.message.get request.message.ref with
      | some old => some (.duplicate old)
      | none => if supported && decisionReceives ctx tx auth request input then some .received else none
  | _, _ => none

def replayThrows (old : Remembered D) : Option Thrown :=
  match replay ctx request old with
  | .error failure => some (thrownAgain failure)
  | .ok _ =>
    if (tx.messageKey.get (auth.actor, request.idempotencyKey)).isNone then none else notifyThrows input

/-- The hook returns where this admission calls it, or throws just what the replay throws. -/
def harmless : Bool :=
  match traceSite ctx tx auth request input with
  | none => true
  | some .received => (input.traceReceived matches .ok _)
  | some (.duplicate old) =>
    match input.traceDuplicate with
    | .ok _ => true
    | .error thrown => replayThrows ctx tx auth request input old = some thrown

end

/-! ## One admission -/

section One

variable {ctx : Context D} {s : Store D} {auth : Auth} {request : SendRequest} {input : AdmitInput}

omit [DecidableEq D] in
/-- The decision on a fresh identity does not depend on a hook that returns where it is called. -/
theorem decideAdmission_untraced (supported : Bool)
    (h : supported = true → decisionReceives ctx s auth request input = true → input.traceReceived = .ok ()) :
    decideAdmission ctx s auth request input supported =
      decideAdmission ctx s auth request input.untraced supported := by
  cases supported with
  | false => rfl
  | true =>
    have hchecked := staging_untraced ctx s request input
    unfold decisionReceives staging at h
    unfold staging at hchecked
    unfold decideAdmission
    rw [hchecked]
    generalize (do ctx.deadline input.windowStart input.windowEnd request.retryUntil
                   stage ctx s request.message input) = checked at h
    cases checked with
    | error halt => cases halt with
      | looping => rfl
      | threw thrown => cases thrown <;> rfl
    | ok =>
      dsimp only at h ⊢
      rw [append_untraced (h rfl)]

section

variable (h : Listed s.log) (hfr : s.message.get request.message.ref = none)
include h hfr

omit [DecidableEq D] in
/-- Without the event of its message a log is not the one the admission leaves. -/
theorem Listed.event_missing (hland : Landed s.log staged) (failure : Failure) :
    (s.log.tear ctx auth request input staged failure).event ≠
      (s.log.admitEntry ctx auth request input staged).event := by
  intro hev
  have hcont := (h.contact (contactMember request.message.sender input.revision) hland).1.1
  have htorn : (s.log.tear ctx auth request input staged failure).event =
      (s.log.contact staged (contactMember request.message.sender input.revision)).event := by
    unfold Log.tear Log.refuse
    split_ifs <;> rfl
  rw [htorn] at hev
  -- An event announces recorded messages only, and this one is not recorded yet.
  refine hcont.known (staged.threadRef, staged.contactThread.eventSeq + 1) request.message.ref
    staged.contactThread.nextSeq ?_ ?_
  · refine ⟨⟨staged.contactThread.eventSeq + 1, staged.threadRef,
      .message request.message.ref staged.contactThread.nextSeq⟩, ?_, rfl⟩
    rw [hev]
    exact Table.get_put_self _ _ _
  · rw [contact_message]
    exact hfr

omit [DecidableEq D] in
/-- What the writes leave that a throwing hook ends, beside what they leave without it. -/
theorem append_both (hland : Landed s.log staged) (hrecv : staged.received ctx s auth request = true)
    (htrace : input.traceReceived = .error thrown) : ∃ receipt tx tx',
      append ctx s auth request input.untraced (contentDigest ctx request) (requestDigest ctx request)
        staged = (.ok receipt, tx) ∧
      append ctx s auth request input (contentDigest ctx request) (requestDigest ctx request)
        staged = (.error thrown, tx') ∧
      tx ≠ s ∧ ∀ failure, tx ≠ refuse tx' request.message.ref (contentDigest ctx request)
        request.retryUntil failure := by
  have hthr : (append ctx s auth request input (contentDigest ctx request)
      (requestDigest ctx request) staged).1 = .error thrown := append_traced hrecv htrace
  cases htraced : append ctx s auth request input (contentDigest ctx request) (requestDigest ctx request) staged with
  | mk outcome' tx' =>
  rw [htraced] at hthr
  cases hthr
  cases happ : append ctx s auth request input.untraced (contentDigest ctx request)
    (requestDigest ctx request) staged with
  | mk outcome tx =>
  cases outcome with
  | error =>
    have hok := append_error happ
    cases hok
  | ok receipt =>
    obtain ⟨-, hlog⟩ := append_ok happ
    refine ⟨receipt, tx, tx', rfl, rfl, ?_, ?_⟩
    · rintro rfl
      -- The admission is on record, and was not before.
      have hrec := congrArg (fun log => log.message.get request.message.ref) hlog
      rw [admit_message, Table.get_put_self] at hrec
      cases hfr.symm.trans hrec
    · intro failure heq
      have htorn := congrArg Store.log heq
      rw [refuse_log, append_torn htraced, hlog] at htorn
      exact h.event_missing hfr hland failure (congrArg Log.event htorn).symm

omit [DecidableEq D] in
theorem decideAdmission_traced (hrecv : decisionReceives ctx s auth request input = true)
    (htrace : input.traceReceived = .error thrown) :
    ∃ receipt tx, decideAdmission ctx s auth request input.untraced true = .ok (.ok receipt, tx) ∧
      (decideAdmission ctx s auth request input true = .error (.threw thrown) ∧ tx ≠ s ∨
        ∃ failure tx', decideAdmission ctx s auth request input true = .ok (.error failure, tx') ∧ tx ≠ tx') := by
  have hchecked := staging_untraced ctx s request input
  unfold decisionReceives at hrecv
  cases hstg : staging ctx s request input with
  | error =>
    rw [hstg] at hrecv
    cases hrecv
  | ok staged =>
    rw [hstg] at hrecv hchecked
    unfold staging at hstg hchecked
    have hland : Landed s.log staged := by
      obtain ⟨-, -, hpassed⟩ := bind_eq_ok.mp hstg
      exact stage_landed hpassed
    obtain ⟨receipt, tx, tx', huntraced, htraced, hwr, htorn⟩ := append_both h hfr hland hrecv htrace
    unfold decideAdmission
    simp only [hstg, hchecked, huntraced, htraced, Bool.not_true, Bool.false_eq_true, if_false]
    refine ⟨receipt, tx, rfl, ?_⟩
    cases thrown with
    | onlyne failure => exact .inr ⟨failure, _, rfl, htorn failure⟩
    | other => exact .inl ⟨rfl, hwr⟩

end

variable {old : Remembered D} {supported : Bool}

theorem admitTx_duplicate (h : Standing s.log) (hbd : boundElsewhere ctx s auth request = false)
    (hold : s.message.get request.message.ref = some old) (htrace : input.traceDuplicate = .ok ())
    (supported : Bool) : admitTx ctx s auth request input supported = match replay ctx request old with
      | .ok receipt => .ok (.ok receipt, bindKey ctx s auth request)
      | .error failure => .ok (.error failure, s) := by
  unfold admitTx replay
  simp only [hbd, hold, htrace, Bool.false_eq_true, if_false]
  by_cases hdig : old.digest = contentDigest ctx request
  · simp only [hdig, ne_eq, not_true_eq_false, if_false]
    cases hverd : old.verdict with
    | admitted => rfl
    | tombstone => rfl
    | refused failure =>
      -- Only a refusal that stands is recorded, so the identity is not decided on anew.
      have hstd := not_transient_of_recorded (h _ old failure hold hverd)
      simp [hstd]
  · simp only [ne_eq, hdig, not_false_eq_true, if_true]

/-- The answer of an admission whose receipt is in hand. -/
def notified (input : AdmitInput) (receipt : Receipt) : Except Thrown Receipt :=
  match notifyThrows input with
  | none => .ok receipt
  | some thrown => .error thrown

def concluded (s : Store D) (input : AdmitInput) :
    Except Halt (Except Failure Receipt × Store D) → Option (Except Thrown Receipt × Store D)
  | .error .looping => none
  | .error (.threw thrown) => some (.error thrown, s)
  | .ok (.error failure, tx) => some (.error (thrownAgain failure), tx)
  | .ok (.ok receipt, tx) => some (notified input receipt, tx)

section

variable (hchk : admitChecks ctx auth request = .ok ()) (hsup : input.supports = .ok supported)
include hchk hsup

theorem admitRequest_eq : admitRequest ctx s auth request input =
      concluded s input (admitTx ctx s auth request input supported) := by
  unfold admitRequest
  rw [hchk, hsup]
  dsimp only
  cases admitTx ctx s auth request input supported with
  | error halt => cases halt <;> rfl
  | ok result =>
    obtain ⟨outcome, tx⟩ := result
    cases outcome with
    | error => rfl
    | ok =>
      unfold concluded notified notifyThrows
      cases input.notifyInbound <;> cases input.notifyPending <;> rfl

theorem admitRequest_untraced_eq : admitRequest ctx s auth request input.untraced =
      concluded s input (admitTx ctx s auth request input.untraced supported) :=
  admitRequest_eq hchk hsup

end

omit [DecidableEq D] in
theorem bindKey_ne (h : s.messageKey.get (auth.actor, request.idempotencyKey) = none) :
    bindKey ctx s auth request ≠ s := by
  intro heq
  have hrow := congrArg (fun tx => tx.messageKey.get (auth.actor, request.idempotencyKey)) heq
  simp [bindKey, h] at hrow

section

variable (h : Standing s.log) (hchk : admitChecks ctx auth request = .ok ())
  (hsup : input.supports = .ok supported) (hbd : boundElsewhere ctx s auth request = false)
  (hold : s.message.get request.message.ref = some old)
include h hchk hsup hbd hold

theorem replayThrows_iff (thrown : Thrown) : some (.error thrown, s) = admitRequest ctx s auth request input.untraced ↔
      replayThrows ctx s auth request input old = some thrown := by
  rw [admitRequest_untraced_eq hchk hsup, admitTx_duplicate h hbd hold rfl]
  unfold replayThrows
  cases replay ctx request old with
  | error => simp [concluded, eq_comm]
  | ok =>
    cases hkey : s.messageKey.get (auth.actor, request.idempotencyKey) with
    | none =>
      have hne : s ≠ bindKey ctx s auth request := (bindKey_ne hkey).symm
      simp [concluded, hne]
    | some =>
      have hkept : bindKey ctx s auth request = s := by simp [bindKey, hkey]
      simp only [concluded, hkept, notified]
      cases notifyThrows input <;> simp [eq_comm]

theorem duplicate_untraced_iff :
    admitRequest ctx s auth request input = admitRequest ctx s auth request input.untraced ↔
      (match input.traceDuplicate with
        | .ok _ => true
        | .error thrown => decide (replayThrows ctx s auth request input old = some thrown)) = true := by
  cases htrace : input.traceDuplicate with
  | ok =>
    refine iff_of_true ?_ rfl
    rw [admitRequest_eq hchk hsup, admitRequest_untraced_eq hchk hsup,
      admitTx_duplicate h hbd hold htrace, admitTx_duplicate h hbd hold rfl]
  | error thrown =>
    have htraced : admitRequest ctx s auth request input = some (.error thrown, s) := by
      simp [admitRequest_eq hchk hsup, admitTx, hbd, hold, htrace, concluded]
    rw [htraced, decide_eq_true_eq]
    exact replayThrows_iff h hchk hsup hbd hold thrown

end

theorem fresh_untraced_iff (h : Listed s.log) (hchk : admitChecks ctx auth request = .ok ())
    (hsup : input.supports = .ok supported) (hbd : boundElsewhere ctx s auth request = false)
    (hfr : s.message.get request.message.ref = none) :
    admitRequest ctx s auth request input = admitRequest ctx s auth request input.untraced ↔
      (supported = true → decisionReceives ctx s auth request input = true → input.traceReceived = .ok ()) := by
  constructor
  · rintro heq rfl hrecv
    cases htrace : input.traceReceived with
    | ok => rfl
    | error =>
      have htx (input : AdmitInput) : admitTx ctx s auth request input true =
          decideAdmission ctx s auth request input true := by
        simp [admitTx, hbd, hfr]
      rw [admitRequest_eq hchk hsup, admitRequest_untraced_eq hchk hsup, htx, htx] at heq
      -- Whatever the two calls answer, they leave different rows.
      obtain ⟨receipt, tx, huntraced, ⟨htraced, hne⟩ | ⟨failure, tx', htraced, hne⟩⟩ :=
        decideAdmission_traced h hfr hrecv htrace
      all_goals
        rw [huntraced, htraced] at heq
        exact absurd (Prod.mk.inj (Option.some.inj heq)).2.symm hne
  · intro hq
    rw [admitRequest_eq hchk hsup, admitRequest_untraced_eq hchk hsup]
    unfold admitTx
    dsimp only
    rw [hfr]
    rw [decideAdmission_untraced supported hq]

/-- An admission does what it would do without a hook exactly when the hook is harmless to it. -/
theorem admit_untraced_iff (h : Listed s.log) :
    admitRequest ctx s auth request input = admitRequest ctx s auth request input.untraced ↔
      harmless ctx s auth request input = true := by
  have hsame : input.untraced.supports = input.supports := rfl
  unfold harmless traceSite
  cases hchk : admitChecks ctx auth request with
  | error => simp [admitRequest, hchk]
  | ok =>
    cases hsup : input.supports with
    | error => simp [admitRequest, hchk, hsame, hsup]
    | ok supported =>
      cases hbd : boundElsewhere ctx s auth request with
      | true =>
        refine iff_of_true ?_ rfl
        rw [admitRequest_eq hchk hsup, admitRequest_untraced_eq hchk hsup]
        simp [admitTx, hbd]
      | false =>
        cases hold : s.message.get request.message.ref with
        | none =>
          rw [fresh_untraced_iff h hchk hsup hbd hold]
          cases supported <;> cases decisionReceives ctx s auth request input <;> cases input.traceReceived <;> simp
        | some => exact duplicate_untraced_iff h.standing hchk hsup hbd hold

end One

/-! ## A sequence of calls -/

/-- The answers to calls made one after the other, and the rows after the last of them; nothing while a
loop of one of them is running. -/
def performAll (ctx : Context D) : Store D → List Call → Option (List (Except Thrown Answer) × Store D)
  | s, [] => some ([], s)
  | s, call :: rest =>
    (perform ctx s call).bind fun r => (performAll ctx r.2 rest).map fun rs => (r.1 :: rs.1, rs.2)

theorem performAll_snoc (ctx : Context D) (s : Store D) (calls : List Call) (call : Call) :
    performAll ctx s (calls ++ [call]) = (performAll ctx s calls).bind fun r => (perform ctx r.2 call).map fun last =>
        (r.1 ++ [last.1], last.2) := by
  induction calls generalizing s with
  | nil =>
    simp only [nil_append, performAll, bind_some]
    cases perform ctx s call <;> rfl
  | cons first rest ih =>
    simp only [cons_append, performAll]
    cases perform ctx s first with
    | none => rfl
    | some r =>
      simp only [bind_some, ih]
      cases performAll ctx r.2 rest with
      | none => rfl
      | some rs =>
        simp only [bind_some, map_some]
        cases perform ctx rs.2 call <;> rfl

variable {ctx : Context D} {s : Store D} {h : List (Transition (Store D) Call)}

theorem performAll_of_run (hrun : Run (step ctx) {} h s) :
    ∃ answers, performAll ctx {} (h.map Transition.act) = some (answers, s) := by
  refine hrun.induction_on (I := fun past s => ∃ answers,
    performAll ctx {} (past.map Transition.act) = some (answers, s)) ⟨[], rfl⟩ ?_
  rintro past s call s' - ⟨answers, hans⟩ hstep
  obtain ⟨r, hperf, rfl⟩ := map_eq_some_iff.mp hstep
  refine ⟨answers ++ [r.1], ?_⟩
  rw [map_append, map_singleton, performAll_snoc, hans, bind_some, hperf]
  rfl

def harmlessStep (ctx : Context D) (t : Transition (Store D) Call) : Bool :=
  match t.act with
  | .admitRequest auth request input => Messages.harmless ctx t.before auth request input
  | _ => true

/-- A call does what it would do without a hook exactly when the hook is harmless to it. -/
theorem perform_untraced_iff (hlist : Listed s.log) (call : Call) (s' : Store D) :
    perform ctx s call = perform ctx s call.untraced ↔ harmlessStep ctx ⟨s, call, s'⟩ = true := by
  cases call with
  | admitRequest auth request input =>
    refine Iff.trans ?_ (admit_untraced_iff hlist)
    -- The answer of the node carries the one of the admission unchanged.
    refine (map_injective ?_).eq_iff
    rintro ⟨outcome, tx⟩ ⟨outcome', tx'⟩ heq
    cases outcome <;> cases outcome' <;> simp_all [Except.map]
  | _ => exact iff_of_true rfl rfl

/-- A run, at each of its steps, has given the answers and has left the rows it would have given and
left without a trace hook, exactly when the hook is harmless to every one of its calls. -/
theorem untraced_alike_iff (hrun : Run (step ctx) {} h s) : EveryStep (fun past t =>
        performAll ctx {} ((past ++ [t]).map Transition.act) =
          performAll ctx {} ((past ++ [t]).map fun t => t.act.untraced)) h ↔ ∀ t ∈ h, harmlessStep ctx t = true := by
  refine hrun.everyStep_iff_of (I := fun past _ => performAll ctx {} (past.map Transition.act) =
    performAll ctx {} (past.map fun t => t.act.untraced)) rfl ?_
  intro past s call s' hpast _ halike
  obtain ⟨answers, hans⟩ := performAll_of_run hpast
  rw [← perform_untraced_iff (listed_of_run hpast) call s']
  simp only [map_append, map_singleton, performAll_snoc, ← halike, hans, bind_some]
  refine (map_injective ?_).eq_iff
  rintro ⟨answer, tx⟩ ⟨answer', tx'⟩ heq
  simpa using heq

namespace Scenario

/-- A first contact is sent twice, under a hook that throws wherever it is not called. -/
def observed : List Call :=
  [sends "k1" (message "m1" "hello") { welcoming with traceDuplicate := .error (.other "full") },
    sends "k1" (message "m1" "hello") { welcoming with traceReceived := .error (.other "full") }]

def returned (result : Option (List (Except Thrown Answer) × Store Digested)) : Bool :=
  result.any fun r => r.1.all fun answer => answer.toBool

end Scenario

open Scenario in
theorem untraced_alike_iff_observed : ∃ h s, Run (step context) {} h s ∧ h.length = 2 ∧ EveryStep (fun past t =>
        performAll context {} ((past ++ [t]).map Transition.act) =
          performAll context {} ((past ++ [t]).map fun t => t.act.untraced)) h := by
  obtain ⟨h, s, hrun, hp⟩ := exists_run (step context) {} observed
    (fun h _ => h.length = 2 ∧ ∀ t ∈ h, harmlessStep context t = true) (by decide +kernel)
  exact ⟨h, s, hrun, hp.1, (untraced_alike_iff hrun).mpr hp.2⟩

open Scenario in
/-- The first contact whose hook throws is refused with its entry in the log; without the hook it is
admitted. -/
theorem throwing_hook_interferes : Scenario.returned (performAll context {} tornContact) = false ∧ Scenario.returned
        (performAll context {} (tornContact.map Call.untraced)) = true ∧ performAll context {} tornContact ≠
        performAll context {} (tornContact.map Call.untraced) := by
  have hrfs : Scenario.returned (performAll context {} tornContact) = false := by decide +kernel
  have hadm : Scenario.returned (performAll context {} (tornContact.map Call.untraced)) = true := by
    decide +kernel
  refine ⟨hrfs, hadm, fun heq => ?_⟩
  rw [← heq, hrfs] at hadm
  cases hadm

end Admissions

end Onlyne.Messages
