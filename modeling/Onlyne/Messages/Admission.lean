import Onlyne.Messages.Types

/-!
# Messages: admission

`admit` of `messages.ts` with what it calls.  A call checks its request, asks the runtime whether it
supports the plan, and then runs one transaction: it replays what is recorded for the identity of
the message, or lands the message in a thread, or records the refusal.

Every rejecting check of `append` runs before its first write, so the checks (`stage`) and the
writes (`append`) are two functions here.  A refusal that the source returns through `refuse` and
one it throws are the same to the caller of `append`, which hands both to `refuse`.
-/

namespace Onlyne.Messages

open Foundation List

/-- What an admission is given from outside: the answers of the hooks, the clock readings in the order
of the source, and the identifiers it draws.  A hook that is not installed answers `true`, nothing
or no value. -/
structure AdmitInput where
  supports : Except Thrown Bool := .ok true
  traceDuplicate : Except Thrown Unit := .ok ()
  inboundThread : Option (Except Thrown Bool) := none
  mayAdmit : Option (Except Thrown Bool) := none
  mention : String → Except Thrown (Option NodeId) := fun _ => .ok none
  traceReceived : Except Thrown Unit := .ok ()
  notifyInbound : Except Thrown Unit := .ok ()
  notifyPending : Except Thrown Unit := .ok ()
  -- The two readings of the admission window.
  windowStart : Int
  windowEnd : Int
  -- The readings for a permit: to land a reply, and to allow it.
  landingNow : Int
  permitNow : Int
  -- The readings stamped on a new thread and on the entry.
  createdNow : Int
  entryNow : Int
  revision : String
  receiptId : String
  -- The candidates `crypto.randomUUID` draws one after the other.
  uuids : List String := []

/-! ## Refusals -/

def recordedRefusal : ErrorCode → Bool
  | .invalidRequest | .forbidden | .notAMember | .idConflict | .revisionConflict | .threadClosed
  | .contextLost | .payloadTooLarge | .unsupportedMediaType | .unsupportedDelivery
  | .ambiguousTarget | .ambiguousResource => true
  | _ => false

def transientRefusal : ErrorCode → Bool
  | .notFound | .unavailable | .conflict | .retryWindowExpired => true
  | _ => false

section Transaction

variable {D : Type} (ctx : Context D) (tx : Store D)

/-- Record a refusal of `identity` when it is one that is recorded. -/
def refuse (tx : Store D) (identity : MessageRef) (digest : D) (retryUntil : String) (failure : Failure) : Store D :=
  if recordedRefusal failure.code then
    { tx with message := tx.message.put identity ⟨digest, .refused failure, retryUntil⟩ }
  else tx

/-! ## Landing -/

/-- The instant a text names is after `now`; no date is after anything. -/
def after (ctx : Context D) (text : String) (now : Int) : Bool :=
  match ctx.dateParse text with
  | some time => time > now
  | none => false

/-- The permit allows `message` at `now`. -/
def permitAllows (ctx : Context D) (permit : ReplyPermit) (message : Message) (now : Int) : Bool :=
  !permit.revoked && permit.remaining > 0 && after ctx permit.expiresAt now &&
    (message.relation ≠ some .followup || permit.followup)

/-- The thread a reply belongs to: that of the nearest delivered message of the chain of sent ones. -/
def chainLanding (ctx : Context D) (tx : Store D) (sender : NodeId) :
    Nat → List MessageRef → MessageRef → Except Halt (Option ThreadRef)
  | 0, _, _ => .error .looping
  | fuel + 1, visited, ref =>
    if ref ∈ visited then fail .invalidRequest "The reply chain contains a cycle."
    else
      match tx.entryRef.get ref with
      | some entry => do
        ctx.owner entry.threadRef.owner
        match tx.thread.get entry.threadRef with
        | none => fail .notFound "The original reply landing is no longer available."
        | some thread =>
          failIf (thread.state = .closed) .threadClosed
            "The original reply landing is closed; an explicitly authorized alternative is required."
          .ok (some entry.threadRef)
      | none =>
        match tx.outbound.get ref with
        | none =>
          fail .notFound
            "The original message history is unavailable; no alternative reply landing was authorized."
        | some sent =>
          if ref.sender ≠ ctx.node || sent.expectedAuthor ≠ sender then
            fail .forbidden "This sender is not the expected reply author."
          else
            match sent.request.message.inReplyTo with
            -- The first reply to an outbound root has no local incoming thread yet.
            | none => .ok none
            | some parent => chainLanding ctx tx sender fuel (ref :: visited) parent

/-- The permit of `message` to answer the message it names. -/
def replyPermit (tx : Store D) (message : Message) : Option ReplyPermit :=
  message.inReplyTo.bind fun original => tx.permit.get (original, message.sender)

/-- The landing a message names, or the one its reply leads to. -/
def replyLanding (ctx : Context D) (tx : Store D) (message : Message) (input : AdmitInput) :
    Except Halt (Option ThreadRef) :=
  match message.routing.bind Meta.thread, message.inReplyTo with
  | some ref, _ => .ok (some ref)
  | none, none => .ok none
  | none, some original =>
    -- Every hop of the chain reads another outbound row.
    let chain := chainLanding ctx tx message.sender (tx.outbound.rows.length + 1) [] original
    match replyPermit tx message with
    | none => chain
    | some permit =>
      if permitAllows ctx permit message input.landingNow && ctx.node = permit.landing.owner then
        .ok (some permit.landing)
      else chain

/-- The walk along a reply chain ends: every hop visits another outbound row. -/
theorem chainLanding_ne_looping (sender : NodeId) (fuel : Nat)
    (visited : List MessageRef) (ref : MessageRef) (hnodup : visited.Nodup)
    (hrows : ∀ r ∈ visited, ∃ row, tx.outbound.get r = some row)
    (hfuel : tx.outbound.rows.length < visited.length + fuel) :
    chainLanding ctx tx sender fuel visited ref ≠ .error .looping := by
  induction fuel generalizing visited ref with
  | zero =>
    have hle := Table.length_le_rows hnodup hrows
    omega
  | succ fuel ih =>
    unfold chainLanding
    split_ifs with hvisited
    · exact fail_ne_looping
    · split
      · apply failIf_bind_ne_looping
        split
        · exact fail_ne_looping
        · exact failIf_bind_ne_looping nofun
      · split
        · exact fail_ne_looping
        · next sent hsent =>
          split_ifs
          · exact fail_ne_looping
          · split
            · exact nofun
            · refine ih (ref :: visited) _ (nodup_cons.mpr ⟨hvisited, hnodup⟩) ?_ ?_
              · exact forall_mem_cons.mpr ⟨⟨sent, hsent⟩, hrows⟩
              · rw [length_cons]
                omega

theorem replyLanding_ne_looping (message : Message)
    (input : AdmitInput) : replyLanding ctx tx message input ≠ .error .looping := by
  have hchain (original : MessageRef) : chainLanding ctx tx message.sender
      (tx.outbound.rows.length + 1) [] original ≠ .error .looping :=
    chainLanding_ne_looping ctx tx message.sender _ [] original nodup_nil nofun (by simp)
  unfold replyLanding
  split
  · exact nofun
  · exact nofun
  · split
    · exact hchain _
    · split_ifs
      · exact nofun
      · exact hchain _

/-- A message this node sent, with nothing of it delivered here, that waits for an answer of the sender. -/
def Unanswered (sender : NodeId) (ref : MessageRef) (sent : Outbound) : Prop :=
  tx.entryRef.get ref = none ∧ tx.outbound.get ref = some sent ∧ ref.sender = ctx.node ∧ sent.expectedAuthor = sender

inductive Chain (sender : NodeId) : MessageRef → MessageRef → Prop where
  | here (ref : MessageRef) : Chain sender ref ref
  | hop {ref parent last} {sent : Outbound} (unanswered : Unanswered ctx tx sender ref sent)
      (answers : sent.request.message.inReplyTo = some parent) (rest : Chain sender parent last) :
      Chain sender ref last

def ChainLands (sender : NodeId) (original : MessageRef) : Option ThreadRef → Prop
  | some thread => ∃ last entry row, Chain ctx tx sender original last ∧ tx.entryRef.get last = some entry ∧
      entry.threadRef = thread ∧ thread.owner = ctx.node ∧ tx.thread.get thread = some row ∧ row.state = .opened
  | none => ∃ last sent, Chain ctx tx sender original last ∧ Unanswered ctx tx sender last sent ∧
      sent.request.message.inReplyTo = none

variable {ctx tx}

theorem ChainLands.hop {sender : NodeId} {ref parent : MessageRef} {sent : Outbound} {landing : Option ThreadRef}
    (hsent : Unanswered ctx tx sender ref sent) (hparent : sent.request.message.inReplyTo = some parent)
    (h : ChainLands ctx tx sender parent landing) : ChainLands ctx tx sender ref landing := by
  cases landing with
  | some =>
    obtain ⟨last, entry, row, hleads, hrest⟩ := h
    exact ⟨last, entry, row, .hop hsent hparent hleads, hrest⟩
  | none =>
    obtain ⟨last, sent', hleads, hrest⟩ := h
    exact ⟨last, sent', .hop hsent hparent hleads, hrest⟩

theorem lands_of_chainLanding {sender : NodeId} {fuel : Nat} {visited : List MessageRef} {ref : MessageRef}
    {landing : Option ThreadRef} (h : chainLanding ctx tx sender fuel visited ref = .ok landing) :
    ChainLands ctx tx sender ref landing := by
  induction fuel generalizing visited ref with
  | zero => cases h
  | succ fuel ih =>
    unfold chainLanding at h
    split_ifs at h
    · cases h
    · split at h
      · next entry hentry =>
        simp only [bind_eq_ok] at h
        obtain ⟨_, hown, h⟩ := h
        split at h
        · cases h
        · next thread hthr =>
          obtain ⟨_, hopen, h⟩ := bind_eq_ok.mp h
          cases h
          have hstate : thread.state = .opened := by
            cases hst : thread.state with
            | opened => rfl
            | closed => simp [hst] at hopen
          exact ⟨ref, entry, thread, .here ref, hentry, rfl, by simpa [Context.owner] using hown, hthr, hstate⟩
      · next hentry =>
        split at h
        · cases h
        · next sent hsent =>
          split_ifs at h with hself
          · cases h
          · simp only [Bool.or_eq_true, decide_eq_true_eq, not_or, not_not] at hself
            have hunanswered : Unanswered ctx tx sender ref sent := ⟨hentry, hsent, hself⟩
            split at h
            · next hparent =>
              cases h
              exact ⟨ref, sent, .here ref, hunanswered, hparent⟩
            · next parent hparent => exact .hop hunanswered hparent (ih h)

variable (ctx tx)

/-- **Reply landing.**  The walk along a reply chain ends, whatever the records refer to.  What it returns is what
the chain leads to, and otherwise it refuses. -/
theorem reply_landing (sender : NodeId) (original : MessageRef) :
    match chainLanding ctx tx sender (tx.outbound.rows.length + 1) [] original with
    | .ok landing => ChainLands ctx tx sender original landing
    | .error halt => ∃ thrown, halt = .threw thrown := by
  have hend : chainLanding ctx tx sender (tx.outbound.rows.length + 1) [] original ≠ .error .looping :=
    chainLanding_ne_looping ctx tx sender _ [] original nodup_nil nofun (by simp)
  split
  · next h => exact lands_of_chainLanding h
  · next halt h =>
    cases halt with
    | threw thrown => exact ⟨thrown, rfl⟩
    | looping => exact absurd h hend

section

variable (ctx : Context D) (auth : Auth) (ref : ThreadRef) (request : SendRequest)

def defaultLanding (tx : Store D) : Option ThreadRef :=
  (tx.default.get ctx.node).filter fun ref => ref.owner = ctx.node && ref.id ≠ ""

/-- Where a message lands, and whether a first contact opens the thread. -/
def landing (tx : Store D) (message : Message) (input : AdmitInput) : Except Halt (ThreadRef × Bool) := do
  match ← replyLanding ctx tx message input with
  | some ref => .ok (ref, false)
  | none =>
    match defaultLanding ctx tx with
    | some ref => .ok (ref, false)
    | none =>
      match input.inboundThread with
      | none => fail .notFound "No default thread is configured."
      | some policy =>
        if ← asked policy then
          match input.uuids.find? fun id => (tx.thread.get ⟨ctx.node, id⟩).isNone with
          | some id => .ok (⟨ctx.node, id⟩, true)
          | none => .error .looping
        else fail .notFound "No default thread is configured."

def requireThreadRef : Except Halt Unit :=
  failIf (ref.id = "") .invalidRequest "Expected a ThreadRef with an owner and a non-empty id."

def loadThread (tx : Store D) (ref : ThreadRef) : Except Halt Thread := do
  requireThreadRef ref
  ctx.owner ref.owner
  requireValue (tx.thread.get ref)

def freshThread (title createdAt : String) : Thread where
  threadRef := ref
  title := title
  state := .opened
  nextSeq := 1
  eventSeq := 0
  createdAt := createdAt
  closedAt := none

def landingThread (tx : Store D) (message : Message) (input : AdmitInput)
    (ref : ThreadRef) (firstContact : Bool) : Except Halt Thread := do
  ctx.owner ref.owner
  if firstContact then
    let createdAt ← ctx.stamp input.createdNow
    .ok (freshThread ref (contactTitle message.msg message.deliveryKind) createdAt)
  else loadThread ctx tx ref

/-! ## Recipients -/

def addRecipient (recipients : List NodeId) (node : NodeId) : List NodeId :=
  if node ∈ recipients then recipients else recipients ++ [node]

def activeMembers (tx : Store D) (ref : ThreadRef) : List Member :=
  (tx.member.rows.filter fun row => row.1.1 = ref && row.2.state = .active).map Prod.snd

def mentioned (owner : NodeId) (members : List Member) (input : AdmitInput) (mention : String) :
    Except Halt NodeId := do
  let name := match mention.toList with
    | '@' :: rest => String.ofList rest
    | _ => mention
  if name = owner || members.any (fun member => member.peer = name) then .ok name
  else
    match ← asked (input.mention name) with
    | none => fail .invalidRequest "A mention must resolve to an active member identity."
    | some resolved =>
      failIf (resolved ≠ owner && !members.any (fun member => member.peer = resolved)) .invalidRequest
        "A mention must resolve to an active member identity."
      .ok resolved

def mentionedRecipients (owner : NodeId) (members : List Member) (input : AdmitInput) :
    List NodeId → List String → Except Halt (List NodeId)
  | recipients, [] => .ok recipients
  | recipients, mention :: rest => do
    failIf (mention = "") .invalidRequest "A mention must be a non-empty string."
    if mention = "@all" then
      mentionedRecipients owner members input
        ((members.map Member.peer).foldl addRecipient (addRecipient recipients owner)) rest
    else
      let node ← mentioned owner members input mention
      mentionedRecipients owner members input (addRecipient recipients node) rest

def recipients (tx : Store D) (message : Message) (input : AdmitInput) (ref : ThreadRef)
    (firstContact : Bool) : Except Halt (List NodeId) := do
  let mentions := (message.routing.bind Meta.mentions).getD []
  -- A direct first contact is the owner's business even without a mention.
  let start := if firstContact then [ref.owner] else []
  let nodes ← mentionedRecipients ref.owner (activeMembers tx ref) input start mentions
  match message.inReplyTo with
  | none => .ok nodes
  | some original =>
    match tx.entryRef.get original with
    | some source => .ok (addRecipient nodes source.replyAuthority)
    | none => .ok (addRecipient nodes original.sender)

/-! ## Staging -/

structure Staged where
  threadRef : ThreadRef
  thread : Thread
  firstContact : Bool
  -- The permit the admission uses up once.
  spent : Option ReplyPermit
  recipients : List NodeId
  stampedAt : String

def mayPost (tx : Store D) (ref : ThreadRef) (firstContact : Bool) (sender : NodeId) : Bool :=
  firstContact || sender = ref.owner ||
    match tx.member.get (ref, sender) with
    | none => false
    | some member => member.state = .active && member.access.contains .post

def allowedPermit (tx : Store D) (message : Message) (input : AdmitInput) (ref : ThreadRef) : Option ReplyPermit :=
  (replyPermit tx message).filter fun permit =>
    permitAllows ctx permit message input.permitNow && permit.landing = ref

def admissionPolicy (input : AdmitInput) : Except Halt Unit :=
  match input.mayAdmit with
  | none => .ok ()
  | some policy => do
    let admitted ← asked policy
    failIf (!admitted) .forbidden "The admission policy refused the request."

/-- The checks of `append`.  The stamp of the entry is taken here: when it throws, the writes that
precede it in the source are rolled back. -/
def stage (tx : Store D) (message : Message) (input : AdmitInput) : Except Halt Staged := do
  let (ref, firstContact) ← landing ctx tx message input
  let thread ← landingThread ctx tx message input ref firstContact
  let ordinary := mayPost tx ref firstContact message.sender
  let permit := allowedPermit ctx tx message input ref
  failIf (!ordinary && permit.isNone) .notAMember "The sender is not an active post member."
  failIf (thread.state = .closed) .threadClosed "The thread is closed."
  admissionPolicy input
  let nodes ← recipients tx message input ref firstContact
  let stampedAt ← ctx.stamp input.entryNow
  .ok { threadRef := ref, thread := thread, firstContact := firstContact
        spent := if ordinary then none else permit, recipients := nodes, stampedAt := stampedAt }

/-! ## Writing -/

def Staged.entry (staged : Staged) (auth : Auth) (message : Message) : Entry where
  threadRef := staged.threadRef
  seq := staged.thread.nextSeq
  message := message
  authenticatedAuthor := message.sender
  replyAuthority := auth.replyAuthority.getD auth.actor
  stampedAt := staged.stampedAt

def Staged.receipt (staged : Staged) (ctx : Context D) (request : SendRequest) (input : AdmitInput) : Receipt where
  messageRef := request.message.ref
  receiptId := input.receiptId
  guarantee := ctx.guarantee
  threadRef := staged.threadRef
  seq := staged.thread.nextSeq
  plan := request.plan
  threadCreated := staged.firstContact
  previousSeq := staged.thread.nextSeq - 1
  inReplyTo := request.message.inReplyTo

def contactMember (sender : NodeId) (revision : String) : Member where
  peer := sender
  state := .active
  access := [.post, .read]
  readScope := {}
  revision := revision

def grantNotice (peer : NodeId) (revision : String) : Grant where
  id := revision
  recipient := peer
  threadRef := ref
  revision := revision
  acked := false

def openContact (tx : Store D) (staged : Staged) (sender : NodeId) (revision : String) : Store D × Nat :=
  let ref := staged.threadRef
  if staged.firstContact then
    let eventSeq := staged.thread.eventSeq + 1
    let member := contactMember sender revision
    ({ tx with
        member := tx.member.put (ref, sender) member
        notice := tx.notice.put revision (grantNotice ref sender revision)
        event := tx.event.put (ref, eventSeq) ⟨eventSeq, ref, .membership member⟩ }, eventSeq)
  else (tx, staged.thread.eventSeq)

def spendPermit (tx : Store D) (message : Message) : Option ReplyPermit → Store D
  | none => tx
  | some permit =>
    match message.inReplyTo with
    | none => tx
    | some original =>
      { tx with
        permit := tx.permit.put (original, message.sender)
          { permit with remaining := permit.remaining - 1 } }

def attentionFor (entry : Entry) (plan : DeliveryPlan) (recipient : NodeId) : Attention where
  obligationId := key [entry.threadRef.owner, entry.threadRef.id, entry.message.sender,
    entry.message.id, recipient]
  recipient := recipient
  threadRef := entry.threadRef
  seq := entry.seq
  messageRef := entry.message.ref
  authenticatedAuthor := entry.message.sender
  acked := false
  plan := some plan
  entry := some entry

/-- Write an obligation, and its local copy when this node is the recipient and has none yet.  What the
trace hook throws after the writes is handed on with the rows as they are. -/
def writeAttention (tx : Store D) (attention : Attention) (plan : DeliveryPlan)
    (trace : Except Thrown Unit) : Except Thrown Unit × Store D :=
  let written := { tx with
    attention := tx.attention.put (attention.threadRef, attention.obligationId) attention }
  if attention.recipient ≠ ctx.node || (tx.inbox.get attention.obligationId).isSome then
    (.ok (), written)
  else
    (trace, { written with
      inbox := written.inbox.put attention.obligationId
        { attention := attention, context := plan.context, injected := false } })

/-- Write the obligations towards the recipients in turn, up to the first throw. -/
def writeAttentions (ctx : Context D) (entry : Entry) (plan : DeliveryPlan)
    (trace : Except Thrown Unit) : Store D → List NodeId → Except Thrown Unit × Store D
  | tx, [] => (.ok (), tx)
  | tx, recipient :: rest =>
    match writeAttention ctx tx (attentionFor entry plan recipient) plan trace with
    | (.error thrown, tx') => (.error thrown, tx')
    | (.ok _, tx') => writeAttentions ctx entry plan trace tx' rest

/-- The writes of `append` up to the attention rows. -/
def writeEntry (tx : Store D) (auth : Auth) (request : SendRequest)
    (input : AdmitInput) (digest requestDigest : D) (staged : Staged) : Store D :=
  let ref := staged.threadRef
  let message := request.message
  let entry := staged.entry auth message
  let (opened, eventSeq) := openContact tx staged message.sender input.revision
  let written := { opened with
    thread := opened.thread.put ref
      { staged.thread with nextSeq := staged.thread.nextSeq + 1, eventSeq := eventSeq + 1 }
    entry := opened.entry.put (ref, staged.thread.nextSeq) entry
    entryRef := opened.entryRef.put message.ref entry
    message := opened.message.put message.ref
      ⟨digest, .admitted (staged.receipt ctx request input), request.retryUntil⟩
    messageKey := opened.messageKey.put (auth.actor, request.idempotencyKey)
      ⟨requestDigest, message.ref⟩ }
  spendPermit written message staged.spent

/-- The writes of `append`: what was thrown after some of them, and the rows then. -/
def append (tx : Store D) (auth : Auth) (request : SendRequest)
    (input : AdmitInput) (digest requestDigest : D) (staged : Staged) : Except Thrown Receipt × Store D :=
  let ref := staged.threadRef
  let eventSeq := (openContact tx staged request.message.sender input.revision).2 + 1
  let written := writeEntry ctx tx auth request input digest requestDigest staged
  match writeAttentions ctx (staged.entry auth request.message) request.plan input.traceReceived
      written staged.recipients with
  | (.error thrown, tx') => (.error thrown, tx')
  | (.ok _, tx') =>
    (.ok (staged.receipt ctx request input),
      { tx' with
        event := tx'.event.put (ref, eventSeq)
          ⟨eventSeq, ref, .message request.message.ref staged.thread.nextSeq⟩ })

/-! ## The call -/

def responseText : Wire ResponseMode → String
  | .known .none => "none"
  | .known .async => "async"
  | .known .await => "await"
  | .unknown text => text

def executionText : Wire ExecutionMode → String
  | .known .existing => "existing"
  | .known .new => "new"
  | .unknown text => text

/-- The refusal of a plan the host cannot carry out names the plan. -/
def unsupportedDelivery (plan : DeliveryPlan) : Failure :=
  onlyneError .unsupportedDelivery
    ("This host cannot deliver a " ++ responseText plan.response ++ " response with " ++
      executionText plan.execution ++ " execution; nothing was stored.")
    (some (.object [("plan", .object [("response", .string (responseText plan.response)),
      ("execution", .string (executionText plan.execution))])]))

def admitChecks : Except Failure Unit :=
  let message := request.message
  if auth.actor = "" then .error (onlyneError .unauthenticated "Authentication is required.")
  else if message.id = "" then
    .error (onlyneError .invalidRequest "A message needs id, sender, delivery_kind and msg.")
  else if message.sender ≠ auth.actor && auth.sender ≠ some message.sender then
    .error (onlyneError .forbidden "The caller cannot represent this author.")
  else if request.targetEndpoint ≠ ctx.node then
    .error (onlyneError .forbidden "The target endpoint is not served here.")
  else if !(request.plan.response matches .known _) || !(request.plan.execution matches .known _) then
    .error (onlyneError .invalidRequest "An executable delivery plan is required.")
  else if request.idempotencyKey = "" then
    .error (onlyneError .invalidRequest "An idempotency key is required.")
  else if message.relation.isSome && message.inReplyTo.isNone then
    .error (onlyneError .invalidRequest "A relation requires an original message.")
  else .ok ()

def contentDigest : D :=
  ctx.fingerprint (.content request.message request.targetEndpoint)

def requestDigest : D :=
  ctx.fingerprint
    (.request request.message request.targetEndpoint request.plan request.retryUntil)

def decideAdmission (tx : Store D) (auth : Auth) (request : SendRequest)
    (input : AdmitInput) (supported : Bool) : Except Halt (Except Failure Receipt × Store D) :=
  let refused failure rows := Except.ok (.error failure,
    refuse rows request.message.ref (contentDigest ctx request) request.retryUntil failure)
  if !supported then refused (unsupportedDelivery request.plan) tx
  else
    match (do ctx.deadline input.windowStart input.windowEnd request.retryUntil
              stage ctx tx request.message input) with
    | .error .looping => .error .looping
    | .error (.threw (.onlyne failure)) => refused failure tx
    | .error (.threw thrown) => .error (.threw thrown)
    | .ok staged =>
      match append ctx tx auth request input (contentDigest ctx request) (requestDigest ctx request)
          staged with
      | (.ok receipt, tx') => .ok (.ok receipt, tx')
      -- A refusal thrown after writes is recorded beside them.
      | (.error (.onlyne failure), tx') => refused failure tx'
      | (.error thrown, _) => .error (.threw thrown)

end

end Transaction

section Call

variable {D : Type} [DecidableEq D]

section

variable (ctx : Context D) (tx : Store D) (auth : Auth) (request : SendRequest) (input : AdmitInput)

def boundElsewhere : Bool :=
  match tx.messageKey.get (auth.actor, request.idempotencyKey) with
  | none => false
  | some bound => bound.digest ≠ requestDigest ctx request || bound.identity ≠ request.message.ref

def bindKey : Store D :=
  let slot := (auth.actor, request.idempotencyKey)
  match tx.messageKey.get slot with
  | some _ => tx
  | none =>
    { tx with messageKey := tx.messageKey.put slot ⟨requestDigest ctx request, request.message.ref⟩ }

def admitTx (supported : Bool) : Except Halt (Except Failure Receipt × Store D) :=
  let identity := request.message.ref
  if boundElsewhere ctx tx auth request then
    fail .idConflict "The idempotency key is bound to another request."
  else
    match tx.message.get identity with
    | none => decideAdmission ctx tx auth request input supported
    | some old =>
      match input.traceDuplicate with
      | .error thrown => .error (.threw thrown)
      | .ok _ =>
        -- A different body never replaces the identity already recorded, accepted or refused.
        if old.digest ≠ contentDigest ctx request then
          .ok (.error (onlyneError .idConflict "This message identity has different content."), tx)
        else
          match old.verdict with
          | .admitted receipt => .ok (.ok receipt, bindKey ctx tx auth request)
          | .tombstone =>
            .ok (.error (onlyneError .retryWindowExpired "Only the message tombstone remains."), tx)
          | .refused failure =>
            if transientRefusal failure.code then
              decideAdmission ctx { tx with message := tx.message.delete identity } auth request
                input supported
            else .ok (.error failure, tx)

/-- The `OnlyneError` a refused admission throws. -/
def thrownAgain (failure : Failure) : Thrown :=
  .onlyne (onlyneError failure.code failure.message failure.details)

/-- The `admit` call: its answer and the rows it leaves, or nothing while a loop of it is running. -/
def admitRequest (store : Store D) (auth : Auth) (request : SendRequest)
    (input : AdmitInput) : Option (Except Thrown Receipt × Store D) :=
  match admitChecks ctx auth request, input.supports with
  | .error failure, _ => some (.error (.onlyne failure), store)
  | .ok _, .error thrown => some (.error thrown, store)
  | .ok _, .ok supported =>
    match admitTx ctx store auth request input supported with
    | .error .looping => none
    | .error (.threw thrown) => some (.error thrown, store)
    | .ok (.error failure, store') => some (.error (thrownAgain failure), store')
    | .ok (.ok receipt, store') =>
      match input.notifyInbound, input.notifyPending with
      | .ok _, .ok _ => some (.ok receipt, store')
      | .error thrown, _ => some (.error thrown, store')
      | .ok _, .error thrown => some (.error thrown, store')

end

end Call

end Onlyne.Messages
