import Onlyne.Messages.Node

/-!
# Messages: what one call writes

What a call does to the whole store, torn writes included: a call keeps the rows, touches records and
key bindings, appends an entry with everything that belongs to it, commits the work of a repeatable
call under its idempotency row, expires entries, or replaces a row of the sending side.  The log
(`Changes.lean`), the rights of peers (memberships, notices, permits) and the obligations towards them
are followed through `Effect`, so no later proof looks at the calls again.
-/

namespace Onlyne.Messages

open Foundation List

def Staged.contactThread (staged : Staged) : Thread :=
  if staged.firstContact then { staged.thread with eventSeq := staged.thread.eventSeq + 1 }
  else staged.thread

/-! ## Admissions do not read the records -/

section Records

variable {D : Type}

@[reducible] def Store.withMessage (store : Store D) (message : Table MessageRef (Remembered D)) : Store D :=
  { store with message := message }

theorem openContact_seq (tx : Store D) (staged : Staged) (sender : NodeId) (revision : String) :
    (openContact tx staged sender revision).2 = staged.contactThread.eventSeq := by
  unfold openContact Staged.contactThread
  split_ifs <;> rfl

section Append

variable (ctx : Context D) (tx : Store D) (message : Table MessageRef (Remembered D)) (auth : Auth)
  (request : SendRequest) (input : AdmitInput) (digest requestDigest : D) (staged : Staged)

theorem chainLanding_withMessage (sender : NodeId) (fuel : Nat) (visited : List MessageRef) (ref : MessageRef) :
    chainLanding ctx (tx.withMessage message) sender fuel visited ref =
      chainLanding ctx tx sender fuel visited ref := by
  induction fuel generalizing visited ref with
  | zero => rfl
  | succ fuel ih =>
    unfold chainLanding
    simp only [ih]

theorem stage_withMessage (records : Table MessageRef (Remembered D)) (message : Message) (input : AdmitInput) :
    stage ctx (tx.withMessage records) message input = stage ctx tx message input := by
  have hreply : replyLanding ctx (tx.withMessage records) message input = replyLanding ctx tx message input := by
    unfold replyLanding
    simp only [chainLanding_withMessage]
    rfl
  have hland : landing ctx (tx.withMessage records) message input = landing ctx tx message input := by
    unfold landing
    rw [hreply]
    rfl
  unfold stage
  rw [hland]
  rfl

theorem writeAttention_withMessage (attention : Attention) (plan : DeliveryPlan) (trace : Except Thrown Unit) :
    writeAttention ctx (tx.withMessage message) attention plan trace = ((writeAttention ctx tx attention plan trace).1,
        (writeAttention ctx tx attention plan trace).2.withMessage message) := by
  unfold writeAttention
  split_ifs <;> rfl

theorem writeAttentions_withMessage (entry : Entry) (plan : DeliveryPlan) (trace : Except Thrown Unit)
    (message : Table MessageRef (Remembered D)) (tx : Store D) (nodes : List NodeId) :
    writeAttentions ctx entry plan trace (tx.withMessage message) nodes =
      ((writeAttentions ctx entry plan trace tx nodes).1,
        (writeAttentions ctx entry plan trace tx nodes).2.withMessage message) := by
  induction nodes generalizing tx with
  | nil => rfl
  | cons node rest ih =>
    unfold writeAttentions
    rw [writeAttention_withMessage]
    cases writeAttention ctx tx (attentionFor entry plan node) plan trace with
    | mk outcome tx₁ =>
      cases outcome with
      | error => rfl
      | ok => exact ih tx₁

def Staged.record (staged : Staged) (ctx : Context D) (request : SendRequest) (input : AdmitInput)
    (digest : D) : Remembered D :=
  ⟨digest, .admitted (staged.receipt ctx request input), request.retryUntil⟩

theorem writeEntry_withMessage :
    writeEntry ctx (tx.withMessage message) auth request input digest requestDigest staged =
      (writeEntry ctx tx auth request input digest requestDigest staged).withMessage
        (message.put request.message.ref (staged.record ctx request input digest)) := by
  simp only [writeEntry, openContact, spendPermit]
  cases staged.firstContact <;> cases staged.spent <;> cases request.message.inReplyTo <;> rfl

/-- The writes of an admission are those on any other records, with its own record put there. -/
theorem append_withMessage : append ctx (tx.withMessage message) auth request input digest requestDigest staged =
      ((append ctx tx auth request input digest requestDigest staged).1,
        (append ctx tx auth request input digest requestDigest staged).2.withMessage
          (message.put request.message.ref (staged.record ctx request input digest))) := by
  have hseq : (openContact (tx.withMessage message) staged request.message.sender input.revision).2 =
      (openContact tx staged request.message.sender input.revision).2 := by
    rw [openContact_seq, openContact_seq]
  unfold append
  dsimp only
  rw [writeEntry_withMessage, writeAttentions_withMessage, hseq]
  cases writeAttentions ctx (staged.entry auth request.message) request.plan input.traceReceived
      (writeEntry ctx tx auth request input digest requestDigest staged) staged.recipients with
  | mk outcome tx₁ => cases outcome <;> rfl

theorem append_message : (append ctx tx auth request input digest requestDigest staged).2.message =
      tx.message.put request.message.ref (staged.record ctx request input digest) := by
  -- A store is itself with its own records, so the law for other records applies.
  have hown := append_withMessage ctx tx tx.message auth request input digest requestDigest staged
  exact congrArg (fun r => r.2.message) hown

end Append

theorem decideAdmission_effect {ctx : Context D} {tx tx' : Store D} {auth : Auth}
    {request : SendRequest} {input : AdmitInput} {supported : Bool} {outcome : Except Failure Receipt}
    (h : decideAdmission ctx tx auth request input supported = .ok (outcome, tx')) :
    (∃ message, tx' = tx.withMessage message) ∨ ∃ staged message, stage ctx tx request.message input = .ok staged ∧
        tx' = (append ctx tx auth request input (contentDigest ctx request)
          (requestDigest ctx request) staged).2.withMessage message := by
  have hrfs (rows : Store D) (failure : Failure) :
      ∃ message, refuse rows request.message.ref (contentDigest ctx request) request.retryUntil
        failure = rows.withMessage message := by
    unfold refuse
    split_ifs
    · exact ⟨_, rfl⟩
    · exact ⟨rows.message, rfl⟩
  unfold decideAdmission at h
  split_ifs at h
  · cases h
    exact .inl (hrfs tx _)
  · split at h
    · cases h
    · cases h
      exact .inl (hrfs tx _)
    · cases h
    · next staged hstg =>
      obtain ⟨-, -, hstg⟩ := bind_eq_ok.mp hstg
      right
      split at h
      · next happ =>
        cases h
        exact ⟨staged, _, hstg, by rw [happ]⟩
      · next failure rows happ =>
        cases h
        obtain ⟨message, hrows⟩ := hrfs rows failure
        exact ⟨staged, message, hstg, by rw [happ, hrows]⟩
      · cases h

end Records

/-! ## The rows of an append -/

section Append

variable {D : Type} (ctx : Context D)

theorem writeAttentions_rows (entry : Entry) (plan : DeliveryPlan)
    (trace : Except Thrown Unit) (tx : Store D) (nodes : List NodeId) :
    ∃ attention inbox, (writeAttentions ctx entry plan trace tx nodes).2 = { tx with
        attention := attention
        inbox := inbox } := by
  induction nodes generalizing tx with
  | nil => exact ⟨tx.attention, tx.inbox, rfl⟩
  | cons node rest ih =>
    have hrow : ∃ attention inbox, (writeAttention ctx tx (attentionFor entry plan node) plan trace).2 = { tx with
            attention := attention
            inbox := inbox } := by
      unfold writeAttention
      split_ifs
      · exact ⟨_, _, rfl⟩
      · exact ⟨_, _, rfl⟩
    obtain ⟨attention, inbox, hrow⟩ := hrow
    unfold writeAttentions
    split
    · next heq =>
      rw [heq] at hrow
      exact ⟨attention, inbox, hrow⟩
    · next tx₁ heq =>
      rw [heq] at hrow
      obtain ⟨attention', inbox', hrest⟩ := ih tx₁
      refine ⟨attention', inbox', ?_⟩
      rw [hrest]
      dsimp only at hrow
      rw [hrow]

abbrev appended (ctx : Context D) (tx : Store D) (auth : Auth) (request : SendRequest) (input : AdmitInput)
    (staged : Staged) : Store D :=
  (append ctx tx auth request input (contentDigest ctx request) (requestDigest ctx request) staged).2

/-- The rows of an append, given whatever it makes of the records, bindings, events and obligations. -/
theorem append_rows (tx : Store D) (auth : Auth) (request : SendRequest) (input : AdmitInput) (staged : Staged) :
    ∃ message messageKey event attention inbox, appended ctx tx auth request input staged = { tx with
        thread := tx.thread.put staged.threadRef { staged.thread with
          nextSeq := staged.thread.nextSeq + 1
          eventSeq := staged.contactThread.eventSeq + 1 }
        entry := tx.entry.put (staged.threadRef, staged.thread.nextSeq) (staged.entry auth request.message)
        entryRef := tx.entryRef.put request.message.ref (staged.entry auth request.message)
        member := (openContact tx staged request.message.sender input.revision).1.member
        notice := (openContact tx staged request.message.sender input.revision).1.notice
        permit := (spendPermit tx request.message staged.spent).permit
        message := message
        messageKey := messageKey
        event := event
        attention := attention
        inbox := inbox } := by
  obtain ⟨attention, inbox, hrows⟩ := writeAttentions_rows ctx (staged.entry auth request.message)
    request.plan input.traceReceived
    (writeEntry ctx tx auth request input _ _ staged) staged.recipients
  unfold appended append
  dsimp only
  split
  all_goals
    next heq =>
    rw [heq] at hrows
    dsimp only at hrows
    rw [hrows]
    simp only [writeEntry, openContact, spendPermit, Staged.contactThread]
    cases staged.firstContact <;> cases staged.spent <;> cases request.message.inReplyTo <;>
      exact ⟨_, _, _, attention, inbox, rfl⟩

end Append

/-! ## The rows of an expiry -/

section Expiry

variable {D : Type} {ref : ThreadRef} {auth : Auth} (identity : MessageRef)
  (rows : List ((ThreadRef × String) × Attention))

/-- `tx'` differs from `tx` in obligations and their local copies only. -/
def SameButObligations (tx tx' : Store D) : Prop :=
  ∃ attention inbox, tx' = { tx with
    attention := attention
    inbox := inbox }

theorem stripAttention_rows
    (tx : Store D) : SameButObligations tx (rows.foldl (fun tx => stripAttention tx identity) tx) := by
  induction rows generalizing tx with
  | nil => exact ⟨tx.attention, tx.inbox, rfl⟩
  | cons row rest ih =>
    have hrow : SameButObligations tx (stripAttention tx identity row) := by
      unfold stripAttention updateInbox
      split_ifs
      · exact ⟨tx.attention, tx.inbox, rfl⟩
      · dsimp only
        split <;> exact ⟨_, _, rfl⟩
    obtain ⟨attention, inbox, hrow⟩ := hrow
    obtain ⟨attention', inbox', hrest⟩ := ih (stripAttention tx identity row)
    refine ⟨attention', inbox', ?_⟩
    rw [foldl_cons, hrest, hrow]

/-- What an expiry may write: records, entries and obligations. -/
def SameButHistory (tx tx' : Store D) : Prop :=
  ∃ message entry entryRef attention inbox, tx' = { tx with
    message := message
    entry := entry
    entryRef := entryRef
    attention := attention
    inbox := inbox }

def Store.bury (tx : Store D) (row : (ThreadRef × Nat) × Entry) (record : Remembered D) : Store D :=
  { tx with
    message := tx.message.put row.2.message.ref ⟨record.digest, .tombstone, record.retryUntil⟩
    entry := tx.entry.delete row.1
    entryRef := tx.entryRef.delete row.2.message.ref }

section Row

variable {ctx : Context D} {beforeSeq : String} {now : Int} {tx tx' : Store D} {row : (ThreadRef × Nat) × Entry}

section

variable (h : expireRow ctx beforeSeq now tx row = .ok tx')
include h

theorem expireRow_ok : tx' = tx ∨ ∃ record, tx.message.get row.2.message.ref = some record ∧
      tx' = (attentionRows tx row.1.1).foldl (fun tx => stripAttention tx row.2.message.ref) (tx.bury row record) := by
  obtain ⟨before, -, h⟩ := bind_eq_ok.mp h
  split_ifs at h
  · cases h
    exact .inl rfl
  · simp only [bind_eq_ok, requireValue_eq_ok] at h
    obtain ⟨record, hrec, -, -, h⟩ := h
    cases h
    exact .inr ⟨record, hrec, rfl⟩

theorem expireRow_rows : SameButHistory tx tx' := by
  rcases expireRow_ok h with rfl | ⟨record, -, rfl⟩
  · exact ⟨tx'.message, tx'.entry, tx'.entryRef, tx'.attention, tx'.inbox, rfl⟩
  · obtain ⟨attention, inbox, hrows⟩ := stripAttention_rows row.2.message.ref (attentionRows tx row.1.1)
      (tx.bury row record)
    exact ⟨_, _, _, attention, inbox, hrows⟩

end

theorem foldl_stripAttention_entry
    (tx : Store D) : (rows.foldl (fun tx => stripAttention tx identity) tx).entry = tx.entry := by
  obtain ⟨_, _, hrows⟩ := stripAttention_rows identity rows tx
  rw [hrows]

theorem expireRow_others (h : expireRow ctx beforeSeq now tx row = .ok tx') {slot : ThreadRef × Nat}
    (hslot : slot ≠ row.1) : tx'.entry.get slot = tx.entry.get slot := by
  rcases expireRow_ok h with rfl | ⟨record, -, rfl⟩
  · rfl
  · rw [foldl_stripAttention_entry]
    exact Table.get_delete_ne _ hslot

end Row

theorem expire_induct {ctx : Context D} {s s' : Store D} {beforeSeq : String}
    {now : Nat → Int} {P : Store D → Prop} (h : expire ctx s auth ref beforeSeq now = .ok s') (hs : P s)
    (hrow : ∀ tx tx' row now, tx.entry.get row.1 = some row.2 → expireRow ctx beforeSeq now tx row = .ok tx' →
      P tx → P tx') : P s' := by
  simp only [expire, expireTx, bind_eq_ok] at h
  obtain ⟨-, -, -, -, -, -, h⟩ := h
  have hstor : ∀ row ∈ entryRows s ref, s.entry.get row.1 = some row.2 := by
    rintro ⟨slot, entry⟩ hmem
    exact Table.mem_rows.mp (mem_filter.mp hmem).1
  have hkeys : (entryRows s ref).Pairwise fun r r' => r.1 ≠ r'.1 := s.entry.rows_pairwise.filter _
  generalize entryRows s ref = rows at h hstor hkeys
  induction rows generalizing s with
  | nil =>
    cases h
    exact hs
  | cons row rest ih =>
    rw [foldlM_cons, bind_eq_ok] at h
    obtain ⟨tx, hfst, h⟩ := h
    obtain ⟨hne, hkeys⟩ := pairwise_cons.mp hkeys
    refine ih (hrow s tx row _ (hstor row mem_cons_self) hfst hs) h ?_ hkeys
    -- The rows still to come were listed before, and this one has another key.
    intro row' hmem
    rw [expireRow_others hfst (hne row' hmem).symm]
    exact hstor row' (mem_cons_of_mem _ hmem)

theorem expire_rows {ctx : Context D} {s s' : Store D}
    {beforeSeq : String} {now : Nat → Int} (h : expire ctx s auth ref beforeSeq now = .ok s') :
    SameButHistory s s' := by
  refine expire_induct (P := SameButHistory s) h ⟨s.message, s.entry, s.entryRef, s.attention, s.inbox, rfl⟩ ?_
  rintro tx tx' row now - hrow ⟨_, _, _, _, _, rfl⟩
  obtain ⟨_, _, _, _, _, rfl⟩ := expireRow_rows hrow
  exact ⟨_, _, _, _, _, rfl⟩

end Expiry

/-! ## The rows of a work -/

section Work

variable {D : Type} {ctx : Context D} {input : MutateInput} {tx tx' : Store D} {result : Result} {ref : ThreadRef}
  {auth : Auth} {id : String}

theorem createWork_rows {owner : NodeId} {title : String} {id : Option String} {wantsDefault : Bool}
    (h : createWork ctx owner title id wantsDefault input tx = .ok (result, tx')) : ∃ thread default, tx' = { tx with
      thread := thread
      default := default } := by
  obtain ⟨_, -, h⟩ := bind_eq_ok.mp h
  split_ifs at h
  · dsimp only at h
    split at h
    · split_ifs at h
      · cases h
        exact ⟨tx.thread, tx.default, rfl⟩
      · cases h
        exact ⟨_, tx.default, rfl⟩
    · cases h
      exact ⟨_, _, rfl⟩
  · obtain ⟨_, -, h⟩ := bind_eq_ok.mp h
    cases h
    exact ⟨_, tx.default, rfl⟩

theorem closeWork_rows (h : closeWork ctx ref input tx = .ok (result, tx')) : ∃ thread event, tx' = { tx with
      thread := thread
      event := event } := by
  simp only [closeWork, bind_eq_ok] at h
  obtain ⟨_, -, -, -, _, -, h⟩ := h
  cases h
  exact ⟨_, _, rfl⟩

def begins (ref : ThreadRef) (peer : NodeId) (current : Option Member) (next : Member) : Bool :=
  next.state = .active && current.map Member.state ≠ some .active && peer ≠ ref.owner

theorem memberWork_rows {isOwner : Bool} {peer : NodeId} {patch : MemberPatch}
    (h : memberWork ctx isOwner ref peer patch input tx = .ok (result, tx')) :
    ∃ thread next threads events, loadThread ctx tx ref = .ok thread ∧
      membership isOwner thread (tx.member.get (ref, peer)) peer patch input = .ok next ∧ tx' = { tx with
        thread := threads
        event := events
        member := tx.member.put (ref, peer) next
        notice := if begins ref peer (tx.member.get (ref, peer)) next then
          tx.notice.put next.revision (grantNotice ref peer next.revision) else tx.notice } := by
  simp only [memberWork, bind_eq_ok] at h
  obtain ⟨thread, hthr, next, hnext, h⟩ := h
  cases h
  let written := { tx with member := tx.member.put (ref, peer) next }
  have hgranted (joins : Bool) :
      (if joins then issueGrant written ref peer next.revision else written) = { written with
        notice := if joins then tx.notice.put next.revision (grantNotice ref peer next.revision) else tx.notice } := by
    cases joins <;> rfl
  refine ⟨thread, next, tx.thread.put thread.threadRef { thread with eventSeq := thread.eventSeq + 1 },
    tx.event.put (thread.threadRef, thread.eventSeq + 1)
      ⟨thread.eventSeq + 1, thread.threadRef, .membership next⟩, hthr, hnext, ?_⟩
  exact congrArg (fun rows => (recordEvent rows thread (.membership next)).2)
    (hgranted (begins ref peer (tx.member.get (ref, peer)) next))

theorem permitsWork_rows {permit : ReplyPermit} (h : permitsWork ctx permit tx = .ok (result, tx')) :
    tx' = { tx with permit := tx.permit.put (permit.messageRef, permit.grantee) permit } := by
  simp only [permitsWork, bind_eq_ok] at h
  obtain ⟨_, -, -, -, h⟩ := h
  cases h
  rfl

theorem ackGrantWork_rows (h : ackGrantWork auth id tx = .ok (result, tx')) :
    tx' = tx ∨ ∃ grant, tx.notice.get id = some grant ∧
      tx' = { tx with notice := tx.notice.put id { grant with acked := true } } := by
  simp only [ackGrantWork, bind_eq_ok, requireValue_eq_ok] at h
  obtain ⟨grant, hrow, -, -, h⟩ := h
  split_ifs at h
  · cases h
    exact .inl rfl
  · cases h
    exact .inr ⟨grant, hrow, rfl⟩

theorem ackWork_rows (h : ackWork ctx auth ref id tx = .ok (result, tx')) :
    ∃ attention inbox, tx.attention.get (ref, id) = some attention ∧ tx' = { tx with
      attention := tx.attention.put (ref, id) { attention with acked := true }
      inbox := inbox } := by
  simp only [ackWork, bind_eq_ok, requireValue_eq_ok] at h
  obtain ⟨_, -, attention, hrow, -, -, h⟩ := h
  cases h
  unfold updateInbox
  split
  · exact ⟨attention, tx.inbox, hrow, rfl⟩
  · exact ⟨attention, _, hrow, rfl⟩

end Work

/-! ## Effects -/

def Call.slot : Call → Option (NodeId × String × String)
  | .create auth mutation _ _ _ _ => some (auth.actor, "thread.create", mutation.idempotencyKey)
  | .close auth ref mutation _ =>
    some (auth.actor, "thread.close/" ++ ref.owner ++ "/" ++ ref.id, mutation.idempotencyKey)
  | .member auth ref peer _ mutation _ =>
    some (auth.actor, "thread.member/" ++ ref.owner ++ "/" ++ ref.id ++ "/" ++ peer,
      mutation.idempotencyKey)
  | .permits auth permit mutation _ =>
    some (auth.actor, "thread.permit/" ++ permit.messageRef.sender ++ "/" ++ permit.messageRef.id ++
      "/" ++ permit.grantee, mutation.idempotencyKey)
  | .ackGrant auth id mutation _ =>
    some (auth.actor, "thread.grant.ack/" ++ id, mutation.idempotencyKey)
  | .ack auth ref id mutation _ =>
    some (auth.actor, "attention-ack/" ++ canonicalRef ref ++ "/" ++ id, mutation.idempotencyKey)
  | .admitRequest _ _ _ | .attention _ _ _ | .expire _ _ _ _ | .outbound _ _ => none

section Effect

variable {D : Type}

/-- The work of a repeatable call that has passed its checks, and the rows it leaves. -/
inductive Works (ctx : Context D) (s : Store D) : Call → Result → Store D → Prop where
  | create {auth : Auth} {mutation title id default input result tx}
      (run : createWork ctx auth.actor title id (default || id = some defaultThread) input s =
        .ok (result, tx)) : Works ctx s (.create auth mutation title id default input) result tx
  | close {auth ref mutation input result tx} (run : closeWork ctx ref input s = .ok (result, tx)) :
      Works ctx s (.close auth ref mutation input) result tx
  | member {auth : Auth} {ref : ThreadRef} {peer patch mutation input result tx}
      (caller : auth.actor = ref.owner ∨ auth.actor = peer)
      (run : memberWork ctx (auth.actor = ref.owner) ref peer patch input s = .ok (result, tx)) :
      Works ctx s (.member auth ref peer patch mutation input) result tx
  | permits {auth} {permit : ReplyPermit} {mutation input result tx} (positive : 1 ≤ permit.remaining)
      (run : permitsWork ctx permit s = .ok (result, tx)) :
      Works ctx s (.permits auth permit mutation input) result tx
  | ackGrant {auth id mutation input result tx} (run : ackGrantWork auth id s = .ok (result, tx)) :
      Works ctx s (.ackGrant auth id mutation input) result tx
  | ack {auth ref id mutation input result tx} (run : ackWork ctx auth ref id s = .ok (result, tx)) :
      Works ctx s (.ack auth ref id mutation input) result tx

inductive Effect (ctx : Context D) (s : Store D) : Call → Store D → Prop where
  -- The call throws, refuses or repeats an answer.
  | kept (call : Call) : Effect ctx s call s
  | remembered {auth request input}
      (message : Table MessageRef (Remembered D)) (messageKey : Table (NodeId × String) (Binding D)) :
      Effect ctx s (.admitRequest auth request input)
        { s with
          message := message
          messageKey := messageKey }
  -- The writes of `append`, cut short when the trace hook throws.
  | appended {auth} {request : SendRequest} {input staged} (message : Table MessageRef (Remembered D))
      (staging : stage ctx s request.message input = .ok staged) :
      Effect ctx s (.admitRequest auth request input)
        ((append ctx s auth request input (contentDigest ctx request) (requestDigest ctx request)
          staged).2.withMessage message)
  | worked {call : Call} {slot result} {tx : Store D}
      (digest : D) (named : call.slot = some slot) (free : s.idempotency.get slot = none)
      (works : Works ctx s call result tx) :
      Effect ctx s call { tx with idempotency := tx.idempotency.put slot ⟨digest, result⟩ }
  | listed {auth ref options visible s'} (run : attention ctx s auth ref options = .ok (visible, s')) :
      Effect ctx s (.attention auth ref options) s'
  | expired {auth ref beforeSeq now s'} (run : expire ctx s auth ref beforeSeq now = .ok s') :
      Effect ctx s (.expire auth ref beforeSeq now) s'
  | sent {ref row} (outbound : Table MessageRef Outbound) :
      Effect ctx s (.outbound ref row) { s with outbound := outbound }

end Effect

section Step

variable {D : Type} [DecidableEq D] {ctx : Context D} {auth : Auth} {s s' : Store D} {call : Call}
  {request : SendRequest} {input : AdmitInput}

theorem admitTx_effect {tx tx' : Store D} {supported : Bool}
    {outcome : Except Failure Receipt} (h : admitTx ctx tx auth request input supported = .ok (outcome, tx')) :
    Effect ctx tx (.admitRequest auth request input) tx' := by
  have hdec (rows : Table MessageRef (Remembered D))
      (hdecide : decideAdmission ctx (tx.withMessage rows) auth request input supported =
        .ok (outcome, tx')) : Effect ctx tx (.admitRequest auth request input) tx' := by
    rcases decideAdmission_effect hdecide with ⟨message, rfl⟩ | ⟨staged, message, hstg, rfl⟩
    · exact .remembered message tx.messageKey
    · rw [stage_withMessage] at hstg
      rw [append_withMessage]
      exact .appended message hstg
  unfold admitTx at h
  dsimp only at h
  split_ifs at h
  · cases h
  · split at h
    · exact hdec tx.message h
    · split at h
      · cases h
      · split_ifs at h
        · cases h
          exact .kept _
        · split at h
          · cases h
            unfold bindKey
            dsimp only
            split
            · exact .kept _
            · exact .remembered tx.message _
          · cases h
            exact .kept _
          · split_ifs at h
            · exact hdec _ h
            · cases h
              exact .kept _

theorem admit_effect {result : Except Thrown Receipt} (h : admitRequest ctx s auth request input = some (result, s')) :
    Effect ctx s (.admitRequest auth request input) s' := by
  unfold admitRequest at h
  split at h
  · cases h
    exact .kept _
  · cases h
    exact .kept _
  · split at h
    · cases h
    · cases h
      exact .kept _
    · next htx =>
      cases h
      exact admitTx_effect htx
    · next htx =>
      have heff := admitTx_effect htx
      split at h <;> cases h <;> exact heff

theorem mutate_effect {operation : String} {mutation : Mutation} {body : Body} {input : MutateInput}
    {work : Store D → Except Halt (Result × Store D)} {result : Result}
    (h : mutate ctx s auth operation mutation body input work = .ok (result, s'))
    (hslot : call.slot = some (auth.actor, operation, mutation.idempotencyKey))
    (hwork : ∀ result tx, work s = .ok (result, tx) → Works ctx s call result tx) : Effect ctx s call s' := by
  rcases mutate_ok h with rfl | ⟨hfree, tx, hrun, rfl⟩
  · exact .kept call
  · exact .worked _ hslot hfree (hwork _ _ hrun)

omit [DecidableEq D] in
theorem transaction_effect {α : Type} {answer : α → Answer} {result : Except Halt (α × Store D)}
    {r : Except Thrown Answer} (h : transaction s answer result = some (r, s'))
    (hok : ∀ value, result = .ok (value, s') → Effect ctx s call s') : Effect ctx s call s' := by
  unfold transaction at h
  split at h <;> cases h
  · exact .kept call
  · exact hok _ rfl

/-- What a call writes. -/
theorem step_effect (hstep : step ctx s call = some s') : Effect ctx s call s' := by
  obtain ⟨⟨answer, s''⟩, hperf, rfl⟩ := Option.map_eq_some_iff.mp hstep
  cases call
  case admitRequest =>
    obtain ⟨⟨result, s₁⟩, hadm, heq⟩ := Option.map_eq_some_iff.mp hperf
    cases heq
    exact admit_effect hadm
  case outbound =>
    cases hperf
    exact .sent _
  all_goals
    apply transaction_effect hperf
    intro value hok
  case create | close =>
    simp only [create, close, bind_eq_ok] at hok
    obtain ⟨-, -, -, -, -, -, -, -, hok⟩ := hok
    exact mutate_effect hok rfl fun _ _ run => by first | exact .create run | exact .close run
  case member auth ref _ _ _ _ =>
    simp only [member, bind_eq_ok, failIf_eq_ok] at hok
    obtain ⟨-, -, -, -, -, -, -, hcal, -, -, -, -, hok⟩ := hok
    apply mutate_effect hok rfl
    intro result tx
    apply Works.member
    by_cases hown : auth.actor = ref.owner
    · exact .inl hown
    · simp only [hown, decide_false, Bool.not_false, Bool.true_and, decide_eq_false_iff_not, not_not] at hcal
      exact .inr hcal
  case permits =>
    simp only [permits, bind_eq_ok, failIf_eq_ok] at hok
    obtain ⟨-, -, -, -, -, -, -, -, -, -, -, -, -, hpos, -, -, -, -, hok⟩ := hok
    apply mutate_effect hok rfl
    intro result tx
    apply Works.permits
    simpa using hpos
  case ackGrant =>
    simp only [ackGrant, bind_eq_ok] at hok
    obtain ⟨-, -, -, -, hok⟩ := hok
    exact mutate_effect hok rfl fun _ _ => .ackGrant
  case ack => exact mutate_effect hok rfl fun _ _ => .ack
  case attention => exact .listed hok
  case expire auth ref beforeSeq now =>
    cases hexp : Messages.expire ctx s auth ref beforeSeq now <;> rw [hexp] at hok <;> cases hok
    exact .expired hexp

end Step

end Onlyne.Messages
