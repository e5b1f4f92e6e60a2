import Mathlib.Logic.Relation
import Onlyne.Messages.Effects

/-!
# Messages: what one call can do to the log

The log of a node is the five tables that have to agree with each other: threads, entries, entries
by reference, message records and events.  `step_change` says once what a call can do to them; the
laws of the log are proved against `Change`, and every other table is free to change.
-/

namespace Onlyne.Messages

open Foundation Table Option

structure Log (D : Type) where
  thread : Table ThreadRef Thread
  entry : Table (ThreadRef × Nat) Entry
  entryRef : Table MessageRef Entry
  message : Table MessageRef (Remembered D)
  event : Table (ThreadRef × Nat) Event

def Store.log {D : Type} (store : Store D) : Log D where
  thread := store.thread
  entry := store.entry
  entryRef := store.entryRef
  message := store.message
  event := store.event

section Change

variable {D : Type} {plan : DeliveryPlan}

/-! ## Changes -/

section

variable (log : Log D) (ctx : Context D) (auth : Auth) (request : SendRequest) (input : AdmitInput)

/-- The thread an admission lands in is stored, or is opened by a first contact. -/
def Landed (staged : Staged) : Prop :=
  match staged.firstContact with
  | false => log.thread.get staged.threadRef = some staged.thread
  | true => log.thread.get staged.threadRef = none ∧
      ∃ title createdAt, staged.thread = freshThread staged.threadRef title createdAt

def Log.contact (staged : Staged) (member : Member) : Log D :=
  if staged.firstContact then
    { log with
      thread := log.thread.put staged.threadRef staged.contactThread
      event := log.event.put (staged.threadRef, staged.contactThread.eventSeq)
        ⟨staged.contactThread.eventSeq, staged.threadRef, .membership member⟩ }
  else log

def Log.post (thread : Thread) (entry : Entry) (record : Remembered D) : Log D where
  thread := log.thread.put entry.threadRef
    { thread with nextSeq := thread.nextSeq + 1, eventSeq := thread.eventSeq + 1 }
  entry := log.entry.put (entry.threadRef, thread.nextSeq) entry
  entryRef := log.entryRef.put entry.message.ref entry
  message := log.message.put entry.message.ref record
  event := log.event.put (entry.threadRef, thread.eventSeq + 1)
    ⟨thread.eventSeq + 1, entry.threadRef, .message entry.message.ref thread.nextSeq⟩

def Log.admitEntry (staged : Staged) : Log D :=
  (log.contact staged (contactMember request.message.sender input.revision)).post
    staged.contactThread (staged.entry auth request.message)
    ⟨contentDigest ctx request, .admitted (staged.receipt ctx request input), request.retryUntil⟩

def Log.refuse (identity : MessageRef) (digest : D) (retryUntil : String) (failure : Failure) : Log D :=
  if recordedRefusal failure.code then
    { log with message := log.message.put identity ⟨digest, .refused failure, retryUntil⟩ }
  else log

/-- The log after an admission that the trace hook cut short: all but its event is written, and the
refusal is recorded beside it. -/
def Log.tear (staged : Staged) (failure : Failure) : Log D :=
  { log.admitEntry ctx auth request input staged with
    event := (log.contact staged (contactMember request.message.sender input.revision)).event }.refuse
      request.message.ref (contentDigest ctx request) request.retryUntil failure

end

/-- One entry expires: its record becomes a tombstone. -/
inductive Buries : Log D → Log D → Prop where
  | bury {log : Log D} {slot} {entry : Entry} {record : Remembered D} (row : log.entry.get slot = some entry)
      (remembered : log.message.get entry.message.ref = some record) :
      Buries log { log with
        message := log.message.put entry.message.ref ⟨record.digest, .tombstone, record.retryUntil⟩
        entry := log.entry.delete slot
        entryRef := log.entryRef.delete entry.message.ref }

/-- What a call other than an admission can do to the log. -/
inductive Upkeep : Log D → Log D → Prop where
  | kept {log} : Upkeep log log
  | opened {log : Log D} {ref} (title createdAt : String) (free : log.thread.get ref = none) :
      Upkeep log { log with thread := log.thread.put ref (freshThread ref title createdAt) }
  | retitled {log : Log D} {ref thread} (title : String) (row : log.thread.get ref = some thread) :
      Upkeep log { log with thread := log.thread.put ref { thread with title := title } }
  -- A closed thread or a changed membership: the next event, and no number used up.
  | recorded {log : Log D} {ref} {thread next : Thread} {body}
      (row : log.thread.get ref = some thread) (sameRef : next.threadRef = thread.threadRef)
      (sameNext : next.nextSeq = thread.nextSeq) (sameEvent : next.eventSeq = thread.eventSeq)
      (other : ∀ m n, body ≠ .message m n) :
      Upkeep log { log with
        thread := log.thread.put next.threadRef { next with eventSeq := next.eventSeq + 1 }
        event := log.event.put (next.threadRef, next.eventSeq + 1)
          ⟨next.eventSeq + 1, next.threadRef, body⟩ }
  | buried {log log'} (rows : Relation.ReflTransGen Buries log log') : Upkeep log log'

inductive Change (ctx : Context D) : Log D → Log D → Prop where
  | upkeep {log log'} (h : Upkeep log log') : Change ctx log log'
  | refused {log : Log D} {identity} (digest : D) (retryUntil : String)
      (failure : Failure) (fresh : log.message.get identity = none) :
      Change ctx log (log.refuse identity digest retryUntil failure)
  | admitted {log : Log D} {staged} (auth : Auth) (request : SendRequest)
      (input : AdmitInput) (fresh : log.message.get request.message.ref = none)
      (landed : Landed log staged) : Change ctx log (log.admitEntry ctx auth request input staged)

variable {log' : Log D} {ref : ThreadRef} {ctx : Context D} {tx tx' : Store D} {thrown : Thrown} {auth : Auth}
  {request : SendRequest} {input : AdmitInput} {digest : D} {staged : Staged} {message : Message}

variable {log : Log D} {trace : Except Thrown Unit} {slot : ThreadRef × Nat}

theorem Upkeep.of_eq (h : log' = log) : Upkeep log log' := by
  rw [h]
  exact .kept

theorem Upkeep.rows (h : Upkeep log log') : log'.message = log.message ∧ log'.entry = log.entry ∨
      Relation.ReflTransGen Buries log log' := by
  cases h with
  | kept | opened | retitled | recorded => exact .inl ⟨rfl, rfl⟩
  | buried rows => exact .inr rows

theorem buried_entry (h : Relation.ReflTransGen Buries log log') {entry : Entry}
    (hrow : log'.entry.get slot = some entry) : log.entry.get slot = some entry := by
  induction h with
  | refl => exact hrow
  | tail _ hbury ih =>
    cases hbury
    exact ih (get_of_delete hrow).2

theorem buried_thread (h : Relation.ReflTransGen Buries log log') : log'.thread = log.thread := by
  induction h with
  | refl => rfl
  | tail _ hbury ih =>
    cases hbury
    exact ih

theorem Upkeep.thread (h : Upkeep log log') (hrow : log.thread.get ref ≠ none) : log'.thread.get ref ≠ none := by
  cases h with
  | kept => exact hrow
  | opened | retitled | recorded =>
    rw [get_put]
    split_ifs
    · exact some_ne_none _
    · exact hrow
  | buried rows =>
    rw [buried_thread rows]
    exact hrow

theorem Upkeep.entry (h : Upkeep log log') {entry : Entry} (hrow : log'.entry.get slot = some entry) :
    log.entry.get slot = some entry := by
  rcases h.rows with ⟨-, hent⟩ | rows
  · rwa [hent] at hrow
  · exact buried_entry rows hrow

/-! ## The writes of an admission -/

@[simp] theorem refuse_log (tx : Store D) (identity : MessageRef) (digest : D) (retryUntil : String)
    (failure : Failure) : (refuse tx identity digest retryUntil failure).log =
      tx.log.refuse identity digest retryUntil failure := by
  unfold refuse Log.refuse
  split_ifs <;> rfl

@[simp] theorem spendPermit_log (tx : Store D) (message : Message) (permit : Option ReplyPermit) :
    (spendPermit tx message permit).log = tx.log := by
  unfold spendPermit
  split
  · rfl
  · split <;> rfl

theorem writeAttention_error {attention : Attention}
    (h : (writeAttention ctx tx attention plan trace).1 = .error thrown) : trace = .error thrown := by
  unfold writeAttention at h
  split_ifs at h
  exact h

theorem writeAttentions_log (ctx : Context D) (entry : Entry) (plan : DeliveryPlan)
    (trace : Except Thrown Unit) (tx : Store D) (nodes : List NodeId) :
    (writeAttentions ctx entry plan trace tx nodes).2.log = tx.log := by
  obtain ⟨_, _, hrows⟩ := writeAttentions_rows ctx entry plan trace tx nodes
  rw [hrows]
  rfl

theorem writeAttentions_error {entry : Entry} {nodes : List NodeId}
    (h : (writeAttentions ctx entry plan trace tx nodes).1 = .error thrown) : trace = .error thrown := by
  induction nodes generalizing tx with
  | nil => cases h
  | cons node rest ih =>
    unfold writeAttentions at h
    split at h
    · next heq =>
      have hfst : (writeAttention ctx tx (attentionFor entry plan node) plan trace).1 = .error thrown := by
        rw [heq]
        exact h
      exact writeAttention_error hfst
    · exact ih h

section

variable (log : Log D) (staged : Staged) (member : Member)

@[simp] theorem contact_message : (log.contact staged member).message = log.message := by
  unfold Log.contact
  split_ifs <;> rfl

theorem contact_thread_put (thread : Thread) :
    (log.contact staged member).thread.put staged.threadRef thread = log.thread.put staged.threadRef thread := by
  unfold Log.contact
  split_ifs
  · exact put_put ..
  · rfl

theorem log_event (store : Store D) (event : Table (ThreadRef × Nat) Event) :
    { store with event := event }.log = { store.log with event := event } := rfl

@[simp] theorem contactThread_nextSeq : staged.contactThread.nextSeq = staged.thread.nextSeq := by
  unfold Staged.contactThread
  split_ifs <;> rfl

theorem admit_message (ctx : Context D) (auth : Auth) (request : SendRequest)
    (input : AdmitInput) (staged : Staged) :
    (log.admitEntry ctx auth request input staged).message = log.message.put request.message.ref
      ⟨contentDigest ctx request, .admitted (staged.receipt ctx request input), request.retryUntil⟩ := by
  unfold Log.admitEntry Log.post
  rw [contact_message]
  rfl

theorem admit_entry (ctx : Context D) (auth : Auth) (request : SendRequest)
    (input : AdmitInput) (staged : Staged) : (log.admitEntry ctx auth request input staged).entry =
      log.entry.put (staged.threadRef, staged.thread.nextSeq) (staged.entry auth request.message) := by
  unfold Log.admitEntry Log.post Log.contact
  rw [contactThread_nextSeq]
  split_ifs <;> rfl

end

theorem writeEntry_log (ctx : Context D) (tx : Store D) (auth : Auth) (request : SendRequest)
    (input : AdmitInput) (digest : D) (staged : Staged) :
    (writeEntry ctx tx auth request input (contentDigest ctx request) digest staged).log =
      { tx.log.admitEntry ctx auth request input staged with
        event := (tx.log.contact staged (contactMember request.message.sender input.revision)).event } := by
  unfold writeEntry
  rw [spendPermit_log]
  unfold openContact Log.admitEntry Log.contact Staged.contactThread
  cases staged.firstContact
  · rfl
  -- The thread row of the admission replaces the one of its first contact.
  · simp [Store.log, Log.post, Staged.entry]

/-- A completed `append` leaves the log of an admission. -/
theorem append_ok {receipt : Receipt}
    (h : append ctx tx auth request input (contentDigest ctx request) digest staged = (.ok receipt, tx')) :
    receipt = staged.receipt ctx request input ∧ tx'.log = tx.log.admitEntry ctx auth request input staged := by
  have hlog := writeAttentions_log ctx (staged.entry auth request.message) request.plan input.traceReceived
    (writeEntry ctx tx auth request input (contentDigest ctx request) digest staged)
    staged.recipients
  rw [writeEntry_log] at hlog
  unfold append at h
  dsimp only at h
  split at h
  · cases h
  · next written hwr =>
    cases h
    rw [hwr] at hlog
    have hev : written.event = _ := congrArg Log.event hlog
    refine ⟨rfl, ?_⟩
    rw [openContact_seq, log_event, hev, hlog]
    unfold Log.admitEntry Log.post
    rw [contactThread_nextSeq]
    rfl

/-- `append` is stopped by the trace hook alone. -/
theorem append_error {digest' : D} (h : append ctx tx auth request input digest digest' staged = (.error thrown, tx')) :
    input.traceReceived = .error thrown := by
  unfold append at h
  dsimp only at h
  split at h
  · next hwr =>
    cases h
    apply writeAttentions_error
    rw [hwr]
  · cases h

theorem append_torn
    (h : append ctx tx auth request input (contentDigest ctx request) digest staged = (.error thrown, tx')) :
    tx'.log = { tx.log.admitEntry ctx auth request input staged with
      event := (tx.log.contact staged (contactMember request.message.sender input.revision)).event } := by
  have hlog := writeAttentions_log ctx (staged.entry auth request.message) request.plan input.traceReceived
    (writeEntry ctx tx auth request input (contentDigest ctx request) digest staged)
    staged.recipients
  rw [writeEntry_log] at hlog
  unfold append at h
  dsimp only at h
  split at h
  · next hwr =>
    cases h
    rw [hwr] at hlog
    exact hlog
  · cases h

/-! ## Where a message lands -/

theorem landing_free (h : landing ctx tx message input = .ok (ref, true)) : tx.thread.get ref = none := by
  obtain ⟨target, -, h⟩ := bind_eq_ok.mp h
  split at h
  · cases h
  · split at h
    · cases h
    · split at h
      · cases h
      · obtain ⟨opens, -, h⟩ := bind_eq_ok.mp h
        split_ifs at h
        · split at h
          · next id hfind =>
            cases h
            simpa using List.find?_some hfind
          · cases h
        · cases h

theorem loadThread_ok {thread : Thread} (h : loadThread ctx tx ref = .ok thread) : tx.thread.get ref = some thread := by
  simp only [loadThread, bind_eq_ok, requireValue_eq_ok] at h
  obtain ⟨-, -, -, -, hrow⟩ := h
  exact hrow

theorem stage_landed (h : stage ctx tx message input = .ok staged) : Landed tx.log staged := by
  simp only [stage, bind_eq_ok, Except.ok.injEq] at h
  obtain ⟨⟨ref, contact⟩, hland, thread, hthr, -, -, -, -, -, -, nodes, -, text, -, rfl⟩ := h
  simp only [landingThread, bind_eq_ok] at hthr
  obtain ⟨-, -, hthr⟩ := hthr
  cases contact with
  | false => exact loadThread_ok hthr
  | true =>
    simp only [if_true, bind_eq_ok, Except.ok.injEq] at hthr
    obtain ⟨createdAt, -, rfl⟩ := hthr
    exact ⟨landing_free hland, _, _, rfl⟩

end Change

/-! ## The admission transaction -/

section Decision

variable {D : Type}

/-- What the admission transaction decides, and the log it leaves. -/
inductive Decision (ctx : Context D) (log : Log D) (auth : Auth) (request : SendRequest)
    (input : AdmitInput) : Except Failure Receipt → Log D → Prop where
  | differs {old : Remembered D} (record : log.message.get request.message.ref = some old)
      (content : old.digest ≠ contentDigest ctx request) :
      Decision ctx log auth request input
        (.error (onlyneError .idConflict "This message identity has different content.")) log
  | replayed {old : Remembered D} {receipt} (record : log.message.get request.message.ref = some old)
      (content : old.digest = contentDigest ctx request) (verdict : old.verdict = .admitted receipt) :
      Decision ctx log auth request input (.ok receipt) log
  | tombstone {old : Remembered D} (record : log.message.get request.message.ref = some old)
      (content : old.digest = contentDigest ctx request) (verdict : old.verdict = .tombstone) :
      Decision ctx log auth request input
        (.error (onlyneError .retryWindowExpired "Only the message tombstone remains.")) log
  | repeated {old : Remembered D} {failure} (record : log.message.get request.message.ref = some old)
      (content : old.digest = contentDigest ctx request) (verdict : old.verdict = .refused failure) :
      Decision ctx log auth request input (.error failure) log
  | refused {failure} (fresh : log.message.get request.message.ref = none) :
      Decision ctx log auth request input (.error failure)
        (log.refuse request.message.ref (contentDigest ctx request) request.retryUntil failure)
  | admitted {staged : Staged} (fresh : log.message.get request.message.ref = none)
      (landed : Landed log staged) :
      Decision ctx log auth request input (.ok (staged.receipt ctx request input))
        (log.admitEntry ctx auth request input staged)

/-- What the admission transaction leaves when the trace hook throws an `OnlyneError` into it. -/
inductive Torn (ctx : Context D) (log : Log D) (auth : Auth) (request : SendRequest)
    (input : AdmitInput) : Except Failure Receipt → Log D → Prop where
  | torn {staged failure} (fresh : log.message.get request.message.ref = none)
      (landed : Landed log staged) (trace : input.traceReceived = .error (.onlyne failure)) :
      Torn ctx log auth request input (.error failure) (log.tear ctx auth request input staged failure)

variable {ctx : Context D} {log' : Log D} {auth : Auth} {request : SendRequest} {input : AdmitInput}
  {outcome : Except Failure Receipt}

variable {log : Log D}

theorem Torn.trace (h : Torn ctx log auth request input outcome log') :
    ∃ failure, input.traceReceived = .error (.onlyne failure) := by
  cases h with
  | torn _ _ trace => exact ⟨_, trace⟩

def Standing (log : Log D) : Prop :=
  ∀ identity record failure, log.message.get identity = some record →
    record.verdict = .refused failure → recordedRefusal failure.code = true

/-- The trace hook does not throw an `OnlyneError` out of the writes of an admission. -/
def traceSafe : Call → Bool
  | .admitRequest _ _ input => !(input.traceReceived matches .error (.onlyne _))
  | _ => true

theorem traceReceived_ne (h : traceSafe (.admitRequest auth request input) = true) (failure : Failure) :
    input.traceReceived ≠ .error (.onlyne failure) := by
  intro heq
  simp [traceSafe, heq] at h

theorem not_transient_of_recorded {code : ErrorCode} (h : recordedRefusal code = true) :
    transientRefusal code = false := by
  cases code <;> simp_all [recordedRefusal, transientRefusal]

theorem decideAdmission_ok {tx tx' : Store D} {supported : Bool} (hfr : tx.message.get request.message.ref = none)
    (h : decideAdmission ctx tx auth request input supported = .ok (outcome, tx')) :
    Decision ctx tx.log auth request input outcome tx'.log ∨ Torn ctx tx.log auth request input outcome tx'.log := by
  unfold decideAdmission at h
  split_ifs at h
  · cases h
    exact .inl (.refused hfr)
  · split at h
    · cases h
    · cases h
      rw [refuse_log]
      exact .inl (.refused hfr)
    · cases h
    · next staged hstg =>
      obtain ⟨-, -, hstg⟩ := bind_eq_ok.mp hstg
      split at h
      · next happ =>
        cases h
        obtain ⟨rfl, hlog⟩ := append_ok happ
        rw [hlog]
        exact .inl (.admitted hfr (stage_landed hstg))
      · next happ =>
        cases h
        rw [refuse_log, append_torn happ]
        exact .inr (.torn hfr (stage_landed hstg) (append_error happ))
      · cases h

section

variable (h : Decision ctx log auth request input outcome log')
include h

theorem Decision.change : Change ctx log log' := by
  cases h with
  | differs | replayed | tombstone | repeated => exact .upkeep .kept
  | refused fresh => exact .refused _ _ _ fresh
  | admitted fresh landed => exact .admitted auth request input fresh landed

theorem Decision.message_ne {m : MessageRef}
    (hne : m ≠ request.message.ref) : log'.message.get m = log.message.get m := by
  cases h with
  | differs => rfl
  | replayed => rfl
  | tombstone => rfl
  | repeated => rfl
  | refused =>
    unfold Log.refuse
    split_ifs
    · exact get_put_ne _ _ hne
    · rfl
  | admitted =>
    rw [admit_message]
    exact get_put_ne _ _ hne

end

end Decision

section Step

variable {D : Type} {ctx : Context D} {tx tx' s s' : Store D} {auth : Auth} {request : SendRequest} {input : AdmitInput}
  {ref : ThreadRef} {result : Result} {beforeSeq : String} {call : Call} {id : Option String}
  {supported : Bool} {owner : NodeId}

/-! ## Repeatable calls -/

theorem allocate_free {uuids : List String} (h : allocate tx owner id uuids = .ok ref) : tx.thread.get ref = none := by
  unfold allocate at h
  dsimp only at h
  split at h
  · split at h
    · next hfind =>
      cases h
      simpa using List.find?_some hfind
    · cases h
  · simp only [bind_eq_ok, failIf_eq_ok, Except.ok.injEq] at h
    obtain ⟨-, hfree, rfl⟩ := h
    simp only [Bool.or_eq_false_iff, Bool.not_eq_eq_eq_not, Bool.not_false, isNone_iff_eq_none] at hfree
    exact hfree.1

theorem createWork_upkeep {title : String} {wantsDefault : Bool}
    {input : MutateInput} (h : createWork ctx owner title id wantsDefault input tx = .ok (result, tx')) :
    Upkeep tx.log tx'.log := by
  obtain ⟨createdAt, -, h⟩ := bind_eq_ok.mp h
  split_ifs at h
  · dsimp only at h
    split at h
    · next existing hrow =>
      split_ifs at h
      · cases h
        exact .kept
      · cases h
        exact .retitled title hrow
    · next hfree =>
      cases h
      exact .opened title createdAt hfree
  · obtain ⟨ref, hfree, h⟩ := bind_eq_ok.mp h
    cases h
    exact .opened title createdAt (allocate_free hfree)

theorem recordEvent_upkeep {tx₁ : Store D} {thread next : Thread} {body : EventBody} (hlog : tx₁.log = tx.log)
    (hrow : tx.log.thread.get ref = some thread) (hbody : ∀ m n, body ≠ .message m n)
    (hsame : next.threadRef = thread.threadRef ∧ next.nextSeq = thread.nextSeq ∧ next.eventSeq = thread.eventSeq) :
    Upkeep tx.log (recordEvent tx₁ next body).2.log := by
  have hrec : Upkeep tx.log _ := .recorded hrow hsame.1 hsame.2.1 hsame.2.2 hbody
  rw [← hlog] at hrec ⊢
  exact hrec

theorem closeWork_upkeep {input : MutateInput} (h : closeWork ctx ref input tx = .ok (result, tx')) :
    Upkeep tx.log tx'.log := by
  simp only [closeWork, bind_eq_ok] at h
  obtain ⟨thread, hrow, -, -, closedAt, -, h⟩ := h
  cases h
  exact recordEvent_upkeep rfl (loadThread_ok hrow) (by simp) ⟨rfl, rfl, rfl⟩

theorem memberWork_upkeep {isOwner : Bool} {peer : NodeId} {patch : MemberPatch} {input : MutateInput}
    (h : memberWork ctx isOwner ref peer patch input tx = .ok (result, tx')) : Upkeep tx.log tx'.log := by
  simp only [memberWork, bind_eq_ok] at h
  obtain ⟨thread, hrow, next, -, h⟩ := h
  cases h
  refine recordEvent_upkeep ?_ (loadThread_ok hrow) (by simp) ⟨rfl, rfl, rfl⟩
  -- Neither the membership row nor the notice is part of the log.
  split_ifs <;> rfl

/-! ## Expiry -/

theorem foldl_stripAttention_log (identity : MessageRef)
    (rows : List ((ThreadRef × String) × Attention)) (tx : Store D) :
    (rows.foldl (fun tx => stripAttention tx identity) tx).log = tx.log := by
  obtain ⟨_, _, hrows⟩ := stripAttention_rows identity rows tx
  rw [hrows]
  rfl

theorem expireRow_log {now : Int} {row : (ThreadRef × Nat) × Entry} (hrow : tx.entry.get row.1 = some row.2)
    (h : expireRow ctx beforeSeq now tx row = .ok tx') : Relation.ReflTransGen Buries tx.log tx'.log := by
  rcases expireRow_ok h with rfl | ⟨record, hrec, rfl⟩
  · exact .refl
  · rw [foldl_stripAttention_log]
    exact .single (.bury hrow hrec)

theorem expire_upkeep {now : Nat → Int} (h : expire ctx s auth ref beforeSeq now = .ok s') : Upkeep s.log s'.log :=
  .buried (expire_induct (P := fun tx => Relation.ReflTransGen Buries s.log tx.log) h .refl
    fun _ _ _ _ hstor hrow hpast => hpast.trans (expireRow_log hstor hrow))

theorem Works.upkeep (h : Works ctx s call result tx) : Upkeep s.log tx.log := by
  cases h with
  | create run => exact createWork_upkeep run
  | close run => exact closeWork_upkeep run
  | member _ run => exact memberWork_upkeep run
  | permits _ run =>
    rw [permitsWork_rows run]
    exact .kept
  | ackGrant run =>
    rcases ackGrantWork_rows run with rfl | ⟨_, -, rfl⟩ <;> exact .kept
  | ack run =>
    obtain ⟨_, _, -, rfl⟩ := ackWork_rows run
    exact .kept

/-! ## Admissions -/

theorem bindKey_log (ctx : Context D) (tx : Store D) (auth : Auth) (request : SendRequest) :
    (bindKey ctx tx auth request).log = tx.log := by
  unfold bindKey
  dsimp only
  split <;> rfl

variable [DecidableEq D]

variable {result : Except Thrown Receipt} {outcome : Except Failure Receipt}

/-- The transaction replays a record or decides on a fresh identity, and only then it is torn. -/
theorem admitTx_cases (hstd : Standing tx.log) (h : admitTx ctx tx auth request input supported = .ok (outcome, tx')) :
    Decision ctx tx.log auth request input outcome tx'.log ∨ Torn ctx tx.log auth request input outcome tx'.log := by
  unfold admitTx at h
  dsimp only at h
  split_ifs at h with hbd
  · cases h
  · split at h
    · next hfr => exact decideAdmission_ok hfr h
    · next old hrec =>
      left
      split at h
      · cases h
      · split_ifs at h with hcont
        · cases h
          exact .differs hrec hcont
        · rw [not_not] at hcont
          split at h
          · next hverd =>
            cases h
            rw [bindKey_log]
            exact .replayed hrec hcont hverd
          · next hverd =>
            cases h
            exact .tombstone hrec hcont hverd
          · next failure hverd =>
            -- A recorded refusal is not a transient one, so the record stands.
            have hstands := not_transient_of_recorded (hstd _ _ _ hrec hverd)
            rw [hstands] at h
            cases h
            exact .repeated hrec hcont hverd

theorem admitTx_ok (hstd : Standing tx.log) (hsafe : ∀ failure, input.traceReceived ≠ .error (.onlyne failure))
    (h : admitTx ctx tx auth request input supported = .ok (outcome, tx')) :
    Decision ctx tx.log auth request input outcome tx'.log := by
  rcases admitTx_cases hstd h with hdec | htorn
  · exact hdec
  · obtain ⟨failure, htrace⟩ := htorn.trace
    exact absurd htrace (hsafe failure)

section

variable (hstd : Standing s.log)
include hstd

theorem admit_ok {receipt : Receipt} (hsafe : ∀ failure, input.traceReceived ≠ .error (.onlyne failure))
    (h : admitRequest ctx s auth request input = some (.ok receipt, s')) :
    Decision ctx s.log auth request input (.ok receipt) s'.log := by
  unfold admitRequest at h
  split at h
  · cases h
  · cases h
  · split at h
    · cases h
    · cases h
    · cases h
    · next htx =>
      split at h
      · cases h
        exact admitTx_ok hstd hsafe htx
      · cases h
      · cases h

/-- An admission leaves the log as it was, or as its transaction decides or tears it; what the
transaction refuses is thrown. -/
theorem admit_cases (h : admitRequest ctx s auth request input = some (result, s')) : s'.log = s.log ∨ ∃ outcome,
      (Decision ctx s.log auth request input outcome s'.log ∨ Torn ctx s.log auth request input outcome s'.log) ∧
      ∀ failure, outcome = .error failure → result = .error (thrownAgain failure) := by
  unfold admitRequest at h
  split at h
  · cases h
    exact .inl rfl
  · cases h
    exact .inl rfl
  · split at h
    · cases h
    · cases h
      exact .inl rfl
    · next htx =>
      cases h
      refine .inr ⟨_, admitTx_cases hstd htx, ?_⟩
      intro failure heq
      cases heq
      rfl
    · next htx =>
      have hdec := admitTx_cases hstd htx
      right
      split at h <;> cases h <;> exact ⟨_, hdec, fun _ heq => by cases heq⟩

theorem admit_log (hsafe : ∀ failure, input.traceReceived ≠ .error (.onlyne failure))
    (h : admitRequest ctx s auth request input = some (result, s')) :
    s'.log = s.log ∨ ∃ outcome, Decision ctx s.log auth request input outcome s'.log ∧
      ∀ failure, outcome = .error failure → result = .error (thrownAgain failure) := by
  rcases admit_cases hstd h with hsame | ⟨outcome, hdec | htorn, hthr⟩
  · exact .inl hsame
  · exact .inr ⟨outcome, hdec, hthr⟩
  · obtain ⟨failure, htrace⟩ := htorn.trace
    exact absurd htrace (hsafe failure)

end

/-! ## The calls -/

theorem admission_or_upkeep (hstep : step ctx s call = some s') :
    (∃ auth request input, call = .admitRequest auth request input) ∨ Upkeep s.log s'.log := by
  cases step_effect hstep with
  | kept | sent => exact .inr .kept
  | remembered | appended => exact .inl ⟨_, _, _, rfl⟩
  | worked _ _ _ works => exact .inr works.upkeep
  | listed run =>
    obtain ⟨_, rfl⟩ := attention_ok run
    exact .inr .kept
  | expired run => exact .inr (expire_upkeep run)

theorem admit_of_step (hstep : step ctx s (.admitRequest auth request input) = some s') :
    ∃ result, admitRequest ctx s auth request input = some (result, s') := by
  obtain ⟨⟨answer, s''⟩, hperf, rfl⟩ := map_eq_some_iff.mp hstep
  obtain ⟨⟨result, s₁⟩, hadm, heq⟩ := map_eq_some_iff.mp hperf
  cases heq
  exact ⟨result, hadm⟩

theorem step_change_or_torn (hstd : Standing s.log) (hstep : step ctx s call = some s') :
    Change ctx s.log s'.log ∨ ∃ auth request input outcome,
      call = .admitRequest auth request input ∧ Torn ctx s.log auth request input outcome s'.log := by
  rcases admission_or_upkeep hstep with ⟨auth, request, input, rfl⟩ | hkeep
  · obtain ⟨result, hadm⟩ := admit_of_step hstep
    rcases admit_cases hstd hadm with hsame | ⟨outcome, hdec | htorn, -⟩
    · exact .inl (.upkeep (.of_eq hsame))
    · exact .inl hdec.change
    · exact .inr ⟨auth, request, input, outcome, rfl, htorn⟩
  · exact .inl (.upkeep hkeep)

/-- What a call can do to the log while the trace hook does not throw into it. -/
theorem step_change (hstd : Standing s.log) (hsafe : traceSafe call = true)
    (hstep : step ctx s call = some s') : Change ctx s.log s'.log := by
  rcases step_change_or_torn hstd hstep with hchg | ⟨_, _, _, _, rfl, htorn⟩
  · exact hchg
  · obtain ⟨failure, htrace⟩ := htorn.trace
    exact absurd htrace (traceReceived_ne hsafe failure)

theorem step_entry (hstep : step ctx s call = some s') {slot : ThreadRef × Nat} {entry : Entry}
    (hrow : s'.entry.get slot = some entry) : s.entry.get slot = some entry ∨ ∃ auth request input,
      call = .admitRequest auth request input ∧ entry.message = request.message := by
  rcases admission_or_upkeep hstep with ⟨auth, request, input, rfl⟩ | hkeep
  · cases step_effect hstep with
    | kept | remembered => exact .inl hrow
    | worked digest named => cases named
    | appended =>
      obtain ⟨_, _, _, _, _, hrows⟩ := append_rows ctx s auth request input _
      unfold appended at hrows
      rw [hrows] at hrow
      rcases get_put_cases hrow with ⟨-, rfl⟩ | ⟨-, hold⟩
      · exact .inr ⟨auth, request, input, rfl, rfl⟩
      · exact .inl hold
  · exact .inl (hkeep.entry hrow)

end Step

end Onlyne.Messages
