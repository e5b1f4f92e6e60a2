import Onlyne.Core.Page
import Onlyne.Messages.Threads

/-!
# Messages: what a caller reads

The reads of `messages.ts` and `threads.ts`.  Read authority is decided at the time of the read, from
the membership of the caller and its scope.  Only `attention` writes: a row whose entry the caller may
not read any more is stripped where it is stored, too.
-/

namespace Onlyne.Messages

open Foundation

/-! ## Queries -/

inductive Inbox where
  | inbox
  | thread
  deriving DecidableEq, Repr

inductive Scope where
  | messages (ref : ThreadRef) (actor : NodeId) (peer : Option NodeId)
      (relatedTo : Option MessageRef) (attention : Inbox) (sinceSeq : Option String)
  | attention (ref : ThreadRef) (actor : NodeId)
  | events (ref : ThreadRef) (actor : NodeId)
  | threads (owner : NodeId)
  | members (ref : ThreadRef)
  | grants (recipient : NodeId)
  | issued (recipient : NodeId)
  deriving DecidableEq, Repr

/-- The query of `list`. -/
structure MessageQuery extends PageOptions Scope where
  attention : Option Inbox := none
  sinceSeq : Option String := none
  peer : Option NodeId := none
  relatedTo : Option MessageRef := none
  deriving DecidableEq, Repr

def given (value : Option String) : Option String := value.filter (· ≠ "")

/-! ## Read authority -/

section Authority

variable {D : Type}

/-- The number a stored scope begins with; `requireScope` stores decimal texts only. -/
def scopeStart (text : String) : Nat := (decimal text).toOption.getD 0

def inScope (entry : Entry) (scope : ReadScope) : Bool :=
  scope.peers.all (fun peers => peers.contains entry.authenticatedAuthor) &&
    scope.sinceSeq.all (fun seq => scopeStart seq ≤ entry.seq) &&
    scope.relatedTo.all (fun ref => entry.message.inReplyTo = some ref)

/-- The owner reads everything; any other caller only as an active member that holds read, and an
entry only when its scope admits it. -/
def canRead (tx : Store D) (actor : NodeId) (ref : ThreadRef) (entry : Option Entry := none) : Bool :=
  if (tx.thread.get ref).any fun thread => thread.threadRef.owner = actor then true
  else if entry.any fun e => e.threadRef ≠ ref then false
  else
    match tx.member.get (ref, actor) with
    | none => false
    | some member =>
      member.state = .active && member.access.contains .read &&
        entry.all fun e => inScope e member.readScope

end Authority

/-! ## Messages -/

section Messages

variable {D : Type}

section

variable (ctx : Context D) (tx : Store D) (actor : NodeId) (auth : Auth) (ref : ThreadRef)

def entryRows : List ((ThreadRef × Nat) × Entry) :=
  tx.entry.rows.filter fun row => row.1.1 = ref

def attentionRows : List ((ThreadRef × String) × Attention) :=
  tx.attention.rows.filter fun row => row.1.1 = ref

def readable : List Entry :=
  ((entryRows tx ref).map Prod.snd).filter fun entry => canRead tx actor ref (some entry)

def obliges (entry : Entry) : Bool :=
  (attentionRows tx ref).any fun row =>
    row.2.recipient = actor && row.2.messageRef = entry.message.ref

def selected (query : MessageQuery) (entry : Entry) : Except Failure Bool := do
  let recent ← match given query.sinceSeq with
    | none => .ok true
    | some seq => do
      let since ← decimal seq
      .ok (since < entry.seq)
  .ok (recent && (given query.peer).all (fun peer => entry.authenticatedAuthor = peer) &&
    query.relatedTo.all (fun original => entry.message.inReplyTo = some original) &&
    (query.attention.getD .inbox = .thread || obliges tx actor ref entry))

def list (query : MessageQuery) : Except Halt (Page Entry Scope) := do
  let _ ← loadThread ctx tx ref
  failIf (!canRead tx auth.actor ref) .forbidden "Read access is required."
  let entries ← checked
    (filterChecked (selected tx auth.actor ref query) (readable tx auth.actor ref))
  checked (page (sortedByNumber Entry.seq entries) query.toPageOptions
    (.messages ref auth.actor query.peer query.relatedTo (query.attention.getD .inbox) query.sinceSeq)
    (fun entry => toString entry.seq) ordinalFollows)

def Attention.stripped (row : Attention) : Attention := { row with entry := none, expired := true }

def intact (row : Attention) : Bool :=
  row.expired || canRead tx actor ref && row.entry.any fun entry => canRead tx actor ref (some entry)

def shown (row : Attention) : Attention :=
  if intact tx actor ref row then row else row.stripped

/-- A row the caller may not see as it is is stripped where it is stored. -/
def storeShown (rows : Store D) (row : Attention) : Store D :=
  if intact tx actor ref row then rows
  else { rows with attention := rows.attention.put (ref, row.obligationId) row.stripped }

/-- The obligations of the caller in a thread that it has not confirmed. -/
def obligations : List Attention :=
  ((attentionRows tx ref).map Prod.snd).filter fun row => row.recipient = actor && !row.acked

def attention (options : PageOptions Scope) : Except Halt (Page Attention Scope × Store D) := do
  let _ ← loadThread ctx tx ref
  let rows := obligations tx auth.actor ref
  let visible ← checked (page (sortedByNumber Attention.seq (rows.map (shown tx auth.actor ref)))
    options (.attention ref auth.actor) (fun row => toString row.seq) ordinalFollows)
  .ok (visible, rows.foldl (storeShown tx auth.actor ref) tx)

theorem foldl_storeShown (rows : List Attention) (store : Store D) :
    ∃ attention, rows.foldl (storeShown tx actor ref) store = { store with attention := attention } := by
  induction rows generalizing store with
  | nil => exact ⟨store.attention, rfl⟩
  | cons row rest ih =>
    rw [List.foldl_cons]
    obtain ⟨attention, hrest⟩ := ih (storeShown tx actor ref store row)
    rw [hrest]
    unfold storeShown
    split_ifs <;> exact ⟨attention, rfl⟩

theorem attention_ok {ctx : Context D} {tx tx' : Store D} {auth : Auth} {ref : ThreadRef}
    {options : PageOptions Scope} {visible : Page Attention Scope}
    (h : attention ctx tx auth ref options = .ok (visible, tx')) :
    ∃ attention, tx' = { tx with attention := attention } := by
  simp only [attention, bind_eq_ok] at h
  obtain ⟨_, -, _, -, h⟩ := h
  cases h
  exact foldl_storeShown tx auth.actor ref _ tx

def getByRef (ref : MessageRef) : Except Halt Entry := do
  let entry ← requireValue (tx.entryRef.get ref)
  failIf (!canRead tx auth.actor entry.threadRef (some entry)) .notFound
    "This message is not readable."
  .ok entry

/-- The caller may see an event: the entry it announces, or anything but a membership. -/
def announced (event : Event) : Bool :=
  match event.body with
  | .message message _ =>
    (tx.entryRef.get message).any fun entry => canRead tx actor ref (some entry)
  | .membership _ => actor = ctx.node
  | .threadClosed => true

def events (options : PageOptions Scope) : Except Halt (Page Event Scope) := do
  let _ ← loadThread ctx tx ref
  failIf (!canRead tx auth.actor ref) .forbidden "Read access is required."
  let rows := ((tx.event.rows.filter fun row => row.1.1 = ref).map Prod.snd).filter
    (announced ctx tx auth.actor ref)
  checked (page (sortedByNumber Event.id rows) options (.events ref auth.actor)
    (fun event => toString event.id) ordinalFollows)

/-- A thread with its first messages, and where its events go on. -/
structure Snapshot where
  thread : Thread
  entries : List Entry
  resumeCursor : Cursor Scope
  deriving DecidableEq, Repr

def snapshot : Except Halt Snapshot := do
  let thread ← loadThread ctx tx ref
  failIf (!canRead tx auth.actor ref) .forbidden "Read access is required."
  .ok { thread := thread
        entries := (sortedByNumber Entry.seq (readable tx auth.actor ref)).take 50
        resumeCursor := .decoded (.events ref auth.actor) (toString thread.eventSeq) }

end

end Messages

/-! ## Threads and grants -/

structure Known where
  owner : NodeId
  threadRef : ThreadRef
  revision : String
  deriving DecidableEq, Repr

structure Holdings where
  known : Table ThreadRef Known := ∅
  grant : Table (NodeId × String) Grant := ∅

structure ThreadDescription where
  thread : Thread
  members : List Member
  deriving DecidableEq, Repr

section Threads

variable {D : Type}

section

variable (ctx : Context D) (tx : Store D) (auth : Auth) (ref : ThreadRef) (options : PageOptions Scope)

def memberRows : List Member :=
  (tx.member.rows.filter fun row => row.1.1 = ref).map Prod.snd

def readThread : Except Halt Thread := do
  failIf (auth.actor = "") .unauthenticated "Authentication is required."
  let thread ← loadThread ctx tx ref
  failIf (!canRead tx auth.actor ref) .forbidden
    "The caller does not hold read access to this thread."
  .ok thread

def describe : Except Halt ThreadDescription := do
  let thread ← readThread ctx tx auth ref
  .ok { thread := thread, members := memberRows tx ref }

def members : Except Halt (Page Member Scope) := do
  let _ ← readThread ctx tx auth ref
  checked (page (sortedBy Member.peer (memberRows tx ref)) options (.members ref) Member.peer
    textFollows)

def listThreads : Except Halt (Page Thread Scope) := do
  failIf (auth.actor = "") .unauthenticated "Authentication is required."
  ctx.owner auth.actor
  let threads := (tx.thread.rows.filter fun row => row.1.owner = auth.actor).map Prod.snd
  checked (page (sortedBy (fun thread => thread.threadRef.id) threads) options
    (.threads auth.actor) (fun thread => thread.threadRef.id) textFollows)

def heldGrants (held : Holdings) : List Grant :=
  sortedBy Grant.id ((held.grant.rows.map Prod.snd).filter fun grant => !grant.acked)

/-- The grants this node has accepted, until it confirms each one. -/
def grants (held : Holdings) (auth : Auth) (options : PageOptions Scope) : Except Halt (Page Grant Scope) := do
  failIf (auth.actor = "") .unauthenticated "Authentication is required."
  checked (page (heldGrants held) options (.grants auth.actor) Grant.id textFollows)

def membershipsOf (peer : NodeId) : List Member :=
  ((tx.member.rows.filter fun row => row.1.1.owner = ctx.node).map Prod.snd).filter fun member =>
    member.peer = peer && member.state = .active

def noticeOf (peer : NodeId) (member : Member) : Option Grant :=
  (tx.notice.get member.revision).filter fun notice =>
    notice.recipient = peer && notice.threadRef.owner = ctx.node

def issuedGrants (peer : NodeId) : List Grant :=
  sortedBy Grant.id ((membershipsOf ctx tx peer).filterMap (noticeOf ctx tx peer))

/-- The memberships of this node that are active for the caller, each with its notice. -/
def issued : Except Halt (Page Grant Scope) := do
  failIf (auth.actor = "") .unauthenticated "Authentication is required."
  checked (page (issuedGrants ctx tx auth.actor) options (.issued auth.actor) Grant.id textFollows)

end

end Threads

end Onlyne.Messages
