import Onlyne.Foundation.Once
import Onlyne.Messages.Admission

/-!
# Messages: threads

The calls of `threads.ts` that write: `create`, `close`, `member`, `permits` and `ackGrant`, with the
`mutate` of `core.ts` they run in.  `mutate` answers a repeated call from its idempotency row and
otherwise runs the work of the call and records its result, in one transaction.
-/

namespace Onlyne.Messages

open Foundation

structure MutateInput where
  windowStart : Int
  windowEnd : Int
  -- The reading stamped on a row, or compared with an expiry.
  now : Int
  revision : String := ""
  uuids : List String := []
  mayAdmit : Option (Except Thrown Bool) := none

section Mutate

variable {D : Type} [DecidableEq D]

section

variable (ctx : Context D) (tx : Store D) (auth : Auth) (operation : String) (mutation : Mutation)

/-- Run `work` once for each idempotency key of a caller. -/
def mutate (body : Body) (input : MutateInput)
    (work : Store D → Except Halt (Result × Store D)) : Except Halt (Result × Store D) := do
  failIf (auth.actor = "") .unauthenticated "Authentication is required."
  failIf (mutation.idempotencyKey = "") .invalidRequest "An idempotency key is required."
  let slot := (auth.actor, operation, mutation.idempotencyKey)
  let digest := ctx.fingerprint (.mutation body mutation.retryUntil)
  match tx.idempotency.get slot with
  | some previous =>
    failIf (previous.digest ≠ digest) .idConflict
      "The idempotency key is bound to another request."
    .ok (previous.result, tx)
  | none =>
    ctx.deadline input.windowStart input.windowEnd mutation.retryUntil
    let (result, tx') ← work tx
    .ok (result, { tx' with idempotency := tx'.idempotency.put slot ⟨digest, result⟩ })

def answeredSlots : Slots (Store D) (NodeId × String × String) D Result where
  get s name := (s.idempotency.get name).map fun row => (row.digest, row.result)
  fill s name row := { s with idempotency := s.idempotency.put name ⟨row.1, row.2⟩ }
  get_fill s name row := by simp
  get_fill_ne s name name' row hne := by simp [Table.get_put_ne _ _ hne]

theorem mutate_eq_once (body : Body) (input : MutateInput) (work : Store D → Except Halt (Result × Store D)) :
    mutate ctx tx auth operation mutation body input work = (do
      failIf (auth.actor = "") .unauthenticated "Authentication is required."
      failIf (mutation.idempotencyKey = "") .invalidRequest "An idempotency key is required."
      once answeredSlots
        (.threw (.onlyne (onlyneError .idConflict "The idempotency key is bound to another request.")))
        (auth.actor, operation, mutation.idempotencyKey) (ctx.fingerprint (.mutation body mutation.retryUntil))
        (ctx.deadline input.windowStart input.windowEnd mutation.retryUntil) work tx) := by
  unfold mutate once
  refine bind_congr fun _ => bind_congr fun _ => ?_
  dsimp only [answeredSlots]
  cases tx.idempotency.get (auth.actor, operation, mutation.idempotencyKey) with
  | none =>
    cases ctx.deadline input.windowStart input.windowEnd mutation.retryUntil with
    | error => rfl
    | ok =>
      cases work tx with
      | error => rfl
      | ok => rfl
  | some previous =>
    dsimp only [Option.map_some]
    by_cases hdig : previous.digest = ctx.fingerprint (.mutation body mutation.retryUntil)
    · rw [if_pos hdig, failIf, if_neg (by simpa using hdig)]
      rfl
    · rw [if_neg hdig, failIf, if_pos (by simpa using hdig)]
      rfl

end

/-- A repeatable call answers from its row, or runs its work and records the answer. -/
theorem mutate_ok {ctx : Context D} {tx tx' : Store D} {auth : Auth} {operation : String}
    {mutation : Mutation} {body : Body} {input : MutateInput}
    {work : Store D → Except Halt (Result × Store D)} {result : Result}
    (h : mutate ctx tx auth operation mutation body input work = .ok (result, tx')) :
    tx' = tx ∨ tx.idempotency.get (auth.actor, operation, mutation.idempotencyKey) = none ∧
      ∃ tx₁, work tx = .ok (result, tx₁) ∧ tx' = { tx₁ with
        idempotency := tx₁.idempotency.put (auth.actor, operation, mutation.idempotencyKey)
          ⟨ctx.fingerprint (.mutation body mutation.retryUntil), result⟩ } := by
  rw [mutate_eq_once] at h
  simp only [bind_eq_ok] at h
  obtain ⟨-, -, -, -, h⟩ := h
  rcases once_ok h with ⟨-, hsame⟩ | ⟨hfree, -, tx₁, hwork, hfill⟩
  · exact .inl hsame
  · exact .inr ⟨Option.map_eq_none_iff.mp hfree, tx₁, hwork, hfill⟩

end Mutate

section Work

variable {D : Type}

/-! ## Threads -/

def defaultThread : String := "thr-default"

/-- A free id for a new thread: the one asked for, or the first drawn one that is free. -/
def allocate (tx : Store D) (owner : NodeId) (id : Option String) (uuids : List String) : Except Halt ThreadRef :=
  let free id := (tx.thread.get ⟨owner, id⟩).isNone
  match id with
  | none =>
    match uuids.find? free with
    | some id => .ok ⟨owner, id⟩
    | none => .error .looping
  | some id => do
    failIf (!free id || id = defaultThread) .idConflict
      "This thread id is already allocated for the owner."
    .ok ⟨owner, id⟩

section

variable (ctx : Context D) (isOwner : Bool) (thread : Thread) (current : Option Member) (peer : NodeId)

/-- The work of `create`. -/
def createWork (owner : NodeId) (title : String) (id : Option String)
    (wantsDefault : Bool) (input : MutateInput) (tx : Store D) : Except Halt (Result × Store D) := do
  let createdAt ← ctx.stamp input.now
  if wantsDefault then
    let ref : ThreadRef := ⟨owner, defaultThread⟩
    match tx.thread.get ref with
    | some existing =>
      if existing.title = title || id.isNone then .ok (.thread existing, tx)
      else
        let retitled := { existing with title := title }
        .ok (.thread retitled, { tx with thread := tx.thread.put ref retitled })
    | none =>
      let thread := freshThread ref title createdAt
      .ok (.thread thread, { tx with
        thread := tx.thread.put ref thread
        default := tx.default.put owner ref })
  else
    let ref ← allocate tx owner id input.uuids
    let thread := freshThread ref title createdAt
    .ok (.thread thread, { tx with thread := tx.thread.put ref thread })

/-- Advance the event counter of a thread and write the event. -/
def recordEvent (tx : Store D) (thread : Thread) (body : EventBody) : Thread × Store D :=
  let seq := thread.eventSeq + 1
  let next := { thread with eventSeq := seq }
  (next, { tx with
    thread := tx.thread.put thread.threadRef next
    event := tx.event.put (thread.threadRef, seq) ⟨seq, thread.threadRef, body⟩ })

/-- The work of `close`. -/
def closeWork (ref : ThreadRef) (input : MutateInput) (tx : Store D) : Except Halt (Result × Store D) := do
  let thread ← loadThread ctx tx ref
  failIf (thread.state = .closed) .threadClosed "The thread is already closed."
  let closedAt ← ctx.stamp input.now
  let (next, tx') :=
    recordEvent tx { thread with state := .closed, closedAt := some closedAt } .threadClosed
  .ok (.thread next, tx')

/-! ## Members -/

def defaultAccess : List Access := [.post, .read]

def requireAccess (access : List (Wire Access)) : Except Halt (List Access) := do
  failIf (access.isEmpty) .invalidRequest
    "access must list at least one of post and read."
  let known ← access.mapM fun
    | .known value => .ok value
    | .unknown _ => fail .invalidRequest "Unknown access member; expected post or read."
  .ok known.eraseDups

def requireScope (scope : ReadScope) (unknown : List String) : Except Halt ReadScope := do
  match unknown with
  | name :: _ => fail .invalidRequest ("Unknown read_scope key " ++ name ++ ".")
  | [] => pure ()
  failIf (scope.peers.any (fun peers => peers.isEmpty || peers.contains "")) .invalidRequest
    "read_scope.peers must be a non-empty array of node ids."
  failIf (scope.sinceSeq.any (fun seq => !(decimal seq matches .ok _))) .invalidRequest
    "read_scope.since_seq must be a decimal sequence string."
  failIf (scope.relatedTo.any (fun ref => ref.sender = "" || ref.id = "")) .invalidRequest
    "read_scope.related_to must be a complete MessageRef."
  .ok { scope with peers := scope.peers.map List.eraseDups }

def ownMembership (patch : MemberPatch) (input : MutateInput) : Except Halt Member :=
  let withdraws := patch.state = some (.known .revoked)
  match current with
  | none => do
    failIf (withdraws) .notFound "No membership record to withdraw."
    failIf (thread.state = .closed) .threadClosed "A closed thread does not accept joins."
    let admitted ← match input.mayAdmit with
      | none => .ok false
      | some policy => asked policy
    .ok { peer := peer, state := if admitted then .active else .requested
          access := defaultAccess, readScope := {}, revision := input.revision }
  | some row =>
    if withdraws then
      if row.state ≠ .active && row.state ≠ .requested then
        fail .conflict "This membership is already stopped."
      else .ok { row with state := .revoked, access := [], revision := input.revision }
    else fail .conflict "This peer already holds a membership record; only the owner changes it."

def ownerMembership (patch : MemberPatch) (input : MutateInput) : Except Halt Member := do
  let state ← match patch.state with
    | none => .ok MemberState.active
    | some (.known state) => .ok state
    | some (.unknown _) => fail .invalidRequest "Unknown member state."
  let kept := match current with
    | some row => if row.state = .active then row.access else defaultAccess
    | none => defaultAccess
  let access ←
    if state = .revoked || state = .denied then .ok []
    else match patch.access with
      | none => .ok kept
      | some access => requireAccess access
  let readScope ← match patch.readScope with
    | none => .ok ((current.map Member.readScope).getD {})
    | some scope => requireScope scope patch.unknownScope
  .ok { peer := peer, state := state, access := access, readScope := readScope
        revision := input.revision }

def membership (patch : MemberPatch) (input : MutateInput) : Except Halt Member :=
  if isOwner then ownerMembership current peer patch input
  else ownMembership thread current peer patch input

/-- Keep the notice of a membership until its recipient confirms it. -/
def issueGrant (tx : Store D) (ref : ThreadRef) (peer : NodeId) (revision : String) : Store D :=
  { tx with notice := tx.notice.put revision (grantNotice ref peer revision) }

/-- The work of `member`. -/
def memberWork (ref : ThreadRef) (peer : NodeId)
    (patch : MemberPatch) (input : MutateInput) (tx : Store D) : Except Halt (Result × Store D) := do
  let thread ← loadThread ctx tx ref
  let current := tx.member.get (ref, peer)
  let next ← membership isOwner thread current peer patch input
  let written := { tx with member := tx.member.put (ref, peer) next }
  let joins := next.state = .active && current.map Member.state ≠ some .active && peer ≠ ref.owner
  let granted := if joins then issueGrant written ref peer next.revision else written
  let (_, tx') := recordEvent granted thread (.membership next)
  .ok (.member next, tx')

/-! ## Permits and notices -/

/-- The work of `permits`. -/
def permitsWork (permit : ReplyPermit) (tx : Store D) : Except Halt (Result × Store D) := do
  let thread ← loadThread ctx tx permit.landing
  failIf (thread.state = .closed) .threadClosed "A permit cannot land on a closed thread."
  .ok (.permit permit, { tx with
    permit := tx.permit.put (permit.messageRef, permit.grantee) permit })

end

/-- The work of `ackGrant`. -/
def ackGrantWork (auth : Auth) (id : String) (tx : Store D) : Except Halt (Result × Store D) := do
  let grant ← requireValue (tx.notice.get id)
  failIf (grant.recipient ≠ auth.actor) .forbidden
    "The grant notice is addressed to another recipient."
  if grant.acked then .ok (.grant grant, tx)
  else
    let acked := { grant with acked := true }
    .ok (.grant acked, { tx with notice := tx.notice.put id acked })

end Work

/-! ## The calls -/

section Calls

variable {D : Type} [DecidableEq D]

def create (ctx : Context D) (store : Store D) (auth : Auth) (mutation : Mutation) (title : String)
    (id : Option String) (default : Bool) (input : MutateInput) : Except Halt (Result × Store D) := do
  failIf (auth.actor = "") .unauthenticated "Authentication is required."
  ctx.owner auth.actor
  failIf (title = "") .invalidRequest "A thread needs a title."
  failIf (id = some "") .invalidRequest "Thread id must be a non-empty string."
  let wantsDefault := default || id = some defaultThread
  mutate ctx store auth "thread.create" mutation (.create title id wantsDefault) input
    (createWork ctx auth.actor title id wantsDefault input)

def close (ctx : Context D) (store : Store D) (auth : Auth) (ref : ThreadRef) (mutation : Mutation)
    (input : MutateInput) : Except Halt (Result × Store D) := do
  failIf (auth.actor = "") .unauthenticated "Authentication is required."
  requireThreadRef ref
  ctx.owner ref.owner
  failIf (auth.actor ≠ ref.owner) .forbidden "Only the owner may close a thread."
  mutate ctx store auth ("thread.close/" ++ ref.owner ++ "/" ++ ref.id) mutation (.close ref) input
    (closeWork ctx ref input)

def member (ctx : Context D) (store : Store D) (auth : Auth) (ref : ThreadRef) (peer : NodeId)
    (patch : MemberPatch) (mutation : Mutation) (input : MutateInput) : Except Halt (Result × Store D) := do
  failIf (auth.actor = "") .unauthenticated "Authentication is required."
  requireThreadRef ref
  failIf (peer = "") .invalidRequest "A membership names its peer."
  let isOwner := auth.actor = ref.owner
  failIf (!isOwner && auth.actor ≠ peer) .forbidden "Only the owner manages other peers."
  failIf (patch.revision.isSome) .invalidRequest "The revision is issued by the owner."
  failIf (!isOwner && (patch.access.isSome || patch.readScope.isSome ||
      (patch.state.isSome && patch.state ≠ some (.known .revoked) &&
        patch.state ≠ some (.known .active)))) .forbidden
    "A peer may only join or withdraw itself."
  mutate ctx store auth ("thread.member/" ++ ref.owner ++ "/" ++ ref.id ++ "/" ++ peer) mutation
    (.member ref peer patch) input (memberWork ctx isOwner ref peer patch input)

def permits (ctx : Context D) (store : Store D) (auth : Auth) (permit : ReplyPermit)
    (mutation : Mutation) (input : MutateInput) : Except Halt (Result × Store D) := do
  failIf (auth.actor = "") .unauthenticated "Authentication is required."
  let original := permit.messageRef
  failIf (original.sender = "" || original.id = "") .invalidRequest
    "A permit binds a complete MessageRef."
  failIf (original.sender ≠ auth.actor) .forbidden
    "Only the original message sender may issue a reply permit."
  failIf (permit.grantee = "" || permit.grantee = auth.actor) .invalidRequest
    "A permit names one grantee other than its issuer."
  requireThreadRef permit.landing
  ctx.owner permit.landing.owner
  failIf (permit.remaining < 1) .invalidRequest
    "A permit needs a bounded positive reply count."
  let expiry ← checked (utc ctx.dateParse permit.expiresAt)
  failIf (expiry ≤ input.now) .invalidRequest "A permit needs a future expiry."
  mutate ctx store auth
    ("thread.permit/" ++ original.sender ++ "/" ++ original.id ++ "/" ++ permit.grantee) mutation
    -- Whether the permit is revoked is not part of the digested body.
    (.permit { permit with revoked := false }) input (permitsWork ctx permit)

def ackGrant (ctx : Context D) (store : Store D) (auth : Auth) (id : String) (mutation : Mutation)
    (input : MutateInput) : Except Halt (Result × Store D) := do
  failIf (auth.actor = "") .unauthenticated "Authentication is required."
  failIf (id = "") .invalidRequest "A grant id is required."
  mutate ctx store auth ("thread.grant.ack/" ++ id) mutation (.ackGrant id) input
    (ackGrantWork auth id)

end Calls

end Onlyne.Messages
