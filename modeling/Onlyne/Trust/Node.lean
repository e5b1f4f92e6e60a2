import Onlyne.Foundation.Run
import Onlyne.Trust.Service

/-!
# Trust: one node and its calls in flight

The calls of `TrustService` read, wait for the network and commit in several steps, and other calls
run in between.  A node is its stored rows together with the list of calls in flight.  Each call
in flight is a `Task` that holds what it has read so far; an act of the node starts a call or takes
one task to its next await point.  Every act touches the store in at most one transaction, so any
sequence of acts is an interleaving of the calls at transaction boundaries.

Calls that the source awaits one after the other may overlap here: a redrive pass handles its rows
in any order, and a statement is sent by a task of its own.  A task may also stop for good at any
await (`Input.lost`): an aborted pass, a lost answer, a failed lookup.  A `crash` ends every task
and keeps the rows.  An identifier a call draws for itself is supplied at the step that first stores
or sends it.
-/

namespace Onlyne.Trust

open Foundation

/-! ## Calls in flight -/

inductive DropReason where
  -- The peer's row is missing or revoked.
  | gone
  -- A rotation statement without its window.
  | orphan
  -- An approval signed by a key this node no longer uses.
  | stale
  deriving DecidableEq, Repr

inductive Task where
  -- `request` before its transaction: the live peer and the own fingerprint.
  | request (peer : KeyIdentity) (own : Fingerprint)
  -- `send` before the statement is posted.
  | send (peer : KeyIdentity) (approved : Bool) (nonce : String) (old : Option PrivateKey)
  -- `send` waiting for the answer to the statement it posted.
  | await (peer : KeyIdentity) (nonce : String)
  -- `send` before the transaction that records the reply.
  | receiveReply (value : TrustStatement) (seeded : Bool) (nonce : String)
  -- `send` before `settle`.
  | settle (node : NodeId) (nonce : String)
  -- Before `park`.
  | park (node : NodeId) (nonce : String)
  -- `introduce` before the transaction that records the statement.
  | receive (value : TrustStatement) (seeded : Bool)
  -- `introduce` before its reply.
  | introduced (entry : TrustEntry) (nonce : String)
  -- `authenticate` before its transaction.
  | authenticate (actor : NodeId) (nonce : String) (timestamp : Int)
  -- `redrive` before it reads the peer's row.
  | redrive (owed : TrustOutbound)
  -- `redrive` before it reads the own identity.
  | redriveOwn (owed : TrustOutbound) (entry : TrustEntry)
  -- `redrive` before it reads the rotation window.
  | redriveWindow (owed : TrustOutbound) (entry : TrustEntry) (own : Fingerprint)
  -- `redrive` before it deletes the obligation.
  | redriveDelete (reason : DropReason) (owed : TrustOutbound)
  -- `redrive` before it closes the window, after a deleted rotation obligation.
  | redriveClose
  -- `redrive` before `abandonRotation`.
  | redriveAbandon
  -- `redrive` before it looks at the back-off mark.
  | redriveDue (owed : TrustOutbound) (entry : TrustEntry)
  -- `redrive` before it drops the back-off mark.
  | redriveUnblock (owed : TrustOutbound) (entry : TrustEntry)
  -- `redrive` before the retry window is checked and the peer's live key is read.
  | redriveRetry (owed : TrustOutbound) (entry : TrustEntry)
  -- `redrive` before it writes the new attempt.
  | redriveRewrite (owed : TrustOutbound) (entry : TrustEntry) (live : KeyIdentity)
  -- `rotate` before it lists the peers.
  | rotateList (previous next : PrivateKey)
  -- `rotate` before its transaction.
  | rotateCommit (previous next : PrivateKey) (peers : List TrustEntry)
  -- `rotate` between its commit and the call of `keys.replace`.
  | rotateStart (previous next : PrivateKey) (peers : List TrustEntry)
  -- `rotate` inside `keys.replace`.
  | rotateReplace (previous next : PrivateKey) (peers : List TrustEntry)
  -- `rotate` before it reads the obligation of one peer.
  | rotateSend (previous : PrivateKey) (peer : TrustEntry)
  deriving DecidableEq, Repr

/-- The task belongs to a `rotate` call that has not posted its statements yet.  `RotationMutex` lets
the next rotation wait for it. -/
def Task.inRotate : Task → Bool
  | .rotateList .. | .rotateCommit .. | .rotateStart .. | .rotateReplace .. | .rotateSend .. => true
  | _ => false

structure Node where
  -- The stored rows.
  store : TrustStore := {}
  -- The private key the host reports.
  own : PrivateKey
  -- `#rotating`
  rotating : Bool := false
  -- The configured trust seeds.
  seeds : List TrustSeed := []
  -- The clock.
  now : Int := 0
  -- The calls in flight.
  tasks : List Task := []

inductive Input where
  -- Nothing: it reads and writes the store.
  | go
  -- A fresh identifier.
  | id (id : String)
  -- One fresh identifier for each listed peer.
  | ids (ids : List String)
  -- The peer's live key.
  | live (peer : KeyIdentity)
  -- A successful answer to a posted statement.
  | answer (value : TrustStatement)
  -- An error answer.
  | refused (code : ErrorCode)
  -- `keys.replace` returned or threw; `swapped` when the host now reports the new key.
  | replaced (swapped returned : Bool)
  -- The call ends here without any effect.
  | lost
  deriving DecidableEq, Repr

/-- A request as `authenticate` reads it from its headers. -/
structure SignedRequest where
  actor : NodeId
  timestamp : Int
  nonce : String
  signature : Signature
  payload : RequestPayload
  deriving DecidableEq, Repr

inductive Act where
  -- The clock reads `now` from here on.
  | clock (now : Int)
  -- The node is configured with these trust seeds.
  | loadSeeds (seeds : List TrustSeed)
  -- The process ends and starts again over the same rows and key.
  | crash
  -- The owner confirms `fingerprint` for `node`, whose key lookup answers `live`.
  | request (node : NodeId) (fingerprint : Fingerprint) (live : KeyIdentity)
  -- A statement arrives at `/introductions`.
  | introduce (value : TrustStatement)
  -- A signed request arrives.
  | authenticate (request : SignedRequest)
  -- The owner revokes a peer.
  | revoke (node : NodeId)
  -- A maintenance pass lists the owed statements.
  | redrive
  -- The owner rotates the key to `next`.
  | rotate (next : PrivateKey)
  -- A call in flight continues.
  | advance (task : Task) (input : Input)
  deriving DecidableEq, Repr

inductive Packet where
  -- A statement posted to `/introductions`.
  | statement (value : TrustStatement)
  -- The reply to a posted statement.
  | reply (value : TrustStatement)
  deriving DecidableEq, Repr

/-! ## The steps of a call -/

def Node.fingerprint (cfg : Config) (n : Node) : Fingerprint :=
  cfg.crypto.fingerprint (cfg.crypto.publicKey n.own)

section

variable (cfg : Config) (now : Int) (n : Node) (owed : TrustOutbound) (entry : TrustEntry)

def Node.spawn (tasks : List Task) : Node := { n with tasks := n.tasks ++ tasks }

/-- The checks of `inspect` and of `request` on the answer of the key lookup. -/
def inspected (node : NodeId) (live : KeyIdentity) : Bool :=
  live.nodeId = node && cfg.crypto.validKey live.publicKey &&
    live.fingerprint = cfg.crypto.fingerprint live.publicKey

/-- `statement`: what this node signs for `peer`. -/
def statement (peer : KeyIdentity) (approved : Bool) (nonce : String)
    (replyTo : Option String) (old : Option PrivateKey) : TrustStatement :=
  let body : StatementBody :=
    { nodeId := cfg.node, target := peer.nodeId, publicKey := cfg.crypto.publicKey n.own
      targetFingerprint := peer.fingerprint, baseUrl := cfg.baseUrl, approved := approved
      nonce := nonce, timestamp := n.now, replyNonce := replyTo }
  { toStatementBody := body
    signature := cfg.crypto.sign n.own (.statement body)
    previousSignature := old.map fun key => cfg.crypto.sign key (.statement body) }

def utf16Length (text : String) : Nat :=
  text.toList.foldl (fun units c => units + if c.toNat < 65536 then 1 else 2) 0

/-- `Number.isSafeInteger` on an integer. -/
def isSafeInteger (n : Int) : Bool := -9007199254740991 ≤ n && n ≤ 9007199254740991

def freshTimestamp (now timestamp : Int) : Bool :=
  isSafeInteger timestamp && (now - timestamp).natAbs ≤ clockSkewMs.natAbs

def seedFor (seeds : List TrustSeed) (node : NodeId) : Option TrustSeed :=
  seeds.find? fun seed => seed.nodeId = node

/-- The checks `receive` makes before its transaction; `ok seeded` tells whether a seed pins the
peer. -/
def receiveChecks (value : TrustStatement) : Except Failure Bool :=
  let fingerprint := cfg.crypto.fingerprint value.publicKey
  if value.nodeId = cfg.node || value.target ≠ cfg.node
      || value.targetFingerprint ≠ n.fingerprint cfg
      || utf16Length value.nonce < 1 || 128 < utf16Length value.nonce
      || !freshTimestamp n.now value.timestamp then
    .error (onlyneError .unauthenticated "Invalid or expired key exchange transcript.")
  else if !cfg.address value.baseUrl then
    .error (onlyneError .invalidRequest
      "Node addresses require HTTPS; HTTP is limited to loopback.")
  else if !cfg.crypto.valid value.publicKey value.signature (.statement value.toStatementBody) then
    .error (onlyneError .unauthenticated "Invalid key exchange signature.")
  else
    match seedFor n.seeds value.nodeId with
    | none => .ok false
    | some seed =>
      if seed.fingerprint ≠ fingerprint then
        .error (onlyneError .unauthenticated "The peer differs from its pinned fingerprint."
          (some (fingerprintDetails fingerprint)))
      else .ok true

/-- `/^[a-zA-Z0-9-]{1,128}$/` -/
def requestNonce (nonce : String) : Bool :=
  1 ≤ nonce.toList.length && nonce.toList.length ≤ 128 &&
    nonce.toList.all fun c => c.isAlphanum || c = '-'

/-- The checks `authenticate` makes before its transaction. -/
def authenticateChecks (request : SignedRequest) : Bool :=
  freshTimestamp n.now request.timestamp && requestNonce request.nonce &&
    match n.store.trust.get request.actor with
    | none => false
    | some entry =>
      entry.state = .trusted && request.actor ≠ cfg.node &&
        request.payload.actor = some request.actor && request.payload.target = cfg.node &&
        request.payload.nonce = request.nonce &&
        cfg.crypto.valid entry.publicKey request.signature (.request request.payload)

/-- The task that follows a refusal: only a terminal one backs the obligation off. -/
def afterRefusal (code : ErrorCode) (node : NodeId) (nonce : String) : List Task :=
  if terminalRefusal code then [.park node nonce] else []

/-- The task that follows the own identity in a redrive pass. -/
def afterOwn (own : Fingerprint) : Task :=
  match owed.kind with
  | .rotation => .redriveWindow owed entry own
  | .approval => if owed.fingerprint ≠ own then .redriveDelete .stale owed else .redriveDue owed entry

/-- The tasks that follow the window in a redrive pass.  While this process is the one swapping, the
host hook is slow and the pass waits; otherwise the swap never completed. -/
def afterWindow (window : Option RotationWindow) (rotating : Bool) (owed : TrustOutbound)
    (entry : TrustEntry) (own : Fingerprint) : List Task :=
  match window with
  | none => [.redriveDelete .orphan owed]
  | some open_ =>
    if own ≠ open_.newFingerprint then (if rotating then [] else [.redriveAbandon])
    else [.redriveDue owed entry]

/-- The tasks that follow the back-off mark in a redrive pass. -/
def afterDue : List Task :=
  match owed.blocked with
  | none => [.redriveRetry owed entry]
  | some until_ => if now < until_ then [] else [.redriveUnblock owed entry]

/-- One step of a task that was taken off the list of calls in flight. -/
def resume : Task → Input → Option (Node × List Packet)
  | _, .lost => some (n, [])
  | .request peer own, .id id =>
    match requestTx n.store n.now peer own id with
    | .error _ => some (n, [])
    | .ok (commit, store) =>
      let sends := if commit.fresh && !commit.rotating then [.send peer true id none] else []
      some ({ n with store := store }.spawn sends, [])
  | .send peer approved nonce old, .go =>
    some (n.spawn [.await peer nonce],
      [.statement (statement cfg n peer approved nonce none old)])
  | .send peer _ nonce _, .refused code => some (n.spawn (afterRefusal code peer.nodeId nonce), [])
  | .await peer nonce, .refused code => some (n.spawn (afterRefusal code peer.nodeId nonce), [])
  | .await peer nonce, .answer value =>
    if value.nodeId ≠ peer.nodeId || value.publicKey ≠ peer.publicKey
        || value.replyNonce ≠ some nonce then some (n, [])
    else
      match receiveChecks cfg n value with
      | .error error => some (n.spawn (afterRefusal error.code peer.nodeId nonce), [])
      | .ok seeded => some (n.spawn [.receiveReply value seeded nonce], [])
  | .receiveReply value seeded nonce, .go =>
    match receiveTx cfg.crypto n.store n.now value seeded with
    | .error error => some (n.spawn (afterRefusal error.code value.nodeId nonce), [])
    | .ok (_, store) => some ({ n with store := store }.spawn [.settle value.nodeId nonce], [])
  | .settle node nonce, .go => some ({ n with store := settle n.store node nonce }, [])
  | .park node nonce, .go => some ({ n with store := park n.store n.now node nonce }, [])
  | .receive value seeded, .go =>
    match receiveTx cfg.crypto n.store n.now value seeded with
    | .error _ => some (n, [])
    | .ok (entry, store) =>
      some ({ n with store := store }.spawn [.introduced entry value.nonce], [])
  | .introduced entry nonce, .id id =>
    -- While the own rotation is unacknowledged, every statement carries the old-key proof.
    let old := (n.store.outbound.get entry.nodeId).bind TrustOutbound.previous
    some (n, [.reply (statement cfg n entry.identity entry.localApproved id (some nonce) old)])
  | .authenticate actor nonce timestamp, .go =>
    match authenticateTx n.store n.now actor nonce timestamp with
    | .error _ => some (n, [])
    | .ok store => some ({ n with store := store }, [])
  | .redrive owed, .go =>
    match n.store.trust.get owed.nodeId with
    | none => some (n.spawn [.redriveDelete .gone owed], [])
    | some entry =>
      if entry.state = .revoked then some (n.spawn [.redriveDelete .gone owed], [])
      else some (n.spawn [.redriveOwn owed entry], [])
  | .redriveOwn owed entry, .go => some (n.spawn [afterOwn owed entry (n.fingerprint cfg)], [])
  | .redriveWindow owed entry own, .go =>
    some (n.spawn (afterWindow n.store.rotation n.rotating owed entry own), [])
  | .redriveDelete reason owed, .go =>
    let (deleted, store) := compareObligation n.store owed none
    let closes := deleted && reason = .gone && owed.kind = .rotation
    some ({ n with store := store }.spawn (if closes then [.redriveClose] else []), [])
  | .redriveClose, .go => some ({ n with store := closeWindow n.store }, [])
  | .redriveAbandon, .go => some ({ n with store := abandonRotation n.store }, [])
  | .redriveDue owed entry, .go => some (n.spawn (afterDue n.now owed entry), [])
  | .redriveUnblock owed entry, .go =>
    let rest := { owed with blocked := none }
    let (written, store) := compareObligation n.store owed (some rest)
    some ({ n with store := store }.spawn (if written then [.redriveRetry rest entry] else []), [])
  | .redriveRetry owed entry, .live live =>
    if n.now - owed.lastAt < exchangeRetryMs then some (n, [])
    else if inspected cfg entry.nodeId live then
      some (n.spawn [.redriveRewrite owed entry live], [])
    else some (n, [])
  | .redriveRewrite owed entry live, .id id =>
    let next := { owed with nonce := id, lastAt := n.now }
    let (written, store) := compareObligation n.store owed (some next)
    let sends := if written then [.send live entry.localApproved id owed.previous] else []
    some ({ n with store := store }.spawn sends, [])
  | .rotateList previous next, .go =>
    some (n.spawn [.rotateCommit previous next (rotationPeers n.store)], [])
  | .rotateCommit previous next peers, .ids ids =>
    let fingerprint := cfg.crypto.fingerprint (cfg.crypto.publicKey next)
    if ids.length ≠ peers.length then none
    else
      match rotateTx n.store n.now previous fingerprint (peers.zip ids) with
      | .error _ => some (n, [])
      | .ok store =>
        some ({ n with store := store }.spawn [.rotateStart previous next peers], [])
  | .rotateStart previous next peers, .go =>
    some ({ n with rotating := true }.spawn [.rotateReplace previous next peers], [])
  | .rotateReplace previous next peers, .replaced swapped returned =>
    let key := if swapped then next else n.own
    let sends := if returned then peers.map (Task.rotateSend previous) else []
    some ({ n with own := key, rotating := false }.spawn sends, [])
  | .rotateSend previous peer, .live live =>
    match n.store.outbound.get peer.nodeId with
    | none => some (n, [])
    | some owed =>
      if inspected cfg peer.nodeId live then
        some (n.spawn [.send live peer.localApproved owed.nonce (some previous)], [])
      else some (n, [])
  | _, _ => none

/-- One act of the node, with what it puts on the network. -/
def act : Act → Option (Node × List Packet)
  | .clock now => some ({ n with now := now }, [])
  | .loadSeeds seeds => some ({ n with seeds := seeds }, [])
  | .crash => some ({ n with tasks := [], rotating := false }, [])
  | .request node fingerprint live =>
    if inspected cfg node live && live.fingerprint = fingerprint then
      some (n.spawn [.request live (n.fingerprint cfg)], [])
    else none
  | .introduce value =>
    match receiveChecks cfg n value with
    | .error _ => none
    | .ok seeded => some (n.spawn [.receive value seeded], [])
  | .authenticate request =>
    if authenticateChecks cfg n request then
      some (n.spawn [.authenticate request.actor request.nonce request.timestamp], [])
    else none
  | .revoke node => some ({ n with store := revokeTx n.store node }, [])
  | .redrive => some (n.spawn (n.store.outbound.rows.map fun row => .redrive row.2), [])
  | .rotate next =>
    if n.tasks.any Task.inRotate || n.store.rotation.isSome then none
    else some (n.spawn [.rotateList n.own next], [])
  | .advance task input =>
    if task ∈ n.tasks then resume cfg { n with tasks := n.tasks.erase task } task input else none

def step (a : Act) : Option Node := (act cfg n a).map Prod.fst

end

def Node.init (own : PrivateKey) (seeds : List TrustSeed) (now : Int) : Node :=
  { own := own, seeds := seeds, now := now }

/-! ## A configuration for scenarios

A signature scheme in which a key is its own public key and a signature names the key and the signed
transcript.  The scenarios that refute a law run on it. -/

namespace Scenario

def transcript : Payload → String
  | .statement body => body.nodeId ++ ">" ++ body.target ++ ":" ++ body.publicKey ++ ":" ++ body.nonce
  | .request request => request.path ++ ":" ++ request.nonce

def crypto : Crypto where
  publicKey key := key
  validKey _ := true
  sign key payload := key ++ "|" ++ transcript payload
  valid key signature payload := signature = key ++ "|" ++ transcript payload
  fingerprint key := "fp-" ++ key

/-- The node `name`, reachable under a URL of its own. -/
def config (name : NodeId) : Config where
  node := name
  baseUrl := "https://" ++ name
  address _ := true
  crypto := crypto

/-- The published identity of the node `name` while it uses `key`. -/
def identity (name : NodeId) (key : PrivateKey) : KeyIdentity := ⟨name, key, "fp-" ++ key⟩

/-- What `sender`, using `key`, states to `target`, whose key is `targetKey`. -/
def stated (sender : NodeId) (key : PrivateKey) (target : NodeId) (targetKey : PrivateKey)
    (approved : Bool) (nonce : String) (timestamp : Int) (replyTo : Option String := none)
    (old : Option PrivateKey := none) : TrustStatement :=
  statement (config sender) { own := key, now := timestamp } (identity target targetKey) approved
    nonce replyTo old

end Scenario

end Onlyne.Trust
