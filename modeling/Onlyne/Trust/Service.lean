import Onlyne.Trust.Types

/-!
# Trust: the transactions

Every storage transaction of `TrustService` (`keys.ts`) as a function on the stored rows.  A
transaction that throws rolls back, so a fallible one is an `Except`: an error stands for the rows
it found.  The reads a call makes outside its transactions, and the order in which transactions of
concurrent calls interleave, are in `Onlyne.Trust.Node`.

Clock readings are epoch milliseconds.  All `ctx.now()` calls of one transaction read one value.
-/

namespace Onlyne.Trust

open Foundation

def fingerprintDetails (fingerprint : Fingerprint) : Json :=
  .object [("fingerprint", .string fingerprint)]

/-- `terminalRefusal`: the refusals after which the same statement is only tried again late. -/
def terminalRefusal (code : ErrorCode) : Bool := code = .forbidden || code = .idConflict

def trustedRow (entry : Option TrustEntry) : Bool :=
  match entry with
  | none => false
  | some row => row.state = .trusted

def revokedRow (entry : Option TrustEntry) : Bool :=
  match entry with
  | none => false
  | some row => row.state = .revoked

/-! ## Nonces -/

section

variable (before : Option TrustEntry) (tx : TrustStore) (node : NodeId) (peer : KeyIdentity) (now : Int)

def liveNonces : Table (NodeId × String) Int :=
  tx.nonce.deleteWhere fun _ stored => stored < now - clockSkewMs

/-- `consumeNonce`: refuse a stored nonce, purge the rows older than the skew, store this one. -/
def consumeNonce (actor : NodeId) (nonce : String) (timestamp : Int) : Except Failure TrustStore :=
  match tx.nonce.get (actor, nonce) with
  | some _ => .error (onlyneError .unauthenticated "This nonce was already used.")
  | none => .ok { tx with nonce := (liveNonces tx now).put (actor, nonce) timestamp }

def exchangeNonce (nonce : String) : String := "exchange:" ++ nonce

/-- The transaction of `authenticate`: the caller is still trusted and its nonce is new. -/
def authenticateTx (actor : NodeId) (nonce : String) (timestamp : Int) : Except Failure TrustStore :=
  if trustedRow (tx.trust.get actor) then consumeNonce tx now actor nonce timestamp
  else .error (onlyneError .unauthenticated "The caller was revoked.")

/-! ## Local approval -/

/-- What the transaction of `request` decides. -/
structure RequestCommit where
  before : Option TrustEntry
  entry : TrustEntry
  fresh : Bool
  rotating : Bool

/-- Mutual approval is already known locally: a trusted row of this key, or a pending one that
records the peer's approval. -/
def mutualApproval : Bool :=
  match before with
  | none => false
  | some row => row.publicKey = peer.publicKey &&
      (row.state = .trusted || (row.state = .pending && row.remoteApproved))

def requestEntry : TrustEntry where
  nodeId := peer.nodeId
  publicKey := peer.publicKey
  fingerprint := peer.fingerprint
  state := if mutualApproval before peer then .trusted else .pending
  baseUrl := (before.map TrustEntry.baseUrl).getD ""
  localApproved := true
  remoteApproved := (before.map TrustEntry.remoteApproved).getD false
  firstSeen := (before.map TrustEntry.firstSeen).getD now
  lastChecked := now

def pinnedElsewhere : Bool :=
  match before with
  | none => false
  | some row => row.publicKey ≠ peer.publicKey && row.state ≠ .revoked

def approvalObligation (peer : KeyIdentity) (own : Fingerprint) (id : String) : TrustOutbound :=
  { nodeId := peer.nodeId, kind := .approval, nonce := id, fingerprint := own, lastAt := now }

/-- An unacknowledged rotation owns the delivery to `node`. -/
def rotatingTo : Bool :=
  match tx.outbound.get node with
  | none => false
  | some owed => owed.kind = .rotation

/-- An approval that owes a statement: anything but the refresh of an established row. -/
def freshApproval : Bool :=
  match before with
  | none => true
  | some row => row.state ≠ .trusted || !row.localApproved || row.publicKey ≠ peer.publicKey

/-- The transaction of `request`.  `own` is this node's fingerprint and `id` the nonce, both taken
before the transaction opened. -/
def requestTx (peer : KeyIdentity) (own : Fingerprint) (id : String) :
    Except Failure (RequestCommit × TrustStore) :=
  let before := tx.trust.get peer.nodeId
  if pinnedElsewhere before peer then
    .error (onlyneError .idConflict "A different peer key is already pinned.")
  else
    let entry := requestEntry before peer now
    let fresh := freshApproval before peer
    let rotating := rotatingTo tx peer.nodeId
    let stored := { tx with trust := tx.trust.put peer.nodeId entry }
    let owed := { stored with
      outbound := tx.outbound.put peer.nodeId (approvalObligation now peer own id) }
    .ok (⟨before, entry, fresh, rotating⟩, if fresh && !rotating then owed else stored)

/-! ## Received statements -/

/-- The row a received statement writes over `previous`. -/
def receiveEntry (previous : Option TrustEntry) (value : TrustStatement) (fingerprint : Fingerprint)
    (seeded : Bool) (now : Int) : TrustEntry :=
  -- A proven rotation keeps this node's approval.
  let approved := seeded || (previous.map TrustEntry.localApproved).getD false
  { nodeId := value.nodeId
    publicKey := value.publicKey
    fingerprint := fingerprint
    state := if approved && value.approved then .trusted else .pending
    localApproved := approved
    remoteApproved := value.approved
    baseUrl := value.baseUrl
    firstSeen := (previous.map TrustEntry.firstSeen).getD now
    lastChecked := now
    history := match previous with
      | none => none
      | some row =>
        if row.publicKey ≠ value.publicKey then some (row.previousKeys ++ [row.fingerprint])
        else row.history }

/-- The old-key proof of a statement verifies under `key`. -/
def provenBy (crypto : Crypto) (key : PublicKey) (value : TrustStatement) : Bool :=
  match value.previousSignature with
  | none => false
  | some signature => crypto.valid key signature (.statement value.toStatementBody)

def unprovenChange (crypto : Crypto) (previous : Option TrustEntry) (value : TrustStatement) : Bool :=
  match previous with
  | none => false
  | some row => row.publicKey ≠ value.publicKey && !provenBy crypto row.publicKey value

/-- Drop the back-off mark of the obligation towards `node`. -/
def unblock : TrustStore :=
  match tx.outbound.get node with
  | none => tx
  | some owed =>
    if owed.blocked.isSome then
      { tx with outbound := tx.outbound.put node { owed with blocked := none } }
    else tx

/-- The transaction of `receive`. -/
def receiveTx (crypto : Crypto) (tx : TrustStore) (now : Int) (value : TrustStatement)
    (seeded : Bool) : Except Failure (TrustEntry × TrustStore) := do
  let fingerprint := crypto.fingerprint value.publicKey
  let tx ← consumeNonce tx now value.nodeId (exchangeNonce value.nonce) value.timestamp
  let previous := tx.trust.get value.nodeId
  if revokedRow previous then
    .error (onlyneError .forbidden "This peer was revoked. Local approval is required.")
  else if previous.isNone && !value.approved then
    .error (onlyneError .invalidRequest
      "A first statement must carry the peer approval it claims.")
  else if unprovenChange crypto previous value then
    .error (onlyneError .idConflict
      "The peer key changed without proof from the previous key; revoke this peer and confirm again."
      (some (fingerprintDetails fingerprint)))
  else
    let entry := receiveEntry previous value fingerprint seeded now
    -- The peer spoke: whatever parked this node's own obligation may no longer hold.
    .ok (entry, unblock { tx with trust := tx.trust.put value.nodeId entry } value.nodeId)

/-! ## Obligations -/

def rotationOwed : Bool := tx.outbound.rows.any fun row => row.2.kind = .rotation

/-- `closeWindow`: the window closes when its last statement is gone. -/
def closeWindow : TrustStore :=
  if rotationOwed tx then tx else { tx with rotation := none }

/-- Delete the obligation towards `node`, closing the window after a rotation one. -/
def dropObligation (owed : TrustOutbound) : TrustStore :=
  let dropped := { tx with outbound := tx.outbound.delete node }
  if owed.kind = .rotation then closeWindow dropped else dropped

/-- `settle`: clear the obligation an answered attempt created. -/
def settle (nonce : String) : TrustStore :=
  match tx.outbound.get node with
  | none => tx
  | some owed => if owed.nonce ≠ nonce then tx else dropObligation tx node owed

/-- `park`: back off an obligation after a refusal. -/
def park (node : NodeId) (nonce : String) : TrustStore :=
  match tx.outbound.get node with
  | none => tx
  | some owed =>
    if owed.nonce = nonce then
      { tx with outbound := tx.outbound.put node { owed with blocked := some (now + refusedRetryMs) } }
    else tx

/-- The row towards the peer of `expected` is still the attempt `expected`. -/
def stillOwed (expected : TrustOutbound) : Bool :=
  match tx.outbound.get expected.nodeId with
  | none => false
  | some current => current.nonce = expected.nonce && current.kind = expected.kind

/-- `compareObligation`: rewrite (`some`) or delete (`none`) one obligation, only if the row is
still the attempt the caller read. -/
def compareObligation (expected : TrustOutbound) (next : Option TrustOutbound) : Bool × TrustStore :=
  if stillOwed tx expected then
    match next with
    | none => (true, { tx with outbound := tx.outbound.delete expected.nodeId })
    | some row => (true, { tx with outbound := tx.outbound.put expected.nodeId row })
  else (false, tx)

/-- `abandonRotation`: drop the window and every statement prepared under it. -/
def abandonRotation : TrustStore :=
  { tx with
    rotation := none
    outbound := tx.outbound.deleteWhere fun _ row => row.kind = .rotation }

def revokedEntry (row : TrustEntry) : TrustEntry :=
  { row with state := .revoked, publicKey := "", localApproved := false, remoteApproved := false }

def markRevoked : TrustStore :=
  match tx.trust.get node with
  | none => tx
  | some row => { tx with trust := tx.trust.put node (revokedEntry row) }

/-- The transaction of `revoke`: a revoked peer owes nothing. -/
def revokeTx : TrustStore :=
  match tx.outbound.get node with
  | none => markRevoked tx node
  | some owed => dropObligation (markRevoked tx node) node owed

/-! ## Rotation -/

/-- The peers a rotation owes its statement: every relation where this node's key may be pinned. -/
def rotationPeers : List TrustEntry :=
  (tx.trust.rows.map Prod.snd).filter fun row =>
    row.state ≠ .revoked && (row.localApproved || row.remoteApproved)

def rotationObligation (previous : PrivateKey) (fingerprint : Fingerprint)
    (peer : TrustEntry) (id : String) : TrustOutbound :=
  { nodeId := peer.nodeId, kind := .rotation, nonce := id, fingerprint := fingerprint
    lastAt := now, previous := some previous }

/-- The transaction of `rotate`: every obligation and the window, or nothing for no peer.  Each
peer comes with the nonce drawn for it. -/
def rotateTx (previous : PrivateKey) (fingerprint : Fingerprint)
    (peers : List (TrustEntry × String)) : Except Failure TrustStore :=
  if tx.rotation.isSome then
    .error (onlyneError .conflict
      "A rotation is still unacknowledged; a second swap would skip the proof a peer needs.")
  else if peers.isEmpty then .ok tx
  else
    let owe := fun (rows : Table NodeId TrustOutbound) (peer : TrustEntry × String) =>
      rows.put peer.1.nodeId (rotationObligation now previous fingerprint peer.1 peer.2)
    .ok { tx with
      outbound := peers.foldl owe tx.outbound
      rotation := some ⟨fingerprint, now⟩ }

end

/-! ## What each transaction commits -/

variable {s s' : TrustStore} {now timestamp : Int} {peer : KeyIdentity} {actor : NodeId}

theorem consumeNonce_ok {nonce : String}
    (h : consumeNonce s now actor nonce timestamp = .ok s') : s.nonce.get (actor, nonce) = none ∧
      s' = { s with nonce := (liveNonces s now).put (actor, nonce) timestamp } := by
  unfold consumeNonce at h
  split at h
  · cases h
  · next hfree =>
    cases h
    exact ⟨hfree, rfl⟩

theorem authenticateTx_ok {nonce : String} (h : authenticateTx s now actor nonce timestamp = .ok s') :
    trustedRow (s.trust.get actor) = true ∧ consumeNonce s now actor nonce timestamp = .ok s' := by
  unfold authenticateTx at h
  split at h
  · next htr => exact ⟨htr, h⟩
  · cases h

theorem requestTx_ok {own : Fingerprint} {id : String} {commit : RequestCommit}
    (h : requestTx s now peer own id = .ok (commit, s')) : pinnedElsewhere (s.trust.get peer.nodeId) peer = false ∧
      commit.fresh = freshApproval (s.trust.get peer.nodeId) peer ∧ commit.rotating = rotatingTo s peer.nodeId ∧
      s'.trust = s.trust.put peer.nodeId (requestEntry (s.trust.get peer.nodeId) peer now) ∧
      s'.outbound = (if commit.fresh && !commit.rotating then
        s.outbound.put peer.nodeId (approvalObligation now peer own id) else s.outbound) ∧
      s'.rotation = s.rotation ∧ s'.nonce = s.nonce := by
  unfold requestTx at h
  dsimp only at h
  split at h
  · cases h
  · next hpin =>
    cases h
    refine ⟨by simpa using hpin, rfl, rfl, ?_⟩
    split_ifs <;> exact ⟨rfl, rfl, rfl, rfl⟩

/-- When `request` commits. -/
theorem requestTx_eq_ok (now : Int) (own : Fingerprint) (id : String)
    (hpin : pinnedElsewhere (s.trust.get peer.nodeId) peer = false) :
    ∃ commit s', requestTx s now peer own id = .ok (commit, s') := by
  simp [requestTx, hpin]

/-- What a committed `receive` found, and the rows it leaves. -/
theorem receiveTx_ok {crypto : Crypto} {value : TrustStatement} {seeded : Bool} {entry : TrustEntry}
    (h : receiveTx crypto s now value seeded = .ok (entry, s')) : revokedRow (s.trust.get value.nodeId) = false ∧
      ((s.trust.get value.nodeId).isNone = true → value.approved = true) ∧
      unprovenChange crypto (s.trust.get value.nodeId) value = false ∧
      entry = receiveEntry (s.trust.get value.nodeId) value (crypto.fingerprint value.publicKey) seeded now ∧
      ∃ m, consumeNonce s now value.nodeId (exchangeNonce value.nonce) value.timestamp = .ok m ∧
        s' = unblock { m with trust := s.trust.put value.nodeId entry } value.nodeId := by
  unfold receiveTx at h
  cases hm : consumeNonce s now value.nodeId (exchangeNonce value.nonce) value.timestamp with
  | error =>
    rw [hm] at h
    cases h
  | ok m =>
    have htr : m.trust = s.trust := by
      rw [(consumeNonce_ok hm).2]
    rw [hm] at h
    simp only [bind, Except.bind, htr] at h
    split_ifs at h with hrev hfst hchg
    cases h
    refine ⟨by simpa using hrev, ?_, by simpa using hchg, rfl, m, rfl, rfl⟩
    intro hnone
    simpa [hnone] using hfst

theorem rotateTx_ok {previous : PrivateKey} {fingerprint : Fingerprint}
    {peers : List (TrustEntry × String)} (h : rotateTx s now previous fingerprint peers = .ok s') :
    s.rotation = none ∧ (peers = [] ∧ s' = s ∨ peers ≠ [] ∧ s' = { s with
        outbound := peers.foldl (fun rows peer => rows.put peer.1.nodeId
          (rotationObligation now previous fingerprint peer.1 peer.2)) s.outbound
        rotation := some ⟨fingerprint, now⟩ }) := by
  unfold rotateTx at h
  split_ifs at h with hopen hnil
  · cases h
    exact ⟨by simpa using hopen, .inl ⟨by simpa using hnil, rfl⟩⟩
  · cases h
    exact ⟨by simpa using hopen, .inr ⟨by simpa using hnil, rfl⟩⟩

/-! ## The tables a transaction leaves alone -/

variable (s : TrustStore) (now : Int) (expected : TrustOutbound) (node : NodeId) (owed : TrustOutbound)
  (next : Option TrustOutbound) (nonce : String)

@[simp] theorem unblock_trust : (unblock s node).trust = s.trust := by
  unfold unblock
  split
  · rfl
  · split_ifs <;> rfl

@[simp] theorem unblock_nonce : (unblock s node).nonce = s.nonce := by
  unfold unblock
  split
  · rfl
  · split_ifs <;> rfl

@[simp] theorem closeWindow_trust : (closeWindow s).trust = s.trust := by
  unfold closeWindow
  split_ifs <;> rfl

@[simp] theorem closeWindow_nonce : (closeWindow s).nonce = s.nonce := by
  unfold closeWindow
  split_ifs <;> rfl

@[simp] theorem closeWindow_outbound : (closeWindow s).outbound = s.outbound := by
  unfold closeWindow
  split_ifs <;> rfl

@[simp] theorem dropObligation_trust : (dropObligation s node owed).trust = s.trust := by
  unfold dropObligation
  split_ifs <;> simp

@[simp] theorem dropObligation_nonce : (dropObligation s node owed).nonce = s.nonce := by
  unfold dropObligation
  split_ifs <;> simp

@[simp] theorem dropObligation_outbound : (dropObligation s node owed).outbound = s.outbound.delete node := by
  unfold dropObligation
  split_ifs <;> simp

@[simp] theorem settle_trust : (settle s node nonce).trust = s.trust := by
  unfold settle
  split
  · rfl
  · split_ifs <;> simp

@[simp] theorem settle_nonce : (settle s node nonce).nonce = s.nonce := by
  unfold settle
  split
  · rfl
  · split_ifs <;> simp

@[simp] theorem park_trust : (park s now node nonce).trust = s.trust := by
  unfold park
  split
  · rfl
  · split_ifs <;> rfl

@[simp] theorem park_nonce : (park s now node nonce).nonce = s.nonce := by
  unfold park
  split
  · rfl
  · split_ifs <;> rfl

@[simp] theorem compareObligation_trust : (compareObligation s expected next).2.trust = s.trust := by
  unfold compareObligation
  split_ifs
  · cases next <;> rfl
  · rfl

@[simp] theorem compareObligation_nonce : (compareObligation s expected next).2.nonce = s.nonce := by
  unfold compareObligation
  split_ifs
  · cases next <;> rfl
  · rfl

@[simp] theorem compareObligation_rotation : (compareObligation s expected next).2.rotation = s.rotation := by
  unfold compareObligation
  split_ifs
  · cases next <;> rfl
  · rfl

@[simp] theorem abandonRotation_trust : (abandonRotation s).trust = s.trust := rfl

@[simp] theorem abandonRotation_nonce : (abandonRotation s).nonce = s.nonce := rfl

@[simp] theorem markRevoked_outbound : (markRevoked s node).outbound = s.outbound := by
  unfold markRevoked
  split <;> rfl

@[simp] theorem markRevoked_nonce : (markRevoked s node).nonce = s.nonce := by
  unfold markRevoked
  split <;> rfl

@[simp] theorem markRevoked_rotation : (markRevoked s node).rotation = s.rotation := by
  unfold markRevoked
  split <;> rfl

@[simp] theorem revokeTx_trust : (revokeTx s node).trust = (markRevoked s node).trust := by
  unfold revokeTx
  split
  · rfl
  · simp

@[simp] theorem revokeTx_nonce : (revokeTx s node).nonce = s.nonce := by
  unfold revokeTx
  split <;> simp

end Onlyne.Trust
