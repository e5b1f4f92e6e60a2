import Onlyne.Foundation.Table
import Onlyne.Core.Error

/-!
# Trust: rows, statements and keys

The data of the trust service (`keys.ts`, RFC 0017): the trust rows, the delivery obligations, the
rotation window and the consumed nonces one node stores, and the signed statements two nodes
exchange.

Keys and signatures are texts, as on the wire.  The signature scheme is the parameter `Crypto`:
nothing below depends on how a signature is computed, only on what `valid` accepts.
-/

namespace Onlyne.Trust

open Foundation

abbrev PublicKey := String

abbrev PrivateKey := String

abbrev Signature := String

/-- The first 16 hexadecimal digits of the SHA-256 of a public key. -/
abbrev Fingerprint := String

/-- `CLOCK_SKEW_MS` -/
def clockSkewMs : Int := 300000

/-- `EXCHANGE_RETRY_MS`: how long a failed exchange send waits before it is tried again. -/
def exchangeRetryMs : Int := 60000

/-- `REFUSED_RETRY_MS`: how long a refused statement waits before it is tried again. -/
def refusedRetryMs : Int := 600000

/-! ## Identities and rows -/

structure KeyIdentity where
  nodeId : NodeId
  publicKey : PublicKey
  fingerprint : Fingerprint
  deriving DecidableEq, Repr

structure TrustSeed where
  nodeId : NodeId
  fingerprint : Fingerprint
  deriving DecidableEq, Repr

inductive TrustState where
  | pending
  | trusted
  | revoked
  deriving DecidableEq, Repr

/-- One trust-table row: a peer's verified public key and the exchange state. -/
structure TrustEntry where
  nodeId : NodeId
  publicKey : PublicKey
  fingerprint : Fingerprint
  state : TrustState
  firstSeen : Int
  lastChecked : Int
  localApproved : Bool
  remoteApproved : Bool
  baseUrl : String
  history : Option (List Fingerprint) := none
  deriving DecidableEq, Repr

def TrustEntry.identity (entry : TrustEntry) : KeyIdentity :=
  ⟨entry.nodeId, entry.publicKey, entry.fingerprint⟩

/-- The fingerprints a row remembers from before its peer's rotations. -/
def TrustEntry.previousKeys (entry : TrustEntry) : List Fingerprint := entry.history.getD []

inductive TrustPhase where
  | invited
  | requested
  | exchanged
  | revoked
  deriving DecidableEq, Repr

/-- `trustPhase`: the stage derived from the approval halves. -/
def trustPhase (entry : TrustEntry) : TrustPhase :=
  if entry.state = .revoked then .revoked
  else if entry.localApproved && entry.remoteApproved then .exchanged
  else if entry.localApproved then .requested else .invited

/-! ## Obligations -/

/-- Whether an obligation carries the current approval or the old-key proof of a rotation. -/
inductive OutboundKind where
  | approval
  | rotation
  deriving DecidableEq, Repr

structure TrustOutbound where
  nodeId : NodeId
  kind : OutboundKind
  -- The nonce of this attempt; the peer's reply must echo it.
  nonce : String
  -- This node's fingerprint when the obligation was created.
  fingerprint : Fingerprint
  -- The last send attempt.
  lastAt : Int
  -- Rotation only: the previous private key.
  previous : Option PrivateKey := none
  -- When the next attempt is allowed, after a refusal.
  blocked : Option Int := none
  deriving DecidableEq, Repr

/-- The row `security/rotation`. -/
structure RotationWindow where
  newFingerprint : Fingerprint
  lastAt : Int
  deriving DecidableEq, Repr

/-! ## Statements and signatures -/

/-- The signed part of a statement: every field but the two signatures. -/
structure StatementBody where
  nodeId : NodeId
  target : NodeId
  publicKey : PublicKey
  targetFingerprint : Fingerprint
  baseUrl : String
  approved : Bool
  nonce : String
  timestamp : Int
  replyNonce : Option String := none
  deriving DecidableEq, Repr

structure TrustStatement extends StatementBody where
  signature : Signature
  previousSignature : Option Signature := none
  deriving DecidableEq, Repr

structure RequestPayload where
  actor : Option NodeId
  target : NodeId
  method : String
  path : String
  digest : String
  timestamp : String
  nonce : String
  contentType : Option String := none
  idempotencyKey : Option String := none
  retryUntil : Option String := none
  lastEventId : Option String := none
  deriving DecidableEq, Repr

inductive Payload where
  | statement (body : StatementBody)
  | request (request : RequestPayload)
  deriving DecidableEq, Repr

/-- The signature scheme and the key fingerprint, as the library calls them. -/
structure Crypto where
  -- The public key of a private key.
  publicKey : PrivateKey → PublicKey
  -- `publicKey(encoded)` accepts the text as an Ed25519 key.
  validKey : PublicKey → Bool
  sign : PrivateKey → Payload → Signature
  -- `signatureValid`
  valid : PublicKey → Signature → Payload → Bool
  -- `keyFingerprint`
  fingerprint : PublicKey → Fingerprint

structure Config where
  node : NodeId
  baseUrl : String
  -- `address` accepts the text as a node service URL.
  address : String → Bool
  crypto : Crypto

/-! ## The stored rows -/

/-- The rows of the trust service: `trust/`, `trust-outbound/`, `security/rotation`, `nonce/`. -/
structure TrustStore where
  trust : Table NodeId TrustEntry := ∅
  outbound : Table NodeId TrustOutbound := ∅
  rotation : Option RotationWindow := none
  nonce : Table (NodeId × String) Int := ∅

end Onlyne.Trust
