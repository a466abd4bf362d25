import RezSdk.L1Records.Basic

/-!
# The peer-link lifecycle and the stored records

The states and the transition table of PeerLinkStateMachine.js, and the
records that the stores of createKeyValueBackedPeerLinkStorage.js and
PeerLinkService.js keep. `Snap` is a ratchet snapshot as `exportSnapshot()`
returns it; the code never looks inside one.
-/
namespace RezSdk.L1

/-- mirrors src/peer-link/PeerLinkStateMachine.js:14-23 -/
inductive PeerLinkState
  | inviteIssued
  | acceptCommitted
  | handshakeSent
  | handshakeReceived
  | sessionEstablished
  | degraded
  | rejected
  | failed
deriving DecidableEq

def PeerLinkState.text : PeerLinkState → String
  | .inviteIssued => "invite_issued"
  | .acceptCommitted => "accept_committed"
  | .handshakeSent => "handshake_sent"
  | .handshakeReceived => "handshake_received"
  | .sessionEstablished => "session_established"
  | .degraded => "degraded"
  | .rejected => "rejected"
  | .failed => "failed"

/-- The statuses a stored session can have. `pending` is every status that is
not usable (a blank one is read as "pending").
mirrors src/peer-link/PeerLinkStateMachine.js:26-40 -/
inductive SessionStatus
  | pendingRemoteConfirm
  | active
  | ready
  | established
  | pending
deriving DecidableEq

/-- mirrors src/peer-link/PeerLinkStateMachine.js:44-48 -/
def isSessionUsable : SessionStatus → Bool
  | .pending => false
  | _ => true

/-- mirrors src/peer-link/PeerLinkStateMachine.js:60-69 -/
def transitions : PeerLinkState → List PeerLinkState
  | .inviteIssued => [.acceptCommitted, .rejected, .failed]
  | .acceptCommitted => [.handshakeSent, .sessionEstablished, .degraded, .rejected, .failed]
  | .handshakeSent => [.sessionEstablished, .degraded, .rejected, .failed]
  | .handshakeReceived => [.sessionEstablished, .failed]
  | .sessionEstablished => [.sessionEstablished, .acceptCommitted, .degraded, .failed]
  | .degraded => [.acceptCommitted, .sessionEstablished, .rejected, .failed]
  | .rejected => [.acceptCommitted]
  | .failed => [.acceptCommitted]

/-- mirrors src/peer-link/PeerLinkStateMachine.js:76-88 -/
def checkTransition (fromState toState : PeerLinkState) : Bool :=
  fromState = toState || toState ∈ transitions fromState

/-- The error `assertTransition` throws in strict mode.
mirrors src/peer-link/PeerLinkStateMachine.js:96-109 -/
def illegalTransition (fromState toState : PeerLinkState) : Err :=
  .coded "PEER_LINK_ILLEGAL_TRANSITION"
    ("Illegal peer-link transition: " ++ fromState.text ++ " -> " ++ toState.text)

structure PeerLinkRecord where
  peerLinkId : Id
  localAccountId : Id
  peerAccountId : Id
  remoteIdentitySigningPublicKeyB64 : Option Id
  remoteIdentityDhPublicKeyB64 : Option Id
  remoteAccountIdentityPublicKeyB64 : Option Id
  state : PeerLinkState
  activeInviteId : Option Id
  activeSessionId : Option Id
  peerInboxId : Option Id
  relationshipReplicated : Bool
  lastStateChangeAtMs : Nat
  lastErrorCode : Option String
  lastErrorMessage : Option String
  version : Nat
deriving DecidableEq

structure SessionRecord (Snap : Type) where
  sessionId : Id
  peerLinkId : Id
  localAccountId : Id
  peerAccountId : Id
  peerDeviceId : Option Id
  status : SessionStatus
  ratchetSnapshot : Snap
  createdAtMs : Nat
  updatedAtMs : Nat
  version : Nat
deriving DecidableEq

inductive Direction | initiator | responder
deriving DecidableEq

inductive AttemptStatus | pending | sent | failed | completed | rejected
deriving DecidableEq

structure HandshakeAttemptRecord where
  handshakeAttemptId : Id
  peerLinkId : Id
  ownerAccountId : Id
  direction : Direction
  status : AttemptStatus
  inviteId : Id
  sessionId : Option Id
  packetMessageId : Option String
  lastTriedAtMs : Nat
  retryCount : Nat
  lastErrorCode : Option String
  lastErrorMessage : Option String
  version : Nat
deriving DecidableEq

inductive EventType
  | inviteAcceptIdempotent
  | inviteAccepted
  | handshakePending
  | handshakeSent
  | handshakeFailed
  | handshakeReceived
  | handshakeAckReceived
  | handshakeRejected
  | handshakeExpired
  | sessionEstablished
deriving DecidableEq

structure EventRecord where
  ownerAccountId : Id
  eventId : Id
  peerLinkId : Id
  type : EventType
  atMs : Nat
  summary : Option String
  details : List (String × Option String)
deriving DecidableEq

/-! ## Invites -/

/-- The `x3dh` part of an invite binding. -/
structure X3dhBinding where
  accountIdentityPublicKeyB64 : Option Id
  accountBindingSigB64 : Option Id
  accountBindingSignerPublicKeyB64 : Option Id
  accountBindingIssuedAtMs : Nat
  /-- `none`: not a finite number -/
  accountBindingExpiresAtMs : Option Nat
  identitySigningPublicKeyB64 : Option Id
  identityDhPublicKeyB64 : Option Id
  /-- the signed pre-key bundle, which only X3DH reads -/
  bundle : Bytes
deriving DecidableEq

structure InviteBinding where
  capabilityId : Option Id
  x3dh : Option X3dhBinding
deriving DecidableEq

structure SignerRef where
  accountId : Option Id
  signerPublicKeyB64 : Option Id
deriving DecidableEq

/-- An invite envelope. A certificate and the post-cap are opaque;
`expiresAtMs` is 0 when it is no positive integer. -/
structure Envelope where
  kind : Option Id
  inviteId : Option Id
  creatorAccountId : Option Id
  creatorDisplayName : Option String
  expiresAtMs : Nat
  signerRef : Option SignerRef
  certChain : List Bytes
  binding : Option InviteBinding
  postCap : Option Bytes
deriving DecidableEq

inductive InviteStatus | active | inactive
deriving DecidableEq

/-- A stored invite. `normalizeInviteRecord` runs on every save and on every
load, so a stored record already has positive times and a positive use limit;
the record carries that as fields, and normalising it again changes nothing
but a zero `updatedAtMs`. -/
structure InviteRecord where
  inviteId : Id
  ownerAccountId : Id
  tokenHash : Id
  kind : Id
  status : InviteStatus
  createdAtMs : Nat
  updatedAtMs : Nat
  expiresAtMs : Nat
  maxUses : Nat
  acceptedAcceptors : List Id
  peerLinkId : Option Id
  groupId : Option Id
  envelope : Option Envelope
  signatureB64 : Option Id
  createdAtMs_pos : 0 < createdAtMs
  expiresAtMs_pos : 0 < expiresAtMs
  maxUses_pos : 0 < maxUses
deriving DecidableEq

/-- mirrors src/peer-link/PeerLinkService.js:159-192 -/
def normalizeInviteRecord (r : InviteRecord) : InviteRecord :=
  { r with updatedAtMs := asPositiveInt r.updatedAtMs r.createdAtMs }

/-! ## Account keys -/

structure KeyMaterial where
  publicKeyB64 : Option Id
  privateKeyB64 : Option Id
deriving DecidableEq

structure AccountBinding where
  accountId : Option Id
  accountIdentityPublicKeyB64 : Option Id
  x3dhIdentityPublicKeyB64 : Option Id
  issuedAtMs : Option Nat
  expiresAtMs : Option Nat
  accountBindingSigB64 : Option Id
  accountBindingSignerPublicKeyB64 : Option Id
  /-- only a delegated acceptor's handshake binding carries one -/
  certChain : List Bytes
deriving DecidableEq

/-- `accountBinding` of a stored record: the field is absent, `null` or set. -/
inductive StoredBinding
  | undefined
  | null
  | set (b : AccountBinding)
deriving DecidableEq

def StoredBinding.toOption : StoredBinding → Option AccountBinding
  | .set b => some b
  | _ => none

/-- An account key record as it may lie in the store: the oldest shape has
the signing key pair at top level (`legacy`) instead of `x3dhKeyMaterial`. -/
structure StoredAccountKeys where
  legacy : KeyMaterial
  x3dhKeyMaterial : Option KeyMaterial
  x3dhIdentityDhKeyMaterial : Option KeyMaterial
  identityDhSignatureB64 : Option Id
  accountBinding : StoredBinding
deriving DecidableEq

/-- What `_normalizeStoredAccountKeyRecord` returns. -/
structure AccountKeyRecord where
  x3dhKeyMaterial : KeyMaterial
  x3dhIdentityDhKeyMaterial : KeyMaterial
  identityDhSignatureB64 : Option Id
  accountBinding : Option AccountBinding
deriving DecidableEq

/-- mirrors src/peer-link/PeerLinkService.js:1871-1915 -/
def normalizeStoredAccountKeyRecord (stored : Option StoredAccountKeys) : AccountKeyRecord :=
  { x3dhKeyMaterial := match stored with
      | some s => s.x3dhKeyMaterial.getD s.legacy
      | none => ⟨none, none⟩
    x3dhIdentityDhKeyMaterial := (stored.bind (·.x3dhIdentityDhKeyMaterial)).getD ⟨none, none⟩
    identityDhSignatureB64 := stored.bind (·.identityDhSignatureB64)
    accountBinding := (stored.bind (·.accountBinding.toOption)).map ({ · with certChain := [] }) }

end RezSdk.L1
