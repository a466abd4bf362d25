import RezSdk.L3Service.AccountKeys

/-!
# Invites: `authorizeInviteJoin` and `acceptInvite`

The inviter's ledger check for a group join, which runs under the per-invite
lock, and the acceptor's side of an invite: verify, commit the link, derive
the initiator session, send the handshake.
-/
namespace RezSdk.L3

open RezSdk.L1 RezSdk.L2

variable {Snap : Type}

def inviteLock (owner inviteId : Id) : LockKey :=
  (.inviteClaims, owner.val ++ ":" ++ inviteId.val)

inductive JoinReason | inviteNotFound | inviteExpired | alreadyAccepted | inviteUsedUp | consumed
deriving DecidableEq

structure JoinResult where
  authorized : Bool
  reason : JoinReason
deriving DecidableEq

/-- The locked part of `authorizeInviteJoin`. -/
def authorizeLocked (owner id joiner : Id) (atMs : Nat) : Sdk Snap JoinResult := do
  let found ← Invites.get owner id
  match found with
  | none => return ⟨false, .inviteNotFound⟩
  | some fresh =>
    if fresh.status ≠ .active then return ⟨false, .inviteNotFound⟩
    else if fresh.expiresAtMs ≤ atMs then return ⟨false, .inviteExpired⟩
    else if joiner ∈ fresh.acceptedAcceptors then return ⟨true, .alreadyAccepted⟩
    else if fresh.maxUses ≤ fresh.acceptedAcceptors.length then return ⟨false, .inviteUsedUp⟩
    else do
      let _ ← Invites.save
        { fresh with acceptedAcceptors := fresh.acceptedAcceptors ++ [joiner], updatedAtMs := atMs }
      return ⟨true, .consumed⟩

/-- An omitted `nowMs` is `null`, and `Number(null)` is the finite number 0.
mirrors src/peer-link/PeerLinkService.js:3064-3098 -/
def authorizeInviteJoin (owner id joiner : Id) (nowMs : Option Nat) : Sdk Snap JoinResult :=
  withLock (inviteLock owner id) (authorizeLocked owner id joiner (nowMs.getD 0))

/-! ## `acceptInvite` -/

structure AcceptArgs where
  envelope : Envelope
  signatureB64 : Id
  acceptor : Id
  displayName : Option String
  /-- a `sendHandshake` callback was passed -/
  sendHandshake : Bool
  senderInboxId : Option Id
  forceReestablish : Bool
deriving DecidableEq

structure AcceptResult where
  snapshot : PeerLinkSnapshot
  event : Option EventRecord
deriving DecidableEq

def signatureInvalid (message : String) : Err := .coded "INVITE_SIGNATURE_INVALID" message

def Envelope.x3dh (e : Envelope) : Option X3dhBinding := e.binding.bind (·.x3dh)

/-- mirrors src/peer-link/PeerLinkService.js:194-202 -/
def verifyInviteKind (e : Envelope) : Sdk Snap Unit :=
  let kind := (e.kind.map Id.val).getD "direct"
  Js.ensure (kind == "direct" || kind == "group")
    (.coded "PEER_LINK_KIND_UNSUPPORTED" ("unsupported peer-link invite kind: " ++ kind))

/-- A delegated inviter's envelope: signed by a device key that the
certificate chain inside it roots at the account key.
mirrors src/peer-link/PeerLinkService.js:3138-3185 -/
def verifyDelegated (svc : Service Snap) (e : Envelope) (sig inviter : Id) (nowMs : Nat) :
    Sdk Snap Bool :=
  match e.signerRef.bind (·.signerPublicKeyB64),
    (Envelope.x3dh e).bind (·.accountIdentityPublicKeyB64) with
  | some signer, some anchor =>
    if e.signerRef.bind (·.accountId) = some inviter ∧
      svc.core.deriveAccountId anchor = some inviter then do
      let signed ← (callCore (.verify signer (svc.core.canonicalPayloadBytes e) sig)).attempt fun
        | .ok b => pure b
        | .error _ => pure false
      if signed then
        let refused ← callCore (.verifyAccountAuthority ⟨anchor, signer, e.certChain, nowMs⟩)
        return refused.isNone
      else return false
    else pure false
  | _, _ => pure false

/-- Everything `acceptInvite` checks before it touches a peer link; returns
the inviter and the time.
mirrors src/peer-link/PeerLinkService.js:3109-3214 -/
def verifyInvite (svc : Service Snap) (a : AcceptArgs) : Sdk Snap (Id × Nat) := do
  Js.ensure (svc.core.isBase64 a.signatureB64) svc.core.base64Error
  verifyInviteKind a.envelope
  let inviter ← Js.orThrow a.envelope.creatorAccountId (svc.core.requireIdError "creatorAccountId")
  let nowMs ← clock
  let verified ← if a.envelope.certChain.isEmpty then
      callCore (.verifyInviteSignature inviter a.envelope.signerRef
        (svc.core.canonicalPayloadBytes a.envelope) a.signatureB64)
    else verifyDelegated svc a.envelope a.signatureB64 inviter nowMs
  Js.ensure verified (signatureInvalid "peer-link invite signature invalid")
  Js.ensure (nowMs < asPositiveInt a.envelope.expiresAtMs nowMs)
    (.coded "INVITE_EXPIRED" "peer-link invite expired")
  verifyInviteX3dhBinding svc inviter (Envelope.x3dh a.envelope) a.envelope.certChain
  return (inviter, nowMs)

/-- The existing link is driven through the handshake again.
mirrors src/peer-link/PeerLinkService.js:3237-3245 -/
def reattempts (forceReestablish : Bool) (existing : PeerLinkRecord) : Bool :=
  existing.state = .rejected || existing.state = .failed
    || (existing.state = .sessionEstablished && existing.activeSessionId.isNone)
    || (forceReestablish && existing.state ≠ .inviteIssued)

/-- mirrors src/peer-link/PeerLinkService.js:3246-3266 -/
def acceptIdempotent (a : AcceptArgs) (existing : PeerLinkRecord) (nowMs : Nat) :
    Sdk Snap AcceptResult := do
  let event ← appendPeerLinkEvent a.acceptor existing.peerLinkId .inviteAcceptIdempotent
    (some "Peer link already exists")
    [("inviteId", a.envelope.inviteId.map Id.val), ("acceptorAccountId", some a.acceptor.val)] nowMs
  let snapshot ← buildSnapshot existing
  return ⟨snapshot, some event⟩

/-- The link as the accept commits it: the existing row re-bound to the new
invite, or a new row.
mirrors src/peer-link/PeerLinkService.js:3290-3353 -/
def commitAccept (svc : Service Snap) (a : AcceptArgs) (inviter peerLinkId : Id) (nowMs : Nat)
    (existing : Option PeerLinkRecord) : Sdk Snap PeerLinkRecord := do
  let x3dh := Envelope.x3dh a.envelope
  let signingKey ← Js.orThrow (x3dh.bind (·.identitySigningPublicKeyB64))
    (signatureInvalid "invite envelope missing x3dh.identitySigningPublicKeyB64")
  let inviteId ← Js.orThrow a.envelope.inviteId (svc.core.requireIdError "inviteId")
  let record : PeerLinkRecord :=
    { peerLinkId
      localAccountId := a.acceptor
      peerAccountId := inviter
      remoteIdentitySigningPublicKeyB64 := some signingKey
      remoteIdentityDhPublicKeyB64 := x3dh.bind (·.identityDhPublicKeyB64)
      remoteAccountIdentityPublicKeyB64 := x3dh.bind (·.accountIdentityPublicKeyB64)
      state := .acceptCommitted
      activeInviteId := some inviteId
      activeSessionId := none
      peerInboxId := a.envelope.binding.bind (·.capabilityId)
      relationshipReplicated := existing.any (·.relationshipReplicated)
      lastStateChangeAtMs := nowMs
      lastErrorCode := none
      lastErrorMessage := none
      version := 1 }
  match existing with
  | some e =>
    PeerLinks.update
      { record with localAccountId := e.localAccountId, peerAccountId := e.peerAccountId } e.version
  | none => PeerLinks.create record

/-- Re-read the invite record (same-node case) and back-link the peer link,
outside the invite's lock.
mirrors src/peer-link/PeerLinkService.js:3376-3388 -/
def backLinkInvite (found : Option InviteRecord) (peerLinkId : Id) (nowMs : Nat) : Sdk Snap Unit :=
  match found with
  | none => pure ()
  | some l => do
    let fresh ← Invites.get l.ownerAccountId l.inviteId
    match fresh with
    | none => pure ()
    | some f => do
      let _ ← Invites.save { f with peerLinkId := some peerLinkId, updatedAtMs := nowMs }
      pure ()

def newAttempt (a : AcceptArgs) (attemptId peerLinkId inviteId : Id) (nowMs : Nat) :
    HandshakeAttemptRecord :=
  { handshakeAttemptId := attemptId
    peerLinkId
    ownerAccountId := a.acceptor
    direction := .initiator
    status := .pending
    inviteId
    sessionId := none
    packetMessageId := none
    lastTriedAtMs := nowMs
    retryCount := 0
    lastErrorCode := none
    lastErrorMessage := none
    version := 1 }

/-- What the send phase works on: the link, the attempt and the last event. -/
structure SendState where
  link : PeerLinkRecord
  attempt : HandshakeAttemptRecord
  event : Option EventRecord

/-- The body of the `try` around `sendHandshake`. The `catch` sees the link
and the attempt as far as they were updated.
mirrors src/peer-link/PeerLinkService.js:3484-3525 -/
def trySend (svc : Service Snap) (a : AcceptArgs) (inviter sid : Id) (packet : HandshakePacket)
    (nowMs : Nat) (s : SendState) : Tracked Snap SendState SendState := do
  let inbox ← track s (Js.orThrow s.link.peerInboxId (svc.core.requireIdError "deliverInboxId"))
  let packetId ← track s (callCore (.sendHandshake inbox packet inviter))
  let fresh ← track s (PeerLinks.getById a.acceptor s.link.peerLinkId)
  if fresh.any (·.state = .sessionEstablished) then
    return { s with link := fresh.getD s.link }
  else do
    let attempt ← track s (HandshakeAttempts.update
      { s.attempt with
        status := .sent
        packetMessageId := packetId
        sessionId := some sid
        lastTriedAtMs := nowMs
        lastErrorCode := none
        lastErrorMessage := none } s.attempt.version)
    let s := { s with attempt }
    let current := fresh.getD s.link
    track s (checkPeerLinkTransition svc current.state .handshakeSent)
    let link ← track s (PeerLinks.update
      { current with
        state := .handshakeSent
        lastStateChangeAtMs := nowMs
        lastErrorCode := none
        lastErrorMessage := none } current.version)
    let s := { s with link }
    let event ← track s (appendPeerLinkEvent a.acceptor link.peerLinkId .handshakeSent
      (some "Handshake sent")
      [("handshakeAttemptId", some attempt.handshakeAttemptId.val), ("sessionId", some sid.val),
        ("deliverInboxId", link.peerInboxId.map Id.val)] nowMs)
    return { s with event := some event }

/-- The `catch`: degrade the link unless an ack has established it.
mirrors src/peer-link/PeerLinkService.js:3526-3579 -/
def sendFailed (svc : Service Snap) (a : AcceptArgs) (sid : Id) (nowMs : Nat) (s : SendState)
    (e : Err) : Sdk Snap SendState := do
  let fresh ← PeerLinks.getById a.acceptor s.link.peerLinkId
  if fresh.any (·.state = .sessionEstablished) then
    return { s with link := fresh.getD s.link }
  else do
    let errorCode := ((e.code.bind nonEmpty).map Id.val).getD "HANDSHAKE_SEND_FAILED"
    let errorMessage := ((nonEmpty e.message).map Id.val).getD "handshake send failed"
    let attempt ← (HandshakeAttempts.update
      { s.attempt with
        status := .failed
        sessionId := some sid
        lastTriedAtMs := nowMs
        retryCount := s.attempt.retryCount + 1
        lastErrorCode := some errorCode
        lastErrorMessage := some errorMessage } s.attempt.version).attempt fun
      | .ok r => pure r
      | .error _ => pure s.attempt
    let current := fresh.getD s.link
    checkPeerLinkTransition svc current.state .degraded
    let link ← PeerLinks.update
      { current with
        state := .degraded
        lastStateChangeAtMs := nowMs
        lastErrorCode := some errorCode
        lastErrorMessage := some errorMessage } current.version
    let event ← appendPeerLinkEvent a.acceptor link.peerLinkId .handshakeFailed
      (some "Handshake send failed")
      [("handshakeAttemptId", some attempt.handshakeAttemptId.val), ("errorCode", some errorCode),
        ("errorMessage", some errorMessage)] nowMs
    return ⟨link, attempt, some event⟩

/-- The handshake packet of this accept, with its nonce.
mirrors src/peer-link/PeerLinkService.js:3462-3470 -/
def handshakeOf (svc : Service Snap) (a : AcceptArgs) (inviteId : Id) (x3dh : HandshakeData)
    (binding : AccountBinding) (nonce : Id) (nowMs : Nat) : HandshakeData :=
  { x3dh with
    inviteId := some inviteId
    senderDisplayName := a.displayName.getD ""
    senderInboxId := a.senderInboxId <|> svc.inviteCapabilityId
    senderAccountBinding := some binding
    ackNonce := some nonce
    createdAtMs := nowMs }

/-- mirrors src/peer-link/PeerLinkService.js:3452-3579 -/
def sendPhase (svc : Service Snap) (a : AcceptArgs) (inviter inviteId : Id) (x3dh : HandshakeData)
    (signingKey sid : Id) (nowMs : Nat) (s : SendState) : Sdk Snap SendState := do
  let keys ← loadAccountKeyRecord svc a.acceptor
  let binding ← Js.orThrow keys.accountBinding
    (reauthRequired "Acceptor account binding is required for handshake authentication")
  let nonce ← runtimeUuid
  let handshake := handshakeOf svc a inviteId x3dh binding nonce nowMs
  let signature ← callCore (.signHandshakeEnvelope handshake signingKey)
  kvSet (.ackNonce a.acceptor s.link.peerLinkId) nonce
  Proc.bind (trySend svc a inviter sid ⟨handshake, some signature⟩ nowMs s) fun
    | .ok s => .ret (.ok s)
    | .error (s, e) => sendFailed svc a sid nowMs s e

/-- The existing link's id, or a new one. -/
def acceptLinkId : Option PeerLinkRecord → Sdk Snap Id
  | some e => pure e.peerLinkId
  | none => stableId "pl"

def storePostCap (owner link : Id) : Option Bytes → Sdk Snap Unit
  | some cap => kvSet (.postCap owner link) cap
  | none => pure ()

/-- The session a re-attempt starts over from. -/
def priorSession (owner link : Id) : Option PeerLinkRecord → Sdk Snap (Option (SessionRecord Snap))
  | some _ => Sessions.getByPeerLinkId owner link
  | none => pure none

/-- The handshake is sent only with a callback and a session. -/
def sendIfAsked (svc : Service Snap) (a : AcceptArgs) (inviter inviteId : Id) (x3dh : HandshakeData)
    (signingKey : Id) (nowMs : Nat) (s : SendState) : Option (SessionRecord Snap) →
    Sdk Snap SendState
  | some session =>
    if a.sendHandshake
      then sendPhase svc a inviter inviteId x3dh signingKey session.sessionId nowMs s
    else pure s
  | none => pure s

/-- Derive the initiator session, commit it and send the handshake.
mirrors src/peer-link/PeerLinkService.js:3389-3586 -/
def acceptEstablish (svc : Service Snap) (a : AcceptArgs) (inviter inviteId peerLinkId : Id)
    (nowMs : Nat) (existing : Option PeerLinkRecord) (link : PeerLinkRecord)
    (attempt : HandshakeAttemptRecord) : Sdk Snap AcceptResult := do
  let _ ← appendPeerLinkEvent a.acceptor peerLinkId .inviteAccepted
    (some "Peer link acceptance committed")
    [("inviteId", some inviteId.val), ("acceptorAccountId", some a.acceptor.val),
      ("acceptorDisplayName", a.displayName),
      ("handshakeAttemptId", some attempt.handshakeAttemptId.val)]
    nowMs
  let identity ← requireBoundX3dhIdentity svc a.acceptor
  let (x3dh, snapshot) ← callCore (.processAcceptedInvite
    { bundle := ((Envelope.x3dh a.envelope).map (·.bundle)).getD []
      peerId := inviter
      identity := identity.keyPair
      identityDh := identity.identityDhKeyPair
      identityDhSignature := identity.identityDhSignature })
  let existingSession ← priorSession a.acceptor peerLinkId existing
  let commit ← untrack (commitSession svc
    { owner := a.acceptor
      peerLinkRecord := link
      peer := inviter
      ratchet := some snapshot
      sessionStatus := .pendingRemoteConfirm
      peerLinkState := .acceptCommitted
      existingSession
      resetSessionCreatedAt := existing.isSome
      peerInboxId := none
      eventType := .handshakePending
      eventSummary := "Handshake state created"
      eventDetails := [("inviteId", some inviteId.val)]
      atMs := nowMs })
  let s ← sendIfAsked svc a inviter inviteId x3dh identity.keyPair.privateKey nowMs
    ⟨commit.peerLinkRecord, attempt, commit.event⟩ commit.sessionRecord
  let snapshot ← buildSnapshot s.link
  return ⟨snapshot, s.event⟩

/-- The accept from the point where a handshake is really made.
mirrors src/peer-link/PeerLinkService.js:3274-3586 -/
def acceptFresh (svc : Service Snap) (a : AcceptArgs) (inviter : Id) (nowMs : Nat)
    (existing : Option PeerLinkRecord) : Sdk Snap AcceptResult := do
  let found ← Invites.getByHash inviter (svc.core.tokenHash a.envelope)
  let peerLinkId ← acceptLinkId existing
  let link ← commitAccept svc a inviter peerLinkId nowMs existing
  storePostCap a.acceptor peerLinkId a.envelope.postCap
  let attemptId ← stableId "hs"
  let inviteId ← Js.orThrow a.envelope.inviteId (svc.core.requireIdError "inviteId")
  let attempt ← HandshakeAttempts.create (newAttempt a attemptId peerLinkId inviteId nowMs)
  backLinkInvite found peerLinkId nowMs
  acceptEstablish svc a inviter inviteId peerLinkId nowMs existing link attempt

/-- mirrors src/peer-link/PeerLinkService.js:3100-3586 -/
def acceptInvite (svc : Service Snap) (a : AcceptArgs) : Sdk Snap AcceptResult := do
  let (inviter, nowMs) ← verifyInvite svc a
  let existing ← PeerLinks.getByPair a.acceptor inviter
  match existing with
  | none => acceptFresh svc a inviter nowMs none
  | some e =>
    if reattempts a.forceReestablish e then acceptFresh svc a inviter nowMs (some e)
    else acceptIdempotent a e nowMs

end RezSdk.L3
