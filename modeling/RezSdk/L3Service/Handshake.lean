import RezSdk.L3Service.Invites

/-!
# The handshake: responder, ack and reject

`handleIncomingHandshakePacket` on the inviter, `handleIncomingHandshakeAck`
and `handleHandshakeReject` on the acceptor.
-/
namespace RezSdk.L3

open RezSdk.L1 RezSdk.L2

variable {Snap : Type}

/-! ## The inviter -/

def authFailed (message : String) : Err := .coded "HANDSHAKE_AUTH_FAILED" message

/-- An authenticated handshake. -/
structure Authenticated where
  handshake : HandshakeData
  inviteId : Id
  binding : AccountBinding
  peerAccountId : Id

/-- The sender's binding in the form the invite binding verifier reads. -/
def senderX3dh (b : AccountBinding) : X3dhBinding :=
  { accountIdentityPublicKeyB64 := b.accountIdentityPublicKeyB64
    accountBindingSigB64 := b.accountBindingSigB64
    accountBindingSignerPublicKeyB64 := b.accountBindingSignerPublicKeyB64
    accountBindingIssuedAtMs := b.issuedAtMs.getD 0
    accountBindingExpiresAtMs := b.expiresAtMs
    identitySigningPublicKeyB64 := b.x3dhIdentityPublicKeyB64
    identityDhPublicKeyB64 := none
    bundle := [] }

/-- The acceptor a handshake speaks for: the account its binding's key
derives. -/
def acceptorOf (core : Core Snap) (h : HandshakeData) : Option Id :=
  h.senderAccountBinding.bind fun b => b.accountIdentityPublicKeyB64.bind core.deriveAccountId

/-- The signature and binding checks on a parsed packet.
mirrors src/peer-link/PeerLinkService.js:3619-3687 -/
def authenticate (svc : Service Snap) (p : HandshakePacket) : Sdk Snap Authenticated := do
  let signature ← Js.orThrow (p.signatureB64.filter (· ≠ ""))
    (.coded "HANDSHAKE_SIGNATURE_INVALID" "Handshake packet missing signatureB64")
  let verified ← callCore (.verifyHandshakeEnvelope (.handshake p.handshake signature))
  Js.ensure verified
    (.coded "HANDSHAKE_SIGNATURE_INVALID" "Handshake envelope signature did not verify")
  let inviteId ← Js.orThrow p.handshake.inviteId (svc.core.requireIdError "inviteId")
  let binding ← Js.orThrow p.handshake.senderAccountBinding
    (authFailed "Handshake missing senderAccountBinding — cannot authenticate acceptor identity")
  Js.ensure (binding.x3dhIdentityPublicKeyB64 = p.handshake.senderIdentitySigningPubKeyB64)
    (authFailed
    "Handshake account binding does not cover the X3DH identity that signed the envelope")
  let peer ← Js.orThrow (acceptorOf svc.core p.handshake) svc.core.base64Error
  verifyInviteX3dhBinding svc peer (some (senderX3dh binding)) binding.certChain
  return ⟨p.handshake, inviteId, binding, peer⟩

inductive RejectReason | inviteExpired | inviteUsedUp
deriving DecidableEq

/-- `proceed exhausted alreadyAccepted`. -/
inductive Verdict
  | proceed (exhausted alreadyAccepted : Bool)
  | reject (reason : RejectReason)
deriving DecidableEq

/-- The use-limit decision, under the invite's lock.
mirrors src/peer-link/PeerLinkService.js:3710-3727 -/
def verdictLocked (owner inviteId peer : Id) : Sdk Snap Verdict := do
  let found ← Invites.get owner inviteId
  match found with
  | none => return .proceed true false
  | some fresh => do
    let now ← clock
    if fresh.expiresAtMs ≤ now then return .reject .inviteExpired
    else if peer ∈ fresh.acceptedAcceptors then
      return .proceed (fresh.maxUses ≤ fresh.acceptedAcceptors.length) true
    else if fresh.maxUses ≤ fresh.acceptedAcceptors.length then return .reject .inviteUsedUp
    else do
      let accepted := fresh.acceptedAcceptors ++ [peer]
      let _ ← Invites.save { fresh with acceptedAcceptors := accepted, updatedAtMs := now }
      return .proceed (fresh.maxUses ≤ accepted.length) false

/-- Without an invite record there is nothing to enforce. -/
def inviteVerdict (owner inviteId peer : Id) (record : Option InviteRecord) : Sdk Snap Verdict :=
  match record with
  | none => pure (.proceed true false)
  | some _ => withLock (inviteLock owner inviteId) (verdictLocked owner inviteId peer)

inductive HandshakeOutcome
  | notHandshake
  | rejected (reason : RejectReason) (ackNonce : Option Id) (acceptorInboxId : Option Id)
      (peerAccountId : Id)
  | accepted (snapshot : PeerLinkSnapshot) (event : Option EventRecord) (ackNonce : Option Id)
      (remoteDisplayName localDisplayName : String)
deriving DecidableEq

/-- The link the responder session is committed on: a new one, or the
existing one with the peer's identity keys refreshed.
mirrors src/peer-link/PeerLinkService.js:3766-3805 -/
def responderLink (x : Authenticated) (owner : Id) (nowMs : Nat)
    (existing : Option PeerLinkRecord) : Sdk Snap PeerLinkRecord :=
  match existing with
  | some e => pure
      { e with
        remoteIdentityDhPublicKeyB64 :=
          x.handshake.senderIdentityDhPubKeyB64 <|> e.remoteIdentityDhPublicKeyB64
        remoteAccountIdentityPublicKeyB64 :=
          x.binding.accountIdentityPublicKeyB64 <|> e.remoteAccountIdentityPublicKeyB64 }
  | none => do
    let link ← stableId "pl"
    PeerLinks.create
      { peerLinkId := link
        localAccountId := owner
        peerAccountId := x.peerAccountId
        remoteIdentitySigningPublicKeyB64 := none
        remoteIdentityDhPublicKeyB64 := x.handshake.senderIdentityDhPubKeyB64
        remoteAccountIdentityPublicKeyB64 := x.binding.accountIdentityPublicKeyB64
        state := .handshakeReceived
        activeInviteId := some x.inviteId
        activeSessionId := none
        peerInboxId := x.handshake.senderInboxId
        relationshipReplicated := false
        lastStateChangeAtMs := nowMs
        lastErrorCode := none
        lastErrorMessage := none
        version := 1 }

/-- mirrors src/peer-link/PeerLinkService.js:1535-1548 (`#establishAsResponder`) -/
def establishAsResponder (svc : Service Snap) (owner : Id) (preKeyState : Bytes)
    (x : Authenticated) : Sdk Snap Snap := do
  let identity ← requireBoundX3dhIdentity svc owner
  let (_, snapshot) ← callCore (.completeInviteHandshake
    { preKeyState
      identityDhPrivate := identity.identityDhKeyPair.privateKey
      handshake := x.handshake
      peerId := x.peerAccountId })
  return snapshot

def responderAttempt (attemptId link owner inviteId : Id) (sid : Option Id) (nowMs : Nat) :
    HandshakeAttemptRecord :=
  { handshakeAttemptId := attemptId
    peerLinkId := link
    ownerAccountId := owner
    direction := .responder
    status := .completed
    inviteId
    sessionId := sid
    packetMessageId := none
    lastTriedAtMs := nowMs
    retryCount := 0
    lastErrorCode := none
    lastErrorMessage := none
    version := 1 }

/-- Run X3DH, commit the session, and clear the invite pre-key once the
invite is exhausted.
mirrors src/peer-link/PeerLinkService.js:3766-3861 -/
def establishLink (svc : Service Snap) (owner : Id) (x : Authenticated) (preKeyState : Bytes)
    (exhausted : Bool) (localDisplayName : String) (nowMs : Nat)
    (existing : Option PeerLinkRecord) : Sdk Snap HandshakeOutcome := do
  let link ← responderLink x owner nowMs existing
  let snapshot ← establishAsResponder svc owner preKeyState x
  let existingSession ← Sessions.getByPeerLinkId owner link.peerLinkId
  let commit ← untrack (commitSession svc
    { owner
      peerLinkRecord := link
      peer := x.peerAccountId
      ratchet := some snapshot
      sessionStatus := .active
      peerLinkState := .sessionEstablished
      existingSession
      resetSessionCreatedAt := false
      peerInboxId := some (link.peerInboxId <|> x.handshake.senderInboxId)
      eventType := .handshakeReceived
      eventSummary := "Handshake received and session established"
      eventDetails := [("inviteId", some x.inviteId.val)]
      atMs := nowMs })
  let attemptId ← stableId "hs"
  let _ ← HandshakeAttempts.create
    (responderAttempt attemptId commit.peerLinkRecord.peerLinkId owner
    x.inviteId (commit.sessionRecord.map (·.sessionId)) nowMs)
  if exhausted then
    let _ ← kvDelete (.invitePreKey owner x.inviteId)
    return .accepted commit.snapshot commit.event x.handshake.ackNonce x.handshake.senderDisplayName
      localDisplayName
  else
    return .accepted commit.snapshot commit.event x.handshake.ackNonce x.handshake.senderDisplayName
      localDisplayName

/-- After a verdict to proceed: the pre-key gate and the replay guard.
mirrors src/peer-link/PeerLinkService.js:3741-3765 -/
def proceedHandshake (svc : Service Snap) (owner : Id) (x : Authenticated)
    (exhausted alreadyAccepted : Bool) (localDisplayName : String) : Sdk Snap HandshakeOutcome := do
  let stored ← kvGet (.invitePreKey owner x.inviteId)
  let preKeyState ← Js.orThrow stored
    (.coded "PEER_LINK_PREKEY_MISSING" "peer-link invite pre-key not found")
  let nowMs ← clock
  let existing ← PeerLinks.getByPair owner x.peerAccountId
  match existing with
  | some e =>
    if alreadyAccepted && e.state = .sessionEstablished then do
      let snapshot ← buildSnapshot e
      return .accepted snapshot none x.handshake.ackNonce x.handshake.senderDisplayName
        localDisplayName
    else establishLink svc owner x preKeyState exhausted localDisplayName nowMs (some e)
  | none => establishLink svc owner x preKeyState exhausted localDisplayName nowMs none

/-- From the parsed packet on. -/
def handleHandshake (svc : Service Snap) (owner : Id) (p : HandshakePacket) :
    Sdk Snap HandshakeOutcome := do
  let x ← authenticate svc p
  let record ← Invites.get owner x.inviteId
  let localDisplayName := ((record.bind (·.envelope)).bind (·.creatorDisplayName)).getD ""
  let verdict ← inviteVerdict owner x.inviteId x.peerAccountId record
  match verdict with
  | .reject reason =>
    return .rejected reason x.handshake.ackNonce x.handshake.senderInboxId x.peerAccountId
  | .proceed exhausted alreadyAccepted =>
    proceedHandshake svc owner x exhausted alreadyAccepted localDisplayName

/-- mirrors src/peer-link/PeerLinkService.js:3602-3861 -/
def handleIncomingHandshakePacket (svc : Service Snap) (owner : Id) (packetBytes : Bytes) :
    Sdk Snap HandshakeOutcome := do
  Js.ensure (!packetBytes.isEmpty) { message := "packetBytes must be a non-empty Uint8Array" }
  match svc.core.parsePacket packetBytes with
  | .error e => throw e
  | .ok none => return .notHandshake
  | .ok (some p) => handleHandshake svc owner p

/-! ## The acceptor -/

/-- The link still waits for the inviter's confirmation. -/
def awaitsConfirm (link : PeerLinkRecord) : Bool :=
  link.state = .handshakeSent || link.state = .acceptCommitted

/-- Authenticate an ack or a reject against the link: the key on record, the
envelope signature, and the stored nonce, which is consumed when it matches.
Without a stored nonce there is nothing to compare with.
mirrors src/peer-link/PeerLinkService.js:3930-3964 and 4080-4108 -/
def checkControl (owner : Id) (link : PeerLinkRecord) (publicKey : String)
    (envelope : SignedEnvelope) (nonce : String) : Sdk Snap Bool :=
  if awaitsConfirm link && link.remoteIdentitySigningPublicKeyB64.any (·.val = publicKey) then do
    let verified ← callCore (.verifyHandshakeEnvelope envelope)
    if verified then
      let stored ← kvGet (.ackNonce owner link.peerLinkId)
      match stored with
      | none => return true
      | some n =>
        if n.val = nonce then
          let _ ← kvDelete (.ackNonce owner link.peerLinkId)
          return true
        else return false
    else return false
  else pure false

structure AckResult where
  snapshot : PeerLinkSnapshot
  event : Option EventRecord
  remoteDisplayName : Option String
deriving DecidableEq

/-- Confirm the session: flip it to active and the link to established.
mirrors src/peer-link/PeerLinkService.js:3967-4003 -/
def commitAck (svc : Service Snap) (owner : Id) (ack : HandshakeAck) (link : PeerLinkRecord) :
    Sdk Snap (Option AckResult) := do
  let nowMs ← clock
  let existingSession ← Sessions.getByPeerLinkId owner link.peerLinkId
  (untrack (commitSession svc
    { owner
      peerLinkRecord := link
      peer := ack.senderAccountId
      ratchet := none
      sessionStatus := .active
      peerLinkState := .sessionEstablished
      existingSession
      resetSessionCreatedAt := false
      peerInboxId := some link.peerInboxId
      eventType := .handshakeAckReceived
      eventSummary := "Handshake acknowledged — session established"
      eventDetails := []
      atMs := nowMs })).attempt fun
  | .ok commit => return some ⟨commit.snapshot, commit.event, some ack.senderDisplayName⟩
  | .error _ => do
    let fresh ← PeerLinks.getByPair owner ack.senderAccountId
    match fresh with
    | some f =>
      if f.state = .sessionEstablished then do
        let snapshot ← buildSnapshot f
        return some ⟨snapshot, none, none⟩
      else throw { message := "Peer link version conflict for " ++ link.peerLinkId.val }
    | none => throw { message := "Peer link version conflict for " ++ link.peerLinkId.val }

/-- mirrors src/peer-link/PeerLinkService.js:3911-4004 -/
def handleIncomingHandshakeAck (svc : Service Snap) (owner : Id) (ackPacketBytes : Bytes) :
    Sdk Snap (Option AckResult) :=
  match if ackPacketBytes.isEmpty then none else svc.core.parseAck ackPacketBytes with
  | none => pure none
  | some ack => do
    let found ← PeerLinks.getByPair owner ack.senderAccountId
    match found with
    | none => return none
    | some link => do
      let ok ← checkControl owner link ack.senderIdentitySigningPubKeyB64 (.ack ack) ack.ackNonce
      if ok then commitAck svc owner ack link else return none

structure RejectResult where
  snapshot : PeerLinkSnapshot
  event : EventRecord
  reason : String
deriving DecidableEq

/-- Mark the pending attempts rejected.
mirrors src/peer-link/PeerLinkService.js:4120-4131 -/
def rejectAttempts (reason : String) (nowMs : Nat) : List HandshakeAttemptRecord → Sdk Snap Unit
  | [] => pure ()
  | at_ :: rest =>
    if at_.status = .completed ∨ at_.status = .rejected then rejectAttempts reason nowMs rest
    else do
      let _ ← HandshakeAttempts.update
        { at_ with
          status := .rejected
          lastTriedAtMs := nowMs
          lastErrorCode := some reason
          lastErrorMessage := some "handshake rejected by inviter" } at_.version
      rejectAttempts reason nowMs rest

/-- Delete the optimistic session, if the link has one. -/
def dropSession (owner : Id) (session : Option (SessionRecord Snap)) : Sdk Snap Unit :=
  match session with
  | none => pure ()
  | some r => do
    let _ ← Sessions.delete owner r.sessionId
    pure ()

/-- Roll the optimistic link back.
mirrors src/peer-link/PeerLinkService.js:4110-4162 -/
def rollBack (svc : Service Snap) (owner : Id) (reject : HandshakeReject) (link : PeerLinkRecord) :
    Sdk Snap (Option RejectResult) := do
  let reason := ((nonEmpty reject.reason).map Id.val).getD "INVITE_REJECTED"
  let nowMs ← clock
  let session ← Sessions.getByPeerLinkId owner link.peerLinkId
  dropSession owner session
  let _ ← kvDelete (.postCap owner link.peerLinkId)
  let attempts ← HandshakeAttempts.listByPeerLinkId svc.core owner link.peerLinkId
  rejectAttempts reason nowMs attempts
  checkPeerLinkTransition svc link.state .rejected
  let rejected ← PeerLinks.update
    { link with
      state := .rejected
      activeSessionId := none
      lastStateChangeAtMs := nowMs
      lastErrorCode := some reason
      lastErrorMessage := some "handshake rejected by inviter" } link.version
  let event ← appendPeerLinkEvent owner rejected.peerLinkId .handshakeRejected
    (some "Handshake rejected by inviter — peer link rolled back")
    [("peerAccountId", some reject.senderAccountId.val), ("reason", some reason)] nowMs
  let snapshot ← buildSnapshot rejected
  return some ⟨snapshot, event, reason⟩

/-- mirrors src/peer-link/PeerLinkService.js:4061-4163 -/
def handleHandshakeReject (svc : Service Snap) (owner : Id) (rejectPacketBytes : Bytes) :
    Sdk Snap (Option RejectResult) :=
  match if rejectPacketBytes.isEmpty then none else svc.core.parseReject rejectPacketBytes with
  | none => pure none
  | some reject => do
    let found ← PeerLinks.getByPair owner reject.senderAccountId
    match found with
    | none => return none
    | some link => do
      let ok ← checkControl owner link reject.senderIdentitySigningPubKeyB64 (.reject reject)
        reject.ackNonce
      if ok then rollBack svc owner reject link else return none

end RezSdk.L3
