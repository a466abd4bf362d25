import RezSdk.L3Service.Commit

/-!
# Direct messages

The legacy 1:1 path: `encryptDirectMessage`, `decryptDirectMessage` and
`decryptDirectMessageAnyPeer`. Each loads the link's session record, runs the
codec on its snapshot and writes the record back, with no lock around the
three.
-/
namespace RezSdk.L3

open RezSdk.L1 RezSdk.L2

variable {Snap : Type}

def threadNotReady (message : String) : Err := .coded "THREAD_NOT_READY" message

structure EncryptResult where
  peerLinkId : Id
  sessionId : Id
  encryptedPacket : Bytes
  sessionState : SessionStatus
deriving DecidableEq

/-- mirrors src/peer-link/PeerLinkService.js:2493-2543 -/
def encryptDirectMessage (owner peer : Id) (plaintextBytes : Bytes) : Sdk Snap EncryptResult := do
  Js.ensure (!plaintextBytes.isEmpty)
    { message := "encryptDirectMessage requires non-empty plaintextBytes" }
  let found ← PeerLinks.getByPair owner peer
  let link ← Js.orThrow found (threadNotReady "No peer link exists for this contact")
  let session ← Sessions.getByPeerLinkId owner link.peerLinkId
  let record ← Js.orThrow session (threadNotReady "Secure session is not ready yet")
  Js.ensure (isSessionUsable record.status) (threadNotReady "Secure session is not ready yet")
  let (packet, snapshot) ← callCore (.encryptForPeer record.ratchetSnapshot peer plaintextBytes)
  let now ← clock
  let stored ← Sessions.put
    { record with
      localAccountId := owner
      peerAccountId := peer
      ratchetSnapshot := snapshot
      updatedAtMs := now }
  return {
    peerLinkId := link.peerLinkId
    sessionId := stored.sessionId
    encryptedPacket := packet
    sessionState := stored.status }

structure DecryptResult where
  plaintextBytes : Bytes
  encrypted : Bool
  snapshot : PeerLinkSnapshot
  event : Option EventRecord
  commitError : Option CommitError
  peerDeviceId : Option Id
deriving DecidableEq

def rehandshakeDecryptFailureThreshold : Nat := 3
def healthySessionDecryptGuardMs : Nat := 30 * 1000

/-- `pending_remote_confirm` becomes `active` on the first decrypt. -/
def confirmedStatus : SessionStatus → SessionStatus
  | .pendingRemoteConfirm => .active
  | s => s

/-- Store the advanced ratchet of a successful decrypt: through the session
commit when it confirms the link, else by a put alone. Common to both decrypt
functions.
mirrors src/peer-link/PeerLinkService.js:2609-2658 and 2742-2788 -/
def commitDecrypt [DecidableEq Snap] (svc : Service Snap) (owner peer : Id) (link : PeerLinkRecord)
    (record : SessionRecord Snap) (opened : Opened) (advanced : Snap) : Sdk Snap DecryptResult :=
  if link.state ≠ .sessionEstablished ∨ confirmedStatus record.status ≠ record.status then do
    let now ← clock
    let commit ← commitSessionAfterDecrypt svc
      { owner
        peerLinkRecord := link
        peer
        ratchet := some advanced
        sessionStatus := confirmedStatus record.status
        peerLinkState := .sessionEstablished
        existingSession := some record
        resetSessionCreatedAt := false
        peerInboxId := none
        eventType := .sessionEstablished
        eventSummary := "Secure session confirmed"
        eventDetails := [("sessionId", some record.sessionId.val), ("peerAccountId", some peer.val)]
        atMs := now }
    return {
      plaintextBytes := opened.plaintextBytes
      encrypted := opened.encrypted
      snapshot := commit.snapshot
      event := commit.event
      commitError := commit.commitError
      peerDeviceId := none }
  else do
    let now ← clock
    let _ ← Sessions.put
      { record with
        localAccountId := owner
        peerAccountId := peer
        status := confirmedStatus record.status
        ratchetSnapshot := advanced
        updatedAtMs := now }
    let snapshot ← buildSnapshot link
    return {
      plaintextBytes := opened.plaintextBytes
      encrypted := opened.encrypted
      snapshot
      event := none
      commitError := none
      peerDeviceId := none }

def countFailure (key : String) : Sdk Snap Nat := .ask (.countFailure key) fun n => .ret (.ok n)

/-- The codec could not open the packet: count it and throw.
mirrors src/peer-link/PeerLinkService.js:2591-2602 -/
def decryptFailed {α : Type} (owner peer link : Id) : Sdk Snap α := do
  let n ← countFailure (counterKey owner peer)
  throw
    { message := "E2EE decryption failed — possible ratchet desync for peer " ++ peer.val
      code := some "DECRYPT_FAILED"
      info := .decryptFailed peer link n (rehandshakeDecryptFailureThreshold ≤ n) }

/-- mirrors src/peer-link/PeerLinkService.js:2545-2659 -/
def decryptDirectMessage [DecidableEq Snap] (svc : Service Snap) (owner peer : Id)
    (packetBytes : Bytes) : Sdk Snap DecryptResult := do
  Js.ensure (!packetBytes.isEmpty)
    { message := "decryptDirectMessage requires non-empty packetBytes" }
  let found ← PeerLinks.getByPair owner peer
  let link ← Js.orThrow found (threadNotReady "Secure session is not ready yet")
  let session ← Sessions.getByPeerLinkId owner link.peerLinkId
  let record ← Js.orThrow session (threadNotReady "Secure session is not ready yet")
  Js.ensure (isSessionUsable record.status) (threadNotReady "Secure session is not ready yet")
  let (opened, advanced) ← callCore (.decryptIncoming record.ratchetSnapshot packetBytes)
  Js.ensure (opened.encrypted || opened.handshake)
    (.coded "PLAINTEXT_REJECTED" "Plaintext packet rejected — secure session exists")
  if opened.encrypted && opened.peerId.isNone && !opened.handshake then
    decryptFailed owner peer link.peerLinkId
  else do
    clearCounts (counterKey owner peer)
    commitDecrypt svc owner peer link record opened advanced

/-! ## Trial decryption over every link -/

/-- How the trial of one link ended. -/
inductive RowOutcome
  | hit (r : DecryptResult)
  | skip
  | miss

/-- A device session of the link opened the packet.
mirrors src/peer-link/PeerLinkService.js:2694-2707 -/
def deviceHit (owner : Id) (row : PeerLinkRecord) (plaintext : Bytes) (device : Id) :
    Sdk Snap RowOutcome := do
  clearCounts (counterKey owner row.peerAccountId)
  let now ← clock
  markSuccess (counterKey owner row.peerAccountId) now
  let snapshot ← buildSnapshot row
  return .hit {
    plaintextBytes := plaintext
    encrypted := true
    snapshot
    event := none
    commitError := none
    peerDeviceId := some device }

/-- The legacy session of one link.
mirrors src/peer-link/PeerLinkService.js:2709-2788 -/
def tryLegacy [DecidableEq Snap] (svc : Service Snap) (owner : Id) (packetBytes : Bytes)
    (row : PeerLinkRecord) : Sdk Snap RowOutcome := do
  let session ← Sessions.getByPeerLinkId owner row.peerLinkId
  match session with
  | none => return .skip
  | some record =>
    if !isSessionUsable record.status then return .skip
    else do
      let (opened, advanced) ← callCore (.decryptIncoming record.ratchetSnapshot packetBytes)
      if !opened.opened then return .miss
      else do
        clearCounts (counterKey owner row.peerAccountId)
        let now ← clock
        markSuccess (counterKey owner row.peerAccountId) now
        let r ← commitDecrypt svc owner row.peerAccountId row record opened advanced
        return .hit r

/-- mirrors src/peer-link/PeerLinkService.js:2681-2789 (the loop body) -/
def tryRow [DecidableEq Snap] (svc : Service Snap) (owner : Id) (packetBytes : Bytes)
    (row : PeerLinkRecord) : Sdk Snap RowOutcome :=
  if svc.hasDeviceSessions then do
    let hit ← trialDecryptAcrossDevices svc owner (some row.peerAccountId) row.peerLinkId
      packetBytes
    match hit with
    | some (device, plaintext, _) => deviceHit owner row plaintext device
    | none => tryLegacy svc owner packetBytes row
  else tryLegacy svc owner packetBytes row

def countMiss (key : String) : Sdk Snap (Nat × Nat) := .ask (.countMiss key) fun n => .ret (.ok n)

/-- mirrors src/peer-link/PeerLinkService.js:2804-2821 -/
def recoveryCandidates (owner : Id) (nowMs : Nat) :
    List PeerLinkRecord → Sdk Snap (List RecoveryCandidate)
  | [] => pure []
  | row :: rows => do
    let (misses, lastSuccessAt) ← countMiss (counterKey owner row.peerAccountId)
    let rest ← recoveryCandidates owner nowMs rows
    return {
      peerAccountId := row.peerAccountId
      peerLinkId := row.peerLinkId
      consecutiveMisses := misses
      rehandshakeNeeded := decide (rehandshakeDecryptFailureThreshold ≤ misses) &&
        !(decide (0 < lastSuccessAt) &&
          decide (nowMs - lastSuccessAt < healthySessionDecryptGuardMs))
      } :: rest

/-- The loop over the owner's links; `candidates` are the links whose usable
session did not open the packet. -/
def anyPeerLoop [DecidableEq Snap] (svc : Service Snap) (owner : Id) (packetBytes : Bytes) :
    List PeerLinkRecord → List PeerLinkRecord → Sdk Snap DecryptResult
  | [], candidates => do
    let nowMs ← clock
    let cs ← recoveryCandidates owner nowMs candidates
    throw { message := "No peer link could decrypt packet", code := some "THREAD_NOT_READY",
            info := .recoveryCandidates cs }
  | row :: rows, candidates => do
    let outcome ← tryRow svc owner packetBytes row
    match outcome with
    | .hit r => return r
    | .skip => anyPeerLoop svc owner packetBytes rows candidates
    | .miss => anyPeerLoop svc owner packetBytes rows (candidates ++ [row])

/-- mirrors src/peer-link/PeerLinkService.js:2665-2823 -/
def decryptDirectMessageAnyPeer [DecidableEq Snap] (svc : Service Snap) (owner : Id)
    (packetBytes : Bytes) : Sdk Snap DecryptResult := do
  Js.ensure (!packetBytes.isEmpty)
    { message := "decryptDirectMessageAnyPeer requires non-empty packetBytes" }
  let rows ← PeerLinks.listByOwner svc.core owner
  anyPeerLoop svc owner packetBytes rows []

end RezSdk.L3
