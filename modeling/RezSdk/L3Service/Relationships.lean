import RezSdk.L3Service.Commit

/-!
# Reading links, and links replicated from a sibling device

`upsertPeerRelationship` records a contact of a sibling device without a
session. `getPeerLink` and `listPeerLinks` project links to snapshots, and
move a `handshake_sent` link whose ack is overdue to `failed` on the way.
-/
namespace RezSdk.L3

open RezSdk.L1 RezSdk.L2

variable {Snap : Type}

structure RelationshipArgs where
  owner : Id
  peer : Id
  peerLinkId : Option Id
  peerInboxId : Option Id
  remoteAccountIdentityPublicKeyB64 : Option Id
  remoteIdentityDhPublicKeyB64 : Option Id
  nowMs : Nat
deriving DecidableEq

def relationshipIncomplete : Err :=
  { message := "upsertPeerRelationship requires peerLinkId, peerInboxId, "
      ++ "remoteAccountIdentityPublicKeyB64, remoteIdentityDhPublicKeyB64" }

/-- The replicated row: established, with no session of its own. -/
def replicatedLink (a : RelationshipArgs) (link inbox account dh : Id) (now : Nat) :
    PeerLinkRecord :=
  { peerLinkId := link
    localAccountId := a.owner
    peerAccountId := a.peer
    remoteIdentitySigningPublicKeyB64 := none
    remoteIdentityDhPublicKeyB64 := some dh
    remoteAccountIdentityPublicKeyB64 := some account
    state := .sessionEstablished
    activeInviteId := none
    activeSessionId := none
    peerInboxId := some inbox
    relationshipReplicated := true
    lastStateChangeAtMs := asPositiveInt a.nowMs now
    lastErrorCode := none
    lastErrorMessage := none
    version := 1 }

/-- mirrors src/peer-link/PeerLinkService.js:1331-1371 -/
def upsertPeerRelationship (a : RelationshipArgs) : Sdk Snap PeerLinkRecord := do
  let link ← Js.orThrow a.peerLinkId relationshipIncomplete
  let inbox ← Js.orThrow a.peerInboxId relationshipIncomplete
  let account ← Js.orThrow a.remoteAccountIdentityPublicKeyB64 relationshipIncomplete
  let dh ← Js.orThrow a.remoteIdentityDhPublicKeyB64 relationshipIncomplete
  let existing ← PeerLinks.getByPair a.owner a.peer
  match existing with
  | some e => return e
  | none => do
    let now ← clock
    PeerLinks.create (replicatedLink a link inbox account dh now)

def handshakeAckTimeoutMs : Nat := 5 * 60 * 1000

/-- The row as it expires. -/
def expiredLink (r : PeerLinkRecord) (nowMs : Nat) : PeerLinkRecord :=
  { r with
    state := .failed
    lastStateChangeAtMs := nowMs
    lastErrorCode := some "HANDSHAKE_ACK_TIMEOUT"
    lastErrorMessage := some "Handshake timed out — connection could not be established" }

/-- The body of the `try`: move the link, and log the expiry. -/
def expireHandshake (r : PeerLinkRecord) (elapsed nowMs : Nat) : Sdk Snap PeerLinkRecord := do
  let updated ← PeerLinks.update (expiredLink r nowMs) r.version
  let _ ← appendPeerLinkEvent r.localAccountId r.peerLinkId .handshakeExpired
    (some "Handshake timed out")
    [("elapsedMs", some (toString elapsed)), ("peerAccountId", some r.peerAccountId.val)] nowMs
  return updated

/-- A clock behind the link's last change gives a negative time, which is not
overdue either.
mirrors src/peer-link/PeerLinkService.js:2435-2465 -/
def expireHandshakeIfStale (r : PeerLinkRecord) : Sdk Snap PeerLinkRecord :=
  if r.state ≠ .handshakeSent then pure r
  else do
    let at_ ← clock
    if at_ - r.lastStateChangeAtMs < handshakeAckTimeoutMs then return r
    else do
      let nowMs ← clock
      (expireHandshake r (at_ - r.lastStateChangeAtMs) nowMs).attempt fun
        | .ok updated => pure updated
        | .error _ => do
          let fresh ← PeerLinks.getById r.localAccountId r.peerLinkId
          return fresh.getD r

/-- mirrors src/peer-link/PeerLinkService.js:3588-3600 -/
def getPeerLink (owner link : Id) : Sdk Snap (Option PeerLinkSnapshot) := do
  let found ← PeerLinks.getById owner link
  match found with
  | none => return none
  | some r => do
    let r ← expireHandshakeIfStale r
    let snapshot ← buildSnapshot r
    return some snapshot

/-- The loop of `listPeerLinks`. -/
def snapshotRows : List PeerLinkRecord → Sdk Snap (List PeerLinkSnapshot)
  | [] => pure []
  | row :: rows => do
    let row ← expireHandshakeIfStale row
    let snapshot ← buildSnapshot row
    let rest ← snapshotRows rows
    return snapshot :: rest

/-- mirrors src/peer-link/PeerLinkService.js:4165-4178 -/
def listPeerLinks (svc : Service Snap) (owner : Id) : Sdk Snap (List PeerLinkSnapshot) := do
  let rows ← PeerLinks.listByOwner svc.core owner
  let items ← snapshotRows rows
  return items.insertionSort fun left right => right.updatedAtMs ≤ left.updatedAtMs

end RezSdk.L3
