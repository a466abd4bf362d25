import RezSdk.L2Storage.Stores

/-!
# Per-device sessions (`DevicePeerSessions.js`)

One independent ratchet session per peer device. Every load, codec call and
put of one device session runs under the promise-chain lock of its (owner,
link, device); `trialDecryptAcrossDevices` lists the sessions outside any
lock and re-reads each one inside its own.
-/
namespace RezSdk.L3

open RezSdk.L1 RezSdk.L2

variable {Snap : Type}

/-- What a `PeerLinkService` is constructed with. -/
structure Service (Snap : Type) where
  core : Core Snap
  strictTransitions : Bool
  /-- a device key was supplied, so `#devicePeerSessions` exists -/
  hasDeviceSessions : Bool
  allowLegacyAccountIdentityDhAdoption : Bool
  inviteCapabilityId : Option Id

/-- Chain after the key's tail, wait for it, run `body`, and settle whether it
resolved or rejected. Models both mutexes: the entry's removal runs right
after the promise settles, before anyone waiting for it goes on.
mirrors src/peer-link/PeerLinkService.js:128-149 (`withLock`) and
src/peer-link/DevicePeerSessions.js:79-90 (`#withLock`) -/
def withLock {α : Type} (k : LockKey) (body : Sdk Snap α) : Sdk Snap α :=
  .ask (.chain k) fun ticket => .ask (.enter k ticket.1 ticket.2) fun _ =>
    Proc.bind body fun r => .ask (.release k ticket.2) fun _ => .ret r

/-- mirrors src/peer-link/DevicePeerSessions.js:70-72 -/
def deviceLock (owner link device : Id) : LockKey :=
  (.deviceSessions, owner.val ++ "::" ++ link.val ++ "::" ++ device.val)

def noDeviceSession (device : Id) : Err :=
  .coded "THREAD_NOT_READY" ("No secure session for device " ++ device.val)

/-- mirrors src/peer-link/DevicePeerSessions.js:367-375 -/
def requireDeviceSession (owner link device : Id) : Sdk Snap (SessionRecord Snap) := do
  let record ← Sessions.getByPeerLinkAndDevice owner link device
  Js.orThrow record (noDeviceSession device)

/-- The session id of the device's record, or a new one. -/
def reuseSessionId : Option (SessionRecord Snap) → Sdk Snap Id
  | some r => pure r.sessionId
  | none => runtimeUuid

/-- mirrors src/peer-link/DevicePeerSessions.js:347-365 -/
def persistDeviceSession (owner peer link device : Id) (snapshot : Snap) : Sdk Snap Id := do
  let now ← clock
  let existing ← Sessions.getByPeerLinkAndDevice owner link device
  let sid ← reuseSessionId existing
  let stored ← Sessions.put
    { sessionId := sid
      peerLinkId := link
      localAccountId := owner
      peerAccountId := peer
      peerDeviceId := some device
      status := .active
      ratchetSnapshot := snapshot
      createdAtMs := match existing with
        | some r => asPositiveInt r.createdAtMs now
        | none => now
      updatedAtMs := now
      version := 0 }
  return stored.sessionId

structure InitiatorArgs where
  owner : Id
  peer : Id
  link : Id
  device : Id
  bundle : Bytes
  identity : KeyPair
  identityDh : KeyPair
deriving DecidableEq

/-- mirrors src/peer-link/DevicePeerSessions.js:120-150 -/
def establishInitiatorDeviceSession (svc : Service Snap) (a : InitiatorArgs) :
    Sdk Snap (HandshakeData × Id) := do
  let signature ← callCore (.sign a.identity.privateKey (svc.core.keyBytes a.identityDh.publicKey))
  let (handshake, snapshot) ← callCore (.processAcceptedInvite
    { bundle := a.bundle
      peerId := a.peer
      identity := a.identity
      identityDh := a.identityDh
      identityDhSignature := signature })
  let sid ← withLock (deviceLock a.owner a.link a.device)
    (persistDeviceSession a.owner a.peer a.link a.device snapshot)
  return (handshake, sid)

structure ResponderArgs where
  owner : Id
  peer : Id
  link : Id
  device : Id
  identityDh : KeyPair
  preKeyState : Bytes
  handshake : HandshakeData
deriving DecidableEq

/-- mirrors src/peer-link/DevicePeerSessions.js:157-203 -/
def establishResponderDeviceSession (svc : Service Snap) (a : ResponderArgs) :
    Sdk Snap (Id × Id) := do
  let (sender, snapshot) ← callCore (.completeInviteHandshake
    { preKeyState := a.preKeyState
      identityDhPrivate := a.identityDh.privateKey
      handshake := a.handshake
      peerId := a.peer })
  let key ← Js.orThrow sender (.coded "DEVICE_HANDSHAKE_UNAUTHENTICATED"
    "establishResponderDeviceSession: handshake yielded no authenticated device key")
  let authenticated := svc.core.deviceIdFor key
  Js.ensure (authenticated = a.device) (.coded "DEVICE_ID_MISMATCH"
    ("establishResponderDeviceSession: claimed peerDeviceId does not match "
      ++ "the authenticated device key (claimed " ++ a.device.val
      ++ ", authenticated " ++ authenticated.val ++ ")"))
  let sid ← withLock (deviceLock a.owner a.link a.device)
    (persistDeviceSession a.owner a.peer a.link a.device snapshot)
  return (sid, authenticated)

/-- mirrors src/peer-link/DevicePeerSessions.js:218-238 (the locked part of
`encryptForDevice`) -/
def encryptLocked (owner peer link device : Id) (plaintextBytes : Bytes) :
    Sdk Snap (Bytes × Id) := do
  let record ← requireDeviceSession owner link device
  let (packet, snapshot) ← callCore (.encryptForPeer record.ratchetSnapshot peer plaintextBytes)
  let now ← clock
  let _ ← Sessions.put { record with ratchetSnapshot := snapshot, updatedAtMs := now }
  return (packet, record.sessionId)

/-- mirrors src/peer-link/DevicePeerSessions.js:209-240 -/
def encryptForDevice (owner peer link device : Id) (plaintextBytes : Bytes) :
    Sdk Snap (Bytes × Id) := do
  Js.ensure (!plaintextBytes.isEmpty)
    { message := "encryptForDevice requires non-empty plaintextBytes" }
  withLock (deviceLock owner link device) (encryptLocked owner peer link device plaintextBytes)

/-- The packet is encrypted traffic of the expected peer.
mirrors src/peer-link/DevicePeerSessions.js:325-334 -/
def isFrom (expected : Id) (r : Opened) : Bool :=
  r.encrypted && !r.handshake && r.peerId = some expected

/-- mirrors src/peer-link/DevicePeerSessions.js:313-340 -/
def tryDecrypt (record : SessionRecord Snap) (expected : Id) (packetBytes : Bytes) :
    Sdk Snap (Option Bytes) := do
  Js.ensure (!packetBytes.isEmpty) { message := "decrypt requires non-empty packetBytes" }
  let (opened, snapshot) ← callCore (.decryptIncoming record.ratchetSnapshot packetBytes)
  if isFrom expected opened then
    let now ← clock
    let _ ← Sessions.put { record with ratchetSnapshot := snapshot, updatedAtMs := now }
    return some opened.plaintextBytes
  else return none

/-- The locked part of `#attemptDeviceDecrypt`. -/
def decryptLocked (owner : Id) (peer : Option Id) (link device : Id) (packetBytes : Bytes)
    (require : Bool) : Sdk Snap (Option (Bytes × Id)) := do
  let found ← Sessions.getByPeerLinkAndDevice owner link device
  match found with
  | none => if require then throw (noDeviceSession device) else return none
  | some record => do
    let plaintext ← tryDecrypt record (peer.getD record.peerAccountId) packetBytes
    return plaintext.map fun p => (p, record.sessionId)

/-- mirrors src/peer-link/DevicePeerSessions.js:296-311 -/
def attemptDeviceDecrypt (owner : Id) (peer : Option Id) (link device : Id) (packetBytes : Bytes)
    (require : Bool) : Sdk Snap (Option (Bytes × Id)) :=
  withLock (deviceLock owner link device)
    (decryptLocked owner peer link device packetBytes require)

/-- mirrors src/peer-link/DevicePeerSessions.js:246-260 -/
def decryptFromDevice (owner : Id) (peer : Option Id) (link device : Id) (packetBytes : Bytes) :
    Sdk Snap (Bytes × Id) := do
  let result ← attemptDeviceDecrypt owner peer link device packetBytes true
  Js.orThrow result
    (.coded "DECRYPT_FAILED" ("E2EE decryption failed for device " ++ device.val))

/-- The loop of `trialDecryptAcrossDevices`. -/
def trialLoop (owner : Id) (peer : Option Id) (link : Id) (packetBytes : Bytes) :
    List (SessionRecord Snap) → Sdk Snap (Option (Id × Bytes × Id))
  | [] => pure none
  | record :: rest =>
    match record.peerDeviceId with
    | none => trialLoop owner peer link packetBytes rest
    | some device => do
      let result ← attemptDeviceDecrypt owner peer link device packetBytes false
      match result with
      | some (plaintext, sid) => return some (device, plaintext, sid)
      | none => trialLoop owner peer link packetBytes rest

/-- mirrors src/peer-link/DevicePeerSessions.js:269-287 -/
def trialDecryptAcrossDevices (svc : Service Snap) (owner : Id) (peer : Option Id) (link : Id)
    (packetBytes : Bytes) : Sdk Snap (Option (Id × Bytes × Id)) := do
  let sessions ← Sessions.listByPeerLink svc.core owner link
  trialLoop owner peer link packetBytes sessions

end RezSdk.L3
