import RezSdk.L3Service.AccountKeys
import RezSdk.L3Service.DeviceSessions

/-!
# Device sets (`PeerLinkService.js` and `deviceSetPublish.js`)

An account publishes the set of its devices with a pre-key bundle for each,
sealed to one peer (`buildDeviceSetRecordForPeer`); the peer opens and checks
it and establishes a session with every device it has none with yet
(`ingestPeerDeviceSet`), and the device completes the handshakes that come
back with the pre-key state it has retained (`completeDeviceSetResponder`).
-/
namespace RezSdk.L3

open RezSdk.L1 RezSdk.L2

variable {Snap : Type}

/-- A `PeerLinkService` that was constructed with a device key, for the
account `owner`. -/
structure DeviceService (Snap : Type) extends Service Snap where
  owner : Id
  deviceId : Id
  devicePublicKeyB64 : Id
  deviceSigningKeyPair : KeyPair
  /-- `inviteBinding.mailboxId` -/
  mailboxId : Option Id
  hasAdminRoot : Bool
  inviteOwnerPublicKeyB64 : Id
  inviteCertChain : List Bytes

def deviceSetTtlMs : Nat := 30 * 24 * 60 * 60 * 1000
def deviceSetMaxFutureSkewMs : Nat := 5 * 60000
def sealAad : String := "rez:device-set:v1"

/-- The "peer" under which the account-wide pre-key window is kept. -/
def accountDeviceBundlePeerSentinel : Id := ⟨"@self-device-bundle", by decide⟩

def accountDeviceBundlePrekeyRetention : Nat := 3

/-- mirrors src/peer-link/PeerLinkService.js:495-500 -/
def requireDeviceSessions (svc : DeviceService Snap) : Sdk Snap Unit :=
  Js.ensure svc.hasDeviceSessions
    { message :=
        "PeerLinkService has no device key (construct with deviceKeyPair for per-device sessions)" }

/-! ## This device's identity -/

/-- The stored identity-DH key of a device, when both halves are there. -/
def storedDeviceDh (stored : Option StoredDeviceIdentity) : Option KeyPair :=
  (stored.bind (·.x3dhIdentityDhKeyMaterial)).bind pairOf

def DeviceService.identityRecord (svc : DeviceService Snap) (dh : KeyPair) : StoredDeviceIdentity :=
  ⟨svc.deviceId, some svc.devicePublicKeyB64, some ⟨some dh.publicKey, some dh.privateKey⟩⟩

/-- The device's signing and identity-DH keys; the latter is generated and
stored at first use.
mirrors src/peer-link/PeerLinkService.js:508-541 -/
def loadDeviceIdentity (svc : DeviceService Snap) : Sdk Snap (KeyPair × KeyPair) := do
  requireDeviceSessions svc
  let stored ← kvGet (.deviceIdentity svc.owner svc.deviceId)
  match storedDeviceDh stored with
  | some dh => return (svc.deviceSigningKeyPair, dh)
  | none => do
    let dh ← callCore .dhGenerateKeyPair
    kvSet (.deviceIdentity svc.owner svc.deviceId) (svc.identityRecord dh)
    return (svc.deviceSigningKeyPair, dh)

/-- mirrors src/peer-link/PeerLinkService.js:2120-2128 -/
def getOrCreateAccountBindingChallenge (svc : Service Snap) (owner : Id) : Sdk Snap Id := do
  let keys ← loadAccountKeyRecord svc owner
  return keys.signing.publicKey

/-- mirrors src/peer-link/PeerLinkService.js:2130-2140 -/
def upsertAccountBinding (svc : Service Snap) (owner : Id) (binding : AccountBinding) :
    Sdk Snap AccountBinding := do
  let keys ← loadAccountKeyRecord svc owner
  kvSet (.identity owner) { keys with accountBinding := some binding }.toStored
  return binding

/-- mirrors src/peer-link/PeerLinkService.js:559-567 -/
def establishInitiatorSession (svc : DeviceService Snap) (owner peer link device : Id)
    (bundle : Bytes) : Sdk Snap (HandshakeData × Id) := do
  requireDeviceSessions svc
  let (identity, identityDh) ← loadDeviceIdentity svc
  establishInitiatorDeviceSession svc.toService
    { owner, peer, link, device, bundle, identity, identityDh }

/-- mirrors src/peer-link/PeerLinkService.js:573-581 -/
def establishResponderSession (svc : DeviceService Snap) (owner peer link device : Id)
    (preKeyState : Bytes) (handshake : HandshakeData) : Sdk Snap (Id × Id) := do
  requireDeviceSessions svc
  let (_, identityDh) ← loadDeviceIdentity svc
  establishResponderDeviceSession svc.toService
    { owner, peer, link, device, identityDh, preKeyState, handshake }

/-! ## Publishing -/

structure PeerContext where
  peerLinkId : Id
  peerIdentityDhPublicKeyB64 : Id
  peerAccountPublicKeyB64 : Id

/-- mirrors src/peer-link/PeerLinkService.js:603-624 -/
def requirePeerDeviceSetContext (owner peer : Id) : Sdk Snap PeerContext := do
  let found ← PeerLinks.getByPair owner peer
  let link ← Js.orThrow found
    (.coded "PEER_LINK_NOT_FOUND" ("no peer link for device-set exchange with " ++ peer.val))
  let unsupported := Err.coded "PEER_LINK_DEVICE_SET_UNSUPPORTED"
    "peer link is missing the persisted peer identity material for device-set exchange"
  let dh ← Js.orThrow link.remoteIdentityDhPublicKeyB64 unsupported
  let account ← Js.orThrow link.remoteAccountIdentityPublicKeyB64 unsupported
  return ⟨link.peerLinkId, dh, account⟩

/-- mirrors src/peer-link/PeerLinkService.js:548-552 and
src/peer-link/DevicePeerSessions.js:99-110 -/
def buildDevicePreKeyBundle (svc : DeviceService Snap) (owner : Id) : Sdk Snap (Bytes × Bytes) := do
  requireDeviceSessions svc
  let (identity, identityDh) ← loadDeviceIdentity svc
  callCore (.prepareInviteBinding { accountId := owner, identity, identityDh })

/-- This device's signed bundle, and the state to retain for it.
mirrors src/peer-link/PeerLinkService.js:736-761 -/
def buildOwnDeviceBundle (svc : DeviceService Snap) (owner account inboxId : Id) (nowMs : Nat) :
    Sdk Snap (PrekeyBundle × Bytes) := do
  let (bundleJson, preKeyState) ← buildDevicePreKeyBundle svc owner
  let body : PrekeyBundleBody :=
    { accountIdentityPublicKeyB64 := account
      devicePublicKeyB64 := svc.devicePublicKeyB64
      deviceId := svc.deviceId
      inboxId
      prekeyVersion := 1
      bundleJson
      issuedAtMs := nowMs
      expiresAtMs := nowMs + deviceSetTtlMs }
  let sigB64 ← callCore
    (.sign svc.deviceSigningKeyPair.privateKey (svc.core.prekeyBundleSignable body))
  let bundle : PrekeyBundle := { body with sigB64 }
  Js.ofExcept (svc.core.checkBundle bundle)
  return (bundle, preKeyState)

/-- The retained window, newest first; a state from before the window existed
is a window of one.
mirrors src/peer-link/PeerLinkService.js:862-870 -/
def retainedStates (core : Core Snap) : Option StoredPreKey → List Bytes
  | none => []
  | some (.window states) => states.filter fun s => (core.signedPreKeyPublic s).isSome
  | some (.single state) => if core.hasSignedPreKeyPrivate state then [state] else []

def retainedAccountPreKeyStates (core : Core Snap) (owner : Id) : Sdk Snap (List Bytes) := do
  let stored ← kvGet (.devicePreKey owner accountDeviceBundlePeerSentinel)
  return retainedStates core stored

/-- The window with a new state in front. -/
def nextWindow (core : Core Snap) (state : Bytes) (retained : List Bytes) : List Bytes :=
  (state :: retained.filter fun s => core.signedPreKeyPublic s ≠ core.signedPreKeyPublic state).take
    accountDeviceBundlePrekeyRetention

/-- mirrors src/peer-link/PeerLinkService.js:818-853 -/
def buildAndRetainAccountDeviceBundle (svc : DeviceService Snap) (owner : Id) (nowMs : Option Nat)
    (inboxIdOverride : Option (Option Id)) : Sdk Snap PrekeyBundle := do
  requireDeviceSessions svc
  let now ← clock
  let atMs := asPositiveInt (nowMs.getD 0) now
  let inboxId ← Js.orThrow (inboxIdOverride.getD svc.mailboxId)
    { message :=
        "buildAndRetainAccountDeviceBundle requires inviteBinding.mailboxId (this device's inbox)" }
  let identity ← requireBoundX3dhIdentity svc.toService owner
  let account ← Js.orThrow identity.accountBinding.accountIdentityPublicKeyB64
    { message := "buildAndRetainAccountDeviceBundle requires a bound account identity" }
  let (bundle, preKeyState) ← buildOwnDeviceBundle svc owner account inboxId atMs
  let retained ← retainedAccountPreKeyStates svc.core owner
  kvSet (.devicePreKey owner accountDeviceBundlePeerSentinel)
    (.window (nextWindow svc.core preKeyState retained))
  return bundle

/-- Who signs a device set: the account key, or the device key under a chain of
certificates. -/
structure SetSigner where
  accountPublicKeyB64 : Id
  signerPublicKeyB64 : Id
  certChain : List Bytes

/-- mirrors src/peer-link/PeerLinkService.js:634-653 -/
def resolveAccountIdentitySigner (svc : DeviceService Snap) (owner : Id) : Sdk Snap SetSigner := do
  let signer ← callCore (.authoritySigner owner)
  let account ← Js.orThrow signer
    { message := "account identity signer must expose signerPublicKeyB64 to publish a device set" }
  let derived ← Js.orThrow (svc.core.deriveAccountId account) svc.core.base64Error
  Js.ensure (derived = owner)
    { message := "account identity signer public key does not derive the owner accountId" }
  let identity ← requireBoundX3dhIdentity svc.toService owner
  Js.ensure (identity.accountBinding.accountIdentityPublicKeyB64 = some account)
    { message := "account identity signer public key disagrees with the account binding" }
  return ⟨account, account, []⟩

/-- mirrors src/peer-link/PeerLinkService.js:665-684 -/
def resolveDelegatedAccountIdentitySigner (svc : DeviceService Snap) (owner : Id) :
    Sdk Snap SetSigner := do
  let account := svc.inviteOwnerPublicKeyB64
  let derived ← Js.orThrow (svc.core.deriveAccountId account) svc.core.base64Error
  Js.ensure (derived = owner)
    { message := "device-set delegated signer: "
        ++ "the account capability chain anchor does not derive the owner accountId" }
  let identity ← requireBoundX3dhIdentity svc.toService owner
  Js.ensure (identity.accountBinding.accountIdentityPublicKeyB64 = some account)
    { message :=
        "device-set delegated signer: the chain anchor disagrees with the account binding" }
  return ⟨account, svc.devicePublicKeyB64, svc.inviteCertChain⟩

/-- Sign with the key of the set's signer. -/
def setSign (svc : DeviceService Snap) (owner : Id) (msg : Bytes) : Sdk Snap Id :=
  if svc.hasAdminRoot then callCore (.authoritySign owner msg)
  else callCore (.sign svc.deviceSigningKeyPair.privateKey msg)

def setBody (core : Core Snap) (account : Id) (devices : List DeviceEntry) (nowMs revision : Nat) :
    DeviceSetBody :=
  { v := core.deviceSetVersion
    purpose := core.deviceSetPurpose
    accountIdentityPublicKeyB64 := account
    revision
    devices
    issuedAtMs := nowMs
    expiresAtMs := nowMs + deviceSetTtlMs }

/-- mirrors src/peer-link/PeerLinkService.js:694-730 -/
def buildLocalDeviceSetMaterial (svc : DeviceService Snap) (owner account : Id)
    (nowMs revision : Nat) : Sdk Snap (DeviceSetRecord × PrekeyBundle × Bytes) := do
  requireDeviceSessions svc
  let inboxId ← Js.orThrow svc.mailboxId
    { message := "PeerLinkService requires inviteBinding.mailboxId to publish a device set "
        ++ "(this device's inbox)" }
  let body :=
    setBody svc.core account [⟨svc.deviceId, svc.devicePublicKeyB64, inboxId⟩] nowMs revision
  let sigB64 ← setSign svc owner (svc.core.deviceSetSignable body)
  let deviceSet : DeviceSetRecord := { body with sigB64 }
  Js.ofExcept (svc.core.checkDeviceSet deviceSet)
  let (bundle, preKeyState) ← buildOwnDeviceBundle svc owner account inboxId nowMs
  return (deviceSet, bundle, preKeyState)

/-- The bundles of the account's devices, each checked to be the account's.
mirrors src/peer-link/PeerLinkService.js:773-789 -/
def readBundles (core : Core Snap) (account : Id) : List Bytes → Sdk Snap (List PrekeyBundle)
  | [] => pure []
  | entry :: rest =>
    match core.parseBundle entry with
    | .error e =>
      throw
        { message := "device-set aggregate: an account device bundle is invalid: " ++ e.message }
    | .ok bundle => do
      Js.ensure (bundle.accountIdentityPublicKeyB64 = account)
        { message := "device-set aggregate: a bundle does not belong to the publishing account" }
      let bundles ← readBundles core account rest
      return bundle :: bundles

def bundleEntry (b : PrekeyBundle) : DeviceEntry := ⟨b.deviceId, b.devicePublicKeyB64, b.inboxId⟩

/-- mirrors src/peer-link/PeerLinkService.js:770-807 -/
def buildAggregatedDeviceSetMaterial (svc : DeviceService Snap)
    (owner account : Id) (nowMs revision : Nat) (accountDeviceSet : List Bytes) :
    Sdk Snap (DeviceSetRecord × List PrekeyBundle) := do
  let bundles ← readBundles svc.core account accountDeviceSet
  Js.ensure (!bundles.isEmpty)
    { message := "device-set aggregate: the account device set is empty" }
  let devices := sortByText svc.core (·.deviceId.val) (bundles.map bundleEntry)
  let sorted := sortByText svc.core (·.deviceId.val) bundles
  let body := setBody svc.core account devices nowMs revision
  let sigB64 ← setSign svc owner (svc.core.deviceSetSignable body)
  let deviceSet : DeviceSetRecord := { body with sigB64 }
  Js.ofExcept (svc.core.checkDeviceSet deviceSet)
  return (deviceSet, sorted)

/-- mirrors src/peer-link/peerScopedSeal.js:40-58 -/
def derivePeerScopedKey (core : Core Snap) (myIdentityDhPrivate peerIdentityDhPublic : Id) :
    Sdk Snap (Bytes × String) := do
  let shared ← callCore (.dhDerive myIdentityDhPrivate peerIdentityDhPublic)
  Js.ensure (!shared.isEmpty)
    { message := "derivePeerScopedKey: dhDerive returned no shared secret" }
  let aeadKey ← callCore (.hkdfSha256 shared "rez:peer-scoped-seal:aead:v1" 32)
  let slotBytes ← callCore (.hkdfSha256 shared "rez:peer-scoped-seal:slot:v1" 16)
  return (aeadKey, core.bytesToHex slotBytes)

def requireAeadKey (aeadKey : Bytes) : Sdk Snap Unit :=
  Js.ensure (aeadKey.length = 32) { message := "peer-scoped seal requires a 32-byte aeadKey" }

/-- mirrors src/peer-link/peerScopedSeal.js:67-83 -/
def sealToPeer (core : Core Snap) (aeadKey plaintextBytes : Bytes) : Sdk Snap SealedPayload := do
  requireAeadKey aeadKey
  Js.ensure (!plaintextBytes.isEmpty) { message := "sealToPeer requires non-empty plaintextBytes" }
  let nonce ← callCore (.randomBytes 12)
  Js.ensure (nonce.length = 12) { message := "sealToPeer: randomBytes returned an invalid nonce" }
  let ciphertext ← callCore (.aeadEncrypt aeadKey nonce plaintextBytes sealAad)
  return ⟨some (core.bytesToBase64 nonce), some (core.bytesToBase64 ciphertext)⟩

/-- mirrors src/peer-link/deviceSetPublish.js:91-173 -/
def buildSealedDeviceSetRecord (svc : DeviceService Snap) (owner : Id) (signer : SetSigner)
    (myIdentityDhPrivate peerIdentityDhPublic : Id) (deviceSet : DeviceSetRecord)
    (bundles : List PrekeyBundle) (nowMs : Nat) : Sdk Snap DurableRecord := do
  Js.ensure (!bundles.isEmpty)
    { message := "buildSealedDeviceSetRecord requires at least one DevicePrekeyBundleV1" }
  let (aeadKey, slotRecordId) ← derivePeerScopedKey svc.core myIdentityDhPrivate
    peerIdentityDhPublic
  let payload ← sealToPeer svc.core aeadKey (svc.core.innerBytes deviceSet bundles)
  let skeleton : DurableSkeleton :=
    { v := 2
      recordKind := svc.core.deviceSetRecordKind
      recordId := slotRecordId
      ownerPublicKeyB64 := signer.accountPublicKeyB64.val
      signerPublicKeyB64 := signer.signerPublicKeyB64.val
      certChain := signer.certChain
      requiredCapability := svc.core.deviceSetPublishCapability
      payloadB64 := svc.core.payloadText payload
      issuedAtMs := nowMs
      expiresAtMs := nowMs + deviceSetTtlMs }
  let sig ← setSign svc owner (svc.core.durableSignable skeleton)
  return { skeleton with sigB64 := sig.val }

structure PublishArgs where
  owner : Id
  peer : Id
  nowMs : Option Nat
  revision : Nat
  /-- the account's devices, as JSON; empty when the caller has none -/
  accountDeviceSet : List Bytes
deriving DecidableEq

/-- The set and the bundles to seal. Without an aggregated device set this
device's own fresh bundle is built, and its state retained for the peer before
the bundle is handed out.
mirrors src/peer-link/PeerLinkService.js:907-919 -/
def deviceSetMaterial (svc : DeviceService Snap) (a : PublishArgs) (account : Id) (nowMs : Nat) :
    Sdk Snap (DeviceSetRecord × List PrekeyBundle) :=
  if a.accountDeviceSet.isEmpty then do
    let (deviceSet, bundle,
      preKeyState) ← buildLocalDeviceSetMaterial svc a.owner account nowMs a.revision
    kvSet (.devicePreKey a.owner a.peer) (.single preKeyState)
    return (deviceSet, [bundle])
  else buildAggregatedDeviceSetMaterial svc a.owner account nowMs a.revision a.accountDeviceSet

/-- mirrors src/peer-link/PeerLinkService.js:882-941 -/
def buildDeviceSetRecordForPeer (svc : DeviceService Snap) (a : PublishArgs) :
    Sdk Snap DurableRecord := do
  requireDeviceSessions svc
  let now ← clock
  let atMs := asPositiveInt (a.nowMs.getD 0) now
  Js.ensure (1 ≤ a.revision)
    { message := "buildDeviceSetRecordForPeer requires a positive integer revision" }
  let context ← requirePeerDeviceSetContext a.owner a.peer
  let signer ← if svc.hasAdminRoot then resolveAccountIdentitySigner svc a.owner
    else resolveDelegatedAccountIdentitySigner svc a.owner
  let identity ← requireBoundX3dhIdentity svc.toService a.owner
  let (deviceSet, bundles) ← deviceSetMaterial svc a signer.accountPublicKeyB64 atMs
  buildSealedDeviceSetRecord svc a.owner signer identity.identityDhKeyPair.privateKey
    context.peerIdentityDhPublicKeyB64 deviceSet bundles atMs

/-- Where a record is fetched from. -/
structure Coordinates where
  recordKind : String
  recordId : String
  publisherPublicKeyB64 : Id

/-- Where the peer publishes its set for this account.
mirrors src/peer-link/PeerLinkService.js:1404-1420 -/
def resolvePeerDeviceSetCoordinates (svc : DeviceService Snap) (owner peer : Id) :
    Sdk Snap Coordinates := do
  requireDeviceSessions svc
  let context ← requirePeerDeviceSetContext owner peer
  let identity ← requireBoundX3dhIdentity svc.toService owner
  let (_, slotRecordId) ← derivePeerScopedKey svc.core identity.identityDhKeyPair.privateKey
    context.peerIdentityDhPublicKeyB64
  return ⟨svc.core.deviceSetRecordKind, slotRecordId, context.peerAccountPublicKeyB64⟩

/-! ## Completing a handshake -/

/-- The retained state an initiator computed against: the one its handshake
names, or the newest when it names none.
mirrors src/peer-link/PeerLinkService.js:96-108 -/
def selectPreKeyStateFor (core : Core Snap) (retained : List Bytes) (handshake : HandshakeData) :
    Option Bytes :=
  match handshake.receiverSignedPreKeyPubB64 with
  | none => retained.head?
  | some named =>
    if named.isEmpty then retained.head?
    else retained.find? fun s => core.signedPreKeyPublic s = some named

/-- A stored pre-key as an object. -/
def preKeyObject (core : Core Snap) : StoredPreKey → Bytes
  | .single state => state
  | .window states => core.preKeyWindow states

/-- The state kept for this peer, or the one the window has for the
handshake.
mirrors src/peer-link/PeerLinkService.js:1293-1300 -/
def responderPreKeyState (svc : DeviceService Snap) (owner peer : Id) (handshake : HandshakeData) :
    Sdk Snap (Option Bytes) := do
  let own ← kvGet (.devicePreKey owner peer)
  match own with
  | some stored => return some (preKeyObject svc.core stored)
  | none => do
    let retained ← retainedAccountPreKeyStates svc.core owner
    return selectPreKeyStateFor svc.core retained handshake

/-- mirrors src/peer-link/PeerLinkService.js:1283-1314 -/
def completeDeviceSetResponder (svc : DeviceService Snap) (owner peer device : Id)
    (handshake : HandshakeData) : Sdk Snap (Id × Id) := do
  requireDeviceSessions svc
  let context ← requirePeerDeviceSetContext owner peer
  let found ← responderPreKeyState svc owner peer handshake
  let preKeyState ← Js.orThrow found
    (.coded "PEER_LINK_DEVICE_PREKEY_MISSING"
    ("no retained device pre-key state for peer " ++ peer.val))
  establishResponderSession svc owner peer context.peerLinkId device preKeyState handshake

/-! ## Opening a peer's set -/

def deviceSetMaxDevices : Nat := 8

/-- A field of the payload that has to be there.
mirrors src/peer-link/deviceSetPublish.js:372-377 (`requireNonEmptyString`) -/
def requireNonEmptyString (value : Option String) (label : String) : Sdk Snap String :=
  Js.orThrow (value.filter fun s => !s.isEmpty)
    { message := "device-set publish requires " ++ label }

/-- mirrors src/peer-link/peerScopedSeal.js:92-105 -/
def openFromPeer (aeadKey : Bytes) (nonceB64 ciphertextB64 : String) : Sdk Snap Bytes := do
  requireAeadKey aeadKey
  callCore (.aeadDecrypt aeadKey nonceB64 ciphertextB64 sealAad)

structure OpenArgs where
  record : DurableRecord
  myIdentityDhPrivate : Id
  peerIdentityDhPublic : Id
  peerAccount : Id
  nowMs : Nat
  /-- 0 stands for anything that is no positive integer -/
  maxDevices : Nat
  revocationState : Option Bytes
  /-- no bound when it is not finite -/
  maxFutureSkewMs : Option Int := some deviceSetMaxFutureSkewMs

/-- `!(Number.isFinite(maxFutureSkewMs) && issuedAtMs > nowMs + maxFutureSkewMs)` -/
def OpenArgs.withinSkew (a : OpenArgs) (issuedAtMs : Nat) : Bool :=
  match a.maxFutureSkewMs with
  | some skew => (issuedAtMs : Int) ≤ a.nowMs + skew
  | none => true

/-- The text of an error of `openSealedDeviceSetRecord`. -/
def openError (text : String) : Err := { message := "openSealedDeviceSetRecord: " ++ text }

/-- The envelope's checks; the key that signed it.
mirrors src/peer-link/deviceSetPublish.js:215-245 -/
def checkEnvelope (core : Core Snap) (a : OpenArgs) : Sdk Snap Id := do
  Js.ensure (1 ≤ a.maxDevices)
    { message := "openSealedDeviceSetRecord requires a positive integer maxDevices" }
  Js.ensure (a.record.recordKind = core.deviceSetRecordKind)
    (openError "record is not a device-set record")
  Js.ensure (a.record.v = 2) (openError "record is not a DurableRecordV2")
  Js.ensure (a.record.ownerPublicKeyB64 = a.peerAccount.val)
    (openError "owner is not the peer account identity")
  let outer ← callCore (.verifyDurableRecordV2 a.record a.nowMs a.revocationState)
  match outer with
  | .ok signer => return signer
  | .error reason => throw (openError ("durable record verification failed (" ++ reason ++ ")"))

/-- The JSON object sealed in the record.
mirrors src/peer-link/deviceSetPublish.js:247-266 -/
def openPayload (core : Core Snap) (a : OpenArgs) : Sdk Snap SealedInner := do
  let (aeadKey, slotRecordId) ← derivePeerScopedKey core a.myIdentityDhPrivate
    a.peerIdentityDhPublic
  Js.ensure (a.record.recordId = slotRecordId)
    (openError "recordId does not match the peer-derived slot")
  let envelope ← Js.ofExcept (core.parsePayload a.record.payloadB64)
  let nonceB64 ← requireNonEmptyString envelope.nonceB64 "payload.nonceB64"
  let ciphertextB64 ← requireNonEmptyString envelope.ciphertextB64 "payload.ciphertextB64"
  let plaintext ← openFromPeer aeadKey nonceB64 ciphertextB64
  Js.ofExcept (core.parseInner plaintext)

/-- mirrors src/peer-link/deviceSetPublish.js:268-302 -/
def openDeviceSet (core : Core Snap) (a : OpenArgs) (signer : Id) (inner : SealedInner) :
    Sdk Snap DeviceSetRecord := do
  let set ← Js.ofExcept (core.parseDeviceSet inner.deviceSet)
  Js.ensure (set.accountIdentityPublicKeyB64 = a.peerAccount)
    (openError "device set is not the peer account's")
  let signed ← callCore (.verify signer (core.deviceSetSignable set.toDeviceSetBody) set.sigB64)
  Js.ensure signed (openError "device set signature failed")
  Js.ensure (set.devices.length ≤ a.maxDevices) (openError ("device set exceeds maxDevices ("
    ++ toString set.devices.length ++ " > " ++ toString a.maxDevices ++ ")"))
  Js.ensure (a.nowMs < set.expiresAtMs) (openError "device set is stale (expired)")
  Js.ensure (a.withinSkew set.issuedAtMs) (openError "device set is issued too far in the future")
  return set

/-- The entry a device has in the set; a later entry replaces an earlier one. -/
def setByDeviceId (set : DeviceSetRecord) (device : Id) : Option DeviceEntry :=
  set.devices.reverse.find? fun d => d.deviceId = device

/-- mirrors src/peer-link/deviceSetPublish.js:315-353 (the loop's body) -/
def openBundle (core : Core Snap) (a : OpenArgs) (set : DeviceSetRecord) (seen : List Id)
    (raw : Bytes) : Sdk Snap PrekeyBundle := do
  let bundle ← Js.ofExcept (core.parseBundle raw)
  let device := bundle.deviceId.val
  Js.ensure (!seen.contains bundle.deviceId)
    (openError ("duplicate prekey bundle for device (" ++ device ++ ")"))
  let entry ← Js.orThrow (setByDeviceId set bundle.deviceId)
    (openError ("prekey bundle for a device not in the set (" ++ device ++ ")"))
  Js.ensure (bundle.devicePublicKeyB64 = entry.devicePublicKeyB64)
    (openError "prekey bundle device key disagrees with the set")
  Js.ensure (bundle.inboxId = entry.inboxId)
    (openError "prekey bundle inbox disagrees with the set")
  Js.ensure (bundle.accountIdentityPublicKeyB64 = a.peerAccount)
    (openError "prekey bundle account does not match the peer")
  Js.ensure (a.nowMs < bundle.expiresAtMs)
    (openError ("prekey bundle is stale (expired) for device (" ++ device ++ ")"))
  Js.ensure (a.withinSkew bundle.issuedAtMs)
    (openError ("prekey bundle is issued too far in the future for device (" ++ device ++ ")"))
  let signed ← callCore
    (.verify bundle.devicePublicKeyB64 (core.prekeyBundleSignable bundle.toPrekeyBundleBody)
    bundle.sigB64)
  Js.ensure signed (openError ("prekey bundle signature failed (" ++ device ++ ")"))
  return bundle

/-- Open the bundles in order; `seen` are the devices that have one. -/
def openBundles (core : Core Snap) (a : OpenArgs) (set : DeviceSetRecord) (seen : List Id) :
    List Bytes → Sdk Snap (List PrekeyBundle)
  | [] => pure []
  | raw :: rest => do
    let bundle ← openBundle core a set seen raw
    let bundles ← openBundles core a set (bundle.deviceId :: seen) rest
    return bundle :: bundles

/-- Verify a peer's sealed device set and take it apart.
mirrors src/peer-link/deviceSetPublish.js:204-370 -/
def openSealedDeviceSetRecord (core : Core Snap) (a : OpenArgs) :
    Sdk Snap (DeviceSetRecord × List PrekeyBundle) := do
  let signer ← checkEnvelope core a
  let inner ← openPayload core a
  let set ← openDeviceSet core a signer inner
  Js.ensure (inner.prekeyBundles.length ≤ a.maxDevices)
    (openError ("prekey bundle array exceeds maxDevices ("
    ++ toString inner.prekeyBundles.length ++ " > " ++ toString a.maxDevices ++ ")"))
  let bundles ← openBundles core a set [] inner.prekeyBundles
  -- the keys of the map are the distinct device ids, in the order of their first entries
  let declared := (set.devices.map (·.deviceId)).reverse.dedup.reverse
  let missing := declared.filter fun d => !(bundles.map (·.deviceId)).contains d
  Js.ensure (bundles.length = declared.length)
    (openError ("device set declares devices with no prekey bundle ("
      ++ ",".intercalate (missing.map (·.val)) ++ ")"))
  return (set, bundles)

/-! ## Ingesting it -/

/-- The lock of one (owner, peer)'s device set. -/
def ingestLock (owner peer : Id) : LockKey :=
  (.inviteClaims, "device-set-ingest:" ++ owner.val ++ ":" ++ peer.val)

/-- The part of a device set that its revision stands for.
mirrors src/peer-link/PeerLinkService.js:279-292 -/
def deviceSetAuthorityBinding (core : Core Snap) (set : DeviceSetRecord) : String :=
  core.authorityHash
    { v := set.v
      purpose := set.purpose
      accountIdentityPublicKeyB64 := set.accountIdentityPublicKeyB64
      revision := set.revision
      devices := sortByText core (·.deviceId.val) set.devices }

/-- The highest accepted revision and what was accepted at it. -/
structure Floor where
  revision : Nat
  binding : Option String
deriving DecidableEq

/-- Reads every shape a floor was ever stored in.
mirrors src/peer-link/PeerLinkService.js:1260-1267 -/
def readFloor : Option StoredFloor → Floor
  | none => ⟨0, none⟩
  | some (.bare revision) => ⟨revision, none⟩
  | some (.signed revision _) => ⟨revision, none⟩
  | some (.bound revision binding) => ⟨revision, binding⟩

def loadDeviceSetFloor (owner peer : Id) : Sdk Snap Floor := do
  let stored ← kvGet (.deviceSetFloor owner peer)
  return readFloor stored

/-- A text counts as a binding unless it is empty. -/
def Floor.anchor (f : Floor) : Option String := f.binding.filter fun s => !s.isEmpty

/-- mirrors src/peer-link/PeerLinkService.js:1270-1275 -/
def saveDeviceSetFloor (owner peer : Id) (revision : Nat) (binding : String) : Sdk Snap Unit :=
  kvSet (.deviceSetFloor owner peer)
    (.bound revision (if binding.isEmpty then none else some binding))

structure IngestArgs where
  owner : Id
  peer : Id
  record : DurableRecord
  nowMs : Option Nat
  maxDevices : Nat := deviceSetMaxDevices
  /-- 0 stands for anything that is no positive integer -/
  minRevision : Nat := 0
  revocationState : Option Bytes := none
deriving DecidableEq

/-- A device the sender has a new session with: its handshake has to be
delivered. -/
structure Established where
  peerDeviceId : Id
  handshakeData : HandshakeData
  sessionId : Id
deriving DecidableEq

structure Ingested where
  deviceSet : DeviceSetRecord
  prekeyBundles : List PrekeyBundle
  established : List Established
  reused : List Id
deriving DecidableEq

/-- A session for every device that has none.
mirrors src/peer-link/PeerLinkService.js:1220-1236 -/
def establishDevices (svc : DeviceService Snap) (owner peer link : Id) :
    List PrekeyBundle → Sdk Snap (List Established × List Id)
  | [] => pure ([], [])
  | bundle :: rest => do
    let existing ← Sessions.getByPeerLinkAndDevice owner link bundle.deviceId
    match existing with
    | some _ => do
      let (established, reused) ← establishDevices svc owner peer link rest
      return (established, bundle.deviceId :: reused)
    | none => do
      let (handshakeData,
        sessionId) ← establishInitiatorSession svc owner peer link bundle.deviceId bundle.bundleJson
      let (established, reused) ← establishDevices svc owner peer link rest
      return (⟨bundle.deviceId, handshakeData, sessionId⟩ :: established, reused)

def staleRevision (peer : Id) (revision floor : Nat) : Err where
  message := "ingestPeerDeviceSet: stale device-set revision " ++ toString revision
    ++ " < known " ++ toString floor ++ " for peer " ++ peer.val
  code := some "DEVICE_SET_STALE_REVISION"
  info := .staleRevision revision floor

def conflictingRevision (peer : Id) (revision : Nat) : Err where
  message := "ingestPeerDeviceSet: conflicting device set at revision " ++ toString revision
    ++ " for peer " ++ peer.val ++ " (equivocation)"
  code := some "DEVICE_SET_REVISION_EQUIVOCATION"
  info := .conflictingRevision revision

/-- The floor moves up to a newer revision, and takes the binding of the first
set accepted at a revision that has none. -/
def advanceFloor (owner peer : Id) (floor : Floor) (revision : Nat) (binding : String) :
    Sdk Snap Unit :=
  if floor.revision < revision || (revision = floor.revision && floor.anchor.isNone) then
    saveDeviceSetFloor owner peer revision binding
  else pure ()

/-- mirrors src/peer-link/PeerLinkService.js:1182-1252 (the locked part) -/
def ingestLocked (svc : DeviceService Snap) (a : IngestArgs) (link : Id) (set : DeviceSetRecord)
    (bundles : List PrekeyBundle) : Sdk Snap Ingested := do
  let persisted ← loadDeviceSetFloor a.owner a.peer
  let floor := max persisted.revision a.minRevision
  Js.ensure (floor ≤ set.revision) (staleRevision a.peer set.revision floor)
  let incoming := deviceSetAuthorityBinding svc.core set
  Js.ensure (!(set.revision = persisted.revision && persisted.anchor.any (· ≠ incoming)))
    (conflictingRevision a.peer set.revision)
  let (established, reused) ← establishDevices svc a.owner a.peer link bundles
  advanceFloor a.owner a.peer persisted set.revision incoming
  return ⟨set, bundles, established, reused⟩

/-- mirrors src/peer-link/PeerLinkService.js:1148-1253 -/
def ingestPeerDeviceSet (svc : DeviceService Snap) (a : IngestArgs) : Sdk Snap Ingested := do
  requireDeviceSessions svc
  let now ← clock
  let nowMs := asPositiveInt (a.nowMs.getD 0) now
  let context ← requirePeerDeviceSetContext a.owner a.peer
  let identity ← requireBoundX3dhIdentity svc.toService a.owner
  let (set, bundles) ← openSealedDeviceSetRecord svc.core
    { record := a.record
      myIdentityDhPrivate := identity.identityDhKeyPair.privateKey
      peerIdentityDhPublic := context.peerIdentityDhPublicKeyB64
      peerAccount := context.peerAccountPublicKeyB64
      nowMs
      maxDevices := a.maxDevices
      revocationState := a.revocationState }
  withLock (ingestLock a.owner a.peer) (ingestLocked svc a context.peerLinkId set bundles)

end RezSdk.L3
