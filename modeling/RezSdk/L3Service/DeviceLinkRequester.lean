import RezSdk.Core.Parties
import RezSdk.L3Service.DeviceLinkApprover

/-!
# The requesting side of a device link (`DeviceLinkRequester.js`)

`runDeviceLinkRequester` is one asynchronous function: it reads the code off
the primary's screen, publishes a sealed request that carries the new device's
own inbox, polls for the response, checks the authority in it, has the
delegation persisted and only then publishes the key confirmation.

The records, the storage, the clock and the crypto provider may answer
anything. The polling loop is unbounded: a run comes with the number of rounds
it may still make.
-/
namespace RezSdk.L3.DeviceLink

open RezSdk.L1

/-! ## Data -/

/-- `DeviceInboxBindingV1` without its signature. -/
structure InboxBindingFields where
  v : Nat
  purpose : String
  devicePublicKeyB64 : String
  deviceId : String
  inboxId : String
  issuedAtMs : Nat
  expiresAtMs : Nat
deriving DecidableEq

structure RequestArgs where
  nowMs : Nat
  psk : Bytes
  accountSignPublicKeyB64 : String
  rendezvousPublicKeyB64 : String
  deviceKeyPair : Keys
  deviceInboxBinding : InboxBinding
  requestTtlMs : Nat
deriving DecidableEq

/-- What `buildCeremonyRequest` gives. -/
structure BuiltRequest where
  payloadB64 : String
  thRequestB64 : String
  ephemeralKeyPair : Keys
  /-- of its `linkRequest` -/
  newDeviceId : String
  fingerprint : String
deriving DecidableEq

structure OpenArgs where
  psk : Bytes
  accountSignPublicKeyB64 : String
  rendezvousPublicKeyB64 : String
  thRequestB64 : String
  ephemeralKeyPair : Keys
  payload : String
deriving DecidableEq

/-- What `openCeremonyResponse` gives. -/
structure OpenedResponse where
  delegationBundle : DelegationBundle
  masterSecret : Bytes
  thResponseB64 : String
deriving DecidableEq

structure AuthorityArgs where
  expectedAccountIdentityPublicKeyB64 : String
  requiredCapability : Option String
  opSignerPublicKeyB64 : String
  certChain : List LeafCert
  nowMs : Nat
deriving DecidableEq

/-- What `verifyAccountAuthority` gives. -/
structure Authority where
  ok : Bool
  reason : Option String
  /-- absent when it is no array -/
  grantedCapabilities : Option (List String)
deriving DecidableEq

structure Delegation where
  accountSignPublicKeyB64 : String
  accountDhKeyPair : Keys
  deviceKeyPair : Keys
  certChain : List LeafCert
  cachedDeviceSet : Option Bytes
deriving DecidableEq

/-- What `persistDelegation` is called with. -/
structure Linked where
  delegation : Delegation
  deviceId : String
  inboxId : String
  fingerprint : String
deriving DecidableEq

/-! ## What it asks -/

inductive RequesterOp
  | deriveRendezvous (psk : Bytes)
  | generateDeviceKeyPair
  | now
  | randomBytes (n : Nat)
  | signPayload (privateKeyB64 : String) (payload : InboxBindingFields)
  | onStatus (status : String)
  | buildRequest (a : RequestArgs)
  | sealRecord (a : SealArgs)
  | put (record : CeremonyRecord)
  | get (id : RecordId) (publisherPublicKeyB64 : String)
  | verifyRecord (nowMs : Nat) (record : CeremonyRecord) (rendezvousPublicKeyB64 : String)
      (id : RecordId)
  | sleep (ms : ℚ)
  | openResponse (a : OpenArgs)
  | verifyAccountAuthority (a : AuthorityArgs)
  | persistDelegation (result : Linked)
  | buildConfirm (masterSecret : Bytes) (thResponseB64 : String)
  /-- never answered -/
  | stall

abbrev RequesterOp.Ans : RequesterOp → Type
  | .deriveRendezvous _ => Except Err Keys
  | .generateDeviceKeyPair => Except Err Keys
  | .now => Nat
  | .randomBytes _ => Except Err Bytes
  | .signPayload .. => Except Err String
  | .onStatus _ => Except Err Unit
  | .buildRequest _ => Except Err BuiltRequest
  | .sealRecord _ => Except Err CeremonyRecord
  | .put _ => Except Err Unit
  | .get .. => Except Err (Option CeremonyRecord)
  | .verifyRecord .. => Except Err String
  | .sleep _ => Except Err Unit
  | .openResponse _ => Except Err OpenedResponse
  | .verifyAccountAuthority _ => Except Err Authority
  | .persistDelegation _ => Except Err Field
  | .buildConfirm .. => Except Err String
  | .stall => Empty

abbrev requesting : Iface := ⟨RequesterOp, RequesterOp.Ans⟩
abbrev Requesting (α : Type) : Type := Js requesting Err α

/-- What more of @rezprotocol/core the requester computes with. -/
structure RequesterLib extends Lib where
  parseDeviceLinkCode : String → Except Err (Bytes × String)
  inboxIdRandomBytes : Nat
  bindingVersion : Nat
  bindingPurpose : String
  /-- the checks of the `DeviceInboxBindingV1` constructor -/
  checkInboxBinding : InboxBindingFields → String → Except Err Unit
  /-- what `toJSON` gives beside the inbox -/
  bindingContent : InboxBindingFields → String → Bytes

/-- One call of `runDeviceLinkRequester`. -/
structure Options where
  code : String
  pollIntervalMs : ℚ
  pollMaxIntervalMs : ℚ
  pollBackoff : ℚ
  deadlineMs : Nat
  deviceKeyPair : Option Keys
  hasOnStatus : Bool
  /-- how often it may still poll -/
  rounds : Nat

/-! ## The device's inbox -/

def hexByte (b : UInt8) : List Char := [Nat.digitChar (b.toNat / 16), Nat.digitChar (b.toNat % 16)]

/-- mirrors src/device-link/DeviceLinkRequester.js:24-29 (`generateInboxId`) -/
def inboxIdOf (bytes : Bytes) : String := .ofList ("inbox:".toList ++ bytes.flatMap hexByte)

/-- `buildSignedDeviceInboxBinding`, and `toJSON` of what it gives.
mirrors src/device/deviceIdentity.js:125-148 -/
def inboxBinding (lib : RequesterLib) (device : Keys) (inboxId : String) (nowMs ttlMs : Nat) :
    Requesting InboxBinding := do
  Js.ensure (!device.publicKeyB64.isEmpty)
    { message := "buildSignedDeviceInboxBinding requires device.publicKeyB64" }
  Js.ensure (!device.privateKeyB64.isEmpty)
    { message := "buildSignedDeviceInboxBinding requires device.privateKeyB64" }
  Js.ensure (!(trim inboxId).isEmpty)
    { message := "buildSignedDeviceInboxBinding requires inboxId" }
  let payload : InboxBindingFields :=
    { v := lib.bindingVersion
      purpose := lib.bindingPurpose
      devicePublicKeyB64 := device.publicKeyB64
      deviceId := lib.deviceIdFor device.publicKeyB64
      inboxId := trim inboxId
      issuedAtMs := nowMs
      expiresAtMs := nowMs + ttlMs }
  let sigB64 ← .ask (.signPayload device.privateKeyB64 payload) .ret
  Js.ofExcept (lib.checkInboxBinding payload sigB64)
  return { inboxId := .text payload.inboxId, content := lib.bindingContent payload sigB64 }

/-! ## The steps -/

/-- mirrors src/device-link/DeviceLinkRequester.js:35-37 -/
def emitStatus (o : Options) (status : String) : Requesting Unit :=
  if o.hasOnStatus then .ask (.onStatus status) .ret else pure ()

def now : Requesting Nat := .ask .now fun atMs => .ret (.ok atMs)

/-- The key of the new device, and the secrets the code stands for. -/
structure Ceremony where
  psk : Bytes
  accountSignPublicKeyB64 : String
  rendezvous : Keys
  device : Keys
  startedAtMs : Nat
  inboxId : String

def Ceremony.deadlineAtMs (c : Ceremony) (o : Options) : Nat := c.startedAtMs + o.deadlineMs

/-- mirrors src/device-link/DeviceLinkRequester.js:83 -/
def deviceKeys (o : Options) : Requesting Keys :=
  match o.deviceKeyPair with
  | some keys => return keys
  | none => .ask .generateDeviceKeyPair .ret

/-- mirrors src/device-link/DeviceLinkRequester.js:81-89 -/
def prepare (lib : RequesterLib) (o : Options) : Requesting Ceremony := do
  let (psk, accountSignPublicKeyB64) ← Js.ofExcept (lib.parseDeviceLinkCode o.code)
  let rendezvous ← .ask (.deriveRendezvous psk) .ret
  let device ← deviceKeys o
  let startedAtMs ← now
  let bytes ← .ask (.randomBytes lib.inboxIdRandomBytes) .ret
  let inboxId := inboxIdOf bytes
  return { psk, accountSignPublicKeyB64, rendezvous, device, startedAtMs, inboxId }

/-- mirrors src/device-link/DeviceLinkRequester.js:90-116 -/
def publishRequest (lib : RequesterLib) (o : Options) (c : Ceremony) : Requesting BuiltRequest := do
  let deviceInboxBinding ← inboxBinding lib c.device c.inboxId c.startedAtMs o.deadlineMs
  emitStatus o "publishing-request"
  let request ← .ask (.buildRequest
    { nowMs := c.startedAtMs
      psk := c.psk
      accountSignPublicKeyB64 := c.accountSignPublicKeyB64
      rendezvousPublicKeyB64 := c.rendezvous.publicKeyB64
      deviceKeyPair := c.device
      deviceInboxBinding
      requestTtlMs := o.deadlineMs }) .ret
  let record ← .ask (.sealRecord
    { nowMs := c.startedAtMs
      rendezvousKeyPair := some c.rendezvous
      recordId := .request
      payloadB64 := request.payloadB64
      expiresAtMs := c.deadlineAtMs o }) .ret
  .ask (.put record) .ret
  return request

/-- The polling loop.
mirrors src/device-link/DeviceLinkRequester.js:120-147 -/
def awaitResponse (o : Options) (c : Ceremony) : Nat → ℚ → Requesting String
  | 0, _ => .ask .stall fun r => nomatch r
  | n + 1, interval => do
    let atMs ← now
    Js.ensure (atMs < c.deadlineAtMs o)
      (.coded "DEVICE_LINK_TIMEOUT"
      "device link timed out waiting for the primary device's response")
    let record ← .ask (.get .response c.rendezvous.publicKeyB64) .ret
    match record with
    | some record => .ask (.verifyRecord atMs record c.rendezvous.publicKeyB64 .response) .ret
    | none => do
      .ask (.sleep (min interval o.pollMaxIntervalMs)) .ret
      awaitResponse o c n (min (interval * o.pollBackoff) o.pollMaxIntervalMs)

/-- The chain in the bundle is granted to this device by the code's account,
with every capability of a linked device.
mirrors src/device-link/DeviceLinkRequester.js:164-180 -/
def checkAuthority (lib : RequesterLib) (c : Ceremony) (opened : OpenedResponse) :
    Requesting Unit := do
  let nowMs ← now
  let authz ← .ask (.verifyAccountAuthority
    { expectedAccountIdentityPublicKeyB64 := c.accountSignPublicKeyB64
      requiredCapability := lib.leafCapabilities.head?
      opSignerPublicKeyB64 := c.device.publicKeyB64
      certChain := opened.delegationBundle.certChain
      nowMs }) .ret
  Js.ensure authz.ok
    { message := "runDeviceLinkRequester: delegation cert chain rejected: " ++ ((authz.reason.filter
    (· ≠ "")).getD "unknown") }
  match lib.leafCapabilities.find? fun capability =>
    !(authz.grantedCapabilities.getD []).contains capability with
  | some capability =>
    throw { message := "runDeviceLinkRequester: delegation chain does not grant " ++ capability }
  | none => return

/-- mirrors src/device-link/DeviceLinkRequester.js:150-180 -/
def openResponse (lib : RequesterLib) (c : Ceremony) (request : BuiltRequest) (payload : String) :
    Requesting OpenedResponse := do
  let opened ← .ask (.openResponse
    { psk := c.psk
      accountSignPublicKeyB64 := c.accountSignPublicKeyB64
      rendezvousPublicKeyB64 := c.rendezvous.publicKeyB64
      thRequestB64 := request.thRequestB64
      ephemeralKeyPair := request.ephemeralKeyPair
      payload }) .ret
  checkAuthority lib c opened
  return opened

/-- mirrors src/device-link/DeviceLinkRequester.js:182-193 -/
def linked (c : Ceremony) (request : BuiltRequest) (opened : OpenedResponse) : Linked where
  delegation :=
    { accountSignPublicKeyB64 := opened.delegationBundle.accountSignPublicKeyB64
      accountDhKeyPair := opened.delegationBundle.accountDhKeyPair
      deviceKeyPair := c.device
      certChain := opened.delegationBundle.certChain
      cachedDeviceSet := opened.delegationBundle.cachedDeviceSet }
  deviceId := request.newDeviceId
  inboxId := c.inboxId
  fingerprint := request.fingerprint

/-- mirrors src/device-link/DeviceLinkRequester.js:202-216 -/
def publishConfirm (o : Options) (c : Ceremony) (opened : OpenedResponse) : Requesting Unit := do
  emitStatus o "confirming"
  let payloadB64 ← .ask (.buildConfirm opened.masterSecret opened.thResponseB64) .ret
  let nowMs ← now
  let record ← .ask (.sealRecord
    { nowMs
      rendezvousKeyPair := some c.rendezvous
      recordId := .confirm
      payloadB64
      expiresAtMs := c.deadlineAtMs o }) .ret
  .ask (.put record) .ret

/-- What it resolves with, and what `persistDelegation` gave.
mirrors src/device-link/DeviceLinkRequester.js:54-219 -/
def runDeviceLinkRequester (lib : RequesterLib) (o : Options) : Requesting (Linked × Field) := do
  let c ← prepare lib o
  let request ← publishRequest lib o c
  emitStatus o "waiting-approval"
  let payload ← awaitResponse o c o.rounds o.pollIntervalMs
  emitStatus o "validating"
  let opened ← openResponse lib c request payload
  emitStatus o "persisting"
  let persistence ← .ask (.persistDelegation (linked c request opened)) .ret
  publishConfirm o c opened
  return (linked c request opened, persistence)

/-- Any number of runs, on any number of devices. -/
def requesters (lib : RequesterLib) : System requesting Unit ((o : RequesterOp) →
      Option o.Ans) Options (Except Err (Linked × Field)) :=
  .asking (runDeviceLinkRequester lib)

abbrev RequesterState := Pool requesting Unit ((o : RequesterOp) → Option o.Ans) Options
    (Except Err (Linked × Field))

end RezSdk.L3.DeviceLink
