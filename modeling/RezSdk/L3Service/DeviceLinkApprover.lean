import Mathlib.Algebra.Order.Ring.Rat
import RezSdk.Core.Object
import RezSdk.L1Records.Basic

/-!
# The approving side of a device link (`DeviceLinkApprover.js`)

One instance runs one ceremony: `start` mints the shared secret,
`waitForRequest` polls for the first valid request and pins it, and `approve`
mints the new device's leaf certificate, seals it into the response, makes
that durable, registers the device at its home, publishes the response and
polls for the confirmation. `cancel` may be called at any time.

Every stretch of code between two awaits is one operation of the object
(`Stretch` names them); the records, the journal, the home and the crypto
provider are callbacks that may answer anything. The two polling loops are
unbounded: a call comes with the number of rounds it may still make, and a
loop that has used them up stays asleep.
-/
namespace RezSdk.L3.DeviceLink

open RezSdk.L1

/-! ## Data -/

inductive Status
  | idle | waitingRequest | awaitingApproval | responding | waitingConfirm
  | cancelled | expired | failed | done
deriving DecidableEq

def Status.text : Status → String
  | .idle => "idle"
  | .waitingRequest => "waiting-request"
  | .awaitingApproval => "awaiting-approval"
  | .responding => "responding"
  | .waitingConfirm => "waiting-confirm"
  | .cancelled => "cancelled"
  | .expired => "expired"
  | .failed => "failed"
  | .done => "done"

/-- The ceremony is over. -/
def Status.terminal : Status → Bool
  | .cancelled => true
  | .expired => true
  | .failed => true
  | .done => true
  | _ => false

/-- A field of a foreign object. -/
inductive Field
  | undefined
  | null
  | text (s : String)
deriving DecidableEq

structure Keys where
  publicKeyB64 : String
  privateKeyB64 : String
deriving DecidableEq

/-- A binding of the device to an inbox, signed by the device. -/
structure InboxBinding where
  inboxId : Field
  content : Bytes
deriving DecidableEq

structure LinkRequest where
  newDevicePublicKeyB64 : String
  /-- absent when it is no object -/
  deviceInboxBinding : Option InboxBinding
deriving DecidableEq

/-- What `openCeremonyRequest` gives. -/
structure OpenedRequest where
  thRequestB64 : String
  ephemeralDhPublicKeyB64 : String
  linkRequest : LinkRequest
  newDeviceId : String
  fingerprint : String
deriving DecidableEq

/-- mirrors src/device-link/DeviceLinkApprover.js:334-336 -/
def OpenedRequest.bindingInboxId (r : OpenedRequest) : Field :=
  match r.linkRequest.deviceInboxBinding with
  | some binding => binding.inboxId
  | none => .null

structure CertFields where
  v : Nat
  purpose : String
  accountIdentityPublicKeyB64 : String
  parentCertId : Option String
  granteeDevicePublicKeyB64 : String
  granteeDeviceId : String
  capabilities : List String
  maxDelegationDepth : Nat
  issuedAtMs : Nat
  expiresAtMs : Nat
  signerPublicKeyB64 : String
deriving DecidableEq

/-- `AccountDeviceCapabilityV1` -/
structure LeafCert extends CertFields where
  certId : String
  sigB64 : String
deriving DecidableEq

structure DelegationBundle where
  accountSignPublicKeyB64 : String
  accountDhKeyPair : Keys
  certChain : List LeafCert
  cachedDeviceSet : Option Bytes
deriving DecidableEq

inductive RecordId | request | response | confirm
deriving DecidableEq

/-- A record at the rendezvous slots. -/
structure CeremonyRecord where
  content : Bytes
deriving DecidableEq

structure Response where
  payloadB64 : String
  thResponseB64 : String
  confirmTagB64 : String
  masterSecret : Bytes
deriving DecidableEq

structure ResponseArgs where
  psk : Option Bytes
  accountSignPublicKeyB64 : String
  rendezvousPublicKeyB64 : String
  thRequestB64 : String
  ephemeralDhPublicKeyB64 : String
  delegationBundle : DelegationBundle
deriving DecidableEq

structure SealArgs where
  nowMs : Nat
  rendezvousKeyPair : Option Keys
  recordId : RecordId
  payloadB64 : String
  expiresAtMs : Nat
deriving DecidableEq

/-- What has to be durable before the device is registered. -/
structure Pending where
  deviceId : String
  inboxId : Field
  certId : String
  leafCert : LeafCert
  sealedResponse : CeremonyRecord
  thRequestB64 : String
  thResponseB64 : String
  confirmTagB64 : String
  expiresAtMs : Nat
deriving DecidableEq

structure RegisterArgs where
  newDeviceId : String
  deviceInboxBinding : Option InboxBinding
  deviceCapability : LeafCert
deriving DecidableEq

/-- What the home says it has committed. -/
structure Commit where
  deviceId : Field
  inboxId : Field
  certId : Field
deriving DecidableEq

/-! ## The object and its callbacks -/

structure Approver where
  status : Status
  psk : Option Bytes
  rendezvousKeyPair : Option Keys
  expiresAtMs : Nat
  pinned : Option OpenedRequest
  /-- the records `records.put` was called with, newest first -/
  released : List CeremonyRecord
deriving DecidableEq

def Approver.new : Approver := ⟨.idle, none, none, 0, none, []⟩

/-- mirrors src/device-link/DeviceLinkApprover.js:480-485 -/
def Approver.terminate (s : Approver) (status : Status) : Approver :=
  { s with status, psk := none, pinned := none }

/-- The clock, what the random source would give, and what a warning to the
journal would do. -/
structure Input where
  nowMs : Nat
  psk : Except Err Bytes
  warn : Except Err Unit

/-- The stretches of code between two awaits. -/
inductive Stretch
  | startBegin | startEnd
  | waitBegin | waitVerify | waitOpen | waitPin | waitFail | waitRest | waitTop
  | approveBegin | approveBuild | approveSeal | approvePersist | approveFail | approveRelease
  | confirmBegin | confirmVerify | confirmDone | confirmFail | confirmRest | confirmTop
  | cancel
deriving DecidableEq

inductive LinkCall
  | deriveRendezvous (psk : Bytes)
  | get (id : RecordId) (publisherPublicKeyB64 : String)
  | verifyRecord (nowMs : Nat) (record : CeremonyRecord) (rendezvousPublicKeyB64 : String)
      (id : RecordId)
  | openRequest (nowMs : Nat) (psk : Option Bytes) (rendezvousPublicKeyB64 payload : String)
  | sleep (ms : ℚ)
  | accountSign (bytes : Bytes)
  | verify (publicKeyB64 : String) (msg sig : Bytes)
  | cachedDeviceSet
  | buildResponse (a : ResponseArgs)
  | sealRecord (a : SealArgs)
  | persistPending (p : Pending)
  | registerDevice (a : RegisterArgs)
  /-- the outcome of the put that was made last -/
  | put
  | markPublished (deviceId : String)
  | verifyConfirm (masterSecret : Bytes) (thResponseB64 payload : String)
  | markConfirmed (deviceId : String)
  /-- never answered -/
  | stall

abbrev LinkCall.Ans : LinkCall → Type
  | .deriveRendezvous _ => Except Err Keys
  | .get .. => Except Err (Option CeremonyRecord)
  | .verifyRecord .. => Except Err String
  | .openRequest .. => Except Err OpenedRequest
  | .sleep _ => Except Err Unit
  | .accountSign _ => Except Err Bytes
  | .verify .. => Except Err Bool
  | .cachedDeviceSet => Except Err (Option Bytes)
  | .buildResponse _ => Except Err Response
  | .sealRecord _ => Except Err CeremonyRecord
  | .persistPending _ => Except Err Unit
  | .registerDevice _ => Except Err (Option Commit)
  | .put => Except Err Unit
  | .markPublished _ => Except Err Unit
  | .verifyConfirm .. => Except Err Bool
  | .markConfirmed _ => Except Err Unit
  | .stall => Empty

abbrev callbacks : Iface := ⟨LinkCall, LinkCall.Ans⟩
abbrev link : Iface := object Approver Input Stretch callbacks
abbrev Linking (α : Type) : Type := Method Approver Input Stretch callbacks Err α

/-- What of @rezprotocol/core the approver computes with. -/
structure Lib where
  capabilityPurpose : String
  leafCapabilities : List String
  deriveCertId : CertFields → String
  signableBytes : CertFields → String → Bytes
  deviceIdFor : String → String
  bytesToBase64 : Bytes → String
  encodeDeviceLinkCode : Option Bytes → String → Except Err String
  /-- the checks of the `AccountDeviceCapabilityV1` constructor -/
  checkCapability : LeafCert → Except Err Unit

/-- What a `DeviceLinkApprover` is constructed with. -/
structure Config where
  lib : Lib
  accountSignPublicKeyB64 : String
  accountDhKeyPair : Keys
  hasCachedDeviceSet : Bool
  pollIntervalMs : ℚ
  pollMaxIntervalMs : ℚ
  pollBackoff : ℚ
  pskTtlMs : Nat
  certTtlMs : Nat

def readOfNull : Err := { message := "Cannot read properties of null (reading 'publicKeyB64')" }

/-- `err && err.message ? err.message : String(err)` -/
def errorText (e : Err) : String := if e.message.isEmpty then "Error" else e.message

def linkCancelled : Err := .coded "DEVICE_LINK_CANCELLED" "device link cancelled"

/-- The loop has no rounds left. -/
def stalled {α : Type} : Linking α := .ask (.await .stall) fun r => nomatch r

/-! ## start -/

/-- mirrors src/device-link/DeviceLinkApprover.js:168-180 -/
def start (cfg : Config) : Linking (String × Nat) := do
  let psk ← stretch .startBegin fun i s =>
    if s.status ≠ .idle then
      (.error { message := "DeviceLinkApprover.start: already started (one ceremony per instance)"
      }, s)
    else match i.psk with
      | .error e => (.error e, s)
      | .ok psk => (.ok psk, { s with psk := some psk })
  let keys ← .ask (.await (.deriveRendezvous psk)) .ret
  stretch .startEnd fun i s =>
    let s' := { s with
      rendezvousKeyPair := some keys
      expiresAtMs := i.nowMs + cfg.pskTtlMs
      status := .waitingRequest }
    ((cfg.lib.encodeDeviceLinkCode s'.psk cfg.accountSignPublicKeyB64).map fun code =>
    (code, s'.expiresAtMs), s')

/-! ## waitForRequest -/

/-- The checks at the top of a round; the time and the key to look under.
mirrors src/device-link/DeviceLinkApprover.js:193-210 -/
def pollTop (i : Input) (s : Approver) : Except Err (Nat × Option Keys) × Approver :=
  if s.status = .cancelled then (.error linkCancelled, s)
  else if s.expiresAtMs ≤ i.nowMs then
    (.error (.coded "DEVICE_LINK_TIMEOUT" "device link code expired before a request arrived"),
    s.terminate .expired)
  else (.ok (i.nowMs, s.rendezvousKeyPair), s)

/-- The record in a slot; a failure is taken for an empty slot. -/
def pollGet (id : RecordId) (keys : Option Keys) : Linking (Option CeremonyRecord) :=
  match keys with
  | none => return none
  | some keys => Js.attempt (.ask (.await (.get id keys.publicKeyB64)) .ret) fun
    | .ok record => return record
    | .error _ => return none

/-- mirrors src/device-link/DeviceLinkApprover.js:219-242 -/
def openAndPin (atMs : Nat) (record : CeremonyRecord) : Linking OpenedRequest := do
  let keys ← stretch .waitVerify fun _ s => (.ok s.rendezvousKeyPair, s)
  let keys ← Js.orThrow keys readOfNull
  let payload ← .ask (.await (.verifyRecord atMs record keys.publicKeyB64 .request)) .ret
  let (psk, keys) ← stretch .waitOpen fun _ s => (.ok (s.psk, s.rendezvousKeyPair), s)
  let keys ← Js.orThrow keys readOfNull
  let opened ← .ask (.await (.openRequest atMs psk keys.publicKeyB64 payload)) .ret
  stretch .waitPin fun _ s => (.ok opened,
    { s with pinned := some opened, status := .awaitingApproval })

/-- Sleep until the next round.
mirrors src/device-link/DeviceLinkApprover.js:258-259 and 470-471 -/
def pollSleep (cfg : Config) (rest : Stretch) (interval : ℚ) : Linking Unit := do
  stretch rest fun _ s => (.ok (), s)
  .ask (.await (.sleep (min interval cfg.pollMaxIntervalMs))) .ret

def nextInterval (cfg : Config) (interval : ℚ) : ℚ :=
  min (interval * cfg.pollBackoff) cfg.pollMaxIntervalMs

/-- The rounds of `waitForRequest`; `atMs` and `keys` are what the top of this
one has read. -/
def waitRounds (cfg : Config) : Nat → ℚ → Nat × Option Keys → Linking OpenedRequest
  | 0, _, _ => stalled
  | n + 1, interval, (atMs, keys) => do
    let record ← pollGet .request keys
    let again : Linking OpenedRequest := do
      pollSleep cfg .waitRest interval
      let top ← stretch .waitTop pollTop
      waitRounds cfg n (nextInterval cfg interval) top
    match record with
    | none => again
    | some record => Js.attempt (openAndPin atMs record) fun
      | .ok opened => return opened
      | .error e =>
        if e.code = some "DEVICE_LINK_UPGRADE_REQUIRED"
          then stretch .waitFail fun _ s => (.error e, s.terminate .failed)
        else again

/-- mirrors src/device-link/DeviceLinkApprover.js:187-261 -/
def waitForRequest (cfg : Config) (rounds : Nat) : Linking OpenedRequest := do
  let top ← stretch .waitBegin fun i s =>
    if s.status ≠ .waitingRequest then
      (.error { message := "DeviceLinkApprover.waitForRequest: not waiting (status " ++
      s.status.text ++ ")" }, s)
    else pollTop i s
  waitRounds cfg rounds cfg.pollIntervalMs top

/-! ## approve -/

/-- mirrors src/device-link/DeviceLinkApprover.js:490-502 -/
def leafFields (cfg : Config) (granteePublicKeyB64 : String) (nowMs : Nat) : CertFields where
  v := 1
  purpose := cfg.lib.capabilityPurpose
  accountIdentityPublicKeyB64 := cfg.accountSignPublicKeyB64
  parentCertId := none
  granteeDevicePublicKeyB64 := granteePublicKeyB64
  granteeDeviceId := cfg.lib.deviceIdFor granteePublicKeyB64
  capabilities := cfg.lib.leafCapabilities
  maxDelegationDepth := 0
  issuedAtMs := nowMs
  expiresAtMs := nowMs + cfg.certTtlMs
  signerPublicKeyB64 := cfg.accountSignPublicKeyB64

/-- mirrors src/device-link/DeviceLinkApprover.js:489-518 -/
def mintLeafCert (cfg : Config) (granteePublicKeyB64 : String) (nowMs : Nat) : Linking LeafCert :=
  do
  let fields := leafFields cfg granteePublicKeyB64 nowMs
  let certId := cfg.lib.deriveCertId fields
  let sig ← .ask (.await (.accountSign (cfg.lib.signableBytes fields certId))) .ret
  Js.ensure (!sig.isEmpty) { message := "DeviceLinkApprover: accountSign returned no signature" }
  let ok ← .ask
    (.await (.verify cfg.accountSignPublicKeyB64 (cfg.lib.signableBytes fields certId) sig)) .ret
  Js.ensure ok
    { message := "DeviceLinkApprover: minted cert does not verify against the account key" }
  let cert : LeafCert := { fields with certId, sigB64 := cfg.lib.bytesToBase64 sig }
  Js.ofExcept (cfg.lib.checkCapability cert)
  return cert

/-- mirrors src/device-link/DeviceLinkApprover.js:307-310 -/
def cachedDeviceSet (cfg : Config) : Linking (Option Bytes) :=
  if cfg.hasCachedDeviceSet then .ask (.await .cachedDeviceSet) .ret else pure none

/-- The response that carries the certificate, sealed.
mirrors src/device-link/DeviceLinkApprover.js:311-332 -/
def sealedResponse (cfg : Config) (pinned : OpenedRequest) (atMs : Nat) (cert : LeafCert) :
    Linking (Response × CeremonyRecord) := do
  let cachedDeviceSet ← cachedDeviceSet cfg
  let (psk, keys) ← stretch .approveBuild fun _ s => (.ok (s.psk, s.rendezvousKeyPair), s)
  let keys ← Js.orThrow keys readOfNull
  let response ← .ask (.await (.buildResponse
    { psk
      accountSignPublicKeyB64 := cfg.accountSignPublicKeyB64
      rendezvousPublicKeyB64 := keys.publicKeyB64
      thRequestB64 := pinned.thRequestB64
      ephemeralDhPublicKeyB64 := pinned.ephemeralDhPublicKeyB64
      delegationBundle :=
        { accountSignPublicKeyB64 := cfg.accountSignPublicKeyB64
          accountDhKeyPair := cfg.accountDhKeyPair
          certChain := [cert]
          cachedDeviceSet } })) .ret
  let (rendezvousKeyPair, expiresAtMs) ← stretch .approveSeal fun _ s =>
    (.ok (s.rendezvousKeyPair, s.expiresAtMs), s)
  let record ← .ask (.await (.sealRecord
    { nowMs := atMs
      rendezvousKeyPair
      recordId := .response
      payloadB64 := response.payloadB64
      expiresAtMs })) .ret
  return (response, record)

/-- A callback that may not fail: its error ends the ceremony as `wrapped`. -/
def orFail {α : Type} (p : Linking α) (wrapped : Err → Err) : Linking α :=
  Js.attempt p fun
    | .ok x => return x
    | .error e => stretch .approveFail fun _ s => (.error (wrapped e), s.terminate .failed)

/-- mirrors src/device-link/DeviceLinkApprover.js:338-361 -/
def persistPending (pinned : OpenedRequest) (cert : LeafCert) (response : Response)
    (record : CeremonyRecord) : Linking Unit := do
  let expiresAtMs ← stretch .approvePersist fun _ s => (.ok s.expiresAtMs, s)
  orFail (.ask (.await (.persistPending
    { deviceId := pinned.newDeviceId
      inboxId := pinned.bindingInboxId
      certId := cert.certId
      leafCert := cert
      sealedResponse := record
      thRequestB64 := pinned.thRequestB64
      thResponseB64 := response.thResponseB64
      confirmTagB64 := response.confirmTagB64
      expiresAtMs })) .ret) fun e => .coded "DEVICE_LINK_REGISTRATION_NOT_DURABLE"
        ("device link registration could not be made durable before device.add: " ++ errorText e)

/-- mirrors src/device-link/DeviceLinkApprover.js:371-383 -/
def register (pinned : OpenedRequest) (cert : LeafCert) : Linking (Option Commit) :=
  orFail (.ask (.await (.registerDevice
    { newDeviceId := pinned.newDeviceId
      deviceInboxBinding := pinned.linkRequest.deviceInboxBinding
      deviceCapability := cert })) .ret) fun e => .coded "DEVICE_LINK_REGISTRATION_FAILED"
        ("device link registration (device.add) failed before release: " ++ errorText e)

/-- The home has committed this device, inbox and certificate.
mirrors src/device-link/DeviceLinkApprover.js:384-387 -/
def binds (pinned : OpenedRequest) (cert : LeafCert) : Option Commit → Bool
  | none => false
  | some commit =>
    commit.certId = .text cert.certId && commit.deviceId = .text pinned.newDeviceId &&
      commit.inboxId = pinned.bindingInboxId

/-- mirrors src/device-link/DeviceLinkApprover.js:384-399 -/
def release (pinned : OpenedRequest) (cert : LeafCert) (record : CeremonyRecord)
    (commit : Option Commit) : Linking Unit := do
  stretch .approveRelease fun _ s =>
    if binds pinned cert commit then (.ok (), { s with released := record :: s.released })
    else (.error (.coded "DEVICE_LINK_REGISTRATION_UNVERIFIED"
      ("device link registration returned an unverified commit "
        ++ "(must bind this device, inbox, and leaf certId before release)")),
      s.terminate .failed)
  .ask (.await .put) .ret
  .ask (.await (.markPublished pinned.newDeviceId)) .ret

/-- The checks at the top of a round of the confirmation loop.
mirrors src/device-link/DeviceLinkApprover.js:406-423 -/
def confirmTop (i : Input) (s : Approver) : Except Err (Nat × Option Keys) × Approver :=
  if s.status = .cancelled then (.error linkCancelled, s)
  else if s.expiresAtMs ≤ i.nowMs then
    (.error (.coded "DEVICE_LINK_TIMEOUT" "device link timed out waiting for key confirmation"),
    s.terminate .failed)
  else (.ok (i.nowMs, s.rendezvousKeyPair), s)

/-- The tag in a confirmation record is the expected one; a failure counts as
a wrong tag.
mirrors src/device-link/DeviceLinkApprover.js:429-446 -/
def confirms (nowMs : Nat) (record : CeremonyRecord) (response : Response) : Linking Bool :=
  Js.attempt (do
    let keys ← stretch .confirmVerify fun _ s => (.ok s.rendezvousKeyPair, s)
    let keys ← Js.orThrow keys readOfNull
    let payload ← .ask (.await (.verifyRecord nowMs record keys.publicKeyB64 .confirm)) .ret
    .ask (.await (.verifyConfirm response.masterSecret response.thResponseB64 payload)) .ret) fun
  | .ok confirmed => return confirmed
  | .error _ => return false

structure Approved where
  newDeviceId : String
  certId : String
  inboxId : Field
deriving DecidableEq

/-- The ceremony has succeeded; `marked` is what `markConfirmed` gave. Its
failure is only warned about, but the warning may fail.
mirrors src/device-link/DeviceLinkApprover.js:452-460 -/
def finish (result : Approved) (marked : Except Err Unit) (i : Input) (s : Approver) :
    Except Err Approved × Approver :=
  match marked, i.warn with
  | .error _, .error e => (.error e, s)
  | _, _ => (.ok result, s.terminate .done)

theorem finish_cases (result : Approved) (marked : Except Err Unit) (i : Input) (s : Approver) :
    finish result marked i s = (.ok result, s.terminate .done) ∨
    ∃ e, finish result marked i s = (.error e, s) := by
  unfold finish
  split
  · exact .inr ⟨_, rfl⟩
  · exact .inl rfl

/-- The rounds of the confirmation loop. -/
def confirmRounds (cfg : Config) (pinned : OpenedRequest) (cert : LeafCert) (response : Response) :
    Nat → ℚ → Nat × Option Keys → Linking Approved
  | 0, _, _ => stalled
  | n + 1, interval, (nowMs, keys) => do
    let record ← pollGet .confirm keys
    match record with
    | none =>
      pollSleep cfg .confirmRest interval
      let top ← stretch .confirmTop confirmTop
      confirmRounds cfg pinned cert response n (nextInterval cfg interval) top
    | some record => do
      let confirmed ← confirms nowMs record response
      if confirmed then
        Js.attempt (.ask (.await (.markConfirmed pinned.newDeviceId)) .ret) fun marked =>
          stretch .confirmDone (finish ⟨pinned.newDeviceId, cert.certId,
            pinned.bindingInboxId⟩ marked)
      else stretch .confirmFail fun _ s =>
        (.error (.coded "DEVICE_LINK_CONFIRM_FAILED" "device link key confirmation failed"),
        s.terminate .failed)

/-- mirrors src/device-link/DeviceLinkApprover.js:283-473 -/
def approve (cfg : Config) (rounds : Nat) : Linking Approved := do
  let (pinned, atMs) ← stretch .approveBegin fun i s =>
    match s.status, s.pinned with
    | .awaitingApproval, some pinned => (.ok (pinned, i.nowMs), { s with status := .responding })
    | _, _ => (.error { message := "DeviceLinkApprover.approve: no pending request to approve" }, s)
  let cert ← mintLeafCert cfg pinned.linkRequest.newDevicePublicKeyB64 atMs
  let (response, record) ← sealedResponse cfg pinned atMs cert
  persistPending pinned cert response record
  let commit ← register pinned cert
  release pinned cert record commit
  let top ← stretch .confirmBegin fun i s => confirmTop i { s with status := .waitingConfirm }
  confirmRounds cfg pinned cert response rounds cfg.pollIntervalMs top

/-! ## All of them -/

inductive Call
  | start
  | waitForRequest (rounds : Nat)
  | approve (rounds : Nat)
  | cancel

def run (cfg : Config) : Call → Linking Unit
  | .start => do let _ ← start cfg
  | .waitForRequest rounds => do let _ ← waitForRequest cfg rounds
  | .approve rounds => do let _ ← approve cfg rounds
  | .cancel => stretch .cancel fun _ s => (.ok (), s.terminate .cancelled)

/-- Any number of method calls on one approver. -/
def approver (cfg : Config) :
    System link Approver (ObjFate Input callbacks) Call (Except Err Unit) :=
  .ofObject .callbacks (run cfg)

abbrev LinkState := Pool link Approver (ObjFate Input callbacks) Call (Except Err Unit)
abbrev LinkRules := Discipline link Approver (ObjFate Input callbacks) Call (Except Err Unit)

/-- Any interleaving, from a new instance. -/
def anyCeremony : LinkRules where
  init s := s = .new
  may _ _ := True
  ok _ _ := True

end RezSdk.L3.DeviceLink
