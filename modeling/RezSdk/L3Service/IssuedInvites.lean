import RezSdk.L3Service.Calls
import RezSdk.L3Service.DeviceSets

/-!
# Issuing invites

`createInvite` signs an envelope, stores it with its ledger and keeps the
pre-key state that answers its bundle; `getStoredInviteEnvelope` hands a stored
envelope out again. A device that holds the account key signs with it; any other
signs with its own key and puts the account's certificate chain in the envelope.

Text arguments stand as `nonEmpty` reads them.
-/
namespace RezSdk.L3

open RezSdk.L1 RezSdk.L2

variable {Snap : Type}

/-! ## What is issued -/

structure FullSignerRef extends SignerRef where
  keyId : Option String
  alg : Option String
deriving DecidableEq

/-- `prepareInviteBinding(..).binding` -/
structure PreparedBinding where
  mailboxId : Option Id
  capabilityId : Option Id
  x3dh : X3dhBinding
deriving DecidableEq

/-- The signed object: what an acceptor reads of it, and the rest. -/
structure IssuedEnvelope extends Envelope where
  groupId : Option Id
  /-- the founder of the group, who need not be the inviter -/
  groupCreatedBy : Option Id
  groupSalt : Option Id
  title : Option Id
  createdAtMs : Nat
  maxUses : Nat
  mailboxId : Option Id
  keyId : Option String
  alg : Option String
deriving DecidableEq

/-- A `DurableRecordV1` without its signature. -/
structure DurableSkeletonV1 where
  recordKind : String
  recordId : String
  publisherPublicKeyB64 : Option Id
  payloadB64 : String
  issuedAtMs : Nat
  expiresAtMs : Nat
deriving DecidableEq

inductive InviteDurable
  | v1 (skeleton : DurableSkeletonV1) (sigB64 : Id)
  | v2 (record : DurableRecord)
deriving DecidableEq

/-- What @rezprotocol/core, the invite authority and the inbox claimant's signer
add to an invite. What may differ from call to call has the invite's id as its
seed. -/
structure InviteLib where
  peerlinkInviteRecordKind : String
  /-- `getSignerRef()` of the account's signer, beside the key -/
  signerAccountId : Id → Option Id
  signerKeyId : Id → Option String
  signerAlg : Id → Option String
  preparedBinding : BundleInput → (bundle : Bytes) → AccountBinding → (target : Id) →
    PreparedBinding
  /-- `inboxClaimantSigner.signPostBearerCap`, when there is one -/
  signPostBearerCap : Option ((seed : Id) → (expiresAt : Nat) → Except Err Bytes)
  canonicalPayloadBytes : IssuedEnvelope → Bytes
  tokenHash : IssuedEnvelope → Id
  /-- the base64 text of `{ envelope, signatureB64 }` -/
  payloadText : IssuedEnvelope → Id → String
  buildDurableRecordV1 : DurableSkeletonV1 → Except Err DurableSkeletonV1
  durableRecordSignableBytes : DurableSkeletonV1 → Bytes
  /-- `Date.now()`, which stands in for a clock that answers 0 -/
  dateNow : (seed : Id) → Nat
  dateNow_pos : ∀ seed, 0 < dateNow seed

structure CreateArgs where
  owner : Id
  creatorDisplayName : Option Id := none
  kind : String := "direct"
  groupId : Option Id := none
  groupCreatedBy : Option Id := none
  groupSalt : Option Id := none
  title : Option Id := none
  /-- 0: not a positive integer -/
  maxUses : Nat := 1
  expiresAtMs : Option Nat := none
  peerInboxId : Option Id := none
deriving DecidableEq

structure CreateResult where
  peerLinkId : Option Id
  inviteId : Id
  state : PeerLinkState
  expiresAtMs : Nat
  maxUses : Nat
  createdAtMs : Nat
  publisherPublicKeyB64 : Option Id
  durableRecord : InviteDurable
deriving DecidableEq

/-! ## `createInvite` -/

def inviteTtlMs : Nat := 7 * 24 * 60 * 60 * 1000

def inviteExpiry (expiresAtMs : Option Nat) (nowMs : Nat) : Nat :=
  asPositiveInt (expiresAtMs.getD 0) (nowMs + inviteTtlMs)

def isGroup (a : CreateArgs) : Bool := a.kind = "group"

def directKind : Id := ⟨"direct", by decide⟩
def groupKind : Id := ⟨"group", by decide⟩

/-- What holds of a group invite only. -/
def forGroup (a : CreateArgs) (x : Option Id) : Option Id := if isGroup a then x else none

/-- mirrors src/peer-link/PeerLinkService.js:2850-2868, 2951-2956 -/
def inviteSigner (svc : DeviceService Snap) (lib : InviteLib) (owner : Id) :
    Sdk Snap FullSignerRef :=
  if svc.hasAdminRoot then do
    let key ← callCore (.authoritySigner owner)
    return ⟨⟨lib.signerAccountId owner, key⟩, lib.signerKeyId owner, lib.signerAlg owner⟩
  else do
    let reason := if svc.core.base64Error.message = "" then "unknown"
      else svc.core.base64Error.message
    let anchor ← Js.orThrow (svc.core.deriveAccountId svc.inviteOwnerPublicKeyB64)
      (signatureInvalid ("createInvite delegated cert chain anchor is not a valid public key: " ++
      reason))
    Js.ensure (anchor = owner)
      (signatureInvalid "createInvite delegated cert chain does not anchor to the inviter account")
    return ⟨⟨some owner, some svc.devicePublicKeyB64⟩, some "invite-ed25519-delegated-v1",
      some "ed25519"⟩

/-- The signer of a binding that a device key has signed is named in the
envelope, by a delegated inviter.
mirrors src/peer-link/PeerLinkService.js:2902-2910 -/
def surfaceSigner (svc : DeviceService Snap) (binding : AccountBinding) (x : X3dhBinding) :
    X3dhBinding :=
  if svc.hasAdminRoot then x
  else { x with
    accountBindingSignerPublicKeyB64 :=
      binding.accountBindingSignerPublicKeyB64 <|> x.accountBindingSignerPublicKeyB64 }

/-- mirrors src/peer-link/PeerLinkService.js:2921-2929 -/
def mintPostCap (lib : InviteLib) (seed : Id) (expiresAt : Nat) : Sdk Snap (Option Bytes) :=
  match lib.signPostBearerCap with
  | none => pure none
  | some sign => Js.ofExcept ((sign seed expiresAt).map some)

/-- mirrors src/peer-link/PeerLinkService.js:2911-2958 -/
def inviteEnvelope (svc : DeviceService Snap) (a : CreateArgs) (inviteId : Id) (nowMs : Nat)
    (signer : FullSignerRef) (binding : PreparedBinding) (accountBinding : AccountBinding)
    (postCap : Option Bytes) : IssuedEnvelope where
  kind := some (if isGroup a then groupKind else directKind)
  inviteId := some inviteId
  creatorAccountId := some a.owner
  creatorDisplayName := a.creatorDisplayName.map Id.val
  expiresAtMs := inviteExpiry a.expiresAtMs nowMs
  signerRef := some signer.toSignerRef
  certChain := if svc.hasAdminRoot then [] else svc.inviteCertChain
  binding := some ⟨binding.capabilityId, some (surfaceSigner svc accountBinding binding.x3dh)⟩
  postCap
  groupId := forGroup a a.groupId
  groupCreatedBy := forGroup a (a.groupCreatedBy <|> some a.owner)
  groupSalt := forGroup a a.groupSalt
  title := forGroup a a.title
  createdAtMs := nowMs
  maxUses := asPositiveInt a.maxUses 1
  mailboxId := binding.mailboxId
  keyId := signer.keyId
  alg := signer.alg

theorem asPositiveInt_pos {value fallback : Nat} (h : 0 < fallback) :
    0 < asPositiveInt value fallback := by
  unfold asPositiveInt
  split <;> omega

/-- The ledger of a new invite.
mirrors src/peer-link/PeerLinkService.js:2965-2980 -/
def inviteLedger (lib : InviteLib) (a : CreateArgs) (inviteId : Id) (nowMs : Nat)
    (envelope : IssuedEnvelope) (signatureB64 : Id) : InviteRecord where
  inviteId
  ownerAccountId := a.owner
  tokenHash := lib.tokenHash envelope
  kind := if isGroup a then groupKind else directKind
  status := .active
  createdAtMs := asPositiveInt nowMs (lib.dateNow inviteId)
  updatedAtMs := nowMs
  expiresAtMs := inviteExpiry a.expiresAtMs nowMs
  maxUses := asPositiveInt a.maxUses 1
  acceptedAcceptors := []
  peerLinkId := none
  groupId := forGroup a a.groupId
  envelope := some envelope.toEnvelope
  signatureB64 := some signatureB64
  createdAtMs_pos := asPositiveInt_pos (lib.dateNow_pos inviteId)
  expiresAtMs_pos := asPositiveInt_pos (Nat.add_pos_right nowMs (by decide))
  maxUses_pos := asPositiveInt_pos Nat.one_pos

/-- The record that carries the envelope to an acceptor: of the account's own
key, or of its owner under the device's.
mirrors src/peer-link/PeerLinkService.js:2983-3027 -/
def inviteDurable (svc : DeviceService Snap) (lib : InviteLib) (a : CreateArgs) (inviteId : Id)
    (nowMs : Nat) (publisher : Option Id) (payloadB64 : String) : Sdk Snap InviteDurable :=
  if svc.hasAdminRoot then do
    let skeleton ← Js.ofExcept (lib.buildDurableRecordV1
      ⟨lib.peerlinkInviteRecordKind, inviteId.val, publisher, payloadB64, nowMs,
      inviteExpiry a.expiresAtMs nowMs⟩)
    let sig ← callCore (.authoritySign a.owner (lib.durableRecordSignableBytes skeleton))
    return .v1 skeleton sig
  else do
    let skeleton : DurableSkeleton :=
      { v := 2
        recordKind := lib.peerlinkInviteRecordKind
        recordId := inviteId.val
        ownerPublicKeyB64 := svc.inviteOwnerPublicKeyB64.val
        signerPublicKeyB64 := svc.devicePublicKeyB64.val
        certChain := svc.inviteCertChain
        requiredCapability := "peerLink.create"
        payloadB64
        issuedAtMs := nowMs
        expiresAtMs := inviteExpiry a.expiresAtMs nowMs }
    let sig ← callCore
      (.sign svc.deviceSigningKeyPair.privateKey (svc.core.durableSignable skeleton))
    return .v2 ⟨skeleton, sig.val⟩

/-- mirrors src/peer-link/PeerLinkService.js:2832-3039 -/
def createInvite (svc : DeviceService Snap) (lib : InviteLib) (a : CreateArgs) :
    Sdk Snap CreateResult := do
  let nowMs ← clock
  let signer ← inviteSigner svc lib a.owner
  let inviteId ← stableId "plinv"
  let identity ← requireBoundX3dhIdentity svc.toService a.owner
  -- `inviteBinding` has both ids or is null, so its `mailboxId` never stands in
  let target ← Js.orThrow (a.peerInboxId <|> svc.inviteCapabilityId)
    (.coded "INVITE_BINDING_REQUIRED"
      ("createInvite requires a reply binding: configure PeerLinkService inviteBinding "
        ++ "(capabilityId/mailboxId) or pass peerInboxId"))
  let input : BundleInput := ⟨a.owner, identity.keyPair, identity.identityDhKeyPair⟩
  let (bundle, preKeyState) ← callCore (.prepareInviteBinding input)
  let postCap ← mintPostCap lib inviteId (inviteExpiry a.expiresAtMs nowMs)
  let envelope := inviteEnvelope svc a inviteId nowMs signer
    (lib.preparedBinding input bundle identity.accountBinding target) identity.accountBinding
    postCap
  let signature ← setSign svc a.owner (lib.canonicalPayloadBytes envelope)
  let _ ← Invites.save (inviteLedger lib a inviteId nowMs envelope signature)
  kvSet (.invitePreKey a.owner inviteId) preKeyState
  let publisher := if svc.hasAdminRoot then signer.signerPublicKeyB64
    else some svc.inviteOwnerPublicKeyB64
  let durableRecord ← inviteDurable svc lib a inviteId nowMs publisher
    (lib.payloadText envelope signature)
  return {
    peerLinkId := none
    inviteId
    state := .inviteIssued
    expiresAtMs := inviteExpiry a.expiresAtMs nowMs
    maxUses := asPositiveInt a.maxUses 1
    createdAtMs := nowMs
    publisherPublicKeyB64 := publisher
    durableRecord }

/-- mirrors src/peer-link/PeerLinkService.js:3041-3049 -/
def getStoredInviteEnvelope (ownerAccountId inviteId : String) :
    Sdk Snap (Option (Envelope × Option Id)) :=
  match nonEmpty ownerAccountId, nonEmpty inviteId with
  | some owner, some id => do
    let record ← Invites.get owner id
    return (record.filter (·.status = .active)).bind fun r => r.envelope.map fun e =>
      (e, r.signatureB64)
  | _, _ => return none

/-! ## The calls -/

inductive InviteCall
  | service (c : Call)
  | create (a : CreateArgs)
  | stored (ownerAccountId inviteId : String)
deriving DecidableEq

inductive InviteReply
  | service (r : Reply)
  | created (r : CreateResult)
  | served (r : Option (Envelope × Option Id))
deriving DecidableEq

variable [DecidableEq Snap]

def inviteProgram (svc : DeviceService Snap) (lib : InviteLib) : InviteCall → Sdk Snap InviteReply
  | .service c => do
    let r ← program svc.toService c
    return .service r
  | .create a => do
    let r ← createInvite svc lib a
    return .created r
  | .stored owner id => do
    let r ← getStoredInviteEnvelope owner id
    return .served r

/-- Any calls on one service that also issues invites. -/
def inviteSystem (svc : DeviceService Snap) (lib : InviteLib) :
    System (sdk Snap) (Mem Snap) Fate InviteCall (Except Err InviteReply) :=
  ⟨act svc.core, inviteProgram svc lib⟩

end RezSdk.L3
