import RezSdk.L1Records.JsonText
import RezSdk.L3Service.DeviceSets

/-!
# Authority states

An account publishes one public record that says which device certificates it
has revoked (`buildAccountAuthorityStateRecord`). Anyone opens and checks it
(`openPeerAuthorityStateRecord`, `openOwnAuthorityStateRecord`), and hands what
it says to the opener of device sets as its revocation state.

A certificate id is any JavaScript string, that is a list of code units.
-/
namespace RezSdk.L3

open RezSdk.L1 RezSdk.L2 RezSdk.L1.JsonText

variable {Snap : Type}

/-- What an `AccountAuthorityStateV1` signs. -/
structure AuthorityStateBody where
  v : Nat
  purpose : String
  accountIdentityPublicKeyB64 : Id
  epoch : Nat
  revokedCertIds : List Str
  minValidIssuedAtMs : Nat
  issuedAtMs : Nat
  signerPublicKeyB64 : Id
deriving DecidableEq

structure AuthorityState extends AuthorityStateBody where
  sigB64 : Id
deriving DecidableEq

/-- The class `AccountAuthorityStateV1` of @rezprotocol/core, and its constants. -/
structure AuthorityLib where
  accountAuthorityStateVersion : Nat
  accountAuthorityStatePurpose : String
  accountAuthorityStateRecordKind : String
  signableBytes : AuthorityStateBody → Bytes
  /-- the constructor's checks, on a built state -/
  construct : AuthorityState → Except Err AuthorityState
  /-- the base64 text of the canonical JSON of `toJSON()` -/
  payloadText : AuthorityState → String
  /-- decode and parse; `none` when one throws -/
  payloadJson : String → Option Value
  /-- the constructor, on a parsed object -/
  fromJson : Value → Except Err AuthorityState
  toRevocationState : AuthorityState → Bytes

/-! ## Publishing -/

/-- `[...new Set(ids)].sort()`: first occurrences, then by code units. -/
def sortedCertIds (ids : List Str) : List Str :=
  ids.reverse.dedup.reverse.mergeSort fun x y => x.map UInt16.toNat ≤ y.map UInt16.toNat

structure AuthorityArgs where
  owner : Id
  /-- `none`: not an integer -/
  epoch : Option Int
  /-- `none`: not an array -/
  revokedCertIds : Option (List Str) := some []
  /-- `none`: not a finite number -/
  minValidIssuedAtMs : Option Int := some 0
  nowMs : Option Nat := none
  ttlMs : Nat := deviceSetTtlMs

/-- `Number.isFinite(x) && x >= 0 ? x : 0` -/
def cutoffOf (minValidIssuedAtMs : Option Int) : Nat := (minValidIssuedAtMs.getD 0).toNat

structure PublishedAuthority where
  record : DurableRecord
  coordinates : Coordinates

/-- The state as it is signed by the account key. -/
def authorityBody (lib : AuthorityLib) (account : Id) (epoch : Nat) (revokedCertIds : List Str)
    (cutoff nowMs : Nat) : AuthorityStateBody where
  v := lib.accountAuthorityStateVersion
  purpose := lib.accountAuthorityStatePurpose
  accountIdentityPublicKeyB64 := account
  epoch
  revokedCertIds := sortedCertIds revokedCertIds
  minValidIssuedAtMs := cutoff
  issuedAtMs := nowMs
  signerPublicKeyB64 := account

/-- The record without its signature. Its `requiredCapability` is `null`, which
stands as the empty text. -/
def authoritySkeleton (lib : AuthorityLib) (account : Id) (payloadB64 : String)
    (nowMs ttlMs : Nat) : DurableSkeleton where
  v := 2
  recordKind := lib.accountAuthorityStateRecordKind
  recordId := "v1"
  ownerPublicKeyB64 := account.val
  signerPublicKeyB64 := account.val
  certChain := []
  requiredCapability := ""
  payloadB64
  issuedAtMs := nowMs
  expiresAtMs := nowMs + ttlMs

/-- mirrors src/peer-link/PeerLinkService.js:960-1025 -/
def buildAccountAuthorityStateRecord (svc : DeviceService Snap) (lib : AuthorityLib)
    (a : AuthorityArgs) : Sdk Snap PublishedAuthority := do
  let epoch ← Js.orThrow (a.epoch.filter (0 ≤ ·))
    { message := "buildAccountAuthorityStateRecord requires a non-negative integer epoch" }
  let revokedCertIds ← Js.orThrow a.revokedCertIds
    { message := "buildAccountAuthorityStateRecord requires an array revokedCertIds" }
  let now ← clock
  let nowMs := asPositiveInt (a.nowMs.getD 0) now
  Js.ensure svc.hasAdminRoot (.coded "AUTHORITY_STATE_REQUIRES_ROOT"
    ("buildAccountAuthorityStateRecord requires the account root key: the authority state is"
      ++ " root-signed only, so a delegated device cannot author it (it may publish one the" ++
        " primary signed)"))
  let signer ← resolveAccountIdentitySigner svc a.owner
  let account := signer.accountPublicKeyB64
  let body :=
    authorityBody lib account epoch.toNat revokedCertIds (cutoffOf a.minValidIssuedAtMs) nowMs
  let stateSig ← callCore (.authoritySign a.owner (lib.signableBytes body))
  let authorityState ← Js.ofExcept (lib.construct ⟨body, stateSig⟩)
  let skeleton := authoritySkeleton lib account (lib.payloadText authorityState) nowMs a.ttlMs
  let envSig ← callCore (.authoritySign a.owner (svc.core.durableSignable skeleton))
  return ⟨⟨skeleton, envSig.val⟩, ⟨skeleton.recordKind, skeleton.recordId, account⟩⟩

/-! ## Coordinates -/

/-- mirrors src/peer-link/PeerLinkService.js:1032-1037 -/
def resolvePeerAuthorityStateCoordinates (lib : AuthorityLib) (owner peer : Id) :
    Sdk Snap Coordinates := do
  let context ← requirePeerDeviceSetContext owner peer
  return ⟨lib.accountAuthorityStateRecordKind, "v1", context.peerAccountPublicKeyB64⟩

/-- The account key this runtime is bound to. -/
def ownAccountKey (svc : DeviceService Snap) (owner : Id) (caller : String) : Sdk Snap Id := do
  let identity ← requireBoundX3dhIdentity svc.toService owner
  Js.orThrow identity.accountBinding.accountIdentityPublicKeyB64
    { message := caller ++ " requires a bound account identity" }

/-- mirrors src/peer-link/PeerLinkService.js:1067-1075 -/
def ownAuthorityStateCoordinates (svc : DeviceService Snap) (lib : AuthorityLib) (owner : Id) :
    Sdk Snap Coordinates := do
  let account ← ownAccountKey svc owner "ownAuthorityStateCoordinates"
  return ⟨lib.accountAuthorityStateRecordKind, "v1", account⟩

/-! ## Opening -/

structure OpenedAuthority where
  authorityState : AuthorityState
  revocationState : Bytes
  epoch : Nat
deriving DecidableEq

def authorityError (text : String) : Err := { message := "openAuthorityStateRecord: " ++ text }

/-- mirrors src/peer-link/PeerLinkService.js:1106-1139 (`#openAuthorityStateRecordAgainst`) -/
def openAuthorityStateRecordAgainst (lib : AuthorityLib) (account : Id) (record : DurableRecord)
    (nowMs : Nat) : Sdk Snap OpenedAuthority := do
  Js.ensure (record.recordKind = lib.accountAuthorityStateRecordKind)
    (authorityError "record is not an authority-state record")
  Js.ensure (record.ownerPublicKeyB64 = account.val)
    (authorityError "owner is not the expected account identity")
  -- without a revocation state: this record is where revocations come from
  let verdict ← callCore (.verifyDurableRecordV2 record nowMs none)
  let _ ← Js.ofExcept (verdict.mapError fun reason =>
    authorityError ("durable record verification failed (" ++ reason ++ ")"))
  let stateJson ← Js.orThrow (lib.payloadJson record.payloadB64)
    (authorityError "payload is not valid JSON")
  let authorityState ← Js.ofExcept (lib.fromJson stateJson)
  Js.ensure (authorityState.accountIdentityPublicKeyB64 = account)
    (authorityError "authority state is not the expected account's")
  Js.ensure (authorityState.signerPublicKeyB64.val = record.signerPublicKeyB64)
    (authorityError "authority state signer disagrees with the envelope signer")
  let signed ← callCore (.verify authorityState.signerPublicKeyB64
    (lib.signableBytes authorityState.toAuthorityStateBody)
    authorityState.sigB64)
  Js.ensure signed (authorityError "authority state signature failed")
  return ⟨authorityState, lib.toRevocationState authorityState, authorityState.epoch⟩

/-- mirrors src/peer-link/PeerLinkService.js:1049-1058 -/
def openPeerAuthorityStateRecord (lib : AuthorityLib) (owner peer : Id)
    (record : Option DurableRecord) (nowMs : Option Nat) : Sdk Snap OpenedAuthority := do
  let record ← Js.orThrow record { message := "openPeerAuthorityStateRecord requires a record" }
  let now ← clock
  let context ← requirePeerDeviceSetContext owner peer
  openAuthorityStateRecordAgainst lib context.peerAccountPublicKeyB64 record
    (asPositiveInt (nowMs.getD 0) now)

/-- mirrors src/peer-link/PeerLinkService.js:1086-1098 -/
def openOwnAuthorityStateRecord (svc : DeviceService Snap) (lib : AuthorityLib) (owner : Id)
    (record : Option DurableRecord) (nowMs : Option Nat) : Sdk Snap OpenedAuthority := do
  let record ← Js.orThrow record { message := "openOwnAuthorityStateRecord requires a record" }
  let now ← clock
  let account ← ownAccountKey svc owner "openOwnAuthorityStateRecord"
  openAuthorityStateRecordAgainst lib account record (asPositiveInt (nowMs.getD 0) now)

end RezSdk.L3
