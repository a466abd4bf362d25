import RezSdk.L3Service.Commit

/-!
# Account keys and account bindings

`_loadAccountKeyRecord` (with the adoption of a legacy identity-DH key),
`_requireBoundX3dhIdentity` and the verification of a peer's X3DH account
binding.
-/
namespace RezSdk.L3

open RezSdk.L1 RezSdk.L2

variable {Snap : Type}

/-- A complete account key record: what `_loadAccountKeyRecord` returns. -/
structure AccountKeys where
  signing : KeyPair
  identityDh : KeyPair
  identityDhSignature : Id
  accountBinding : Option AccountBinding
deriving DecidableEq

def pairOf (m : KeyMaterial) : Option KeyPair :=
  match m.publicKeyB64, m.privateKeyB64 with
  | some p, some q => some ⟨p, q⟩
  | _, _ => none

/-- The record as `putAccountIdentity` stores it. -/
def AccountKeys.toStored (r : AccountKeys) : StoredAccountKeys :=
  { legacy := ⟨none, none⟩
    x3dhKeyMaterial := some ⟨some r.signing.publicKey, some r.signing.privateKey⟩
    x3dhIdentityDhKeyMaterial := some ⟨some r.identityDh.publicKey, some r.identityDh.privateKey⟩
    identityDhSignatureB64 := some r.identityDhSignature
    accountBinding := match r.accountBinding with
      | some b => .set b
      | none => .null }

/-- The stored identity-DH key, when its key pair and signature are there. -/
def storedDh (r : AccountKeyRecord) : Option (KeyPair × Id) :=
  match pairOf r.x3dhIdentityDhKeyMaterial, r.identityDhSignatureB64 with
  | some kp, some sig => some (kp, sig)
  | _, _ => none

def migrationError (reason : String) : Err :=
  .coded "ACCOUNT_IDENTITY_DH_MIGRATION_INVALID"
    ("PeerLinkService: legacy account identity-DH adoption refused (" ++ reason ++ ")")

/-- Any error but a migration error becomes `e`. -/
def orMigration {α : Type} (x : Sdk Snap α) (reason : String) : Sdk Snap α :=
  x.attempt fun
    | .ok a => pure a
    | .error e =>
      if e.code = some "ACCOUNT_IDENTITY_DH_MIGRATION_INVALID" then throw e
      else throw (migrationError reason)

/-- The probe exchange: the stored key pair belongs together.
mirrors src/peer-link/PeerLinkService.js:2085-2109 -/
def probeIdentityDh (dh : KeyPair) : Sdk Snap Unit := do
  let probe ← callCore .dhGenerateKeyPair
  let fromLegacy ← callCore (.dhDerive dh.privateKey probe.publicKey)
  let fromProbe ← callCore (.dhDerive probe.privateKey dh.publicKey)
  Js.ensure (fromLegacy = fromProbe)
    (migrationError "stored X25519 public/private keys do not correspond")

/-- mirrors src/peer-link/PeerLinkService.js:2037-2110 -/
def validateLegacyRecord (svc : Service Snap) (owner : Id) (r : AccountKeyRecord) (dh : KeyPair)
    (dhSignature : Id) : Sdk Snap Unit := do
  let incomplete := migrationError "stored identity-DH record is incomplete"
  let binding ← Js.orThrow r.accountBinding incomplete
  let signing ← Js.orThrow r.x3dhKeyMaterial.publicKeyB64 incomplete
  let mismatch := migrationError "stored account binding does not match the account"
  Js.ensure (binding.accountId = some owner ∧
    binding.x3dhIdentityPublicKeyB64 = some signing) mismatch
  let account ← Js.orThrow binding.accountIdentityPublicKeyB64 svc.core.base64Error
  let derived ← Js.orThrow (svc.core.deriveAccountId account) svc.core.base64Error
  Js.ensure (derived = owner) mismatch
  Js.ensure (binding.accountBindingSignerPublicKeyB64.all (· = account))
    (migrationError "stored account binding was delegated")
  let sig ← Js.orThrow binding.accountBindingSigB64 svc.core.base64Error
  let bound ← callCore (.verify account
    (svc.core.bindingPayload owner signing (binding.issuedAtMs.getD 0) (binding.expiresAtMs.getD 0))
    sig)
  Js.ensure bound (migrationError "stored account binding signature is invalid")
  let signed ← callCore (.verify signing (svc.core.keyBytes dh.publicKey) dhSignature)
  Js.ensure signed (migrationError "stored identity-DH signature is invalid")
  orMigration (probeIdentityDh dh) "stored X25519 keypair is invalid"

def accountDh : Sdk Snap (Option KeyPair) := .ask .accountDh fun kp => .ret (.ok kp)

def adoptAccountDh (kp : KeyPair) : Sdk Snap Unit :=
  .ask (.adoptAccountDh kp) fun _ => .ret (.ok ())

/-- A stored key that differs from the injected one is refused, or validated
and adopted.
mirrors src/peer-link/PeerLinkService.js:1940-1956 -/
def adoptLegacy (svc : Service Snap) (owner : Id) (r : AccountKeyRecord)
    (injected : Option KeyPair) : Sdk Snap Unit :=
  match storedDh r, injected with
  | some (dh, sig), some kp =>
    if dh = kp then pure ()
    else do
      Js.ensure svc.allowLegacyAccountIdentityDhAdoption (.coded "ACCOUNT_IDENTITY_DH_MISMATCH"
        ("PeerLinkService: persisted account identity-DH key does not match the seed-derived key "
          ++ "(this account predates seed-derived identity-DH — "
          ++ "explicit compatibility-key adoption is required)"))
      orMigration (validateLegacyRecord svc owner r dh sig)
        "stored identity-DH record is malformed or unverifiable"
      adoptAccountDh dh
  | _, _ => pure ()

/-- A record with every part: it is returned as it is, and written back when
the store lacks one of the fields.
mirrors src/peer-link/PeerLinkService.js:1957-1972 -/
def completeKeys (r : AccountKeyRecord) (effective : Option KeyPair) : Option AccountKeys :=
  match pairOf r.x3dhKeyMaterial, storedDh r with
  | some signing, some (dh, sig) =>
    if effective.all (· = dh) then some ⟨signing, dh, sig, r.accountBinding⟩ else none
  | _, _ => none

def persistMissing (stored : Option StoredAccountKeys) : Bool :=
  match stored with
  | none => true
  | some s => s.x3dhKeyMaterial.isNone || s.x3dhIdentityDhKeyMaterial.isNone ||
      s.identityDhSignatureB64.isNone || s.accountBinding = .undefined

/-- Generate what is missing, sign the identity-DH key and store the record.
mirrors src/peer-link/PeerLinkService.js:1976-2025 -/
def createKeys (svc : Service Snap) (owner : Id) (stored : Option StoredAccountKeys)
    (r : AccountKeyRecord) (injected : Option KeyPair) : Sdk Snap AccountKeys := do
  let hasSigning := pairOf r.x3dhKeyMaterial
  let signing ← match hasSigning with
    | some kp => pure kp
    | none => callCore .generateSigningKeyPair
  let dh ← match injected with
    | some kp => pure kp
    | none => callCore .dhGenerateKeyPair
  let sig ← callCore (.sign signing.privateKey (svc.core.keyBytes dh.publicKey))
  let keys : AccountKeys :=
    { signing
      identityDh := dh
      identityDhSignature := sig
      accountBinding := if hasSigning.isSome then stored.bind (·.accountBinding.toOption)
        else none }
  kvSet (.identity owner) keys.toStored
  return keys

/-- mirrors src/peer-link/PeerLinkService.js:1917-2026 -/
def loadAccountKeyRecord (svc : Service Snap) (owner : Id) : Sdk Snap AccountKeys := do
  let stored ← kvGet (.identity owner)
  let normalized := normalizeStoredAccountKeyRecord stored
  let injected ← accountDh
  adoptLegacy svc owner normalized injected
  let effective ← accountDh
  match completeKeys normalized effective with
  | some keys =>
    if persistMissing stored then
      kvSet (.identity owner) keys.toStored
      return keys
    else return keys
  | none => createKeys svc owner stored normalized injected

structure BoundIdentity where
  keyPair : KeyPair
  identityDhKeyPair : KeyPair
  identityDhSignature : Id
  accountBinding : AccountBinding

def reauthRequired (message : String) : Err := .coded "REAUTH_REQUIRED" message

/-- mirrors src/peer-link/PeerLinkService.js:2187-2226 -/
def requireBoundX3dhIdentity (svc : Service Snap) (owner : Id) : Sdk Snap BoundIdentity := do
  let keys ← loadAccountKeyRecord svc owner
  -- `_primeAccountBindingChallenge` loads once more and drops the result
  let _ ← loadAccountKeyRecord svc owner
  let binding ← Js.orThrow keys.accountBinding (reauthRequired "peer-link X3DH binding missing")
  Js.ensure (binding.accountId = some owner)
    (reauthRequired "peer-link X3DH binding account mismatch")
  Js.ensure (binding.x3dhIdentityPublicKeyB64 = some keys.signing.publicKey)
    (reauthRequired "peer-link X3DH binding stale")
  let now ← clock
  Js.ensure (binding.expiresAtMs.any (now < ·)) (reauthRequired "peer-link X3DH binding expired")
  return {
    keyPair := keys.signing
    identityDhKeyPair := keys.identityDh
    identityDhSignature := keys.identityDhSignature
    accountBinding := binding }

def bindingInvalid (message : String) : Err := .coded "INVITE_SIGNATURE_INVALID" message

/-- The key a binding's signature is checked with: the account key, or a
delegated signer that the certificate chain authorises.
mirrors src/peer-link/PeerLinkService.js:2389-2417 -/
def bindingVerifyKey (svc : Service Snap) (account : Id) (signer : Option Id)
    (certChain : List Bytes) : Sdk Snap Id :=
  match signer with
  | none => pure account
  | some signer =>
    if signer = account then pure account
    else do
      Js.ensure (!certChain.isEmpty)
        (bindingInvalid
        "peer-link invite X3DH binding names a delegated signer without a cert chain")
      let now ← clock
      let refused ← callCore (.verifyAccountAuthority ⟨account, signer, certChain, now⟩)
      Js.ensure refused.isNone (bindingInvalid
        ("peer-link invite X3DH binding delegated signer rejected (" ++ refused.getD "" ++ ")"))
      Js.ensure (svc.core.isBase64 signer) (bindingInvalid "peer-link invite X3DH binding invalid")
      return signer

/-- mirrors src/peer-link/PeerLinkService.js:2349-2433 -/
def verifyInviteX3dhBinding (svc : Service Snap) (owner : Id) (x3dh : Option X3dhBinding)
    (certChain : List Bytes) : Sdk Snap Unit := do
  let invalid := bindingInvalid "peer-link invite X3DH binding invalid"
  let x ← Js.orThrow x3dh (bindingInvalid "peer-link invite X3DH binding missing")
  let account ← Js.orThrow x.accountIdentityPublicKeyB64 invalid
  let sig ← Js.orThrow x.accountBindingSigB64 invalid
  let identity ← Js.orThrow x.identitySigningPublicKeyB64 invalid
  let expires ← Js.orThrow x.accountBindingExpiresAtMs invalid
  Js.ensure (svc.core.isBase64 account && svc.core.isBase64 sig) invalid
  Js.ensure (svc.core.deriveAccountId account = some owner)
    (bindingInvalid "peer-link invite X3DH binding account mismatch")
  let now ← clock
  Js.ensure (now < expires) (bindingInvalid "peer-link invite X3DH binding expired")
  let key ← bindingVerifyKey svc account x.accountBindingSignerPublicKeyB64 certChain
  let verified ← callCore (.verify key
    (svc.core.bindingPayload owner identity x.accountBindingIssuedAtMs expires) sig)
  Js.ensure verified invalid

end RezSdk.L3
