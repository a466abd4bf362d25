import RezSdk.L1Records.DeviceSets

/-!
# Handshake messages and the calls into @rezprotocol/core

The decoded forms of the three handshake messages, and the interface to the
code outside the repository: the packet codec, X3DH, signatures, and the
transport callback `sendHandshake`. Every such call is a question `q :
CoreCall` whose answer a `Core` gives; the seed stands for the randomness (or
the network) behind it. Text fields stand as `nonEmpty` reads them.
-/
namespace RezSdk.L1

/-- `packet.handshake` of an x3dh.handshake.v2 packet. `x3dh` is the part
only X3DH reads. -/
structure HandshakeData where
  inviteId : Option Id
  senderDisplayName : String
  senderInboxId : Option Id
  senderAccountBinding : Option AccountBinding
  senderIdentitySigningPubKeyB64 : Option Id
  senderIdentityDhPubKeyB64 : Option Id
  ackNonce : Option Id
  createdAtMs : Nat
  x3dh : Bytes
  receiverSignedPreKeyPubB64 : Option String := none
deriving DecidableEq

/-- A parsed JSON object that is a handshake packet of the right type. -/
structure HandshakePacket where
  handshake : HandshakeData
  signatureB64 : Option String
deriving DecidableEq

structure HandshakeAck where
  senderIdentitySigningPubKeyB64 : String
  senderAccountId : Id
  senderInboxId : Option String
  senderDisplayName : String
  ackNonce : String
  createdAtMs : Nat
  signatureB64 : String
deriving DecidableEq

structure HandshakeReject where
  senderIdentitySigningPubKeyB64 : String
  senderAccountId : Id
  reason : String
  ackNonce : String
  createdAtMs : Nat
  signatureB64 : String
deriving DecidableEq

/-- What `verifyHandshakeEnvelope` is given. -/
inductive SignedEnvelope
  | handshake (h : HandshakeData) (signatureB64 : String)
  | ack (a : HandshakeAck)
  | reject (r : HandshakeReject)
deriving DecidableEq

/-- `codec.decryptIncoming`'s result. -/
structure Opened where
  encrypted : Bool
  peerId : Option Id
  handshake : Bool
  plaintextBytes : Bytes
deriving DecidableEq

/-- The session opened the packet: it is encrypted traffic attributed to a
peer. Otherwise the codec reports a non-match or passes a plain control
message through. -/
def Opened.opened (o : Opened) : Bool := o.encrypted && o.peerId.isSome

/-- A key pair, in base64. -/
structure KeyPair where
  publicKey : Id
  privateKey : Id
deriving DecidableEq

structure ChainClaim where
  accountIdentityPublicKeyB64 : Id
  opSignerPublicKeyB64 : Id
  certChain : List Bytes
  nowMs : Nat
deriving DecidableEq

/-- What X3DH's initiator is given: the peer's bundle and identity keys, and
the initiator's own keys. -/
structure InitiatorInput where
  bundle : Bytes
  peerId : Id
  identity : KeyPair
  identityDh : KeyPair
  identityDhSignature : Id
deriving DecidableEq

/-- What X3DH's responder is given. -/
structure ResponderInput where
  preKeyState : Bytes
  identityDhPrivate : Id
  handshake : HandshakeData
  peerId : Id
deriving DecidableEq

/-- What X3DH builds a pre-key bundle from. -/
structure BundleInput where
  accountId : Id
  identity : KeyPair
  identityDh : KeyPair
deriving DecidableEq

inductive CoreCall (Snap : Type)
  | encryptForPeer (base : Snap) (peerId : Id) (plaintextBytes : Bytes)
  | decryptIncoming (base : Snap) (packetBytes : Bytes)
  | processAcceptedInvite (i : InitiatorInput)
  | completeInviteHandshake (i : ResponderInput)
  | verifyHandshakeEnvelope (e : SignedEnvelope)
  | verifyInviteSignature (inviter : Id) (signerRef : Option SignerRef) (msg : Bytes) (sig : Id)
  | verify (publicKey : Id) (msg : Bytes) (sig : Id)
  | verifyAccountAuthority (c : ChainClaim)
  | sign (privateKey : Id) (msg : Bytes)
  | signHandshakeEnvelope (h : HandshakeData) (privateKey : Id)
  | generateSigningKeyPair
  | dhGenerateKeyPair
  | dhDerive (privateKey publicKey : Id)
  | sendHandshake (deliverInboxId : Id) (p : HandshakePacket) (peer : Id)
  | prepareInviteBinding (i : BundleInput)
  /-- `_resolveAuthority(owner)`'s signer -/
  | authoritySigner (owner : Id)
  | authoritySign (owner : Id) (msg : Bytes)
  | verifyDurableRecordV2 (record : DurableRecord) (nowMs : Nat) (revocationState : Option Bytes)
  | hkdfSha256 (secret : Bytes) (info : String) (length : Nat)
  | randomBytes (length : Nat)
  | aeadEncrypt (key nonce plaintext : Bytes) (aad : String)
  | aeadDecrypt (key : Bytes) (nonceB64 ciphertextB64 : String) (aad : String)
deriving DecidableEq

/-- The value a call resolves with; each call may also reject. Sealing,
opening and X3DH return the snapshot the channel manager then exports;
`verifyAccountAuthority` returns the reason of a refusal, and
`verifyDurableRecordV2` the reason or the key that signed; a built bundle comes
with the state its responder needs. -/
abbrev CoreCall.Value {Snap : Type} : CoreCall Snap → Type
  | .encryptForPeer .. => Bytes × Snap
  | .decryptIncoming .. => Opened × Snap
  | .processAcceptedInvite _ => HandshakeData × Snap
  | .completeInviteHandshake _ => Option Id × Snap
  | .verifyHandshakeEnvelope _ => Bool
  | .verifyInviteSignature .. => Bool
  | .verify .. => Bool
  | .verifyAccountAuthority _ => Option String
  | .sign .. => Id
  | .signHandshakeEnvelope .. => String
  | .generateSigningKeyPair => KeyPair
  | .dhGenerateKeyPair => KeyPair
  | .dhDerive .. => Bytes
  | .sendHandshake .. => Option String
  | .prepareInviteBinding _ => Bytes × Bytes
  | .authoritySigner _ => Option Id
  | .authoritySign .. => Id
  | .verifyDurableRecordV2 .. => Except String Id
  | .hkdfSha256 .. => Bytes
  | .randomBytes _ => Bytes
  | .aeadEncrypt .. => Bytes
  | .aeadDecrypt .. => Bytes

/-- The code outside the repository. -/
structure Core (Snap : Type) where
  answer : (q : CoreCall Snap) → Nat → Except Err q.Value
  /-- `JSON.parse` of the packet text, then the shape checks: `error` when
  the text is no JSON, `none` when it is not a handshake packet -/
  parsePacket : Bytes → Except Err (Option HandshakePacket)
  parseAck : Bytes → Option HandshakeAck
  parseReject : Bytes → Option HandshakeReject
  /-- `deriveAccountIdFromPublicKey(base64ToBytes(key))`, `none` when it throws -/
  deriveAccountId : Id → Option Id
  /-- `base64ToBytes` does not throw -/
  isBase64 : Id → Bool
  deviceIdFor : Id → Id
  canonicalPayloadBytes : Envelope → Bytes
  tokenHash : Envelope → Id
  bindingPayload : (accountId x3dhIdentityPublicKeyB64 : Id) → (issuedAtMs expiresAtMs : Nat) →
    Bytes
  keyBytes : Id → Bytes
  /-- `left.localeCompare(right) <= 0` -/
  localeLe : String → String → Bool
  requireIdError : String → Err
  /-- what `base64ToBytes` throws -/
  base64Error : Err
  /-- `signedPreKeyPublic` of a pre-key state, when it is a string -/
  signedPreKeyPublic : Bytes → Option String
  /-- `signedPreKeyPrivate` is a string -/
  hasSignedPreKeyPrivate : Bytes → Bool
  /-- the object `{ v: 2, states }` -/
  preKeyWindow : List Bytes → Bytes
  deviceSetVersion : Nat
  deviceSetPurpose : String
  deviceSetRecordKind : String
  deviceSetPublishCapability : String
  deviceSetSignable : DeviceSetBody → Bytes
  prekeyBundleSignable : PrekeyBundleBody → Bytes
  durableSignable : DurableSkeleton → Bytes
  /-- the base64 text of the payload object -/
  payloadText : SealedPayload → String
  innerBytes : DeviceSetRecord → List PrekeyBundle → Bytes
  /-- decode, parse and check that it is an object; `error` when one throws -/
  parsePayload : String → Except Err SealedPayload
  parseInner : Bytes → Except Err SealedInner
  /-- `DeviceSetRecordV1.fromJSON` -/
  parseDeviceSet : Bytes → Except Err DeviceSetRecord
  /-- `DevicePrekeyBundleV1.fromJSON` -/
  parseBundle : Bytes → Except Err PrekeyBundle
  /-- the checks of `new DeviceSetRecordV1`, on a built record -/
  checkDeviceSet : DeviceSetRecord → Except Err Unit
  /-- the checks of `new DevicePrekeyBundleV1` -/
  checkBundle : PrekeyBundle → Except Err Unit
  bytesToBase64 : Bytes → String
  bytesToHex : Bytes → String
  /-- `Hash.sha256Hex(canonicalJSONStringify(content))` -/
  authorityHash : AuthorityContent → String

end RezSdk.L1
