import RezSdk.L1Records.Records

/-!
# Device sets, pre-key bundles and their durable records

The records an account publishes about its devices, as @rezprotocol/core
constructs them, and the three kinds of values that the device-set functions
keep in the store: this device's identity-DH key, retained pre-key states and
the revision floor of a peer's device set.
-/
namespace RezSdk.L1

structure DeviceEntry where
  deviceId : Id
  devicePublicKeyB64 : Id
  inboxId : Id
deriving DecidableEq

/-- What a `DeviceSetRecordV1` signs. -/
structure DeviceSetBody where
  v : Nat
  purpose : String
  accountIdentityPublicKeyB64 : Id
  revision : Nat
  devices : List DeviceEntry
  issuedAtMs : Nat
  expiresAtMs : Nat
deriving DecidableEq

structure DeviceSetRecord extends DeviceSetBody where
  sigB64 : Id
deriving DecidableEq

/-- What a `DevicePrekeyBundleV1` signs. -/
structure PrekeyBundleBody where
  accountIdentityPublicKeyB64 : Id
  devicePublicKeyB64 : Id
  deviceId : Id
  inboxId : Id
  prekeyVersion : Nat
  bundleJson : Bytes
  issuedAtMs : Nat
  expiresAtMs : Nat
deriving DecidableEq

structure PrekeyBundle extends PrekeyBundleBody where
  sigB64 : Id
deriving DecidableEq

/-- A `DurableRecordV2` without its signature. -/
structure DurableSkeleton where
  v : Nat
  recordKind : String
  recordId : String
  ownerPublicKeyB64 : String
  signerPublicKeyB64 : String
  certChain : List Bytes
  requiredCapability : String
  payloadB64 : String
  issuedAtMs : Nat
  expiresAtMs : Nat
deriving DecidableEq

structure DurableRecord extends DurableSkeleton where
  sigB64 : String
deriving DecidableEq

/-- The JSON object in a device-set record's payload. -/
structure SealedPayload where
  nonceB64 : Option String
  ciphertextB64 : Option String
deriving DecidableEq

/-- The JSON object that is sealed in it; the parts are still JSON. -/
structure SealedInner where
  deviceSet : Bytes
  prekeyBundles : List Bytes
deriving DecidableEq

/-- The fields of a device set that its revision stands for. -/
structure AuthorityContent where
  v : Nat
  purpose : String
  accountIdentityPublicKeyB64 : Id
  revision : Nat
  devices : List DeviceEntry
deriving DecidableEq

/-- What is stored under a device identity key. -/
structure StoredDeviceIdentity where
  deviceId : Id
  devicePublicKeyB64 : Option Id
  x3dhIdentityDhKeyMaterial : Option KeyMaterial
deriving DecidableEq

/-- What is stored under a device pre-key: one responder state, or the window
`{ v: 2, states }`. -/
inductive StoredPreKey
  | single (state : Bytes)
  | window (states : List Bytes)
deriving DecidableEq

/-- What is stored under a device-set floor, in its three historical shapes. A
revision that is no positive integer stands as 0. -/
inductive StoredFloor
  | bare (revision : Nat)
  | signed (revision : Nat) (sigB64 : String)
  | bound (revision : Nat) (binding : Option String)
deriving DecidableEq

end RezSdk.L1
