import Mathlib.Logic.Encodable.Basic
import Mathlib.Logic.Equiv.List
import RezSdk.L4Runs.SetOpening

/-!
# A published device set and the peer that opens it

`buildDeviceSetRecordForPeer` seals an account's device set to a peer, and the
peer opens it (`openSealedDeviceSetRecord`). The publisher takes the bundles of
the account's other devices as its home has collected them; it checks that they
are bundles of this account, and nothing else. The opener also wants at most
eight devices with ids of their own, and bundles that are current and signed.

A run is taken apart into what the publisher read and made (`Publication`), and
what the peer read (`Location`).

* `published_iff`: the peer looks where the record lies, and it opens the record
  if and only if the collected bundles pass the opener's checks (`Publishable`).
* `refused`: a record that fails them is refused.
-/
namespace RezSdk.L4.SetPublishing

open RezSdk.L1 RezSdk.L2 RezSdk.L3 RezSdk.L4.SetOpening

variable {Snap : Type}

/-! ## What is relied on -/

/-- The class `DevicePrekeyBundleV1` has this bundle. -/
def Accepted (core : Core Snap) (b : PrekeyBundle) : Prop := ∃ raw, core.parseBundle raw = .ok b

/-- The owner lets the signer publish its device sets, by this chain of
certificates, at this time. -/
abbrev Authority := (owner signer : Id) → List Bytes → Nat → Prop

/-- The primitives and the record classes of the core. -/
structure Correct (core : Core Snap) (grants : Authority) : Prop where
  predicates : Predicates core
  derives :
    ∀ priv pub n n', core.answer (.dhDerive priv pub) n = core.answer (.dhDerive priv pub) n'
  expands : ∀ secret info length n n',
    core.answer (.hkdfSha256 secret info length) n = core.answer (.hkdfSha256 secret info length) n'
  opens : ∀ key nonce plaintext n ciphertext, core.answer
    (.aeadEncrypt key nonce plaintext sealAad) n = .ok ciphertext →
    ciphertext ≠ [] ∧
      Always core (.aeadDecrypt key (core.bytesToBase64 nonce)
        (core.bytesToBase64 ciphertext) sealAad) plaintext
  base64 : ∀ b, b ≠ [] → core.bytesToBase64 b ≠ ""
  payload : ∀ s, core.parsePayload (core.payloadText s) = .ok s
  /-- the classes read what they have written; a device set has no two devices
  with one id -/
  inner : ∀ account devices nowMs revision sigB64 bundles, 1 ≤ revision → devices ≠ [] →
    (∀ b ∈ bundles, Accepted core b) →
    ∃ inner, core.parseInner (core.innerBytes ⟨setBody core account devices nowMs revision,
    sigB64⟩ bundles) = .ok inner ∧
      ((devices.map (·.deviceId)).Nodup →
        core.parseDeviceSet inner.deviceSet = .ok ⟨setBody core account devices nowMs revision,
          sigB64⟩) ∧
      inner.prekeyBundles.map core.parseBundle = bundles.map .ok
  /-- a device-set record is accepted while it is current when the key it names
  has signed it, with the authority of the owner -/
  verified : ∀ (skeleton : DurableSkeleton) (owner signer sig : Id) (nowMs : Nat), skeleton.v = 2 →
    skeleton.recordKind = core.deviceSetRecordKind →
      skeleton.requiredCapability = core.deviceSetPublishCapability →
    skeleton.ownerPublicKeyB64 = owner.val → skeleton.issuedAtMs ≤ nowMs →
      nowMs < skeleton.expiresAtMs →
    (Always core (.verifyDurableRecordV2 ⟨skeleton, sig.val⟩ nowMs none) (.ok signer) ↔
      skeleton.signerPublicKeyB64 = signer.val ∧
        Signed core signer (core.durableSignable skeleton) sig ∧
        grants owner signer skeleton.certChain nowMs)
  /-- an account needs no certificate to sign for itself -/
  direct : ∀ owner nowMs, grants owner owner [] nowMs

/-- The keys of the publishing device, and its own bundles. -/
structure Keyed (svc : DeviceService Snap) : Prop where
  device : ∀ msg n sig, svc.core.answer (.sign svc.deviceSigningKeyPair.privateKey msg) n =
    .ok sig →
    Signed svc.core svc.devicePublicKeyB64 msg sig
  account : ∀ owner account msg n n' sig, svc.core.answer (.authoritySigner owner) n =
    .ok (some account) →
    svc.core.answer (.authoritySign owner msg) n' = .ok sig → Signed svc.core account msg sig
  bundle : ∀ body sigB64, body.devicePublicKeyB64 = svc.devicePublicKeyB64 →
    body.deviceId = svc.deviceId →
    body.prekeyVersion = 1 → svc.core.checkBundle ⟨body, sigB64⟩ = .ok () →
      Accepted svc.core ⟨body, sigB64⟩

/-! ## The runs -/

abbrev Run (Snap : Type) := List (Proc.Exch (sdk Snap))

/-- Who signs the set. -/
def resolveSetSigner (svc : DeviceService Snap) (owner : Id) : Sdk Snap SetSigner :=
  if svc.hasAdminRoot then resolveAccountIdentitySigner svc owner
    else resolveDelegatedAccountIdentitySigner svc owner

/-- What a publisher's run has read and made, part by part. -/
structure Publication (svc : DeviceService Snap) (a : PublishArgs) (τ : Run Snap)
    (record : DurableRecord) where
  now : Nat
  context : PeerContext
  signer : SetSigner
  identity : BoundIdentity
  set : DeviceSetRecord
  bundles : List PrekeyBundle
  revision : 1 ≤ a.revision
  runs : ∃ τ₁ τ₂ τ₃ τ₄ τ₅ : Run Snap, τ = ⟨.clock, now⟩ :: (τ₁ ++ (τ₂ ++ (τ₃ ++ (τ₄ ++ τ₅)))) ∧
    Proc.Trace (requirePeerDeviceSetContext a.owner a.peer) τ₁ (.ok context) ∧
    Proc.Trace (resolveSetSigner svc a.owner) τ₂ (.ok signer) ∧
    Proc.Trace (requireBoundX3dhIdentity svc.toService a.owner) τ₃ (.ok identity) ∧
    Proc.Trace (deviceSetMaterial svc a signer.accountPublicKeyB64
      (asPositiveInt (a.nowMs.getD 0) now)) τ₄ (.ok (set, bundles)) ∧
    Proc.Trace (buildSealedDeviceSetRecord svc a.owner signer identity.identityDhKeyPair.privateKey
      context.peerIdentityDhPublicKeyB64 set bundles
        (asPositiveInt (a.nowMs.getD 0) now)) τ₅ (.ok record)

/-- The time the record is published at. -/
def Publication.atMs {svc : DeviceService Snap} {a : PublishArgs} {τ : Run Snap}
    {record : DurableRecord} (p : Publication svc a τ record) : Nat :=
  asPositiveInt (a.nowMs.getD 0) p.now

/-- What the peer's run has read, when it asks for the coordinates. -/
structure Location (svc : DeviceService Snap) (owner peer : Id) (τ : Run Snap)
    (c : Coordinates) where
  context : PeerContext
  identity : BoundIdentity
  runs : ∃ (τ₁ τ₂ τ₃ : Run Snap) (aeadKey : Bytes), τ = τ₁ ++ (τ₂ ++ τ₃) ∧
    Proc.Trace (requirePeerDeviceSetContext owner peer) τ₁ (.ok context) ∧
    Proc.Trace (requireBoundX3dhIdentity svc.toService owner) τ₂ (.ok identity) ∧
    Proc.Trace (derivePeerScopedKey svc.core identity.identityDhKeyPair.privateKey
      context.peerIdentityDhPublicKeyB64) τ₃
      (.ok (aeadKey, c.recordId))
  kind : c.recordKind = svc.core.deviceSetRecordKind
  publisher : c.publisherPublicKeyB64 = context.peerAccountPublicKeyB64

/-- The two accounts know one another's keys, and their key agreement agrees. -/
structure Honest {svc other : DeviceService Snap} {a : PublishArgs} {τ τ' : Run Snap}
    {record : DurableRecord} {owner peer : Id} {c : Coordinates} (p : Publication svc a τ record)
    (l : Location other owner peer τ' c) : Prop where
  mine : p.context.peerIdentityDhPublicKeyB64 = l.identity.identityDhKeyPair.publicKey
  theirs : l.context.peerIdentityDhPublicKeyB64 = p.identity.identityDhKeyPair.publicKey
  account : l.context.peerAccountPublicKeyB64 = p.signer.accountPublicKeyB64
  agree : ∀ n, svc.core.answer
    (.dhDerive l.identity.identityDhKeyPair.privateKey p.identity.identityDhKeyPair.publicKey) n =
    svc.core.answer
      (.dhDerive p.identity.identityDhKeyPair.privateKey l.identity.identityDhKeyPair.publicKey) n

/-- How the peer opens the record, at the time it was published. -/
def opening {svc other : DeviceService Snap} {a : PublishArgs} {τ τ' : Run Snap}
    {record : DurableRecord} {owner peer : Id} {c : Coordinates} (p : Publication svc a τ record)
    (l : Location other owner peer τ' c) : OpenArgs where
  record
  myIdentityDhPrivate := l.identity.identityDhKeyPair.privateKey
  peerIdentityDhPublic := l.context.peerIdentityDhPublicKeyB64
  peerAccount := l.context.peerAccountPublicKeyB64
  nowMs := p.atMs
  maxDevices := deviceSetMaxDevices
  revocationState := none

/-- A bundle that the opener takes. -/
structure Current (core : Core Snap) (atMs : Nat) (b : PrekeyBundle) : Prop where
  unexpired : atMs < b.expiresAtMs
  skew : b.issuedAtMs ≤ atMs + deviceSetMaxFutureSkewMs
  signed :
    Signed core b.devicePublicKeyB64 (core.prekeyBundleSignable b.toPrekeyBundleBody) b.sigB64

/-- The collected devices can be published. -/
structure Publishable (svc : DeviceService Snap) (grants : Authority) (a : PublishArgs)
    (atMs : Nat) : Prop where
  few : a.accountDeviceSet.length ≤ deviceSetMaxDevices
  distinct :
    (a.accountDeviceSet.map fun raw => (svc.core.parseBundle raw).toOption.map (·.deviceId)).Nodup
  current : ∀ raw ∈ a.accountDeviceSet, ∀ b, svc.core.parseBundle raw = .ok b →
    Current svc.core atMs b
  authorised : svc.hasAdminRoot = false →
    grants svc.inviteOwnerPublicKeyB64 svc.devicePublicKeyB64 svc.inviteCertChain atMs

/-! ## Taking the runs apart -/

theorem trace_ensure {c : Bool} {e : Err} {τ : Run Snap}
    (h : Proc.Trace (Js.ensure c e : Sdk Snap Unit) τ (.ok ())) : τ = [] ∧ c = true := by
  cases c with
  | true => exact ⟨(Proc.trace_ret.mp h).1, rfl⟩
  | false => cases (Proc.trace_ret.mp h).2

theorem trace_clock {τ : Run Snap} {now : Nat} (h : Proc.Trace (clock : Sdk Snap Nat) τ (.ok now)) :
    τ = [⟨.clock, now⟩] := by
  obtain ⟨r, τ', rfl, hret⟩ := Proc.trace_ask.mp h
  obtain ⟨rfl, heq⟩ := Proc.trace_ret.mp hret
  cases heq
  rfl

theorem published {svc : DeviceService Snap} {a : PublishArgs} {τ : Run Snap}
    {record : DurableRecord} (h : Proc.Trace (buildDeviceSetRecordForPeer svc a) τ (.ok record)) :
    Nonempty (Publication svc a τ record) := by
  obtain ⟨σ₀, τa, _, rfl, hsessions, ha⟩ := Js.trace_bind_ok.mp h
  obtain ⟨rfl, -⟩ := trace_ensure hsessions
  obtain ⟨σ₁, τb, now, rfl, hclock, hb⟩ := Js.trace_bind_ok.mp ha
  obtain rfl := trace_clock hclock
  obtain ⟨σ₂, τc, _, rfl, hensure, hc⟩ := Js.trace_bind_ok.mp hb
  obtain ⟨rfl, hrevision⟩ := trace_ensure hensure
  obtain ⟨τ₁, τd, context, rfl, hcontext, hd⟩ := Js.trace_bind_ok.mp hc
  have hsigner : ∃ τ₂ τe signer, τd = τ₂ ++ τe ∧
      Proc.Trace (resolveSetSigner svc a.owner) τ₂ (.ok signer) ∧
      Proc.Trace (requireBoundX3dhIdentity svc.toService a.owner >>= fun identity =>
        deviceSetMaterial svc a signer.accountPublicKeyB64 (asPositiveInt (a.nowMs.getD 0) now) >>=
          fun material =>
          buildSealedDeviceSetRecord svc a.owner signer identity.identityDhKeyPair.privateKey
            context.peerIdentityDhPublicKeyB64 material.1 material.2
              (asPositiveInt (a.nowMs.getD 0) now) : Sdk Snap DurableRecord)
        τe (.ok record) := by
    dsimp only at hd
    split at hd
    · rename_i hroot
      obtain ⟨τ₂, τe, signer, rfl, hs, he⟩ := Js.trace_bind_ok.mp hd
      exact ⟨τ₂, τe, signer, rfl, by rwa [resolveSetSigner, if_pos hroot], he⟩
    · rename_i hroot
      obtain ⟨τ₂, τe, signer, rfl, hs, he⟩ := Js.trace_bind_ok.mp hd
      exact ⟨τ₂, τe, signer, rfl, by rwa [resolveSetSigner, if_neg hroot], he⟩
  obtain ⟨τ₂, τe, signer, rfl, hs, he⟩ := hsigner
  obtain ⟨τ₃, τf, identity, rfl, hidentity, hf⟩ := Js.trace_bind_ok.mp he
  obtain ⟨τ₄, τ₅, material, rfl, hmaterial, hseal⟩ := Js.trace_bind_ok.mp hf
  exact ⟨⟨now, context, signer, identity, material.1, material.2, of_decide_eq_true hrevision,
    τ₁, τ₂, τ₃, τ₄, τ₅, rfl, hcontext, hs, hidentity, hmaterial, hseal⟩⟩

theorem located {svc : DeviceService Snap} {owner peer : Id} {τ : Run Snap} {c : Coordinates}
    (h : Proc.Trace (resolvePeerDeviceSetCoordinates svc owner peer) τ (.ok c)) :
    Nonempty (Location svc owner peer τ c) := by
  obtain ⟨σ₀, τa, _, rfl, hsessions, ha⟩ := Js.trace_bind_ok.mp h
  obtain ⟨rfl, -⟩ := trace_ensure hsessions
  obtain ⟨τ₁, τb, context, rfl, hcontext, hb⟩ := Js.trace_bind_ok.mp ha
  obtain ⟨τ₂, τc, identity, rfl, hidentity, hc⟩ := Js.trace_bind_ok.mp hb
  obtain ⟨τ₃, τd, key, rfl, hkey, hd⟩ := Js.trace_bind_ok.mp hc
  obtain ⟨rfl, heq⟩ := Proc.trace_ret.mp hd
  cases heq
  exact ⟨⟨context, identity,
    ⟨τ₁, τ₂, τ₃, key.1, by rw [List.append_nil]; rfl, hcontext, hidentity, hkey⟩, rfl, rfl⟩⟩

/-! ## What the publisher makes -/

section

variable {svc : DeviceService Snap} {grants : Authority} {a : PublishArgs} {owner account : Id}
  {signer : SetSigner}
  {set : DeviceSetRecord} {bundles : List PrekeyBundle} {atMs : Nat}

/-- The signer is the account's own key, or the device's with its chain. -/
def SignerOk (svc : DeviceService Snap) (owner : Id) (signer : SetSigner) : Prop :=
  (svc.hasAdminRoot = true ∧ signer = ⟨signer.accountPublicKeyB64, signer.accountPublicKeyB64, []⟩ ∧
    ∃ n, svc.core.answer (.authoritySigner owner) n = .ok (some signer.accountPublicKeyB64)) ∨
  (svc.hasAdminRoot = false ∧
  signer = ⟨svc.inviteOwnerPublicKeyB64, svc.devicePublicKeyB64, svc.inviteCertChain⟩)

theorem yields_resolveSetSigner :
    Yields svc.core (SignerOk svc owner) (resolveSetSigner svc owner) := by
  unfold resolveSetSigner
  split
  · rename_i hroot
    refine Js.yields_bind yields_core fun found hfound => ?_
    refine Js.yields_bind Js.yields_orThrow fun account haccount => ?_
    subst haccount
    refine Js.yields_bind Js.yields_any fun derived _ => ?_
    refine Js.yields_bind Js.yields_any fun _ _ => ?_
    refine Js.yields_bind Js.yields_any fun identity _ => ?_
    refine Js.yields_bind Js.yields_any fun _ _ => ?_
    exact Js.yields_pure (.inl ⟨hroot, rfl, hfound⟩)
  · rename_i hroot
    refine Js.yields_bind Js.yields_any fun derived _ => ?_
    refine Js.yields_bind Js.yields_any fun _ _ => ?_
    refine Js.yields_bind Js.yields_any fun identity _ => ?_
    refine Js.yields_bind Js.yields_any fun _ _ => ?_
    exact Js.yields_pure (.inr ⟨Bool.not_eq_true _ ▸ hroot, rfl⟩)

theorem yields_setSign (hkeyed : Keyed svc) (hsigner : SignerOk svc owner signer) (msg : Bytes) :
    Yields svc.core (Signed svc.core signer.signerPublicKeyB64 msg) (setSign svc owner msg) := by
  unfold setSign
  rcases hsigner with ⟨hroot, hsigner, n, hn⟩ | ⟨hroot, rfl⟩
  · rw [if_pos hroot, hsigner]
    refine yields_core.mono fun sig hsig => ?_
    obtain ⟨n', hn'⟩ := hsig
    exact hkeyed.account owner _ msg n n' sig hn hn'
  · rw [hroot, if_neg Bool.false_ne_true]
    refine yields_core.mono fun sig hsig => ?_
    obtain ⟨n, hn⟩ := hsig
    exact hkeyed.device msg n sig hn

/-- Where the bundles come from: this device has made the only one, or they
are the collected ones. -/
inductive Sourced (svc : DeviceService Snap) (a : PublishArgs) (atMs : Nat)
    (bundles : List PrekeyBundle) : Prop
  | own : a.accountDeviceSet = [] → bundles.length = 1 → (∀ b ∈ bundles, Current svc.core atMs b) →
      Sourced svc a atMs bundles
  | collected {parsed : List PrekeyBundle} :
      a.accountDeviceSet.map svc.core.parseBundle = parsed.map .ok →
    bundles.Perm parsed → Sourced svc a atMs bundles

/-- The set and the bundles that are sealed. -/
structure Material (svc : DeviceService Snap) (a : PublishArgs) (account signer : Id)
    (atMs : Nat) (set : DeviceSetRecord) (bundles : List PrekeyBundle) : Prop where
  body : set.toDeviceSetBody = setBody svc.core account set.devices atMs a.revision
  signed : Signed svc.core signer (svc.core.deviceSetSignable set.toDeviceSetBody) set.sigB64
  listed : (bundles.map bundleEntry).Perm set.devices
  some : bundles ≠ []
  account : ∀ b ∈ bundles, b.accountIdentityPublicKeyB64 = account
  accepted : ∀ b ∈ bundles, Accepted svc.core b
  sourced : Sourced svc a atMs bundles

theorem yields_buildOwnDeviceBundle (hkeyed : Keyed svc) {inboxId : Id} :
    Yields svc.core (fun x : PrekeyBundle × Bytes =>
          bundleEntry x.1 = ⟨svc.deviceId, svc.devicePublicKeyB64, inboxId⟩ ∧
          x.1.accountIdentityPublicKeyB64 = account ∧ Accepted svc.core x.1 ∧
          Current svc.core atMs x.1) (buildOwnDeviceBundle svc owner account inboxId atMs) := by
  refine Js.yields_bind Js.yields_any fun built _ => ?_
  refine Js.yields_bind yields_core fun sig hsig => ?_
  refine Js.yields_bind Js.yields_ofExcept fun _ hcheck => ?_
  obtain ⟨n, hn⟩ := hsig
  refine Js.yields_pure ⟨rfl, rfl, hkeyed.bundle _ sig rfl rfl rfl hcheck, ?_, ?_, ?_⟩
  · exact Nat.lt_add_of_pos_right (by decide)
  · exact Nat.le_add_right atMs _
  · exact hkeyed.device _ n sig hn

theorem yields_readBundles : ∀ {raws : List Bytes}, Yields svc.core (fun bs : List PrekeyBundle =>
    raws.map svc.core.parseBundle = bs.map .ok ∧ ∀ b ∈ bs, b.accountIdentityPublicKeyB64 = account)
    (readBundles svc.core account raws) := by
  intro raws
  induction raws with
  | nil => exact Js.yields_pure ⟨rfl, List.forall_mem_nil _⟩
  | cons raw raws ih =>
    unfold readBundles
    split
    · exact Js.yields_error
    · rename_i bundle hbundle
      refine Js.yields_bind Js.yields_ensure fun _ haccount => ?_
      refine Js.yields_bind ih fun bundles hrest => ?_
      refine Js.yields_pure ⟨?_, List.forall_mem_cons.mpr ⟨of_decide_eq_true haccount, hrest.2⟩⟩
      rw [List.map_cons, List.map_cons, hbundle, hrest.1]

theorem accepted_of_parsed {raws : List Bytes} {parsed : List PrekeyBundle}
    (h : raws.map svc.core.parseBundle = parsed.map .ok) {b : PrekeyBundle} (hb : b ∈ parsed) :
    ∃ raw ∈ raws, svc.core.parseBundle raw = .ok b := by
  have hmem : Except.ok b ∈ raws.map svc.core.parseBundle := by
    rw [h]
    exact List.mem_map_of_mem hb
  exact List.mem_map.mp hmem

theorem perm_sortByText {α : Type} (core : Core Snap) (text : α → String) (l : List α) :
    (sortByText core text l).Perm l :=
  List.perm_insertionSort _ l

theorem yields_material (hkeyed : Keyed svc) (hsigner : SignerOk svc a.owner signer) :
    Yields svc.core (fun x => Material svc a account signer.signerPublicKeyB64 atMs x.1 x.2)
      (deviceSetMaterial svc a account atMs) := by
  unfold deviceSetMaterial
  split
  · rename_i hnone
    refine Js.yields_bind (P := fun x : DeviceSetRecord × PrekeyBundle × Bytes =>
      Material svc a account signer.signerPublicKeyB64 atMs x.1 [x.2.1]) ?_ fun x hx =>
      Js.yields_bind Js.yields_any fun _ _ => Js.yields_pure hx
    refine Js.yields_bind Js.yields_any fun _ _ => ?_
    refine Js.yields_bind Js.yields_any fun inboxId _ => ?_
    refine Js.yields_bind (yields_setSign hkeyed hsigner _) fun sig hsig => ?_
    refine Js.yields_bind Js.yields_any fun _ _ => ?_
    refine Js.yields_bind (yields_buildOwnDeviceBundle hkeyed) fun x hx => ?_
    obtain ⟨hentry, haccount, haccepted, hcurrent⟩ := hx
    refine Js.yields_pure ⟨rfl, hsig, ?_, List.cons_ne_nil _ _,
      List.forall_mem_singleton.mpr haccount,
      List.forall_mem_singleton.mpr haccepted,
        .own (List.isEmpty_iff.mp hnone) rfl (List.forall_mem_singleton.mpr hcurrent)⟩
    rw [List.map_singleton, hentry]
    exact .refl _
  · refine Js.yields_bind yields_readBundles fun parsed hparsed => ?_
    refine Js.yields_bind Js.yields_ensure fun _ hsome => ?_
    refine Js.yields_bind (yields_setSign hkeyed hsigner _) fun sig hsig => ?_
    refine Js.yields_bind Js.yields_any fun _ _ => ?_
    have hperm := perm_sortByText svc.core (fun b : PrekeyBundle => b.deviceId.val) parsed
    refine Js.yields_pure ⟨rfl, hsig, ?_, fun hnil => ?_, fun b hb => ?_, fun b hb => ?_,
      .collected hparsed.1 hperm⟩
    · exact (hperm.map bundleEntry).trans (perm_sortByText svc.core _ _).symm
    · dsimp only at hnil
      rw [hnil] at hperm
      rw [hperm.nil_eq.symm] at hsome
      cases hsome
    · exact hparsed.2 b (hperm.mem_iff.mp hb)
    · obtain ⟨raw, -, hraw⟩ := accepted_of_parsed hparsed.1 (hperm.mem_iff.mp hb)
      exact ⟨raw, hraw⟩

/-- The record that seals them. -/
structure SealedIn (svc : DeviceService Snap) (signer : SetSigner) (priv pub : Id)
    (set : DeviceSetRecord) (bundles : List PrekeyBundle) (atMs : Nat)
    (record : DurableRecord) where
  shared : Bytes
  aeadKey : Bytes
  slotBytes : Bytes
  nonce : Bytes
  ciphertext : Bytes
  derives : ∃ n, svc.core.answer (.dhDerive priv pub) n = .ok shared
  secret : shared ≠ []
  key : ∃ n, svc.core.answer (.hkdfSha256 shared "rez:peer-scoped-seal:aead:v1" 32) n = .ok aeadKey
  keyLength : aeadKey.length = 32
  slot : ∃ n, svc.core.answer (.hkdfSha256 shared "rez:peer-scoped-seal:slot:v1" 16) n =
    .ok slotBytes
  nonceLength : nonce.length = 12
  encrypts : ∃ n, svc.core.answer
    (.aeadEncrypt aeadKey nonce (svc.core.innerBytes set bundles) sealAad) n = .ok ciphertext
  skeleton : record.toDurableSkeleton =
    { v := 2
      recordKind := svc.core.deviceSetRecordKind
      recordId := svc.core.bytesToHex slotBytes
      ownerPublicKeyB64 := signer.accountPublicKeyB64.val
      signerPublicKeyB64 := signer.signerPublicKeyB64.val
      certChain := signer.certChain
      requiredCapability := svc.core.deviceSetPublishCapability
      payloadB64 := svc.core.payloadText ⟨some (svc.core.bytesToBase64 nonce),
        some (svc.core.bytesToBase64 ciphertext)⟩
      issuedAtMs := atMs
      expiresAtMs := atMs + deviceSetTtlMs }
  signed : ∃ sig : Id, record.sigB64 = sig.val ∧
    Signed svc.core signer.signerPublicKeyB64 (svc.core.durableSignable record.toDurableSkeleton)
      sig

theorem yields_derivePeerScopedKey {core : Core Snap} {priv pub : Id} :
    Yields core (fun x : Bytes × String =>
          ∃ shared slotBytes, (∃ n, core.answer (.dhDerive priv pub) n = .ok shared) ∧ shared ≠ [] ∧
            (∃ n, core.answer (.hkdfSha256 shared "rez:peer-scoped-seal:aead:v1" 32) n = .ok x.1) ∧
            (∃ n,
                core.answer (.hkdfSha256 shared "rez:peer-scoped-seal:slot:v1" 16) n =
                  .ok slotBytes) ∧
            x.2 = core.bytesToHex slotBytes) (derivePeerScopedKey core priv pub) := by
  refine Js.yields_bind yields_core fun shared hshared => ?_
  refine Js.yields_bind Js.yields_ensure fun _ hsome => ?_
  refine Js.yields_bind yields_core fun aeadKey hkey => ?_
  refine Js.yields_bind yields_core fun slotBytes hslot => ?_
  refine Js.yields_pure ⟨shared, slotBytes, hshared, fun hnil => ?_, hkey, hslot, rfl⟩
  rw [hnil] at hsome
  cases hsome

theorem yields_sealed (hkeyed : Keyed svc) (hsigner : SignerOk svc owner signer) {priv pub : Id} :
    Yields svc.core (fun record => Nonempty (SealedIn svc signer priv pub set bundles atMs record))
      (buildSealedDeviceSetRecord svc owner signer priv pub set bundles atMs) := by
  refine Js.yields_bind Js.yields_any fun _ _ => ?_
  refine Js.yields_bind yields_derivePeerScopedKey fun x hx => ?_
  obtain ⟨shared, slotBytes, hshared, hsecret, hkey, hslot, hid⟩ := hx
  have hseal : Yields svc.core (fun payload : SealedPayload => x.1.length = 32 ∧
      ∃ nonce ciphertext, nonce.length = 12 ∧
      (∃ n, svc.core.answer (.aeadEncrypt x.1 nonce (svc.core.innerBytes set bundles) sealAad) n =
      .ok ciphertext) ∧
      payload = ⟨some (svc.core.bytesToBase64 nonce), some (svc.core.bytesToBase64 ciphertext)⟩)
      (sealToPeer svc.core x.1 (svc.core.innerBytes set bundles)) := by
    refine Js.yields_bind Js.yields_ensure fun _ hlength => ?_
    refine Js.yields_bind Js.yields_any fun _ _ => ?_
    refine Js.yields_bind Js.yields_any fun nonce _ => ?_
    refine Js.yields_bind Js.yields_ensure fun _ hnonce => ?_
    refine Js.yields_bind yields_core fun ciphertext hciphertext => ?_
    exact Js.yields_pure ⟨of_decide_eq_true hlength, nonce, ciphertext, of_decide_eq_true hnonce,
      hciphertext, rfl⟩
  refine Js.yields_bind hseal fun payload hpayload => ?_
  obtain ⟨hlength, nonce, ciphertext, hnonce, hencrypts, rfl⟩ := hpayload
  refine Js.yields_bind (yields_setSign hkeyed hsigner _) fun sig hsig => ?_
  refine Js.yields_pure ⟨⟨shared, x.1, slotBytes, nonce, ciphertext, hshared,
    hsecret, hkey, hlength, hslot, hnonce, hencrypts,
    ?_, sig, rfl, hsig⟩⟩
  rw [hid]

end

/-! ## What the opener takes -/

/-- Every call has a lawful answer. -/
theorem answerable (core : Core Snap) (o : Op Snap) : ∃ r, Answered core ⟨o, r⟩ := by
  cases o with
  | get k => exact ⟨.ok none, trivial⟩
  | set k v => exact ⟨.ok (), trivial⟩
  | delete k => exact ⟨.ok false, trivial⟩
  | keys p => exact ⟨.ok [], trivial⟩
  | clock => exact ⟨(0 : Nat), trivial⟩
  | runtimeUuid => exact ⟨accountDeviceBundlePeerSentinel, trivial⟩
  | stableId kind => exact ⟨accountDeviceBundlePeerSentinel, trivial⟩
  | chain k => exact ⟨(none, (0 : Nat)), trivial⟩
  | enter k prev pid => exact ⟨(), trivial⟩
  | release k pid => exact ⟨(), trivial⟩
  | countFailure key => exact ⟨(0 : Nat), trivial⟩
  | clearCounts key => exact ⟨(), trivial⟩
  | markSuccess key atMs => exact ⟨(), trivial⟩
  | countMiss key => exact ⟨((0 : Nat), (0 : Nat)), trivial⟩
  | accountDh => exact ⟨(none : Option KeyPair), trivial⟩
  | adoptAccountDh kp => exact ⟨(), trivial⟩
  | core q => exact ⟨core.answer q 0, 0, rfl⟩

/-- What has been checked of a pair that was read from a record with `inner` in
it. -/
structure Checked (core : Core Snap) (args : OpenArgs) (inner : SealedInner) (set : DeviceSetRecord)
    (bundles : List PrekeyBundle) : Prop where
  envelope : ∃ signer, EnvelopeOk core args signer
  few : inner.prekeyBundles.length ≤ args.maxDevices
  passed : Passed core args set [] inner.prekeyBundles bundles

theorem yields_checked {core : Core Snap} {args : OpenArgs} {inner : SealedInner} {parts : Parts}
    (hpred : Predicates core) (hread : Readable core args inner parts) :
    Yields core (fun x => Checked core args inner x.1 x.2)
      (openSealedDeviceSetRecord core args) := by
  refine Js.yields_bind (yields_checkEnvelope hpred) fun signer hsigner => ?_
  refine Js.yields_bind (resolves_openPayload hread).yields fun _ hinner => ?_
  subst hinner
  refine Js.yields_bind (yields_openDeviceSet hpred) fun set _ => ?_
  refine Js.yields_bind Js.yields_ensure fun _ hfew => ?_
  refine Js.yields_bind (yields_openBundles hpred) fun bundles hpassed => ?_
  refine Js.yields_bind Js.yields_any fun _ _ => ?_
  exact Js.yields_pure ⟨⟨signer, hsigner⟩, of_decide_eq_true hfew, hpassed⟩

section

variable {svc other : DeviceService Snap} {grants : Authority} {a : PublishArgs}
  {τ τ' : Run Snap} {record : DurableRecord}
  {owner peer : Id} {c : Coordinates} {p : Publication svc a τ record}
  {l : Location other owner peer τ' c}

/-- What a lawful run of the publisher has made. -/
structure Made (p : Publication svc a τ record) : Prop where
  signer : SignerOk svc a.owner p.signer
  material :
    Material svc a p.signer.accountPublicKeyB64 p.signer.signerPublicKeyB64 p.atMs p.set p.bundles
  sealedIn : Nonempty (SealedIn svc p.signer p.identity.identityDhKeyPair.privateKey
    p.context.peerIdentityDhPublicKeyB64
    p.set p.bundles p.atMs record)

theorem made (hkeyed : Keyed svc) (hτ : ∀ e ∈ τ, Answered svc.core e)
    (p : Publication svc a τ record) : Made p := by
  obtain ⟨τ₁, τ₂, τ₃, τ₄, τ₅, hparts, -, hsigner, -, hmaterial, hseal⟩ := p.runs
  rw [hparts] at hτ
  have hrest := (List.forall_mem_cons.mp hτ).2
  obtain ⟨-, hrest₂⟩ := List.forall_mem_append.mp hrest
  obtain ⟨hτ₂, hrest₃⟩ := List.forall_mem_append.mp hrest₂
  obtain ⟨-, hrest₄⟩ := List.forall_mem_append.mp hrest₃
  obtain ⟨hτ₄, hτ₅⟩ := List.forall_mem_append.mp hrest₄
  have hs : SignerOk svc a.owner p.signer := Js.Yields.trace hsigner hτ₂ yields_resolveSetSigner
  have hm := Js.Yields.trace hmaterial hτ₄ (yields_material hkeyed hs)
  have hr := Js.Yields.trace hseal hτ₅ (yields_sealed hkeyed hs)
  exact ⟨hs, hm, hr⟩

theorem always {core : Core Snap} {q : CoreCall Snap} {v : q.Value}
    (hsame : ∀ n n', core.answer q n = core.answer q n') (h : ∃ n, core.answer q n = .ok v) :
    Always core q v := by
  obtain ⟨n, hn⟩ := h
  exact fun n' => (hsame n' n).trans hn

/-- The peer derives the key and the slot that the publisher has sealed with. -/
theorem readable (hcore : Correct svc.core grants) (hmade : Made p) (hhonest : Honest p l) :
    ∃ inner parts, Readable svc.core (opening p l) inner parts ∧
      ((p.set.devices.map (·.deviceId)).Nodup →
        svc.core.parseDeviceSet inner.deviceSet = .ok p.set) ∧
      inner.prekeyBundles.map svc.core.parseBundle = p.bundles.map .ok := by
  obtain ⟨s⟩ := hmade.sealedIn
  obtain ⟨hbody, -, hlisted, hsome, -, haccepted, -⟩ := hmade.material
  have hdevices : p.set.devices ≠ [] := by
    intro hnil
    rw [hnil] at hlisted
    exact hsome (List.map_eq_nil_iff.mp hlisted.eq_nil)
  obtain ⟨inner, hinner, hset, hbundles⟩ :=
    hcore.inner p.signer.accountPublicKeyB64 p.set.devices p.atMs a.revision
      p.set.sigB64 p.bundles p.revision hdevices haccepted
  rw [← hbody] at hinner hset
  have hshared : Always svc.core (.dhDerive l.identity.identityDhKeyPair.privateKey
      p.identity.identityDhKeyPair.publicKey) s.shared := by
    intro n
    rw [hhonest.agree, ← hhonest.mine]
    exact always (hcore.derives _ _) s.derives n
  obtain ⟨n, hencrypts⟩ := s.encrypts
  obtain ⟨htag, hopens⟩ := hcore.opens _ _ _ _ _ hencrypts
  have hnonce : s.nonce ≠ [] := fun hnil => by
    have := s.nonceLength
    rw [hnil] at this
    cases this
  refine ⟨inner, ⟨s.shared, s.aeadKey, s.slotBytes,
    ⟨some (svc.core.bytesToBase64 s.nonce), some (svc.core.bytesToBase64 s.ciphertext)⟩,
    svc.core.bytesToBase64 s.nonce, svc.core.bytesToBase64 s.ciphertext,
      svc.core.innerBytes p.set p.bundles⟩, ?_, hset, hbundles⟩
  exact {
    derives := by rw [opening, hhonest.theirs]; exact hshared
    secret := s.secret
    keys := always (hcore.expands _ _ _) s.key
    keyLength := s.keyLength
    slots := always (hcore.expands _ _ _) s.slot
    slot := congrArg DurableSkeleton.recordId s.skeleton
    payload :=
      (congrArg (fun k => svc.core.parsePayload k.payloadB64) s.skeleton).trans (hcore.payload _)
    nonce := ⟨rfl, hcore.base64 _ hnonce⟩
    ciphertext := ⟨rfl, hcore.base64 _ htag⟩
    decrypts := hopens
    parses := hinner }

/-- The peer looks where the record lies. -/
theorem coordinates_eq (hcore : Correct svc.core grants) (hmade : Made p) (hhonest : Honest p l)
    (hother : other.core = svc.core) (hτ' : ∀ e ∈ τ', Answered svc.core e) :
    c.recordKind = record.recordKind ∧ c.recordId = record.recordId ∧
    c.publisherPublicKeyB64.val = record.ownerPublicKeyB64 := by
  obtain ⟨s⟩ := hmade.sealedIn
  obtain ⟨τ₁, τ₂, τ₃, aeadKey, hparts, -, -, hderive⟩ := l.runs
  rw [hparts] at hτ'
  obtain ⟨-, hrest⟩ := List.forall_mem_append.mp hτ'
  obtain ⟨-, hτ₃⟩ := List.forall_mem_append.mp hrest
  rw [hother] at hderive
  obtain ⟨shared, slotBytes, hshared, -, -, hslot, hid⟩ :=
    Js.Yields.trace hderive hτ₃ yields_derivePeerScopedKey
  have hagree : shared = s.shared := by
    obtain ⟨n, hn⟩ := hshared
    rw [hhonest.theirs, hhonest.agree, ← hhonest.mine, always (hcore.derives _ _) s.derives n] at hn
    exact (Except.ok.inj hn).symm
  have hbytes : slotBytes = s.slotBytes := by
    obtain ⟨n, hn⟩ := hslot
    rw [hagree, always (hcore.expands _ _ _) s.slot n] at hn
    exact (Except.ok.inj hn).symm
  refine ⟨?_, ?_, ?_⟩
  · rw [l.kind, hother, s.skeleton]
  · rw [s.skeleton, ← hbytes]
    exact hid
  · rw [l.publisher, hhonest.account, s.skeleton]

theorem skew_opening {issuedAtMs : Nat} :
    (∀ skew, (opening p l).maxFutureSkewMs = some skew → (issuedAtMs : Int) ≤ p.atMs + skew) ↔
    issuedAtMs ≤ p.atMs + deviceSetMaxFutureSkewMs := by
  refine ⟨fun h => ?_, fun h skew heq => ?_⟩
  · have := h _ rfl
    omega
  · cases heq
    omega

theorem eq_of_val {i j : Id} (h : i.val = j.val) : i = j := by
  cases i
  cases j
  exact (Id.mk.injEq ..).mpr h

/-- The envelope is accepted exactly when its signer has the account's
authority. -/
theorem verified_iff (hcore : Correct svc.core grants) (hmade : Made p) (signer : Id) :
    Always svc.core (.verifyDurableRecordV2 record p.atMs none) (.ok signer) ↔
    signer = p.signer.signerPublicKeyB64 ∧
    grants p.signer.accountPublicKeyB64 signer p.signer.certChain p.atMs := by
  obtain ⟨s⟩ := hmade.sealedIn
  obtain ⟨sig, hsig, hsigned⟩ := s.signed
  have hrecord : record = ⟨record.toDurableSkeleton, sig.val⟩ := by rw [← hsig]
  have hskeleton := s.skeleton
  have hverified :=
    hcore.verified record.toDurableSkeleton p.signer.accountPublicKeyB64 signer sig p.atMs
    (by rw [hskeleton]) (by rw [hskeleton]) (by rw [hskeleton]) (by rw [hskeleton])
    (by rw [hskeleton])
    (by rw [hskeleton]; exact Nat.lt_add_of_pos_right (by decide))
  rw [← hrecord] at hverified
  rw [hverified, hskeleton]
  refine ⟨fun h => ⟨eq_of_val h.1.symm, h.2.2⟩, fun h => ⟨congrArg Id.val h.1.symm, ?_, h.2⟩⟩
  rw [h.1, ← hskeleton]
  exact hsigned

/-- What is asked of the collected bundles is asked of those that are sealed. -/
theorem sourced_iff {atMs : Nat} {bundles : List PrekeyBundle} (h : Sourced svc a atMs bundles) :
    (bundles.length ≤ deviceSetMaxDevices ∧ (bundles.map (·.deviceId)).Nodup ∧
      ∀ b ∈ bundles, Current svc.core atMs b) ↔
    a.accountDeviceSet.length ≤ deviceSetMaxDevices ∧
    (a.accountDeviceSet.map fun raw => (svc.core.parseBundle raw).toOption.map (·.deviceId)).Nodup ∧
    ∀ raw ∈ a.accountDeviceSet, ∀ b, svc.core.parseBundle raw = .ok b →
      Current svc.core atMs b := by
  cases h with
  | own hnone hone hcurrent =>
    obtain ⟨b, rfl⟩ := List.length_eq_one_iff.mp hone
    rw [hnone]
    refine ⟨fun _ => ⟨Nat.zero_le _, List.nodup_nil, List.forall_mem_nil _⟩,
      fun _ => ⟨?_, List.nodup_singleton _, hcurrent⟩⟩
    show 1 ≤ deviceSetMaxDevices
    decide
  | @collected parsed hparsed hperm =>
    have hlength : a.accountDeviceSet.length = bundles.length := by
      have hmap := congrArg List.length hparsed
      rw [List.length_map, List.length_map] at hmap
      rw [hmap, hperm.length_eq]
    have hids :
        (a.accountDeviceSet.map fun raw => (svc.core.parseBundle raw).toOption.map (·.deviceId)) =
        parsed.map fun b => some b.deviceId := by
      have hmap :=
        congrArg (List.map fun x : Except Err PrekeyBundle => x.toOption.map (·.deviceId)) hparsed
      rw [List.map_map, List.map_map] at hmap
      exact hmap
    have hnodup :
        (parsed.map fun b => some b.deviceId).Nodup ↔ (bundles.map (·.deviceId)).Nodup := by
      rw [(hperm.map (·.deviceId)).nodup_iff, ← List.nodup_map_iff (Option.some_injective Id),
        List.map_map]
      rfl
    have hall : (∀ b ∈ bundles, Current svc.core atMs b) ↔
        ∀ raw ∈ a.accountDeviceSet, ∀ b, svc.core.parseBundle raw = .ok b →
        Current svc.core atMs b := by
      refine ⟨fun h raw hraw b hb => ?_, fun h b hb => ?_⟩
      · have hmem : (Except.ok b : Except Err PrekeyBundle) ∈ parsed.map Except.ok := by
          rw [← hparsed, ← hb]
          exact List.mem_map_of_mem hraw
        obtain ⟨b', hb', heq⟩ := List.mem_map.mp hmem
        cases heq
        exact h b (hperm.mem_iff.mpr hb')
      · obtain ⟨raw, hraw, hparse⟩ := accepted_of_parsed hparsed (hperm.mem_iff.mp hb)
        exact h raw hraw b hparse
    rw [hlength, hids, hnodup, hall]

theorem grants_iff (hcore : Correct svc.core grants) (hmade : Made p) :
    grants p.signer.accountPublicKeyB64 p.signer.signerPublicKeyB64 p.signer.certChain p.atMs ↔
    (svc.hasAdminRoot = false →
      grants svc.inviteOwnerPublicKeyB64 svc.devicePublicKeyB64 svc.inviteCertChain p.atMs) := by
  rcases hmade.signer with ⟨hroot, hsigner, -⟩ | ⟨hroot, hsigner⟩
  · rw [hsigner, hroot]
    exact ⟨fun _ h => (by cases h), fun _ => hcore.direct _ _⟩
  · rw [hsigner]
    exact ⟨fun h _ => h, fun h => h hroot⟩

theorem map_ok_inj {α : Type} {l m : List α}
    (h : l.map (Except.ok : α → Except Err α) = m.map .ok) : l = m :=
  List.map_injective_iff.mpr (fun _ _ => Except.ok.inj) h

/-- A run of the opener that returns anything has found the collected bundles
in order. -/
theorem publishable_of_opened (hcore : Correct svc.core grants) (hmade : Made p)
    (hhonest : Honest p l) {σ : Run Snap} {x : DeviceSetRecord × List PrekeyBundle}
    (hrun : Proc.Trace (openSealedDeviceSetRecord svc.core (opening p l)) σ (.ok x))
    (hσ : ∀ e ∈ σ, Answered svc.core e) : Publishable svc grants a p.atMs := by
  obtain ⟨inner, parts, hreadable, -, hraws⟩ := readable hcore hmade hhonest
  obtain ⟨⟨signer, henvelope⟩, hfew, hpassed⟩ :=
    Js.Yields.trace hrun hσ (yields_checked hcore.predicates hreadable)
  have hbundles : x.2 = p.bundles := map_ok_inj (hpassed.parsed.symm.trans hraws)
  have hlength : inner.prekeyBundles.length = p.bundles.length := by
    rw [← List.length_map (f := svc.core.parseBundle), hraws, List.length_map]
  rw [hbundles] at hpassed
  obtain ⟨rfl, hgranted⟩ := (verified_iff hcore hmade signer).mp henvelope.verified
  obtain ⟨hcount, hdistinct, hcurrent⟩ := (sourced_iff hmade.material.sourced).mp ⟨hlength ▸ hfew,
    hpassed.distinct, fun b hb =>
    ⟨(hpassed.good b hb).unexpired, skew_opening.mp (hpassed.good b hb).skew,
    (hpassed.good b hb).signed⟩⟩
  exact ⟨hcount, hdistinct, hcurrent, (grants_iff hcore hmade).mp hgranted⟩

/-- The opener returns what was sealed when the collected bundles can be
published. -/
theorem opens_of_publishable (hcore : Correct svc.core grants) (hmade : Made p)
    (hhonest : Honest p l) (h : Publishable svc grants a p.atMs) :
    Resolves svc.core (p.set, p.bundles) (openSealedDeviceSetRecord svc.core (opening p l)) := by
  have hcount : p.set.devices.length = p.bundles.length := by
    rw [← hmade.material.listed.length_eq, List.length_map]
  have hids : (p.bundles.map (·.deviceId)).Perm (p.set.devices.map (·.deviceId)) := by
    have hmap := hmade.material.listed.map (·.deviceId)
    rwa [List.map_map] at hmap
  obtain ⟨hfew, hdistinct, hcurrent⟩ :=
    (sourced_iff hmade.material.sourced).mpr ⟨h.few, h.distinct, h.current⟩
  have hnodup := hids.nodup_iff.mp hdistinct
  obtain ⟨inner, parts, hreadable, hparse, hraws⟩ := readable hcore hmade hhonest
  obtain ⟨s⟩ := hmade.sealedIn
  have henvelope : EnvelopeOk svc.core (opening p l) p.signer.signerPublicKeyB64 := by
    refine ⟨?_, ?_, ?_, ?_,
      (verified_iff hcore hmade _).mpr ⟨rfl, (grants_iff hcore hmade).mpr h.authorised⟩⟩
    · show 1 ≤ deviceSetMaxDevices
      decide
    · exact congrArg DurableSkeleton.recordKind s.skeleton
    · exact congrArg DurableSkeleton.v s.skeleton
    · exact (congrArg DurableSkeleton.ownerPublicKeyB64 s.skeleton).trans
        (congrArg Id.val hhonest.account.symm)
  have hset : SetOk svc.core (opening p l) p.signer.signerPublicKeyB64 p.set := by
    have hbody := hmade.material.body
    refine ⟨?_, hmade.material.signed, hcount ▸ hfew, ?_, skew_opening.mpr ?_⟩
    · exact (congrArg DeviceSetBody.accountIdentityPublicKeyB64 hbody).trans hhonest.account.symm
    · rw [hbody]
      exact Nat.lt_add_of_pos_right (by decide)
    · rw [hbody]
      exact Nat.le_add_right _ _
  have hpassed : Passed svc.core (opening p l) p.set [] inner.prekeyBundles p.bundles := by
    refine ⟨hraws, fun b hb => ⟨?_, ?_, (hcurrent b hb).unexpired,
      skew_opening.mpr (hcurrent b hb).skew, (hcurrent b hb).signed⟩,
      fun _ _ h => (by cases h), hdistinct⟩
    · exact hmade.material.listed.mem_iff.mp (List.mem_map_of_mem hb)
    · exact (hmade.material.account b hb).trans hhonest.account.symm
  exact resolves_open henvelope hreadable (hparse hnodup) hset hnodup hpassed hmade.material.listed

/-- What cannot be published is refused. -/
theorem refused (hcore : Correct svc.core grants) (hmade : Made p) (hhonest : Honest p l)
    (h : ¬ Publishable svc grants a p.atMs) {σ : Run Snap}
    {x : Except Err (DeviceSetRecord × List PrekeyBundle)}
    (hrun : Proc.Trace (openSealedDeviceSetRecord svc.core (opening p l)) σ x)
    (hσ : ∀ e ∈ σ, Answered svc.core e) : ∃ e, x = .error e := by
  cases x with
  | error e => exact ⟨e, rfl⟩
  | ok y => exact (h (publishable_of_opened hcore hmade hhonest hrun hσ)).elim

theorem opens_iff (hcore : Correct svc.core grants) (hmade : Made p) (hhonest : Honest p l) :
    Resolves svc.core (p.set, p.bundles) (openSealedDeviceSetRecord svc.core (opening p l)) ↔
    Publishable svc grants a p.atMs := by
  refine ⟨fun hresolves => ?_, opens_of_publishable hcore hmade hhonest⟩
  obtain ⟨σ, hrun, hσ⟩ := hresolves.run (answerable svc.core)
  exact publishable_of_opened hcore hmade hhonest hrun hσ

end

namespace Example

/-! The record classes write a value as its code. -/

instance encodableChar : Encodable Char := .ofLeftInverse Char.toNat Char.ofNat Char.ofNat_toNat

instance encodableByte : Encodable UInt8 :=
  .ofLeftInverse UInt8.toNat UInt8.ofNat fun _ => UInt8.ofNat_toNat

instance encodableString : Encodable String :=
  .ofLeftInverse String.toList String.ofList fun _ => String.ofList_toList

instance : Encodable Id :=
  .ofLeftInjection Id.val (fun s => if h : isId s = true then some ⟨s, h⟩ else none) fun i =>
    dif_pos i.ok

instance : Encodable DeviceEntry :=
  .ofLeftInverse (fun d => (d.deviceId, d.devicePublicKeyB64, d.inboxId))
    (fun x => ⟨x.1, x.2.1, x.2.2⟩) fun _ => rfl

instance : Encodable DeviceSetRecord :=
  .ofLeftInverse
    (fun s => (s.v, s.purpose, s.accountIdentityPublicKeyB64, s.revision, s.devices,
    s.issuedAtMs, s.expiresAtMs, s.sigB64))
    (fun x => ⟨⟨x.1, x.2.1, x.2.2.1, x.2.2.2.1, x.2.2.2.2.1, x.2.2.2.2.2.1, x.2.2.2.2.2.2.1⟩,
    x.2.2.2.2.2.2.2⟩)
    fun _ => rfl

instance : Encodable PrekeyBundle :=
  .ofLeftInverse
    (fun b => (b.accountIdentityPublicKeyB64, b.devicePublicKeyB64, b.deviceId,
    b.inboxId, b.prekeyVersion, b.bundleJson,
      b.issuedAtMs, b.expiresAtMs, b.sigB64))
    (fun x => ⟨⟨x.1, x.2.1, x.2.2.1, x.2.2.2.1, x.2.2.2.2.1, x.2.2.2.2.2.1,
    x.2.2.2.2.2.2.1, x.2.2.2.2.2.2.2.1⟩,
      x.2.2.2.2.2.2.2.2⟩)
    fun _ => rfl

instance : Encodable SealedPayload :=
  .ofLeftInverse (fun s => (s.nonceB64, s.ciphertextB64)) (fun x => ⟨x.1, x.2⟩) fun _ => rfl

section

variable {α : Type} [Encodable α]

/-- The value whose code is one less than `n`. -/
@[irreducible] def decode (n : Nat) : Except Err α :=
  match Encodable.decode (n - 1) with
  | some x => .ok x
  | none => .error { message := "not a value" }

/-- A value as bytes, one more than its code. -/
@[irreducible] def bytesOf (x : α) : Bytes := List.replicate (Encodable.encode x + 1) 0

/-- The same as a text. -/
@[irreducible] def textOf (x : α) : String := .ofList (List.replicate (Encodable.encode x + 1) 'z')

theorem decode_bytesOf (x : α) : decode (bytesOf x).length = .ok x := by
  simp only [decode, bytesOf, List.length_replicate, Nat.add_sub_cancel, Encodable.encodek]

theorem decode_textOf (x : α) : decode (textOf x).length = .ok x := by
  simp only [decode, textOf, String.length_ofList, List.length_replicate, Nat.add_sub_cancel,
    Encodable.encodek]

theorem textOf_ne (x : α) : textOf x ≠ "" := by
  intro h
  have hlength := congrArg String.length h
  rw [textOf, String.length_ofList, List.length_replicate] at hlength
  cases hlength

end

/-- The signer that a record names. -/
def signerOf (record : DurableRecord) : Except String Id :=
  if h : isId record.signerPublicKeyB64 = true then .ok ⟨record.signerPublicKeyB64, h⟩
    else .error "signer"

/-- A bundle of device `d` of account `a` that has expired at 3. -/
def stale : PrekeyBundle :=
  ⟨⟨Counting.a, Counting.d, Counting.d, Counting.c, 1, [], 1, 3⟩, Counting.a⟩

/-- A bundle of device `id` of account `a`. -/
def fresh (id : Id) : PrekeyBundle := ⟨⟨Counting.a, id, id, id, 1, [], 1, 50⟩, Counting.a⟩

/-- The bundles that were collected from the devices. -/
def collected (b : Bytes) : Option PrekeyBundle :=
  if b = [] then some stale
  else if b = [1] then some (fresh Counting.c)
  else if b = [2] then some (fresh Counting.d)
  else none

theorem collected_bytesOf {α : Type} [Encodable α] (x : α) : collected (bytesOf x) = none := by
  simp [collected, bytesOf, List.replicate_succ]

/-- Every signature is good, who signs has the authority, and sealing puts one
byte in front. -/
def lawful : Core Nat :=
  { Counting.core with
    answer := fun
      | .dhDerive .., _ => .ok [1]
      | .aeadEncrypt _ _ plaintext _, _ => .ok (0 :: plaintext)
      | .aeadDecrypt _ _ ciphertextB64 _, _ => (decode ciphertextB64.length).map List.tail
      | .verifyDurableRecordV2 record _ _, _ => .ok (signerOf record)
      | q, n => Counting.answer q n
    bytesToBase64 := textOf
    payloadText := textOf
    parsePayload := fun s => decode s.length
    innerBytes := fun set bundles => 0 :: bytesOf (set, bundles)
    parseInner := fun b => (decode b.tail.length).map fun x :
      DeviceSetRecord × List PrekeyBundle => ⟨bytesOf x.1, x.2.map bytesOf⟩
    parseDeviceSet := fun b => decode b.length
    parseBundle := fun b => (collected b).elim (decode b.length) .ok }

theorem parseBundle_bytesOf (bundle : PrekeyBundle) :
    lawful.parseBundle (bytesOf bundle) = .ok bundle := by
  change (collected (bytesOf bundle)).elim (decode (bytesOf bundle).length) Except.ok = .ok bundle
  rw [collected_bytesOf]
  exact decode_bytesOf bundle

theorem lawful_opens (key nonce plaintext ciphertext : Bytes) (n : Nat)
    (h : lawful.answer (.aeadEncrypt key nonce plaintext sealAad) n = .ok ciphertext) :
    ciphertext ≠ [] ∧
    Always lawful
      (.aeadDecrypt key (lawful.bytesToBase64 nonce) (lawful.bytesToBase64 ciphertext) sealAad)
      plaintext := by
  have hsealed : 0 :: plaintext = ciphertext := Except.ok.inj h
  subst hsealed
  refine ⟨List.cons_ne_nil _ _, fun _ => ?_⟩
  show Except.map List.tail (decode (textOf (0 :: plaintext)).length) = _
  rw [decode_textOf]
  rfl

theorem lawful_inner (set : DeviceSetRecord) (bundles : List PrekeyBundle) :
    ∃ inner, lawful.parseInner (lawful.innerBytes set bundles) = .ok inner ∧
      lawful.parseDeviceSet inner.deviceSet = .ok set ∧
      inner.prekeyBundles.map lawful.parseBundle = bundles.map .ok := by
  refine ⟨⟨bytesOf set, bundles.map bytesOf⟩, ?_, ?_, ?_⟩
  · show Except.map _ (decode (bytesOf (set, bundles)).length) = _
    rw [decode_bytesOf]
    rfl
  · show decode (bytesOf set).length = _
    exact decode_bytesOf set
  · rw [List.map_map]
    exact List.map_congr_left fun b _ => parseBundle_bytesOf b

theorem lawful_verified (skeleton : DurableSkeleton) (signer sig : Id) (nowMs : Nat) :
    Always lawful (.verifyDurableRecordV2 ⟨skeleton, sig.val⟩ nowMs none) (.ok signer) ↔
      skeleton.signerPublicKeyB64 = signer.val := by
  have hok :
      signerOf ⟨skeleton, sig.val⟩ = .ok signer ↔ skeleton.signerPublicKeyB64 = signer.val := by
    unfold signerOf
    refine ⟨fun h => ?_, fun h => ?_⟩
    · split at h
      · exact congrArg Id.val (Except.ok.inj h)
      · cases h
    · rw [dif_pos (by rw [h]; exact signer.ok)]
      exact congrArg Except.ok (eq_of_val h)
  exact ⟨fun h => hok.mp (Except.ok.inj (h 0)), fun h _ => congrArg Except.ok (hok.mpr h)⟩

theorem lawful_correct : Correct lawful fun _ _ _ _ => True where
  predicates := ⟨fun _ _ _ _ _ => rfl, fun _ _ _ _ _ => rfl⟩
  derives _ _ _ _ := rfl
  expands _ _ _ _ _ := rfl
  opens key nonce plaintext n ciphertext h := lawful_opens key nonce plaintext ciphertext n h
  base64 b _ := textOf_ne b
  payload s := by
    show decode (textOf s).length = _
    exact decode_textOf s
  inner account devices nowMs revision sigB64 bundles _ _ _ := by
    obtain ⟨inner, hinner, hset, hbundles⟩ :=
      lawful_inner ⟨setBody lawful account devices nowMs revision, sigB64⟩ bundles
    exact ⟨inner, hinner, fun _ => hset, hbundles⟩
  verified skeleton owner signer sig nowMs _ _ _ _ _ _ :=
    (lawful_verified skeleton signer sig nowMs).trans ⟨fun h => ⟨h, fun _ => rfl, trivial⟩,
    And.left⟩
  direct _ _ := trivial

/-- Device `d` of account `a`. -/
def publisher : DeviceService Nat := { Counting.tablet with core := lawful }

theorem publisher_keyed : Keyed publisher where
  device _ _ _ _ _ := rfl
  account _ _ _ _ _ _ _ _ _ := rfl
  bundle body sigB64 _ _ _ _ := ⟨bytesOf (⟨body, sigB64⟩ : PrekeyBundle), parseBundle_bytesOf _⟩

/-- The stores of the accounts `a` and `b`, each with a link to the other. -/
def stored : Store Nat :=
  (((Counting.peered.insert (.identity Counting.b)
    (AccountKeys.toStored ⟨⟨Counting.b, Counting.b⟩, ⟨Counting.b, Counting.b⟩, Counting.b,
      some (Counting.bindingOf Counting.b 50)⟩)).insert
    (.pair Counting.b Counting.a) Counting.d)).insert
    (.peerLink Counting.b Counting.d)
    { Counting.link .sessionEstablished with
      localAccountId := Counting.b
      peerLinkId := Counting.d
      peerAccountId := Counting.a
      remoteIdentityDhPublicKeyB64 := some Counting.a
      remoteAccountIdentityPublicKeyB64 := some Counting.a }

/-- Reads give what is stored, and it is 5 o'clock. -/
def answers : (o : Op Nat) → (sdk Nat).Ans o
  | .get k => .ok (stored.lookup k)
  | .set _ _ => .ok ()
  | .delete _ => .ok false
  | .keys _ => .ok []
  | .clock => (5 : Nat)
  | .runtimeUuid => Counting.a
  | .stableId _ => Counting.a
  | .chain _ => (none, (0 : Nat))
  | .enter .. => ()
  | .release .. => ()
  | .countFailure _ => (0 : Nat)
  | .clearCounts _ => ()
  | .markSuccess .. => ()
  | .countMiss _ => ((0 : Nat), (0 : Nat))
  | .accountDh => (none : Option KeyPair)
  | .adoptAccountDh _ => ()
  | .core q => lawful.answer q 0

theorem answered (o : Op Nat) : Answered lawful ⟨o, answers o⟩ := by
  cases o with
  | core q => exact ⟨0, rfl⟩
  | _ => trivial

/-- What account `a` publishes for account `b`. -/
def publish (accountDeviceSet : List Bytes) : PublishArgs :=
  ⟨Counting.a, Counting.b, none, 1, accountDeviceSet⟩

abbrev publishing (accountDeviceSet : List Bytes) :
    List (Proc.Exch (sdk Nat)) × Except Err DurableRecord :=
  Proc.follow answers (buildDeviceSetRecordForPeer publisher (publish accountDeviceSet))

/-- Account `b` looks for it. -/
abbrev locating : List (Proc.Exch (sdk Nat)) × Except Err Coordinates :=
  Proc.follow answers (resolvePeerDeviceSetCoordinates publisher Counting.b Counting.a)

theorem fixed_follow {α : Type} (p : Proc (sdk Nat) α) :
    ∀ e ∈ (Proc.follow answers p).1, e.ans = answers e.op :=
  Proc.forall_follow fun _ => rfl

theorem lawful_follow {α : Type} (p : Proc (sdk Nat) α) :
    ∀ e ∈ (Proc.follow answers p).1, Answered lawful e :=
  Proc.forall_follow answered

/-- Part of a run in these stores gives what the stores give. -/
theorem eq_of_fixed {α : Type} {p : Sdk Nat α} {σ : Run Nat} {v w : α} (h : Proc.Trace p σ (.ok v))
    (hσ : ∀ e ∈ σ, e.ans = answers e.op) (hw : (Proc.follow answers p).2 = .ok w) : v = w := by
  rw [Proc.eq_follow h hσ] at hw
  exact Except.ok.inj hw

theorem trace_locating :
    ∃ c,
      Proc.Trace (resolvePeerDeviceSetCoordinates publisher Counting.b Counting.a) locating.1
        (.ok c) := by
  have hresult : ∃ c, locating.2 = .ok c := ⟨_, rfl⟩
  obtain ⟨c, hc⟩ := hresult
  exact ⟨c, hc ▸ Proc.trace_follow⟩

theorem trace_publishing (accountDeviceSet : List Bytes)
    (h : ∃ record, (publishing accountDeviceSet).2 = .ok record) :
    ∃ record,
      Proc.Trace (buildDeviceSetRecordForPeer publisher (publish accountDeviceSet))
        (publishing accountDeviceSet).1 (.ok record) := by
  obtain ⟨record, hrecord⟩ := h
  exact ⟨record, hrecord ▸ Proc.trace_follow⟩

/-- What a publication in these stores has read, and collected. -/
theorem publication {accountDeviceSet : List Bytes} {record : DurableRecord}
    (p : Publication publisher (publish accountDeviceSet) (publishing accountDeviceSet).1 record) :
    p.atMs = 5 ∧ p.context = ⟨Counting.c, Counting.b, Counting.b⟩ ∧
    p.signer = ⟨Counting.a, Counting.a, []⟩ ∧
    p.identity.identityDhKeyPair = ⟨Counting.a, Counting.a⟩ ∧
    (Proc.follow answers (deviceSetMaterial publisher (publish accountDeviceSet) Counting.a 5)).2 =
      .ok (p.set, p.bundles) := by
  have hfixed := fixed_follow (buildDeviceSetRecordForPeer publisher (publish accountDeviceSet))
  obtain ⟨τ₁, τ₂, τ₃, τ₄, τ₅, hparts, hcontext, hsigner, hidentity, hmaterial, -⟩ := p.runs
  rw [show (Proc.follow answers
    (buildDeviceSetRecordForPeer publisher (publish accountDeviceSet))).1 = _ from hparts] at hfixed
  obtain ⟨hnow, hrest⟩ := List.forall_mem_cons.mp hfixed
  obtain ⟨hτ₁, hrest⟩ := List.forall_mem_append.mp hrest
  obtain ⟨hτ₂, hrest⟩ := List.forall_mem_append.mp hrest
  obtain ⟨hτ₃, hrest⟩ := List.forall_mem_append.mp hrest
  obtain ⟨hτ₄, -⟩ := List.forall_mem_append.mp hrest
  have hmine : p.context = ⟨Counting.c, Counting.b, Counting.b⟩ := eq_of_fixed hcontext hτ₁ rfl
  have haccount : p.signer = ⟨Counting.a, Counting.a, []⟩ := eq_of_fixed hsigner hτ₂ rfl
  have hkeys : p.identity.identityDhKeyPair = ⟨Counting.a, Counting.a⟩ :=
    congrArg (·.identityDhKeyPair) (eq_of_fixed hidentity hτ₃ rfl)
  have hnow : p.now = 5 := hnow
  rw [haccount, hnow] at hmaterial
  exact ⟨hnow, hmine, haccount, hkeys, (Proc.eq_follow hmaterial hτ₄)⟩

/-- In these stores the two accounts know one another. -/
theorem honest {accountDeviceSet : List Bytes} {record : DurableRecord} {c : Coordinates}
    (p : Publication publisher (publish accountDeviceSet) (publishing accountDeviceSet).1 record)
    (l : Location publisher Counting.b Counting.a locating.1 c) : Honest p l ∧ p.atMs = 5 := by
  obtain ⟨hnow, hmine, haccount, hkeys, -⟩ := publication p
  have hlocated := fixed_follow (resolvePeerDeviceSetCoordinates publisher Counting.b Counting.a)
  obtain ⟨σ₁, σ₂, σ₃, aeadKey, hlocates, hcontext', hidentity', -⟩ := l.runs
  rw [show (Proc.follow answers (resolvePeerDeviceSetCoordinates publisher Counting.b
    Counting.a)).1 = _ from hlocates] at hlocated
  obtain ⟨hσ₁, hrest⟩ := List.forall_mem_append.mp hlocated
  obtain ⟨hσ₂, -⟩ := List.forall_mem_append.mp hrest
  have htheirs : l.context = ⟨Counting.d, Counting.a, Counting.a⟩ := eq_of_fixed hcontext' hσ₁ rfl
  have hkeys' : l.identity.identityDhKeyPair = ⟨Counting.b, Counting.b⟩ :=
    congrArg (·.identityDhKeyPair) (eq_of_fixed hidentity' hσ₂ rfl)
  refine ⟨⟨?_, ?_, ?_, fun _ => rfl⟩, hnow⟩
  · rw [hmine, hkeys']
  · rw [htheirs, hkeys]
  · rw [htheirs, haccount]

end Example
/-- **The publisher and its peers agree** on a device set exactly when the
collected bundles are such that the opener takes them. -/
theorem published_iff {svc : DeviceService Snap} {grants : Authority}
    (hcore : Correct svc.core grants) (hkeyed : Keyed svc) {a : PublishArgs} {τ : Run Snap}
    {record : DurableRecord} (hrun : Proc.Trace (buildDeviceSetRecordForPeer svc a) τ (.ok record))
    (hτ : ∀ e ∈ τ, Answered svc.core e) :
    Nonempty (Publication svc a τ record) ∧
    ∀ (p : Publication svc a τ record) (other : DeviceService Snap) (owner peer : Id)
        (τ' : Run Snap) (c : Coordinates), other.core = svc.core →
      Proc.Trace (resolvePeerDeviceSetCoordinates other owner peer) τ' (.ok c) →
      (∀ e ∈ τ', Answered svc.core e) →
      Nonempty (Location other owner peer τ' c) ∧
      ∀ l : Location other owner peer τ' c, Honest p l →
        (((c.recordKind = record.recordKind ∧ c.recordId = record.recordId ∧
              c.publisherPublicKeyB64.val = record.ownerPublicKeyB64) ∧
            Resolves svc.core (p.set, p.bundles)
              (openSealedDeviceSetRecord svc.core (opening p l))) ↔
          Publishable svc grants a p.atMs) := by
  refine ⟨published hrun, fun p other owner peer τ' c hother hlocate hτ' =>
    ⟨located hlocate, fun l hhonest => ?_⟩⟩
  have hmade := made hkeyed hτ p
  exact (and_iff_right (coordinates_eq hcore hmade hhonest hother hτ')).trans
    (opens_iff hcore hmade hhonest)

open Example Counting in
/-- The account publishes the bundles of its devices `c` and `d`. -/
theorem published_iff_device :
    ∃ (record : DurableRecord) (c' : Coordinates)
        (p : Publication publisher (publish [[1], [2]]) (publishing [[1], [2]]).1 record)
        (l : Location publisher b a locating.1 c'), Honest p l ∧ c'.recordId = record.recordId ∧
      p.bundles = [fresh c, fresh d] ∧
      Resolves lawful (p.set, p.bundles) (openSealedDeviceSetRecord lawful (opening p l)) := by
  obtain ⟨record, hrun⟩ := trace_publishing [[1], [2]] ⟨_, rfl⟩
  obtain ⟨c', hlocate⟩ := trace_locating
  obtain ⟨⟨p⟩, hall⟩ := published_iff lawful_correct publisher_keyed hrun (lawful_follow _)
  obtain ⟨⟨l⟩, hiff⟩ := hall p publisher b a _ c' rfl hlocate (lawful_follow _)
  obtain ⟨hhonest, htime⟩ := honest p l
  have hpublishable : Publishable publisher (fun _ _ _ _ => True) (publish [[1], [2]]) p.atMs := by
    refine ⟨by decide, by decide, fun raw hraw bundle hbundle => ?_, fun _ => trivial⟩
    rw [htime]
    rcases List.mem_cons.mp hraw with rfl | hraw
    · cases hbundle
      exact ⟨by decide, by decide, fun _ => rfl⟩
    · cases List.mem_singleton.mp hraw
      cases hbundle
      exact ⟨by decide, by decide, fun _ => rfl⟩
  obtain ⟨⟨-, hid, -⟩, hopens⟩ := (hiff l hhonest).mpr hpublishable
  obtain ⟨-, -, -, -, hmaterial⟩ := publication p
  have hbundles : (p.set, p.bundles).2 = [fresh c, fresh d] :=
    congrArg Prod.snd (Except.ok.inj hmaterial.symm)
  exact ⟨record, c', p, l, hhonest, hid, hbundles, hopens⟩

open Example Counting in
/-- At 5 the account publishes a bundle that has expired at 3, and its peer
refuses the record. -/
theorem stale_refused :
    Correct lawful (fun _ _ _ _ => True) ∧ Keyed publisher ∧ lawful.parseBundle [] = .ok stale ∧
    stale.expiresAtMs = 3 ∧
    ∃ (record : DurableRecord) (c : Coordinates)
        (p : Publication publisher (publish [[]]) (publishing [[]]).1 record)
        (l : Location publisher b a locating.1 c),
      Proc.Trace (buildDeviceSetRecordForPeer publisher (publish [[]])) (publishing [[]]).1
        (.ok record) ∧
      Proc.Trace (resolvePeerDeviceSetCoordinates publisher b a) locating.1 (.ok c) ∧ Honest p l ∧
      p.atMs = 5 ∧
      ∀ σ x, Proc.Trace (openSealedDeviceSetRecord lawful (opening p l)) σ x →
        (∀ e ∈ σ, Answered lawful e) → ∃ e, x = .error e := by
  refine ⟨lawful_correct, publisher_keyed, rfl, rfl, ?_⟩
  obtain ⟨record, hrun⟩ := trace_publishing [[]] ⟨_, rfl⟩
  obtain ⟨c, hlocate⟩ := trace_locating
  obtain ⟨p⟩ := published hrun
  obtain ⟨l⟩ := located hlocate
  obtain ⟨hhonest, htime⟩ := honest p l
  have hstale : ¬ Publishable publisher (fun _ _ _ _ => True) (publish [[]]) p.atMs := by
    intro h
    have hexpiry := (h.current [] (.head _) stale rfl).unexpired
    rw [htime] at hexpiry
    exact absurd hexpiry (by decide)
  have hmade : Made p := made publisher_keyed (lawful_follow _) p
  exact ⟨record, c, p, l, hrun, hlocate, hhonest, htime,
    fun σ x hopen hσ => refused lawful_correct hmade hhonest hstale hopen hσ⟩

end RezSdk.L4.SetPublishing
