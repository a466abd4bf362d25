import Mathlib.Data.List.Dedup
import Mathlib.Data.List.Perm.Subperm
import RezSdk.Core.Outcomes
import RezSdk.L3Service.Counting
import RezSdk.L3Service.DeviceSets
import RezSdk.L3Service.Refusals

/-!
# Opening a peer's sealed device set (`deviceSetPublish.js`)

`openSealedDeviceSetRecord` takes a record that anybody may have put on the
overlay and either throws or returns a device set with its bundles. `Opened`
says what a returned pair has been checked for: the envelope, the slot, the
sealed content, the set, each bundle, and that the bundles and the devices
match one to one.

`verify` and `verifyDurableRecordV2` are predicates, that is, they answer the
same at every call (`Predicates`), and the class of a device set rejects
duplicate device ids (`DistinctIds`).

Results:
* `yields_openBundles`: the loop over the bundles passes only bundles with a
  device of their own.
* `opened_matched`: as many bundles as devices, each with its own device, are
  all the devices.
* `open_sound`: every complete run throws or returns an `Opened` pair.
-/
namespace RezSdk.L4.SetOpening

open RezSdk.L1 RezSdk.L2 RezSdk.L3

variable {Snap : Type} {core : Core Snap} {a : OpenArgs} {signer : Id} {inner : SealedInner}
  {set : DeviceSetRecord}

/-! ## The property -/

/-- `verify` and `verifyDurableRecordV2` do not change their minds. -/
structure Predicates (core : Core Snap) : Prop where
  verify : ∀ key msg sig n n', core.answer (.verify key msg sig) n =
    core.answer (.verify key msg sig) n'
  record : ∀ r now revoked n n',
    core.answer (.verifyDurableRecordV2 r now revoked) n =
      core.answer (.verifyDurableRecordV2 r now revoked) n'

/-- The constructor of `DeviceSetRecordV1` rejects duplicate device ids. -/
def DistinctIds (core : Core Snap) : Prop :=
  ∀ b set, core.parseDeviceSet b = .ok set → (set.devices.map (·.deviceId)).Nodup

/-- A good signature, whenever it is checked. -/
def Signed (core : Core Snap) (key : Id) (msg : Bytes) (sig : Id) : Prop :=
  ∀ n, core.answer (.verify key msg sig) n = .ok true

/-- The record is the peer account's device-set record, and `signer` signed it
with the authority of that account. -/
structure EnvelopeOk (core : Core Snap) (a : OpenArgs) (signer : Id) : Prop where
  cap : 1 ≤ a.maxDevices
  kind : a.record.recordKind = core.deviceSetRecordKind
  version : a.record.v = 2
  owner : a.record.ownerPublicKeyB64 = a.peerAccount.val
  verified : ∀ n, core.answer (.verifyDurableRecordV2 a.record a.nowMs a.revocationState) n =
    .ok (.ok signer)

/-- The AEAD key and the slot of the two identity-DH keys. -/
def Derived (core : Core Snap) (a : OpenArgs) (aeadKey : Bytes) (slot : String) : Prop :=
  ∃ shared slotBytes,
    (∃ n, core.answer (.dhDerive a.myIdentityDhPrivate a.peerIdentityDhPublic) n = .ok shared) ∧
    shared ≠ [] ∧
    (∃ n, core.answer (.hkdfSha256 shared "rez:peer-scoped-seal:aead:v1" 32) n = .ok aeadKey) ∧
    (∃ n, core.answer (.hkdfSha256 shared "rez:peer-scoped-seal:slot:v1" 16) n = .ok slotBytes) ∧
    slot = core.bytesToHex slotBytes

/-- The record lies at the slot of the two accounts, and `inner` is sealed in
it under their key. -/
def Unsealed (core : Core Snap) (a : OpenArgs) (inner : SealedInner) : Prop :=
  ∃ aeadKey envelope nonceB64 ciphertextB64 plaintext,
    Derived core a aeadKey a.record.recordId ∧
      core.parsePayload a.record.payloadB64 = .ok envelope ∧
    envelope.nonceB64 = some nonceB64 ∧ envelope.ciphertextB64 = some ciphertextB64 ∧
    (∃ n, core.answer (.aeadDecrypt aeadKey nonceB64 ciphertextB64 sealAad) n = .ok plaintext) ∧
    core.parseInner plaintext = .ok inner

/-- The set is the peer account's, signed by the signer of the envelope, and
current. -/
structure SetOk (core : Core Snap) (a : OpenArgs) (signer : Id) (set : DeviceSetRecord) : Prop where
  account : set.accountIdentityPublicKeyB64 = a.peerAccount
  signed : Signed core signer (core.deviceSetSignable set.toDeviceSetBody) set.sigB64
  capped : set.devices.length ≤ a.maxDevices
  unexpired : a.nowMs < set.expiresAtMs
  skew : ∀ skew, a.maxFutureSkewMs = some skew → (set.issuedAtMs : Int) ≤ a.nowMs + skew

/-- The bundle is one of a device of the set, signed by that device, and
current. -/
structure BundleOk (core : Core Snap) (a : OpenArgs) (set : DeviceSetRecord)
    (bundle : PrekeyBundle) : Prop where
  vouched : bundleEntry bundle ∈ set.devices
  account : bundle.accountIdentityPublicKeyB64 = a.peerAccount
  unexpired : a.nowMs < bundle.expiresAtMs
  skew : ∀ skew, a.maxFutureSkewMs = some skew → (bundle.issuedAtMs : Int) ≤ a.nowMs + skew
  signed : Signed core bundle.devicePublicKeyB64
    (core.prekeyBundleSignable bundle.toPrekeyBundleBody) bundle.sigB64

/-- What a returned pair has been checked for. -/
structure Opened (core : Core Snap) (a : OpenArgs) (set : DeviceSetRecord)
    (bundles : List PrekeyBundle) : Prop where
  envelope : ∃ signer inner, EnvelopeOk core a signer ∧ Unsealed core a inner ∧
    SetOk core a signer set ∧
    core.parseDeviceSet inner.deviceSet = .ok set ∧
      inner.prekeyBundles.map core.parseBundle = bundles.map .ok
  good : ∀ b ∈ bundles, BundleOk core a set b
  /-- no device is named twice -/
  distinct : (set.devices.map (·.deviceId)).Nodup
  /-- the bundles and the devices correspond one to one -/
  matched : (bundles.map bundleEntry).Perm set.devices

/-! ## The checks, step by step -/

/-- Lawful runs of the opener. -/
abbrev Yields (core : Core Snap) {α : Type} (P : α → Prop) (p : Sdk Snap α) : Prop :=
  Js.Yields (Answered core) P p

open Js (yields_bind yields_ensure yields_orThrow yields_ofExcept yields_pure)

theorem yields_core {q : CoreCall Snap} :
    Yields core (fun v => ∃ n, core.answer q n = .ok v) (callCore q) := by
  rintro r ⟨n, rfl⟩ v hv
  exact ⟨n, hv⟩

/-- A signature that was found good once is good. -/
theorem signed_of_once (hpred : Predicates core) {key : Id} {msg : Bytes} {sig : Id} {n : Nat}
    (h : core.answer (.verify key msg sig) n = .ok true) : Signed core key msg sig :=
  fun n' => (hpred.verify key msg sig n' n).trans h

theorem skew_of_within {issuedAtMs : Nat} (h : a.withinSkew issuedAtMs = true) (skew : Int)
    (hs : a.maxFutureSkewMs = some skew) : (issuedAtMs : Int) ≤ a.nowMs + skew := by
  simp only [OpenArgs.withinSkew, hs, decide_eq_true_eq] at h
  exact h

theorem yields_checkEnvelope (hpred : Predicates core) :
    Yields core (EnvelopeOk core a) (checkEnvelope core a) := by
  refine yields_bind yields_ensure fun _ hcap => ?_
  refine yields_bind yields_ensure fun _ hkind => ?_
  refine yields_bind yields_ensure fun _ hversion => ?_
  refine yields_bind yields_ensure fun _ howner => ?_
  refine yields_bind yields_core fun outer houter => ?_
  simp only [decide_eq_true_eq] at hcap hkind hversion howner
  cases outer with
  | error reason => exact Js.yields_error
  | ok signer =>
    obtain ⟨n, hn⟩ := houter
    exact yields_pure ⟨hcap, hkind, hversion, howner, fun n' => (hpred.record _ _ _ n' n).trans hn⟩

theorem yields_derive : Yields core (fun k => Derived core a k.1 k.2)
    (derivePeerScopedKey core a.myIdentityDhPrivate a.peerIdentityDhPublic) := by
  refine yields_bind yields_core fun shared hshared => ?_
  refine yields_bind yields_ensure fun _ hne => ?_
  refine yields_bind yields_core fun aeadKey haead => ?_
  refine yields_bind yields_core fun slotBytes hslot => ?_
  refine yields_pure ⟨shared, slotBytes, hshared, ?_, haead, hslot, rfl⟩
  rintro rfl
  cases hne

theorem yields_nonEmpty {value : Option String} {label : String} :
    Yields core (fun s => value = some s) (requireNonEmptyString value label) := by
  refine yields_orThrow.mono fun s hs => ?_
  exact (Option.filter_eq_some_iff.mp hs).1

theorem yields_openPayload : Yields core (Unsealed core a) (openPayload core a) := by
  refine yields_bind yields_derive fun ⟨aeadKey, slot⟩ hderived => ?_
  refine yields_bind yields_ensure fun _ hslot => ?_
  refine yields_bind yields_ofExcept fun envelope henvelope => ?_
  refine yields_bind yields_nonEmpty fun nonceB64 hnonce => ?_
  refine yields_bind yields_nonEmpty fun ciphertextB64 hciphertext => ?_
  have hopen : Yields core (fun plaintext =>
      ∃ n, core.answer (.aeadDecrypt aeadKey nonceB64 ciphertextB64 sealAad) n = .ok plaintext)
      (openFromPeer aeadKey nonceB64 ciphertextB64) :=
    yields_bind Js.yields_any fun _ _ => yields_core
  refine yields_bind hopen fun plaintext hplain => ?_
  refine yields_ofExcept.mono fun inner hinner => ?_
  simp only [decide_eq_true_eq] at hslot
  have hslot : slot = a.record.recordId := hslot.symm
  subst hslot
  exact ⟨aeadKey, envelope, nonceB64, ciphertextB64, plaintext, hderived, henvelope,
    hnonce, hciphertext, hplain, hinner⟩

theorem yields_openDeviceSet (hpred : Predicates core) :
    Yields core (fun set => core.parseDeviceSet inner.deviceSet = .ok set ∧ SetOk core a signer set)
      (openDeviceSet core a signer inner) := by
  refine yields_bind yields_ofExcept fun set hset => ?_
  refine yields_bind yields_ensure fun _ haccount => ?_
  refine yields_bind yields_core fun signed hsigned => ?_
  refine yields_bind yields_ensure fun _ hgood => ?_
  refine yields_bind yields_ensure fun _ hcap => ?_
  refine yields_bind yields_ensure fun _ hexpiry => ?_
  refine yields_bind yields_ensure fun _ hskew => ?_
  obtain ⟨n, hn⟩ := hsigned
  subst hgood
  simp only [decide_eq_true_eq] at haccount hcap hexpiry
  exact yields_pure ⟨hset, haccount, signed_of_once hpred hn, hcap, hexpiry, skew_of_within hskew⟩

/-- The entry that the map has for a device is one of the set's. -/
theorem setByDeviceId_some {device : Id} {entry : DeviceEntry}
    (h : setByDeviceId set device = some entry) :
    entry ∈ set.devices ∧ entry.deviceId = device := by
  have hid := List.find?_some h
  simp only [decide_eq_true_eq] at hid
  exact ⟨List.mem_reverse.mp (List.mem_of_find?_eq_some h), hid⟩

theorem yields_openBundle (hpred : Predicates core) {seen : List Id} {raw : Bytes} :
    Yields core (fun b => core.parseBundle raw = .ok b ∧ b.deviceId ∉ seen ∧ BundleOk core a set b)
      (openBundle core a set seen raw) := by
  refine yields_bind yields_ofExcept fun bundle hbundle => ?_
  refine yields_bind yields_ensure fun _ hfresh => ?_
  refine yields_bind yields_orThrow fun entry hentry => ?_
  refine yields_bind yields_ensure fun _ hkey => ?_
  refine yields_bind yields_ensure fun _ hinbox => ?_
  refine yields_bind yields_ensure fun _ haccount => ?_
  refine yields_bind yields_ensure fun _ hexpiry => ?_
  refine yields_bind yields_ensure fun _ hskew => ?_
  refine yields_bind yields_core fun signed hsigned => ?_
  refine yields_bind yields_ensure fun _ hgood => ?_
  obtain ⟨n, hn⟩ := hsigned
  subst hgood
  obtain ⟨hmem, hid⟩ := setByDeviceId_some hentry
  simp only [decide_eq_true_eq] at hkey hinbox haccount hexpiry
  have hvouched : bundleEntry bundle = entry := by
    cases entry
    simp only [bundleEntry, hkey, hinbox, ← hid]
  refine yields_pure ⟨hbundle, ?_, hvouched ▸ hmem, haccount, hexpiry, skew_of_within hskew,
    signed_of_once hpred hn⟩
  simpa using hfresh

/-- The bundles that the loop lets pass have devices of their own, none of
them in `seen`. -/
structure Passed (core : Core Snap) (a : OpenArgs) (set : DeviceSetRecord) (seen : List Id)
    (raws : List Bytes) (bundles : List PrekeyBundle) : Prop where
  parsed : raws.map core.parseBundle = bundles.map .ok
  good : ∀ b ∈ bundles, BundleOk core a set b
  fresh : ∀ b ∈ bundles, b.deviceId ∉ seen
  distinct : (bundles.map (·.deviceId)).Nodup

theorem yields_openBundles (hpred : Predicates core) {raws : List Bytes} :
    ∀ {seen : List Id},
      Yields core (Passed core a set seen raws) (openBundles core a set seen raws) := by
  induction raws with
  | nil => exact fun {seen} => yields_pure ⟨rfl, nofun, nofun, .nil⟩
  | cons raw raws ih =>
    intro seen
    refine yields_bind (yields_openBundle hpred) fun bundle hbundle => ?_
    refine yields_bind ih fun bundles hrest => ?_
    obtain ⟨hparse, hfresh, hgood⟩ := hbundle
    refine yields_pure ⟨?_, List.forall_mem_cons.mpr ⟨hgood, hrest.good⟩,
      List.forall_mem_cons.mpr ⟨hfresh, ?_⟩, ?_⟩
    · rw [List.map_cons, List.map_cons, hparse, hrest.parsed]
    · exact fun b hb hseen => hrest.fresh b hb (.tail _ hseen)
    · refine List.nodup_cons.mpr ⟨fun hmem => ?_, hrest.distinct⟩
      obtain ⟨b, hb, hid⟩ := List.mem_map.mp hmem
      exact hrest.fresh b hb (hid ▸ .head _)

/-- The counting argument: as many bundles as devices, each with a device of
its own. -/
theorem opened_matched {seen : List Id} {raws : List Bytes} {bundles : List PrekeyBundle}
    (hpassed : Passed core a set seen raws bundles)
    (hlength : bundles.length = set.devices.length) :
    (bundles.map bundleEntry).Perm set.devices := by
  have hnodup : (bundles.map bundleEntry).Nodup := by
    refine List.Nodup.of_map (·.deviceId) ?_
    rw [List.map_map]
    exact hpassed.distinct
  have hsub : bundles.map bundleEntry ⊆ set.devices := by
    intro d hd
    obtain ⟨b, hb, rfl⟩ := List.mem_map.mp hd
    exact (hpassed.good b hb).vouched
  refine (List.subperm_of_subset hnodup hsub).perm_of_length_le ?_
  rw [List.length_map, hlength]

theorem yields_open (hpred : Predicates core) (hids : DistinctIds core) :
    Yields core (fun x => Opened core a x.1 x.2) (openSealedDeviceSetRecord core a) := by
  refine yields_bind (yields_checkEnvelope hpred) fun signer hsigner => ?_
  refine yields_bind yields_openPayload fun inner hinner => ?_
  refine yields_bind (yields_openDeviceSet hpred) fun set hset => ?_
  refine yields_bind yields_ensure fun _ _ => ?_
  refine yields_bind (yields_openBundles hpred) fun bundles hpassed => ?_
  refine yields_bind yields_ensure fun _ hcount => ?_
  have hnodup := hids _ _ hset.1
  have hdeclared : ((set.devices.map (·.deviceId)).reverse.dedup.reverse).length =
      set.devices.length := by
    rw [List.dedup_eq_self.mpr (List.nodup_reverse.mpr hnodup), List.reverse_reverse,
      List.length_map]
  rw [decide_eq_true_eq, hdeclared] at hcount
  exact yields_pure ⟨⟨signer, inner, hsigner, hinner, hset.2, hset.1, hpassed.parsed⟩,
    hpassed.good, hnodup,
    opened_matched hpassed hcount⟩

/-! ## All that is checked is enough -/

/-- A call that gives `v` at every time. -/
def Always (core : Core Snap) (q : CoreCall Snap) (v : q.Value) : Prop :=
  ∀ n, core.answer q n = .ok v

/-- Lawful runs of the opener. -/
abbrev Resolves (core : Core Snap) {α : Type} (v : α) (p : Sdk Snap α) : Prop :=
  Js.Resolves (Answered core) v p

open Js (resolves_bind resolves_passed resolves_found resolves_ofExcept resolves_pure)

theorem resolves_core {q : CoreCall Snap} {v : q.Value} (h : Always core q v) :
    Resolves core v (callCore q) := by
  rintro r ⟨n, rfl⟩
  exact h n

/-- What is computed on the way from a record to its content. -/
structure Parts where
  shared : Bytes
  aeadKey : Bytes
  slotBytes : Bytes
  envelope : SealedPayload
  nonceB64 : String
  ciphertextB64 : String
  plaintext : Bytes

/-- `inner` can be read from the record. -/
structure Readable (core : Core Snap) (a : OpenArgs) (inner : SealedInner) (p : Parts) : Prop where
  derives : Always core (.dhDerive a.myIdentityDhPrivate a.peerIdentityDhPublic) p.shared
  secret : p.shared ≠ []
  keys : Always core (.hkdfSha256 p.shared "rez:peer-scoped-seal:aead:v1" 32) p.aeadKey
  keyLength : p.aeadKey.length = 32
  slots : Always core (.hkdfSha256 p.shared "rez:peer-scoped-seal:slot:v1" 16) p.slotBytes
  slot : a.record.recordId = core.bytesToHex p.slotBytes
  payload : core.parsePayload a.record.payloadB64 = .ok p.envelope
  nonce : p.envelope.nonceB64 = some p.nonceB64 ∧ p.nonceB64 ≠ ""
  ciphertext : p.envelope.ciphertextB64 = some p.ciphertextB64 ∧ p.ciphertextB64 ≠ ""
  decrypts : Always core (.aeadDecrypt p.aeadKey p.nonceB64 p.ciphertextB64 sealAad) p.plaintext
  parses : core.parseInner p.plaintext = .ok inner

theorem resolves_checkEnvelope (h : EnvelopeOk core a signer) :
    Resolves core signer (checkEnvelope core a) := by
  refine resolves_bind (resolves_passed (decide_eq_true h.cap)) ?_
  refine resolves_bind (resolves_passed (decide_eq_true h.kind)) ?_
  refine resolves_bind (resolves_passed (decide_eq_true h.version)) ?_
  refine resolves_bind (resolves_passed (decide_eq_true h.owner)) ?_
  exact resolves_bind (resolves_core h.verified) resolves_pure

theorem resolves_nonEmpty {value : Option String} {s label : String} (h : value = some s ∧ s ≠ "") :
    Resolves core s (requireNonEmptyString value label) := by
  refine resolves_found (Option.filter_eq_some_iff.mpr ⟨h.1, ?_⟩)
  simpa using h.2

theorem resolves_openPayload {p : Parts} (h : Readable core a inner p) :
    Resolves core inner (openPayload core a) := by
  have hderive : Resolves core (p.aeadKey, core.bytesToHex p.slotBytes)
      (derivePeerScopedKey core a.myIdentityDhPrivate a.peerIdentityDhPublic) := by
    refine resolves_bind (resolves_core h.derives) ?_
    refine resolves_bind (resolves_passed (by simpa using h.secret)) ?_
    refine resolves_bind (resolves_core h.keys) ?_
    exact resolves_bind (resolves_core h.slots) resolves_pure
  refine resolves_bind hderive ?_
  refine resolves_bind (resolves_passed (decide_eq_true h.slot)) ?_
  refine resolves_bind (resolves_ofExcept h.payload) ?_
  refine resolves_bind (resolves_nonEmpty h.nonce) ?_
  refine resolves_bind (resolves_nonEmpty h.ciphertext) ?_
  have hopen : Resolves core p.plaintext (openFromPeer p.aeadKey p.nonceB64 p.ciphertextB64) :=
    resolves_bind (resolves_passed (decide_eq_true h.keyLength)) (resolves_core h.decrypts)
  exact resolves_bind hopen (resolves_ofExcept h.parses)

theorem within_of_skew {issuedAtMs : Nat}
    (h : ∀ skew, a.maxFutureSkewMs = some skew → (issuedAtMs : Int) ≤ a.nowMs + skew) :
    a.withinSkew issuedAtMs = true := by
  unfold OpenArgs.withinSkew
  cases hs : a.maxFutureSkewMs with
  | none => rfl
  | some skew => exact decide_eq_true (h skew hs)

theorem resolves_openDeviceSet (hparse : core.parseDeviceSet inner.deviceSet = .ok set)
    (h : SetOk core a signer set) : Resolves core set (openDeviceSet core a signer inner) := by
  refine resolves_bind (resolves_ofExcept hparse) ?_
  refine resolves_bind (resolves_passed (decide_eq_true h.account)) ?_
  refine resolves_bind (resolves_core h.signed) ?_
  refine resolves_bind (resolves_passed rfl) ?_
  refine resolves_bind (resolves_passed (decide_eq_true h.capped)) ?_
  refine resolves_bind (resolves_passed (decide_eq_true h.unexpired)) ?_
  exact resolves_bind (resolves_passed (within_of_skew h.skew)) resolves_pure

/-- With distinct ids the map has every device of the set. -/
theorem setByDeviceId_mem (hids : (set.devices.map (·.deviceId)).Nodup) {entry : DeviceEntry}
    (h : entry ∈ set.devices) : setByDeviceId set entry.deviceId = some entry := by
  cases hfound : setByDeviceId set entry.deviceId with
  | none =>
    have hnone := List.find?_eq_none.mp hfound entry (List.mem_reverse.mpr h)
    simp at hnone
  | some found =>
    obtain ⟨hmem, hid⟩ := setByDeviceId_some hfound
    exact congrArg some (List.inj_on_of_nodup_map hids hmem h hid)

theorem resolves_openBundle (hids : (set.devices.map (·.deviceId)).Nodup) {seen : List Id}
    {raw : Bytes} {bundle : PrekeyBundle} (hparse : core.parseBundle raw = .ok bundle)
    (hfresh : bundle.deviceId ∉ seen) (h : BundleOk core a set bundle) :
    Resolves core bundle (openBundle core a set seen raw) := by
  have hentry : setByDeviceId set bundle.deviceId = some (bundleEntry bundle) :=
    setByDeviceId_mem hids h.vouched
  refine resolves_bind (resolves_ofExcept hparse) ?_
  refine resolves_bind (resolves_passed (by simpa using hfresh)) ?_
  refine resolves_bind (resolves_found hentry) ?_
  refine resolves_bind (resolves_passed (decide_eq_true rfl)) ?_
  refine resolves_bind (resolves_passed (decide_eq_true rfl)) ?_
  refine resolves_bind (resolves_passed (decide_eq_true h.account)) ?_
  refine resolves_bind (resolves_passed (decide_eq_true h.unexpired)) ?_
  refine resolves_bind (resolves_passed (within_of_skew h.skew)) ?_
  refine resolves_bind (resolves_core h.signed) ?_
  exact resolves_bind (resolves_passed rfl) resolves_pure

theorem resolves_openBundles (hids : (set.devices.map (·.deviceId)).Nodup)
    {bundles : List PrekeyBundle} :
    ∀ {seen : List Id} {raws : List Bytes}, Passed core a set seen raws bundles →
      Resolves core bundles (openBundles core a set seen raws) := by
  induction bundles with
  | nil =>
    intro seen raws h
    cases raws with
    | nil => exact resolves_pure
    | cons raw raws => exact absurd h.parsed nofun
  | cons bundle bundles ih =>
    intro seen raws h
    cases raws with
    | nil => exact absurd h.parsed nofun
    | cons raw raws =>
      obtain ⟨hparse, hparsed⟩ := List.cons.inj h.parsed
      obtain ⟨hgood, hgoods⟩ := List.forall_mem_cons.mp h.good
      obtain ⟨hfresh, hfreshes⟩ := List.forall_mem_cons.mp h.fresh
      obtain ⟨hnew, hdistinct⟩ := List.nodup_cons.mp h.distinct
      have hrest : Passed core a set (bundle.deviceId :: seen) raws bundles := by
        refine ⟨hparsed, hgoods, fun b hb hseen => ?_, hdistinct⟩
        rcases List.mem_cons.mp hseen with hid | hseen
        · exact hnew (List.mem_map.mpr ⟨b, hb, hid⟩)
        · exact hfreshes b hb hseen
      exact resolves_bind (resolves_openBundle hids hparse hfresh hgood)
        (resolves_bind (ih hrest) resolves_pure)

/-- A record whose content passes the checks is opened, by every run. -/
theorem resolves_open {bundles : List PrekeyBundle} {p : Parts}
    (henvelope : EnvelopeOk core a signer) (hread : Readable core a inner p)
    (hparse : core.parseDeviceSet inner.deviceSet = .ok set) (hset : SetOk core a signer set)
    (hids : (set.devices.map (·.deviceId)).Nodup)
    (hpassed : Passed core a set [] inner.prekeyBundles bundles)
    (hmatched : (bundles.map bundleEntry).Perm set.devices) :
    Resolves core (set, bundles) (openSealedDeviceSetRecord core a) := by
  have hlength : bundles.length = set.devices.length := by
    rw [← List.length_map (f := bundleEntry), hmatched.length_eq]
  have hraws : inner.prekeyBundles.length = bundles.length := by
    rw [← List.length_map (f := core.parseBundle), hpassed.parsed, List.length_map]
  have hcap : inner.prekeyBundles.length ≤ a.maxDevices := by
    rw [hraws, hlength]
    exact hset.capped
  have hdeclared : ((set.devices.map (·.deviceId)).reverse.dedup.reverse).length =
      set.devices.length := by
    rw [List.dedup_eq_self.mpr (List.nodup_reverse.mpr hids), List.reverse_reverse, List.length_map]
  refine resolves_bind (resolves_checkEnvelope henvelope) ?_
  refine resolves_bind (resolves_openPayload hread) ?_
  refine resolves_bind (resolves_openDeviceSet hparse hset) ?_
  refine resolves_bind (resolves_passed (decide_eq_true hcap)) ?_
  refine resolves_bind (resolves_openBundles hids hpassed) ?_
  exact resolves_bind (resolves_passed (decide_eq_true (hlength.trans hdeclared.symm)))
    resolves_pure

/-- **Opener soundness**: a complete run, whatever the record, the keys, the
time, the cap and the revocation state, returns a pair that has been checked
for everything, or throws. -/
theorem open_sound (core : Core Snap) (hpred : Predicates core) (hids : DistinctIds core)
    (a : OpenArgs) (τ : List (Proc.Exch (sdk Snap)))
    (x : Except Err (DeviceSetRecord × List PrekeyBundle))
    (hrun : Proc.Trace (openSealedDeviceSetRecord core a) τ x) (hτ : ∀ e ∈ τ, Answered core e) :
    (∃ set bundles, x = .ok (set, bundles) ∧ Opened core a set bundles) ∨ ∃ e, x = .error e := by
  cases x with
  | error e => exact .inr ⟨e, rfl⟩
  | ok y =>
    have hyields : Yields core (fun y => Opened core a y.1 y.2)
        (openSealedDeviceSetRecord core a) := yields_open hpred hids
    have hopened := hyields.trace hrun hτ
    exact .inl ⟨y.1, y.2, rfl, hopened⟩

namespace Example

open Counting (b c d bundle device deviceSet)

/-- A set of the two devices `c` and `d`. -/
def both : DeviceSetRecord := deviceSet 1 [device c, device d]

/-- A core whose key agreement gives a secret, and that reads that set from any
record, with the bundles of the two devices in the other order. -/
def agreeing : Core Nat :=
  { Counting.core with
    answer := fun
      | .dhDerive .., _ => .ok [1]
      | q, n => Counting.answer q n
    parseInner := fun _ => .ok ⟨[], [[3], [2]]⟩
    parseDeviceSet := fun _ => .ok both }

theorem agreeing_predicates : Predicates agreeing := ⟨fun _ _ _ _ _ => rfl, fun _ _ _ _ _ => rfl⟩

theorem agreeing_distinct : DistinctIds agreeing := by
  rintro _ _ ⟨⟩
  decide

/-- A record of account `b`. -/
def args : OpenArgs where
  record := ⟨⟨2, "kind", "", b.val, b.val, [], "capability", "", 1, 50⟩, "s"⟩
  myIdentityDhPrivate := b
  peerIdentityDhPublic := b
  peerAccount := b
  nowMs := 10
  maxDevices := 8
  revocationState := none

theorem answerable (o : Op Nat) : ∃ r, Answered agreeing ⟨o, r⟩ := by
  cases o with
  | get k => exact ⟨.ok none, trivial⟩
  | set k v => exact ⟨.ok (), trivial⟩
  | delete k => exact ⟨.ok false, trivial⟩
  | keys p => exact ⟨.ok [], trivial⟩
  | clock => exact ⟨(0 : Nat), trivial⟩
  | runtimeUuid => exact ⟨b, trivial⟩
  | stableId kind => exact ⟨b, trivial⟩
  | chain k => exact ⟨(none, (0 : Nat)), trivial⟩
  | enter k prev pid => exact ⟨(), trivial⟩
  | release k pid => exact ⟨(), trivial⟩
  | countFailure key => exact ⟨(0 : Nat), trivial⟩
  | clearCounts key => exact ⟨(), trivial⟩
  | markSuccess key atMs => exact ⟨(), trivial⟩
  | countMiss key => exact ⟨((0 : Nat), (0 : Nat)), trivial⟩
  | accountDh => exact ⟨(none : Option KeyPair), trivial⟩
  | adoptAccountDh kp => exact ⟨(), trivial⟩
  | core q => exact ⟨agreeing.answer q 0, 0, rfl⟩

theorem agreeing_opens :
    Resolves agreeing (both, [bundle d, bundle c]) (openSealedDeviceSetRecord agreeing args) := by
  have hskew :
      ∀ skew, args.maxFutureSkewMs = some skew → ((1 : Nat) : Int) ≤ args.nowMs + skew := by
    rintro _ ⟨⟩
    decide
  have henvelope : EnvelopeOk agreeing args Counting.a := ⟨by decide, rfl, rfl, rfl, fun _ => rfl⟩
  have hread : Readable agreeing args ⟨[], [[3], [2]]⟩
      ⟨[1], List.replicate 32 0, List.replicate 32 0, ⟨some "n", some "c"⟩, "n", "c", []⟩ :=
    ⟨fun _ => rfl, nofun, fun _ => rfl, rfl, fun _ => rfl, rfl, rfl, ⟨rfl, by decide⟩,
    ⟨rfl, by decide⟩, fun _ => rfl, rfl⟩
  have hset : SetOk agreeing args Counting.a both :=
    ⟨rfl, fun _ => rfl, by decide, by decide, hskew⟩
  have hgood : ∀ x ∈ [bundle d, bundle c], BundleOk agreeing args both x := by
    intro x hx
    rcases List.mem_cons.mp hx with rfl | hx
    · exact ⟨.tail _ (.head _), rfl, by decide, hskew, fun _ => rfl⟩
    · cases List.mem_singleton.mp hx
      exact ⟨.head _, rfl, by decide, hskew, fun _ => rfl⟩
  have hpassed : Passed agreeing args both [] [[3], [2]] [bundle d, bundle c] :=
    ⟨rfl, hgood, fun _ _ => List.not_mem_nil, by decide⟩
  exact resolves_open henvelope hread rfl hset (by decide) hpassed (.swap _ _ _)

end Example

open Example Counting in
/-- A set of two devices, with their bundles in another order. -/
theorem open_sound_device : ∃ τ, (∀ e ∈ τ, Answered agreeing e) ∧
    Proc.Trace (openSealedDeviceSetRecord agreeing args) τ (.ok (both, [bundle d, bundle c])) ∧
    Opened agreeing args both [bundle d, bundle c] := by
  obtain ⟨τ, hrun, hτ⟩ := agreeing_opens.run answerable
  refine ⟨τ, hτ, hrun, ?_⟩
  obtain ⟨set, bundles, hx, hopened⟩ | ⟨e, hx⟩ :=
    open_sound agreeing agreeing_predicates agreeing_distinct args τ _ hrun hτ
  · cases hx
    exact hopened
  · cases hx

end RezSdk.L4.SetOpening
