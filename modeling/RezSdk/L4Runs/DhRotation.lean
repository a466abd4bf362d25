import RezSdk.L3Service.Alone
import RezSdk.L3Service.Counting

/-!
# The account identity-DH key is never replaced

Peers know an account by its identity-DH key, so `_loadAccountKeyRecord` must
not put another one in the place of a stored key that is complete. It keeps
the stored key as long as the stored signing pair is complete too. When it is
not, the regeneration branch takes the key that was injected when the call
began, or generates a new one, without looking at the stored identity-DH part.

* `identity_dh_kept`: a call alone keeps the stored key exactly when the
  signing pair is complete, or the injected key is the stored one, or the
  adoption of the stored key is refused.
-/
namespace RezSdk.L4.DhRotation

open RezSdk.L1 RezSdk.L2 RezSdk.L3

variable {Snap : Type}

/-- A write that reports a failure has not landed. -/
def Whole : Fate → Prop
  | .landFail _ => False
  | _ => True

noncomputable abbrev whole (core : Core Snap) (t : Nat) : Answers (sdk Snap) (Mem Snap) Fate :=
  within Whole (act core t)

/-- What the claim asks of one call: it throws and the stored record is as it
was, or the identity-DH pair it returns and leaves stored is `dh`. -/
def Kept (owner : Id) (stored : StoredAccountKeys) (dh : KeyPair) (x : Except Err AccountKeys)
    (kv : Store Snap) : Prop :=
  match x with
  | .error _ => kv.lookup (.identity owner) = some stored
  | .ok keys => keys.identityDh = dh ∧ ∃ s, kv.lookup (.identity owner) = some s ∧
      pairOf (normalizeStoredAccountKeyRecord (some s)).x3dhIdentityDhKeyMaterial = some dh

/-- Some run of the validation accepts the stored key for adoption. -/
def Adoptable (svc : Service Snap) (t : Nat) (m : Mem Snap) (owner : Id) (r : AccountKeyRecord)
    (dh : KeyPair) (sig : Id) : Prop :=
  ∃ m', Ends (whole svc.core t) (orMigration (validateLegacyRecord svc owner r dh sig)
    "stored identity-DH record is malformed or unverifiable") m (.ok ()) m'

/-- The stored signing pair is complete, or the regeneration branch ends up
with the stored identity-DH key or is not reached. -/
def Safe (svc : Service Snap) (t : Nat) (m : Mem Snap) (owner : Id) (r : AccountKeyRecord)
    (dh : KeyPair) (sig : Id) : Prop :=
  (pairOf r.x3dhKeyMaterial).isSome = true ∨
    ∃ kp, m.accountDh = some kp ∧
      (kp = dh ∨ svc.allowLegacyAccountIdentityDhAdoption = false ∨
      ¬ Adoptable svc t m owner r dh sig)

/-- What the code relies on of the crypto provider: key generation and signing
can succeed, and a generated identity-DH pair can differ from `dh`. -/
structure Generates (core : Core Snap) (dh : KeyPair) : Prop where
  signing : ∃ n kp, core.answer .generateSigningKeyPair n = .ok kp
  identityDh : ∃ n kp, core.answer .dhGenerateKeyPair n = .ok kp ∧ kp ≠ dh
  sign : ∀ key msg, ∃ n sig, core.answer (.sign key msg) n = .ok sig

section

variable {core : Core Snap} {t : Nat} {m : Mem Snap}

/-! ## The operations -/

theorem whole_get {k : Key} {Q : Except Err (Option (Val Snap k)) → Mem Snap → Prop}
    (hok : Q (.ok (m.kv.lookup k)) m) (herr : ∀ f, Q (.error (.fault f)) m) :
    After (whole core t) Q (kvGet k) m := by
  intro f r m' ha
  obtain ⟨-, ha⟩ := within_some.mp ha
  cases f with
  | ok =>
    cases ha
    exact hok
  | fail f =>
    cases ha
    exact herr f
  | _ => cases ha

theorem whole_set {k : Key} {v : Val Snap k} {Q : Except Err Unit → Mem Snap → Prop}
    (hok : Q (.ok ()) { m with kv := m.kv.insert k v }) (herr : ∀ f, Q (.error (.fault f)) m) :
    After (whole core t) Q (kvSet k v) m := by
  intro f r m' ha
  obtain ⟨hf, ha⟩ := within_some.mp ha
  cases f with
  | ok =>
    cases ha
    exact hok
  | fail f =>
    cases ha
    exact herr f
  | landFail f => cases hf
  | _ => cases ha

theorem whole_core {q : CoreCall Snap} {Q : Except Err q.Value → Mem Snap → Prop}
    (h : ∀ n, Q (core.answer q n) m) : After (whole core t) Q (callCore q) m := by
  intro f r m' ha
  obtain ⟨-, ha⟩ := within_some.mp ha
  cases f with
  | rand n =>
    cases ha
    exact h n
  | _ => cases ha

theorem whole_accountDh {Q : Except Err (Option KeyPair) → Mem Snap → Prop}
    (h : Q (.ok m.accountDh) m) : After (whole core t) Q accountDh m := by
  intro f r m' ha
  obtain ⟨-, ha⟩ := within_some.mp ha
  cases f with
  | ok =>
    cases ha
    exact h
  | _ => cases ha

theorem whole_adopt {kp : KeyPair} {Q : Except Err Unit → Mem Snap → Prop}
    (h : Q (.ok ()) { m with accountDh := some kp }) :
    After (whole core t) Q (adoptAccountDh kp) m := by
  intro f r m' ha
  obtain ⟨-, ha⟩ := within_some.mp ha
  cases f with
  | ok =>
    cases ha
    exact h
  | _ => cases ha

/-- Cryptography does not touch the memory. -/
theorem whole_crypto {α : Type} {p : Proc (sdk Snap) α} (hp : Foot [.crypto] p) :
    After (whole core t) (fun _ m' => m' = m) p m := by
  refine after_keeps (J := fun m' => m' = m) hp (fun m₁ o f r m' ho ha hj => ?_) rfl
  obtain ⟨-, ha⟩ := within_some.mp ha
  subst hj
  cases o with
  | core q =>
    cases f with
    | rand n =>
      cases ha
      rfl
    | _ => cases ha
  | _ => cases ho.1

end

/-! ## The stored key is kept -/

section

variable {svc : Service Snap} {t : Nat} {owner : Id} {stored : StoredAccountKeys}
  {dh : KeyPair} {sig : Id}

theorem storedDh_pair {r : AccountKeyRecord} (h : storedDh r = some (dh, sig)) :
    pairOf r.x3dhIdentityDhKeyMaterial = some dh := by
  unfold storedDh at h
  split at h
  · rename_i kp s hkp hs
    cases h
    exact hkp
  · cases h

/-- A record that is written holds the identity-DH pair it is made of. -/
theorem pairOf_toStored (keys : AccountKeys) :
    pairOf (normalizeStoredAccountKeyRecord (some keys.toStored)).x3dhIdentityDhKeyMaterial =
      some keys.identityDh := rfl

theorem kept_written (stored : StoredAccountKeys) {keys : AccountKeys} {kv : Store Snap}
    (h : keys.identityDh = dh) :
    Kept owner stored dh (.ok keys) (kv.insert (.identity owner) keys.toStored) := by
  refine ⟨h, keys.toStored, AList.lookup_insert _, ?_⟩
  rw [pairOf_toStored, h]

/-- The adoption step: it writes nothing, and after it the effective key is
the stored one; an injected key that differs was adoptable. -/
theorem after_adoptLegacy {m : Mem Snap} {r : AccountKeyRecord}
    (hdh : storedDh r = some (dh, sig)) :
    After (whole svc.core t) (fun x m' =>
          m'.kv = m.kv ∧
          (x = .ok () →
            m'.accountDh.all (· = dh) = true ∧
            (m.accountDh.all (· = dh) = true ∨
              svc.allowLegacyAccountIdentityDhAdoption = true ∧ Adoptable svc t m owner r dh sig)))
      (adoptLegacy svc owner r m.accountDh) m := by
  unfold adoptLegacy
  rw [hdh]
  cases hinj : m.accountDh with
  | none => exact ⟨rfl, fun _ => ⟨by rw [hinj]; rfl, .inl rfl⟩⟩
  | some kp =>
    dsimp only
    split
    · rename_i heq
      have hall : (some kp).all (· = dh) = true := decide_eq_true heq.symm
      exact ⟨rfl, fun _ => ⟨by rw [hinj]; exact hall, .inl hall⟩⟩
    · refine after_js_bind (after_ensure (fun hallow => ?_) fun _ => ⟨rfl, nofun⟩)
      refine after_js_bind ?_
      have hmem : After (whole svc.core t) (fun _ m' => m' = m)
          (orMigration (validateLegacyRecord svc owner r dh sig)
            "stored identity-DH record is malformed or unverifiable") m :=
        whole_crypto (foot_orMigration foot_validateLegacy)
      refine after_iff_ends.mpr fun x m' hends => ?_
      have hm := after_iff_ends.mp hmem x m' hends
      subst hm
      cases x with
      | error e => exact ⟨rfl, nofun⟩
      | ok u => exact whole_adopt ⟨rfl, fun _ => ⟨decide_eq_true rfl, .inr ⟨hallow, m', hends⟩⟩⟩

/-- The end of the regeneration branch. -/
def storeKeys (svc : Service Snap) (owner : Id) (binding : Option AccountBinding)
    (signing dh : KeyPair) : Sdk Snap AccountKeys := do
  let sig ← callCore (.sign signing.privateKey (svc.core.keyBytes dh.publicKey))
  let keys : AccountKeys :=
    { signing
      identityDh := dh
      identityDhSignature := sig
      accountBinding := binding }
  kvSet (.identity owner) keys.toStored
  return keys

theorem after_storeKeys {m : Mem Snap} (binding : Option AccountBinding) {signing : KeyPair}
    (hlook : m.kv.lookup (.identity owner) = some stored) :
    After (whole svc.core t) (fun x m' => Kept owner stored dh x m'.kv)
      (storeKeys svc owner binding signing dh) m := by
  refine after_js_bind (whole_core fun n => ?_)
  cases svc.core.answer (.sign signing.privateKey (svc.core.keyBytes dh.publicKey)) n with
  | error e => exact hlook
  | ok sig => exact after_js_bind (whole_set (kept_written stored rfl) fun f => hlook)

/-- The regeneration branch with the stored key injected. -/
theorem after_createKeys {m : Mem Snap} {r : AccountKeyRecord}
    (hsig : pairOf r.x3dhKeyMaterial = none) (hlook : m.kv.lookup (.identity owner) = some stored) :
    After (whole svc.core t) (fun x m' => Kept owner stored dh x m'.kv)
      (createKeys svc owner (some stored) r (some dh)) m := by
  unfold createKeys
  dsimp only
  rw [hsig]
  refine after_js_bind (whole_core fun n => ?_)
  cases svc.core.answer .generateSigningKeyPair n with
  | error e => exact hlook
  | ok signing => exact after_storeKeys none hlook

theorem after_load {m : Mem Snap} (hlook : m.kv.lookup (.identity owner) = some stored)
    (hdh : storedDh (normalizeStoredAccountKeyRecord (some stored)) = some (dh, sig))
    (hsafe : Safe svc t m owner (normalizeStoredAccountKeyRecord (some stored)) dh sig) :
    After (whole svc.core t) (fun x m' => Kept owner stored dh x m'.kv)
      (loadAccountKeyRecord svc owner) m := by
  refine after_js_bind (whole_get ?_ fun f => hlook)
  rw [hlook]
  refine after_js_bind (whole_accountDh (after_js_bind ((after_adoptLegacy hdh).mono ?_)))
  rintro (e | u) m₁ ⟨hkv, hadopt⟩
  · exact (congrArg (·.lookup (.identity owner)) hkv).trans hlook
  have hlook₁ : m₁.kv.lookup (.identity owner) = some stored := by rw [hkv, hlook]
  obtain ⟨heff, hinj⟩ := hadopt rfl
  refine after_js_bind (whole_accountDh ?_)
  dsimp only [Then]
  cases hsig : pairOf (normalizeStoredAccountKeyRecord (some stored)).x3dhKeyMaterial with
  | some signing =>
    have hcomplete :
        completeKeys (normalizeStoredAccountKeyRecord (some stored)) m₁.accountDh =
          some ⟨signing, dh, sig,
            (normalizeStoredAccountKeyRecord (some stored)).accountBinding⟩ := by
      unfold completeKeys
      rw [hsig, hdh]
      exact if_pos heff
    rw [hcomplete]
    dsimp only
    split
    · exact after_js_bind (whole_set (kept_written stored rfl) fun f => hlook₁)
    · exact ⟨rfl, stored, hlook₁, storedDh_pair hdh⟩
  | none =>
    have hcomplete :
        completeKeys (normalizeStoredAccountKeyRecord (some stored)) m₁.accountDh = none := by
      unfold completeKeys
      rw [hsig]
    rw [hcomplete]
    rcases hsafe with hsome | ⟨kp, hkp, hcase⟩
    · rw [hsig] at hsome
      cases hsome
    · have heq : kp = dh := by
        rcases hcase with heq | hoff | hnot
        · exact heq
        · rw [hkp] at hinj
          rcases hinj with hall | ⟨hon, -⟩
          · exact of_decide_eq_true hall
          · rw [hoff] at hon
            cases hon
        · rw [hkp] at hinj
          rcases hinj with hall | ⟨-, had⟩
          · exact of_decide_eq_true hall
          · exact absurd had hnot
      subst heq
      rw [hkp]
      exact after_createKeys hsig hlook₁

end

/-! ## The stored key is replaced -/

section

variable {svc : Service Snap} {t : Nat} {owner : Id} {stored : StoredAccountKeys}
  {dh : KeyPair} {sig : Id}

theorem ends_core {core : Core Snap} {m : Mem Snap} {q : CoreCall Snap} {n : Nat} {v : q.Value}
    (h : core.answer q n = .ok v) : Ends (whole core t) (callCore q) m (.ok v) m := by
  have hact : whole core t m (.core q) (.rand n) = some (.ok v, m) :=
    within_some.mpr ⟨trivial, by rw [← h]; rfl⟩
  exact .ask hact (.ret _ _)

theorem ends_storeKeys (t : Nat) (owner : Id) (hg : Generates svc.core dh) (m : Mem Snap)
    (binding : Option AccountBinding) (signing kp : KeyPair) :
    ∃ keys m', keys.identityDh = kp ∧
      Ends (whole svc.core t) (storeKeys svc owner binding signing kp) m (.ok keys) m' := by
  obtain ⟨n, sig, hn⟩ := hg.sign signing.privateKey (svc.core.keyBytes kp.publicKey)
  let keys : AccountKeys := ⟨signing, kp, sig, binding⟩
  have hset : whole svc.core t m (.set (.identity owner) keys.toStored) .ok =
      some (.ok (), { m with kv := m.kv.insert (.identity owner) keys.toStored }) :=
    within_some.mpr ⟨trivial, rfl⟩
  exact ⟨keys, _, rfl, Ends.js_bind (ends_core hn) (Ends.js_bind (.ask hset (.ret _ _)) (.ret _ _))⟩

/-- The regeneration branch returns the injected key, or a new one. -/
theorem ends_createKeys (t : Nat) (owner : Id) (stored : StoredAccountKeys)
    (hg : Generates svc.core dh) (m : Mem Snap) {r : AccountKeyRecord}
    (hsig : pairOf r.x3dhKeyMaterial = none) {injected : Option KeyPair}
    (hinj : ∀ kp, injected = some kp → kp ≠ dh) :
    ∃ keys m', keys.identityDh ≠ dh ∧
      Ends (whole svc.core t) (createKeys svc owner (some stored) r injected) m (.ok keys) m' := by
  obtain ⟨n, signing, hn⟩ := hg.signing
  unfold createKeys
  dsimp only
  rw [hsig]
  cases injected with
  | some kp =>
    obtain ⟨keys, m', hkeys, hends⟩ := ends_storeKeys t owner hg m none signing kp
    refine ⟨keys, m', ?_, Ends.js_bind (ends_core hn) hends⟩
    rw [hkeys]
    exact hinj kp rfl
  | none =>
    obtain ⟨n', kp, hn', hne⟩ := hg.identityDh
    obtain ⟨keys, m', hkeys, hends⟩ := ends_storeKeys t owner hg m none signing kp
    refine ⟨keys, m', ?_, Ends.js_bind (ends_core hn) (Ends.js_bind (ends_core hn') hends)⟩
    rw [hkeys]
    exact hne

/-- Outside the condition some run rotates the key. -/
theorem ends_rotated (hg : Generates svc.core dh) {m : Mem Snap}
    (hlook : m.kv.lookup (.identity owner) = some stored)
    (hdh : storedDh (normalizeStoredAccountKeyRecord (some stored)) = some (dh, sig))
    (hexposed : ¬ Safe svc t m owner (normalizeStoredAccountKeyRecord (some stored)) dh sig) :
    ∃ keys m', keys.identityDh ≠ dh ∧
      Ends (whole svc.core t) (loadAccountKeyRecord svc owner) m (.ok keys) m' := by
  generalize hr : normalizeStoredAccountKeyRecord (some stored) = r at hdh hexposed
  have hsig : pairOf r.x3dhKeyMaterial = none := by
    cases hp : pairOf r.x3dhKeyMaterial with
    | none => rfl
    | some kp => exact absurd (.inl (by rw [hp]; rfl)) hexposed
  have hinj : ∀ kp, m.accountDh = some kp → kp ≠ dh :=
    fun kp hkp heq => hexposed (.inr ⟨kp, hkp, .inl heq⟩)
  -- whatever was injected, the adoption step lets the call go on
  have hadopt :
      ∃ m₁, Ends (whole svc.core t) (adoptLegacy svc owner r m.accountDh) m (.ok ()) m₁ := by
    unfold adoptLegacy
    rw [hdh]
    cases hkp : m.accountDh with
    | none => exact ⟨m, .ret _ _⟩
    | some kp =>
      dsimp only
      rw [if_neg fun heq => hinj kp hkp heq.symm]
      have hallow : svc.allowLegacyAccountIdentityDhAdoption = true := by
        by_contra hoff
        exact hexposed (.inr ⟨kp, hkp, .inr (.inl (Bool.not_eq_true _ ▸ hoff))⟩)
      have hvalid : Adoptable svc t m owner r dh sig := by
        by_contra hnot
        exact hexposed (.inr ⟨kp, hkp, .inr (.inr hnot)⟩)
      obtain ⟨m₁, hends⟩ := hvalid
      have hset : whole svc.core t m₁ (.adoptAccountDh dh) .ok = some ((),
          { m₁ with accountDh := some dh }) :=
        within_some.mpr ⟨trivial, rfl⟩
      rw [hallow]
      exact ⟨_, Ends.js_bind (.ret _ _) (Ends.js_bind hends (.ask hset (.ret _ _)))⟩
  obtain ⟨m₁, hadopt⟩ := hadopt
  obtain ⟨keys, m', hne, hcreate⟩ := ends_createKeys t owner stored hg m₁ hsig hinj
  have hget : whole svc.core t m (.get (.identity owner)) .ok = some (.ok (some stored), m) :=
    within_some.mpr ⟨trivial, by rw [← hlook]; rfl⟩
  have hread : ∀ m : Mem Snap, whole svc.core t m .accountDh .ok = some (m.accountDh, m) :=
    fun m => within_some.mpr ⟨trivial, rfl⟩
  refine ⟨keys, m', hne, Ends.js_bind (.ask hget (.ret _ _)) ?_⟩
  dsimp only
  rw [hr]
  refine Ends.js_bind (.ask (hread m) (.ret _ _)) (Ends.js_bind hadopt ?_)
  refine Ends.js_bind (.ask (hread m₁) (.ret _ _)) ?_
  have hcomplete : completeKeys r m₁.accountDh = none := by
    unfold completeKeys
    rw [hsig]
  rw [hcomplete]
  exact hcreate

end

/-- **The identity-DH key is kept** by every call on its own, exactly when the
signing pair is complete, the injected key is the stored one, or a differing
stored key is refused. -/
theorem identity_dh_kept (svc : Service Snap) (t : Nat) (m : Mem Snap) (owner : Id)
    (stored : StoredAccountKeys) (dh : KeyPair) (sig : Id) (hg : Generates svc.core dh)
    (hlook : m.kv.lookup (.identity owner) = some stored)
    (hdh : storedDh (normalizeStoredAccountKeyRecord (some stored)) = some (dh, sig)) :
    (∀ x m', Ends (whole svc.core t) (loadAccountKeyRecord svc owner) m x m' →
        Kept owner stored dh x m'.kv) ↔
    Safe svc t m owner (normalizeStoredAccountKeyRecord (some stored)) dh sig := by
  constructor
  · intro hkept
    by_contra hexposed
    obtain ⟨keys, m', hne, hends⟩ := ends_rotated hg hlook hdh hexposed
    exact hne (hkept _ _ hends).1
  · exact fun hsafe => after_iff_ends.mp (after_load hlook hdh hsafe)

namespace Example

open Counting

/-- A stored record with the identity-DH pair `⟨b, b⟩` and the given signing
part. -/
def record (signing : KeyMaterial) : StoredAccountKeys :=
  ⟨⟨none, none⟩, some signing, some ⟨some b, some b⟩, some c, .null⟩

def start (signing : KeyMaterial) : Mem Nat :=
  .ofStore ((∅ : Store Nat).insert (.identity a) (record signing)) []

theorem start_lookup (signing : KeyMaterial) :
    (start signing).kv.lookup (.identity a) = some (record signing) := AList.lookup_insert _

theorem generates : Generates Counting.core ⟨b, b⟩ where
  signing := ⟨0, ⟨a, a⟩, rfl⟩
  identityDh := ⟨0, ⟨a, a⟩, rfl, by decide⟩
  sign _ _ := ⟨0, a, rfl⟩

end Example

open Example Counting in
/-- The stored identity-DH part is complete, the private signing key is
missing, nothing is injected: the call returns another identity-DH key. -/
theorem identity_dh_rotated :
    ∃ x m',
      storedDh (normalizeStoredAccountKeyRecord (some (record ⟨some a, none⟩))) = some (⟨b, b⟩, c) ∧
      Ends (whole Counting.svc.core 0) (loadAccountKeyRecord Counting.svc a) (start ⟨some a, none⟩)
        x m' ∧
      ¬ Kept a (record ⟨some a, none⟩) ⟨b, b⟩ x m'.kv := by
  have hexposed : ¬ Safe Counting.svc 0 (start ⟨some a, none⟩) a
      (normalizeStoredAccountKeyRecord (some (record ⟨some a, none⟩))) ⟨b, b⟩ c := by
    rintro (h | ⟨kp, h, -⟩)
    · cases h
    · cases h
  obtain ⟨keys, m', hne, hends⟩ :=
    ends_rotated (t := 0) generates (start_lookup ⟨some a, none⟩) rfl hexposed
  exact ⟨.ok keys, m', rfl, hends, fun h => hne h.1⟩

open Example Counting in
/-- With the whole signing pair every call keeps the stored key. -/
theorem identity_dh_kept_complete :
    (start ⟨some a, some a⟩).kv.lookup (.identity a) = some (record ⟨some a, some a⟩) ∧
    ∀ x m',
      Ends (whole Counting.svc.core 0) (loadAccountKeyRecord Counting.svc a)
        (start ⟨some a, some a⟩) x m' →
      Kept a (record ⟨some a, some a⟩) ⟨b, b⟩ x m'.kv :=
  ⟨start_lookup ⟨some a, some a⟩,
    (identity_dh_kept Counting.svc 0 (start ⟨some a, some a⟩) a (record ⟨some a, some a⟩) ⟨b,
    b⟩ c generates
      (start_lookup ⟨some a, some a⟩) rfl).mpr (.inl rfl)⟩

end RezSdk.L4.DhRotation
