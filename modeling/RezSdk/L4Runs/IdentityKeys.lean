import RezSdk.L3Service.Counting
import RezSdk.L3Service.DeviceSets
import RezSdk.L4Runs.Windows

/-!
# First use of the identity keys

The account's X3DH keys and the device's identity-DH key are generated at
first use: a call reads the record, finds none, generates one and writes it.
Nothing holds the key in between, so two first calls can both find none, and
the second write replaces keys that the first caller already has in hand, or
a binding that was stored meanwhile (`keys_replaced`).

When every generated record is written while none is stored, the keys are
what their callers were told, and a binding stays until another upsert
replaces it (`keys_stable`).
-/
namespace RezSdk.L4.IdentityKeys

open RezSdk.L1 RezSdk.L2 RezSdk.L3

variable {Snap : Type}

inductive KeyCall
  | challenge (owner : Id)
  | upsert (owner : Id) (binding : AccountBinding)
  | requireBound (owner : Id)
  | loadDevice
deriving DecidableEq

/-- The account a call is about. -/
def KeyCall.owner : KeyCall → Option Id
  | .challenge o => some o
  | .upsert o _ => some o
  | .requireBound o => some o
  | .loadDevice => none

inductive KeyReply
  | challenge (x3dhIdentityPublicKeyB64 : Id)
  | binding (b : AccountBinding)
  | bound (i : BoundIdentity)
  | device (identity identityDh : KeyPair)

abbrev KeyState (Snap : Type) := Pool (sdk Snap) (Mem Snap) Fate KeyCall (Except Err KeyReply)
abbrev KeyRules (Snap : Type) := Discipline (sdk Snap) (Mem Snap) Fate KeyCall (Except Err KeyReply)

def run (svc : DeviceService Snap) : KeyCall → Sdk Snap KeyReply
  | .challenge o => do
    let k ← getOrCreateAccountBindingChallenge svc.toService o
    return .challenge k
  | .upsert o b => do
    let r ← upsertAccountBinding svc.toService o b
    return .binding r
  | .requireBound o => do
    let i ← requireBoundX3dhIdentity svc.toService o
    return .bound i
  | .loadDevice => do
    let (identity, dh) ← loadDeviceIdentity svc
    return .device identity dh

/-- Any number of the four calls over one store. -/
def keyCalls (svc : DeviceService Snap) :
    System (sdk Snap) (Mem Snap) Fate KeyCall (Except Err KeyReply) :=
  ⟨act svc.core, run svc⟩

/-! ## The property -/

/-- The stored account keys: the signing and the identity-DH pair. -/
def keysOf (r : StoredAccountKeys) : Option (KeyPair × KeyPair) :=
  match r.x3dhKeyMaterial.bind pairOf, r.x3dhIdentityDhKeyMaterial.bind pairOf with
  | some signing, some dh => some (signing, dh)
  | _, _ => none

/-- The binding an event stores for `owner`. -/
def bindingWrite (owner : Id) (e : Event (sdk Snap) Fate) : Option AccountBinding :=
  match e.op with
  | .set (.identity o) r =>
    if o = owner ∧ e.fate.lands = true then r.accountBinding.toOption else none
  | _ => none

/-- Call `t` has stored binding `b`, and it is still there, or another upsert
has replaced it. -/
def Bound (s : KeyState Snap) (t : Nat) (owner : Id) (b : AccountBinding) : Prop :=
  ∃ newer e older, s.log = newer ++ e :: older ∧ e.tid = t ∧ bindingWrite owner e = some b ∧
    ((∃ r, s.mem.kv.lookup (.identity owner) = some r ∧ r.accountBinding = .set b) ∨
      ∃ e' ∈ newer, ∃ b' p, bindingWrite owner e' = some b' ∧
      s.threads[e'.tid]? = some ⟨.upsert owner b', p⟩)

def Returned (s : KeyState Snap) (t : Nat) (c : KeyCall) (r : KeyReply) : Prop :=
  s.threads[t]? = some ⟨c, .ret (.ok r)⟩

structure Stable (svc : DeviceService Snap) (s : KeyState Snap) : Prop where
  challenge : ∀ t o k, Returned s t (.challenge o) (.challenge k) →
    ∃ r signing dh, s.mem.kv.lookup (.identity o) = some r ∧ keysOf r = some (signing, dh) ∧
    signing.publicKey = k
  bound : ∀ t o i, Returned s t (.requireBound o) (.bound i) →
    ∃ r, s.mem.kv.lookup (.identity o) = some r ∧ keysOf r = some (i.keyPair, i.identityDhKeyPair)
  device : ∀ t identity dh, Returned s t .loadDevice (.device identity dh) →
    storedDeviceDh (s.mem.kv.lookup (.deviceIdentity svc.owner svc.deviceId)) = some dh
  bindings : ∀ t o b b', Returned s t (.upsert o b) (.binding b') → Bound s t o b

/-! ## The runs -/

/-- No identity key is stored. -/
def Empty (kv : Store Snap) : Prop :=
  (∀ o, kv.lookup (.identity o) = none) ∧ ∀ o d, kv.lookup (.deviceIdentity o d) = none

def anyCalls : KeyRules Snap where
  init m := Empty m.kv
  may _ _ := True
  ok _ _ := True

/-- A generated record, which has no binding yet, is written while none is
stored. -/
def First (s : KeyState Snap) (e : Event (sdk Snap) Fate) : Prop :=
  match e.op with
  | .set (.identity o) r => r.accountBinding = .null → s.mem.kv.lookup (.identity o) = none
  | .set (.deviceIdentity o d) _ => s.mem.kv.lookup (.deviceIdentity o d) = none
  | _ => True

def firstCalls : KeyRules Snap where
  init m := Empty m.kv
  may _ _ := True
  ok := First

/-! ## One call -/

/-- What a call has read or written. -/
structure Seen where
  accounts : List (KeyPair × KeyPair)
  device : Option KeyPair
  /-- it has written a binding -/
  wrote : Bool

def Seen.start : Seen := ⟨[], none, false⟩

def Seen.next (w : Seen) : Proc.Exch (sdk Snap) → Seen
  | ⟨.get (.identity _), .ok (some r)⟩ => { w with accounts := (keysOf r).toList ++ w.accounts }
  | ⟨.set (.identity _) r, .ok _⟩ =>
    { w with
      accounts := (keysOf r).toList ++ w.accounts
      wrote := w.wrote || r.accountBinding.toOption.isSome }
  | ⟨.get (.deviceIdentity ..), .ok (some r)⟩ => { w with device := storedDeviceDh (some r) }
  | ⟨.set (.deviceIdentity ..) r, .ok _⟩ => { w with device := storedDeviceDh (some r) }
  | _ => w

abbrev Progress := KeyCall × Seen

/-- The identity-DH key is the one the service was given, if it was given
one. -/
def Fits (injected : Option KeyPair) (keys : AccountKeys) : Prop :=
  ∀ kp, injected = some kp → keys.identityDh = kp

def monitor (svc : DeviceService Snap) (injected : Option KeyPair) :
    Monitor (sdk Snap) Progress where
  next a x := (a.1, a.2.next x)
  may a
    | .get (.identity o) => a.1.owner = some o
    | .get (.deviceIdentity o d) => o = svc.owner ∧ d = svc.deviceId
    | .set (.identity o) r =>
      a.1.owner = some o ∧ (∃ keys, r = AccountKeys.toStored keys ∧ Fits injected keys) ∧
        (r.accountBinding = .null ∨
          ∃ b, a.1 = .upsert o b ∧ r.accountBinding = .set b ∧
          ∃ kk ∈ a.2.accounts, keysOf r = some kk)
    | .set (.deviceIdentity o d) _ => o = svc.owner ∧ d = svc.deviceId
    | .delete (.identity _) => False
    | .delete (.deviceIdentity ..) => False
    | .adoptAccountDh _ => False
    | _ => True

/-- Only complete records are stored. -/
def Law (injected : Option KeyPair) : Proc.Exch (sdk Snap) → Prop
  | ⟨.get (.identity _), .ok (some r)⟩ => ∃ keys, r = AccountKeys.toStored keys ∧ Fits injected keys
  | ⟨.accountDh, x⟩ => x = injected
  | _ => True

theorem storedDh_toStored (keys : AccountKeys) :
    storedDh (normalizeStoredAccountKeyRecord (some keys.toStored)) =
      some (keys.identityDh, keys.identityDhSignature) := rfl

theorem persistMissing_toStored (keys : AccountKeys) :
    persistMissing (some keys.toStored) = false := by
  obtain ⟨signing, dh, sig, binding⟩ := keys
  cases binding <;> rfl

variable {svc : DeviceService Snap} {injected : Option KeyPair} {α : Type}

/-- What a load leaves: the keys it returns are the ones it has read or
written. -/
def Loaded (injected : Option KeyPair) (c : KeyCall) (w : Seen) (a : Progress)
    (x : Except Err AccountKeys) : Prop :=
  a.1 = c ∧ w.accounts ⊆ a.2.accounts ∧
    ∀ keys, x = .ok keys → (keys.signing, keys.identityDh) ∈ a.2.accounts ∧ Fits injected keys

theorem obeys_createKeys {o : Id} {c : KeyCall} {w : Seen} (ho : c.owner = some o) :
    Obeys (monitor svc injected) (Law injected) (Loaded injected c w) (c, w)
      (createKeys svc.toService o none (normalizeStoredAccountKeyRecord none) injected) := by
  have herror : ∀ e, Loaded injected c w (c, w) (.error e) :=
    fun _ => ⟨rfl, fun _ h => h, fun _ h => by cases h⟩
  refine obeys_js_bind ⟨trivial, fun signing _ => ?_⟩
  cases signing with
  | error e => exact herror e
  | ok signing =>
    -- the injected key, or a new one
    have hrest : ∀ dh : KeyPair, (∀ kp, injected = some kp → dh = kp) →
        Obeys (monitor svc injected) (Law injected) (Loaded injected c w) (c, w)
          ((do
            let sig ← callCore (.sign signing.privateKey (svc.core.keyBytes dh.publicKey))
            kvSet (.identity o) (AccountKeys.toStored ⟨signing, dh, sig, none⟩)
            return ⟨signing, dh, sig, none⟩) : Sdk Snap AccountKeys) := by
      intro dh hdh
      refine obeys_js_bind ⟨trivial, fun sig _ => ?_⟩
      cases sig with
      | error e => exact herror e
      | ok sig =>
        refine obeys_js_bind ⟨⟨ho, ⟨_, rfl, hdh⟩, .inl rfl⟩, fun written _ => ?_⟩
        match written with
        | .error e => exact herror e
        | .ok () =>
          refine ⟨rfl, fun _ h => .tail _ h, fun keys h => ?_⟩
          cases h
          exact ⟨.head _, hdh⟩
    cases hinj : injected with
    | none =>
      subst hinj
      refine obeys_js_bind ⟨trivial, fun dh _ => ?_⟩
      cases dh with
      | error e => exact herror e
      | ok dh => exact hrest dh fun _ h => by cases h
    | some kp =>
      subst hinj
      exact hrest kp fun _ h => Option.some.inj h

theorem obeys_load {o : Id} {c : KeyCall} {w : Seen} (ho : c.owner = some o) :
    Obeys (monitor svc injected) (Law injected) (Loaded injected c w) (c, w)
      (loadAccountKeyRecord svc.toService o) := by
  refine obeys_js_bind ⟨ho, fun stored hstored => ?_⟩
  rcases stored with e | _ | r
  · exact ⟨rfl, fun _ h => h, fun _ h => by cases h⟩
  · -- nothing is stored: nothing is adopted, and a record is generated
    refine obeys_js_bind ⟨trivial, fun x hx => ?_⟩
    cases hx
    refine obeys_js_bind ?_
    refine obeys_js_bind ⟨trivial, fun x hx => ?_⟩
    cases hx
    exact obeys_createKeys ho
  · obtain ⟨keys, rfl, hfits⟩ := hstored
    refine obeys_js_bind ⟨trivial, fun x hx => ?_⟩
    cases hx
    have hadopt : adoptLegacy svc.toService o (normalizeStoredAccountKeyRecord (some keys.toStored))
        injected =
        pure () := by
      unfold adoptLegacy
      rw [storedDh_toStored]
      cases hinj : injected with
      | none => rfl
      | some kp =>
        dsimp only
        rw [if_pos (hfits kp hinj)]
    refine obeys_js_bind (p := adoptLegacy svc.toService o
      (normalizeStoredAccountKeyRecord (some keys.toStored)) injected) ?_
    rw [hadopt]
    refine obeys_js_bind ⟨trivial, fun x hx => ?_⟩
    cases hx
    have hall : injected.all (· = keys.identityDh) = true := by
      cases hinj : injected with
      | none => rfl
      | some kp => simpa using (hfits kp hinj).symm
    have hcomplete : completeKeys (normalizeStoredAccountKeyRecord (some keys.toStored)) injected =
        some ⟨keys.signing, keys.identityDh, keys.identityDhSignature,
          (normalizeStoredAccountKeyRecord (some keys.toStored)).accountBinding⟩ := by
      unfold completeKeys
      rw [storedDh_toStored]
      change (if injected.all (· = keys.identityDh) = true then _ else none) = _
      rw [if_pos hall]
    dsimp only [Obeys, Goes]
    rw [hcomplete]
    dsimp only
    rw [persistMissing_toStored, if_neg Bool.false_ne_true]
    exact ⟨rfl, fun _ h => .tail _ h, fun _ h => by cases h; exact ⟨.head _, hfits⟩⟩

/-- What a finished call leaves behind. -/
def Post (c : KeyCall) (a : Progress) (x : Except Err KeyReply) : Prop :=
  a.1 = c ∧
    match c, x with
    | .challenge _, .ok (.challenge k) =>
      ∃ signing dh, (signing, dh) ∈ a.2.accounts ∧ signing.publicKey = k
    | .requireBound _, .ok (.bound i) => (i.keyPair, i.identityDhKeyPair) ∈ a.2.accounts
    | .loadDevice, .ok (.device _ dh) => a.2.device = some dh
    | .upsert .., .ok (.binding _) => a.2.wrote = true
    | _, _ => True

theorem post_error (c : KeyCall) (w : Seen) (e : Err) : Post c (c, w) (.error e) := by
  refine ⟨rfl, ?_⟩
  cases c <;> trivial

theorem obeys_challenge {o : Id} : Obeys (monitor svc injected) (Law injected) (Post (.challenge o))
    (.challenge o, .start) (run svc (.challenge o)) := by
  refine obeys_js_bind (obeys_js_bind ((obeys_load rfl).mono fun a x hx => ?_))
  obtain ⟨c, w⟩ := a
  obtain ⟨rfl, -, hok⟩ := hx
  cases x with
  | error e => exact post_error _ w e
  | ok keys => exact ⟨rfl, keys.signing, keys.identityDh, (hok keys rfl).1, rfl⟩

theorem obeys_upsert {o : Id} {b : AccountBinding} :
    Obeys (monitor svc injected) (Law injected) (Post (.upsert o b)) (.upsert o b, .start)
      (run svc (.upsert o b)) := by
  refine obeys_js_bind (obeys_js_bind ((obeys_load rfl).mono fun a x hx => ?_))
  obtain ⟨c, w⟩ := a
  obtain ⟨rfl, -, hok⟩ := hx
  cases x with
  | error e => exact post_error _ w e
  | ok keys =>
    obtain ⟨hseen, hfits⟩ := hok keys rfl
    refine obeys_js_bind ⟨⟨rfl, ⟨{ keys with accountBinding := some b }, rfl, hfits⟩,
      .inr ⟨b, rfl, rfl, _, hseen, rfl⟩⟩, fun written _ => ?_⟩
    match written with
    | .error e => exact post_error _ w e
    | .ok () =>
      refine ⟨rfl, ?_⟩
      change (w.wrote || true) = true
      rw [Bool.or_true]

theorem obeys_requireBound {o : Id} :
    Obeys (monitor svc injected) (Law injected) (Post (.requireBound o)) (.requireBound o, .start)
      (run svc (.requireBound o)) := by
  refine obeys_js_bind (obeys_js_bind ((obeys_load rfl).mono fun a x hx => ?_))
  obtain ⟨c, w⟩ := a
  obtain ⟨rfl, -, hok⟩ := hx
  cases x with
  | error e => exact post_error _ w e
  | ok keys =>
    refine obeys_js_bind ((obeys_load rfl).mono fun a y hy => ?_)
    obtain ⟨c, w'⟩ := a
    obtain ⟨rfl, hsub, -⟩ := hy
    have hseen : (keys.signing, keys.identityDh) ∈ w'.accounts := hsub (hok keys rfl).1
    cases y with
    | error e => exact post_error _ w' e
    | ok again =>
      refine obeys_js_bind (obeys_orThrow (fun binding _ => ?_) fun _ => ?_)
      · refine obeys_js_bind (obeys_ensure (fun _ => ?_) fun _ => ?_)
        · refine obeys_js_bind (obeys_ensure (fun _ => ?_) fun _ => ?_)
          · refine obeys_js_bind ⟨trivial, fun now _ => ?_⟩
            refine obeys_js_bind (obeys_ensure (fun _ => ?_) fun _ => ?_)
            · exact ⟨rfl, hseen⟩
            · exact And.intro rfl trivial
          · exact And.intro rfl trivial
        · exact And.intro rfl trivial
      · exact And.intro rfl trivial

theorem obeys_loadDevice :
    Obeys (monitor svc injected) (Law injected) (Post .loadDevice) (.loadDevice, .start)
      (run svc .loadDevice) := by
  refine obeys_js_bind
    (obeys_js_bind (obeys_ensure (fun _ => ?_) fun _ => post_error .loadDevice .start
    { message :=
    "PeerLinkService has no device key (construct with deviceKeyPair for per-device sessions)" }))
  refine obeys_js_bind ⟨⟨rfl, rfl⟩, fun stored _ => ?_⟩
  have hcreate : ∀ w : Seen, Obeys (monitor svc injected) (Law injected)
      (Goes (monitor svc injected) (Law injected) (Post .loadDevice) fun x =>
        (pure (.device x.1 x.2) : Sdk Snap KeyReply)) (.loadDevice, w)
      ((do
        let dh ← callCore .dhGenerateKeyPair
        kvSet (.deviceIdentity svc.owner svc.deviceId) (svc.identityRecord dh)
        return (svc.deviceSigningKeyPair, dh)) : Sdk Snap (KeyPair × KeyPair)) := by
    intro w
    refine obeys_js_bind ⟨trivial, fun dh _ => ?_⟩
    cases dh with
    | error e => exact post_error _ w e
    | ok dh =>
      refine obeys_js_bind ⟨⟨rfl, rfl⟩, fun written _ => ?_⟩
      cases written with
      | error e => exact post_error _ w e
      | ok u => exact ⟨rfl, rfl⟩
  rcases stored with e | _ | r
  · exact post_error _ _ e
  · exact hcreate _
  · dsimp only [Obeys, Goes]
    cases hdh : storedDeviceDh (some r) with
    | none => exact hcreate _
    | some dh => exact ⟨rfl, hdh⟩

theorem obeys_run (c : KeyCall) :
    Obeys (monitor svc injected) (Law injected) (Post c) (c, .start) (run svc c) := by
  cases c with
  | challenge o => exact obeys_challenge
  | upsert o b => exact obeys_upsert
  | requireBound o => exact obeys_requireBound
  | loadDevice => exact obeys_loadDevice

/-! ## All of them -/

abbrev Conforms (svc : DeviceService Snap) (injected : Option KeyPair) (s : KeyState Snap) : Prop :=
  System.Conforms (monitor svc injected) (Law injected) (fun c : KeyCall => (c, Seen.start)) Post s

/-- The call of thread `t` and what it has seen. -/
def view (svc : DeviceService Snap) (injected : Option KeyPair) (s : KeyState Snap) (t : Nat) :
    Option Progress :=
  System.view (monitor svc injected) (fun c : KeyCall => (c, Seen.start)) s t

theorem mon_call (svc : DeviceService Snap) (injected : Option KeyPair) (c : KeyCall) (t : Nat)
    (log : List (Event (sdk Snap) Fate)) :
    (Pool.mon (monitor svc injected) (c, .start) t log).1 = c := by
  induction log with
  | nil => rfl
  | cons e log ih =>
    by_cases ht : e.tid = t
    · subst ht
      rw [Pool.mon_self]
      exact ih
    · rw [Pool.mon_other ht, ih]

structure Inv (svc : DeviceService Snap) (injected : Option KeyPair) (s : KeyState Snap) :
    Prop where
  conforms : Conforms svc injected s
  given : s.mem.accountDh = injected
  complete : ∀ o r, s.mem.kv.lookup (.identity o) = some r → ∃ keys, r = AccountKeys.toStored keys ∧
    Fits injected keys
  /-- the keys a call has seen are the stored ones -/
  accounts : ∀ t c w o kk, view svc injected s t = some (c, w) → c.owner = some o →
    kk ∈ w.accounts →
    ∃ r, s.mem.kv.lookup (.identity o) = some r ∧ keysOf r = some kk
  device : ∀ t c w dh, view svc injected s t = some (c, w) → w.device = some dh →
    storedDeviceDh (s.mem.kv.lookup (.deviceIdentity svc.owner svc.deviceId)) = some dh
  /-- the stored binding is the last one written -/
  latest : ∀ o, (s.mem.kv.lookup (.identity o)).bind (fun r : StoredAccountKeys =>
    r.accountBinding.toOption) =
    s.log.findSome? (bindingWrite o)
  authors : ∀ o e b, e ∈ s.log → bindingWrite o e = some b →
    ∃ p, s.threads[e.tid]? = some ⟨.upsert o b, p⟩
  wrote : ∀ t o b w, view svc injected s t = some (.upsert o b, w) → w.wrote = true →
    ∃ e ∈ s.log, e.tid = t ∧ bindingWrite o e = some b

namespace Inv

variable {s s' : KeyState Snap} {e : Event (sdk Snap) Fate} {c : KeyCall}
  {k : (sdk Snap).Ans e.op → Proc (sdk Snap) (Except Err KeyReply)}

theorem self (h : Inv svc injected s) (hf : Pool.Fires (keyCalls svc) s e c k s') :
    ∃ w, view svc injected s e.tid = some (c, w) ∧ (monitor svc injected).may (c, w) e.op ∧
      view svc injected s' e.tid = some (c, w.next e.exch) := by
  have hcall := mon_call svc injected c e.tid s.log
  have heq : Pool.mon (monitor svc injected) (c, Seen.start) e.tid s.log =
      (c, (Pool.mon (monitor svc injected) (c, Seen.start) e.tid s.log).2) := Prod.ext hcall rfl
  refine ⟨(Pool.mon (monitor svc injected) (c, .start) e.tid s.log).2, ?_, ?_, ?_⟩
  · rw [← heq]
    exact System.view_fired hf
  · rw [← heq]
    exact h.conforms.may hf
  · have hself : view svc injected s' e.tid = some ((monitor svc injected).next
        (Pool.mon (monitor svc injected) (c, Seen.start) e.tid s.log) e.exch) := System.view_self hf
    rw [heq] at hself
    exact hself

theorem law (h : Inv svc injected s) (hf : Pool.Fires (keyCalls svc) s e c k s') :
    Law injected e.exch := by
  obtain ⟨t, op, ans, f⟩ := e
  cases op with
  | get key =>
    cases key with
    | identity o =>
      match ans with
      | .error _ => trivial
      | .ok none => trivial
      | .ok (some r) => exact h.complete o r (act_get_ok hf.act)
    | _ => trivial
  | accountDh =>
    have hact := hf.act
    cases f with
    | ok =>
      simp only [keyCalls, act, Option.some.injEq, Prod.mk.injEq] at hact
      exact hact.1.symm.trans h.given
    | _ => cases hact
  | _ => trivial

/-- A generated record never replaces another, and an upsert keeps the keys. -/
theorem keeps_keys (h : Inv svc injected s) (hf : Pool.Fires (keyCalls svc) s e c k s')
    (hok : First s e) {o : Id} {r : StoredAccountKeys} {kk : KeyPair × KeyPair}
    (hr : s.mem.kv.lookup (.identity o) = some r) (hk : keysOf r = some kk) :
    ∃ r', s'.mem.kv.lookup (.identity o) = some r' ∧ keysOf r' = some kk := by
  cases halt : alters (.identity o) e.op e.fate with
  | false => exact ⟨r, (lookup_kept (S := keyCalls svc) rfl hf halt).trans hr, hk⟩
  | true =>
    obtain ⟨w, hv, hmay, -⟩ := h.self hf
    obtain ⟨hl, ⟨r', hop⟩ | hop⟩ := alters_cases halt
    · have hnew := lookup_set (S := keyCalls svc) rfl hf hop hl
      rw [hop] at hmay
      rw [First, hop] at hok
      obtain ⟨howner, -, hnull | ⟨b, rfl, -, kk', hin, hkk'⟩⟩ := hmay
      · rw [hok hnull] at hr
        cases hr
      · obtain ⟨r₀, hr₀, hk₀⟩ := h.accounts e.tid _ w o kk' hv howner hin
        rw [hr, Option.some.injEq] at hr₀
        subst hr₀
        rw [hk] at hk₀
        rw [← hk₀] at hkk'
        exact ⟨r', hnew, hkk'⟩
    · rw [hop] at hmay
      exact hmay.elim

theorem keeps_device (h : Inv svc injected s) (hf : Pool.Fires (keyCalls svc) s e c k s')
    (hok : First s e) {dh : KeyPair}
    (hd : storedDeviceDh (s.mem.kv.lookup (.deviceIdentity svc.owner svc.deviceId)) = some dh) :
    storedDeviceDh (s'.mem.kv.lookup (.deviceIdentity svc.owner svc.deviceId)) = some dh := by
  cases halt : alters (.deviceIdentity svc.owner svc.deviceId) e.op e.fate with
  | false =>
    rw [lookup_kept (S := keyCalls svc) rfl hf halt]
    exact hd
  | true =>
    obtain ⟨w, hv, hmay, -⟩ := h.self hf
    obtain ⟨hl, ⟨r', hop⟩ | hop⟩ := alters_cases halt
    · rw [First, hop] at hok
      rw [hok] at hd
      cases hd
    · rw [hop] at hmay
      exact hmay.elim

theorem keeps_given (h : Inv svc injected s) (hf : Pool.Fires (keyCalls svc) s e c k s') :
    s'.mem.accountDh = injected := by
  obtain ⟨w, -, hmay, -⟩ := h.self hf
  have hact := hf.act
  rw [← h.given]
  obtain ⟨t, op, ans, f⟩ := e
  cases op with
  | adoptAccountDh kp => exact hmay.elim
  | _ => exact act_accountDh hact nofun

/-- What the firing call has seen after the event is stored. -/
theorem accounts_self (h : Inv svc injected s) (hf : Pool.Fires (keyCalls svc) s e c k s')
    (hok : First s e) {w : Seen} (hv : view svc injected s e.tid = some (c, w))
    (hmay : (monitor svc injected).may (c, w) e.op) {o : Id} {kk : KeyPair × KeyPair}
    (ho : c.owner = some o) (hin : kk ∈ (w.next e.exch).accounts) :
    ∃ r, s'.mem.kv.lookup (.identity o) = some r ∧ keysOf r = some kk := by
  have hold :
      kk ∈ w.accounts → ∃ r, s'.mem.kv.lookup (.identity o) = some r ∧ keysOf r = some kk := by
    intro hin
    obtain ⟨r, hr, hk⟩ := h.accounts e.tid c w o kk hv ho hin
    exact h.keeps_keys hf hok hr hk
  obtain ⟨t, op, ans, f⟩ := e
  cases op with
  | get key =>
    cases key with
    | identity o' =>
      match ans with
      | .error _ => exact hold hin
      | .ok none => exact hold hin
      | .ok (some r) =>
        change kk ∈ (keysOf r).toList ++ w.accounts at hin
        rcases List.mem_append.mp hin with hin | hin
        · have heq : o' = o := Option.some.inj (hmay.symm.trans ho)
          subst heq
          have hlook : s.mem.kv.lookup (.identity o') = some r := act_get_ok hf.act
          exact h.keeps_keys hf hok hlook (Option.mem_toList.mp hin)
        · exact hold hin
    | deviceIdentity o' d =>
      match ans with
      | .error _ => exact hold hin
      | .ok none => exact hold hin
      | .ok (some r) => exact hold hin
    | _ => exact hold hin
  | set key v =>
    cases key with
    | identity o' =>
      match ans with
      | .error _ => exact hold hin
      | .ok () =>
        change kk ∈ (keysOf v).toList ++ w.accounts at hin
        rcases List.mem_append.mp hin with hin | hin
        · have heq : o' = o := Option.some.inj (hmay.1.symm.trans ho)
          subst heq
          exact ⟨v, lookup_set (S := keyCalls svc) rfl hf rfl (act_set_ok hf.act),
            Option.mem_toList.mp hin⟩
        · exact hold hin
    | deviceIdentity o' d =>
      match ans with
      | .error _ => exact hold hin
      | .ok () => exact hold hin
    | _ => exact hold hin
  | _ => exact hold hin

theorem device_self (h : Inv svc injected s) (hf : Pool.Fires (keyCalls svc) s e c k s')
    (hok : First s e) {w : Seen} (hv : view svc injected s e.tid = some (c, w))
    (hmay : (monitor svc injected).may (c, w) e.op) {dh : KeyPair}
    (hd : (w.next e.exch).device = some dh) :
    storedDeviceDh (s'.mem.kv.lookup (.deviceIdentity svc.owner svc.deviceId)) = some dh := by
  have hold : w.device = some dh →
      storedDeviceDh (s'.mem.kv.lookup (.deviceIdentity svc.owner svc.deviceId)) = some dh :=
    fun hd => h.keeps_device hf hok (h.device e.tid c w dh hv hd)
  obtain ⟨t, op, ans, f⟩ := e
  cases op with
  | get key =>
    cases key with
    | identity o' =>
      match ans with
      | .error _ => exact hold hd
      | .ok none => exact hold hd
      | .ok (some r) => exact hold hd
    | deviceIdentity o' d =>
      match ans with
      | .error _ => exact hold hd
      | .ok none => exact hold hd
      | .ok (some r) =>
        obtain ⟨rfl, rfl⟩ := hmay
        have hlook : s.mem.kv.lookup (.deviceIdentity svc.owner svc.deviceId) = some r :=
          act_get_ok hf.act
        refine h.keeps_device hf hok ?_
        rw [hlook]
        exact hd
    | _ => exact hold hd
  | set key v =>
    cases key with
    | identity o' =>
      match ans with
      | .error _ => exact hold hd
      | .ok () => exact hold hd
    | deviceIdentity o' d =>
      match ans with
      | .error _ => exact hold hd
      | .ok () =>
        obtain ⟨rfl, rfl⟩ := hmay
        rw [lookup_set (S := keyCalls svc) rfl hf rfl (act_set_ok hf.act)]
        exact hd
    | _ => exact hold hd
  | _ => exact hold hd

theorem keeps_complete (h : Inv svc injected s) (hf : Pool.Fires (keyCalls svc) s e c k s') {o : Id}
    {r : StoredAccountKeys} (hr : s'.mem.kv.lookup (.identity o) = some r) :
    ∃ keys, r = AccountKeys.toStored keys ∧ Fits injected keys := by
  cases halt : alters (.identity o) e.op e.fate with
  | false => exact h.complete o r ((lookup_kept (S := keyCalls svc) rfl hf halt).symm.trans hr)
  | true =>
    obtain ⟨w, -, hmay, -⟩ := h.self hf
    obtain ⟨hl, ⟨r', hop⟩ | hop⟩ := alters_cases halt
    · rw [lookup_set (S := keyCalls svc) rfl hf hop hl, Option.some.injEq] at hr
      subst hr
      rw [hop] at hmay
      exact hmay.2.1
    · rw [hop] at hmay
      exact hmay.elim

/-- A write of a binding is made by the upsert it belongs to. -/
theorem author (h : Inv svc injected s) (hf : Pool.Fires (keyCalls svc) s e c k s') {o : Id}
    {b : AccountBinding} (hb : bindingWrite o e = some b) : c = .upsert o b := by
  obtain ⟨w, -, hmay, -⟩ := h.self hf
  obtain ⟨t, op, ans, f⟩ := e
  cases op with
  | set key v =>
    cases key with
    | identity o' =>
      simp only [bindingWrite] at hb
      split at hb
      · rename_i heq
        obtain ⟨rfl, -⟩ := heq
        obtain ⟨-, -, hnull | ⟨b', hc, hset, -⟩⟩ := hmay
        · rw [hnull] at hb
          cases hb
        · rw [hset] at hb
          cases hb
          exact hc
      · cases hb
    | _ => cases hb
  | _ => cases hb

theorem keeps_latest (h : Inv svc injected s) (hf : Pool.Fires (keyCalls svc) s e c k s')
    (hok : First s e) (o : Id) :
    (s'.mem.kv.lookup (.identity o)).bind (fun r : StoredAccountKeys => r.accountBinding.toOption) =
      s'.log.findSome? (bindingWrite o) := by
  rw [hf.log, List.findSome?_cons]
  cases halt : alters (.identity o) e.op e.fate with
  | false =>
    have hnone : bindingWrite o e = none := by
      unfold bindingWrite
      split
      · rename_i o' r hop
        refine if_neg ?_
        rintro ⟨rfl, hl⟩
        rw [hop] at halt
        simp [alters, hl] at halt
      · rfl
    rw [hnone, lookup_kept (S := keyCalls svc) rfl hf halt]
    exact h.latest o
  | true =>
    obtain ⟨w, -, hmay, -⟩ := h.self hf
    obtain ⟨hl, ⟨r', hop⟩ | hop⟩ := alters_cases halt
    · have hbinding : bindingWrite o e = r'.accountBinding.toOption := by
        rw [bindingWrite, hop]
        exact if_pos ⟨rfl, hl⟩
      rw [lookup_set (S := keyCalls svc) rfl hf hop hl, hbinding]
      rw [hop] at hmay
      rw [First, hop] at hok
      obtain ⟨-, -, hnull | ⟨b, -, hset, -⟩⟩ := hmay
      · -- nothing was stored, so no binding was ever written
        have hold := h.latest o
        rw [hok hnull] at hold
        rw [Option.bind_some, hnull]
        exact hold
      · rw [Option.bind_some, hset]
        rfl
    · rw [hop] at hmay
      exact hmay.elim

theorem wrote_self (h : Inv svc injected s) (hf : Pool.Fires (keyCalls svc) s e c k s') {w : Seen}
    {o : Id} {b : AccountBinding} (hc : c = .upsert o b)
    (hv : view svc injected s e.tid = some (c, w)) (hmay : (monitor svc injected).may (c, w) e.op)
    (hw : (w.next e.exch).wrote = true) :
    ∃ e' ∈ s'.log, e'.tid = e.tid ∧ bindingWrite o e' = some b := by
  rw [hf.log]
  have hold : w.wrote = true → ∃ e' ∈ e :: s.log, e'.tid = e.tid ∧ bindingWrite o e' = some b := by
    intro hw
    subst hc
    obtain ⟨e', he', hrest⟩ := h.wrote e.tid o b w hv hw
    exact ⟨e', .tail _ he', hrest⟩
  obtain ⟨t, op, ans, f⟩ := e
  cases op with
  | get key =>
    cases key with
    | identity _ | deviceIdentity _ _ =>
      match ans with
      | .error _ => exact hold hw
      | .ok none => exact hold hw
      | .ok (some r) => exact hold hw
    | _ => exact hold hw
  | set key v =>
    cases key with
    | identity o' =>
      match ans with
      | .error _ => exact hold hw
      | .ok () =>
        obtain ⟨howner, -, hnull | ⟨b', hc', hset, -⟩⟩ := hmay
        · refine hold ?_
          change (w.wrote || v.accountBinding.toOption.isSome) = true at hw
          rw [hnull] at hw
          exact (Bool.or_eq_true_iff.mp hw).resolve_right Bool.false_ne_true
        · rw [hc] at hc'
          cases hc'
          refine ⟨_, .head _, rfl, ?_⟩
          have hlands : f.lands = true := act_set_ok hf.act
          change (if o = o ∧ f.lands = true then v.accountBinding.toOption else none) = some b
          rw [if_pos ⟨rfl, hlands⟩, hset]
          rfl
    | deviceIdentity _ _ =>
      match ans with
      | .error _ => exact hold hw
      | .ok () => exact hold hw
    | _ => exact hold hw
  | _ => exact hold hw

theorem fires (h : Inv svc injected s) (hf : Pool.Fires (keyCalls svc) s e c k s')
    (hok : First s e) : Inv svc injected s' := by
  obtain ⟨w, hv, hmay, hv'⟩ := h.self hf
  -- a call's view afterwards: the firing call's, or as it was
  have hviews : ∀ {t a}, view svc injected s' t = some a →
      (t = e.tid ∧ a = (c, w.next e.exch)) ∨ view svc injected s t = some a :=
    fun ha => (System.view_cases hf hv' ha).imp_right And.right
  refine
    { conforms := System.conforms_fires h.conforms hf (h.law hf)
      given := h.keeps_given hf
      complete := fun o r hr => h.keeps_complete hf hr
      accounts := fun t c' w' o kk ha ho hin => ?_
      device := fun t c' w' dh ha hd => ?_
      latest := h.keeps_latest hf hok
      authors := fun o e' b he' hb => ?_
      wrote := fun t o b w' ha hw => ?_ }
  · rcases hviews ha with ⟨rfl, heq⟩ | ha
    · cases heq
      exact h.accounts_self hf hok hv hmay ho hin
    · obtain ⟨r, hr, hk⟩ := h.accounts t c' w' o kk ha ho hin
      exact h.keeps_keys hf hok hr hk
  · rcases hviews ha with ⟨rfl, heq⟩ | ha
    · cases heq
      exact h.device_self hf hok hv hmay hd
    · exact h.keeps_device hf hok (h.device t c' w' dh ha hd)
  · rw [hf.log] at he'
    rcases List.mem_cons.mp he' with rfl | he'
    · rw [← h.author hf hb]
      exact hf.call hf.thread
    · obtain ⟨p, hp⟩ := h.authors o e' b he' hb
      exact hf.call hp
  · rcases hviews ha with ⟨rfl, heq⟩ | ha
    · cases heq
      exact h.wrote_self hf rfl hv hmay hw
    · obtain ⟨e', he', hrest⟩ := h.wrote t o b w' ha hw
      refine ⟨e', ?_, hrest⟩
      rw [hf.log]
      exact .tail _ he'

theorem spawn (h : Inv svc injected s) (c : KeyCall) :
    Inv svc injected (s.spawn (keyCalls svc) c) := by
  have hviews : ∀ {t a}, view svc injected (s.spawn (keyCalls svc) c) t = some a →
      a = (c, Seen.start) ∨ view svc injected s t = some a :=
    fun ha => (h.conforms.view_spawned ha).imp And.right id
  refine
    { conforms := System.conforms_spawn h.conforms (obeys_run c)
      given := h.given
      complete := h.complete
      accounts := fun t c' w o kk ha ho hin => ?_
      device := fun t c' w dh ha hd => ?_
      latest := h.latest
      authors := fun o e' b he' hb => ?_
      wrote := fun t o b w ha hw => ?_ }
  · rcases hviews ha with heq | ha
    · cases heq
      cases hin
    · exact h.accounts t c' w o kk ha ho hin
  · rcases hviews ha with heq | ha
    · cases heq
      cases hd
    · exact h.device t c' w dh ha hd
  · obtain ⟨p, hp⟩ := h.authors o e' b he' hb
    exact ⟨p, Pool.spawn_thread hp⟩
  · rcases hviews ha with heq | ha
    · cases heq
      cases hw
    · exact h.wrote t o b w ha hw

/-- The view of a call that has returned. -/
theorem result (h : Inv svc injected s) {t : Nat} {r : KeyReply} (hr : Returned s t c r) :
    ∃ w, view svc injected s t = some (c, w) ∧ Post c (c, w) (.ok r) := by
  have hpost := h.conforms.result hr
  have heq : Pool.mon (monitor svc injected) (c, Seen.start) t s.log =
      (c, (Pool.mon (monitor svc injected) (c, Seen.start) t s.log).2) :=
    Prod.ext (mon_call svc injected c t s.log) rfl
  refine ⟨(Pool.mon (monitor svc injected) (c, Seen.start) t s.log).2, ?_, ?_⟩
  · rw [← heq]
    exact System.view_thread hr
  · rw [← heq]
    exact hpost

theorem bound (h : Inv svc injected s) {t : Nat} {o : Id} {b b' : AccountBinding}
    (hr : Returned s t (.upsert o b) (.binding b')) : Bound s t o b := by
  obtain ⟨w, hv, -, hw⟩ := h.result hr
  obtain ⟨e, he, ht, hb⟩ := h.wrote t o b w hv hw
  obtain ⟨newer, older, hlog⟩ := List.append_of_mem he
  refine ⟨newer, e, older, hlog, ht, hb, ?_⟩
  cases hnewer : newer.findSome? (bindingWrite o) with
  | some b'' =>
    -- an upsert has replaced it
    obtain ⟨e', he', hb'⟩ := List.exists_of_findSome?_eq_some hnewer
    have hmem : e' ∈ s.log := by
      rw [hlog]
      exact List.mem_append_left _ he'
    obtain ⟨p, hp⟩ := h.authors o e' b'' hmem hb'
    exact .inr ⟨e', he', b'', p, hb', hp⟩
  | none =>
    have hlatest := h.latest o
    rw [hlog, List.findSome?_append, hnewer, Option.none_or, List.findSome?_cons, hb] at hlatest
    obtain ⟨r, hr, hbinding⟩ := Option.bind_eq_some_iff.mp hlatest
    refine .inl ⟨r, hr, ?_⟩
    cases hr' : r.accountBinding with
    | set b'' =>
      rw [hr'] at hbinding
      cases hbinding
      rfl
    | _ =>
      rw [hr'] at hbinding
      cases hbinding

theorem stable (h : Inv svc injected s) : Stable svc s where
  challenge t o key hr := by
    obtain ⟨w, hv, -, signing, dh, hin, hk⟩ := h.result hr
    obtain ⟨r, hlook, hkeys⟩ := h.accounts t _ w o _ hv rfl hin
    exact ⟨r, signing, dh, hlook, hkeys, hk⟩
  bound t o i hr := by
    obtain ⟨w, hv, -, hin⟩ := h.result hr
    exact h.accounts t _ w o _ hv rfl hin
  device t identity dh hr := by
    obtain ⟨w, hv, -, hd⟩ := h.result hr
    exact h.device t _ w dh hv hd
  bindings t o b b' hr := h.bound hr

end Inv

theorem inv_init {m : Mem Snap} (h : Empty m.kv) : Inv svc m.accountDh ⟨m, [], []⟩ where
  conforms := System.conforms_init m
  given := rfl
  complete o r hr := by
    rw [h.1 o] at hr
    cases hr
  accounts t c w o kk ha := by
    rw [view, System.view_init] at ha
    cases ha
  device t c w dh ha := by
    rw [view, System.view_init] at ha
    cases ha
  latest o := by
    rw [h.1 o]
    rfl
  authors o e b he := by cases he
  wrote t o b w ha := by
    rw [view, System.view_init] at ha
    cases ha

theorem inv_inductive (svc : DeviceService Snap) :
    ((keyCalls svc).lts firstCalls).Inductive fun s => ∃ injected, Inv svc injected s :=
  System.inductive_of (fun m hm => ⟨m.accountDh, inv_init hm⟩) (fun _ c ⟨x, h⟩ _ => ⟨x, h.spawn c⟩)
    (fun _ _ _ _ _ ⟨x, h⟩ hf hok => ⟨x, h.fires hf hok⟩)

/-- **Identity keys are stable** in every run in which a generated record is
the first. -/
theorem keys_stable (svc : DeviceService Snap) (s : KeyState Snap)
    (hr : ((keyCalls svc).lts firstCalls).Reachable s) : Stable svc s := by
  obtain ⟨injected, h⟩ := (inv_inductive svc).reachable s hr
  exact h.stable

namespace Example

open Counting

/-- Each seed gives another signing key. -/
def core : Core Nat :=
  { Counting.core with
    answer := fun
      | .generateSigningKeyPair, n => .ok ⟨unary n, unary n⟩
      | q, n => Counting.answer q n }

def phone : DeviceService Nat :=
  ⟨⟨core, false, true, false, none⟩, a, d, d, ⟨d, d⟩, none, true, a, []⟩

theorem start_empty : Empty (∅ : Store Nat) := ⟨fun _ => rfl, fun _ _ => rfl⟩

def anyJudge : System.Judge (anyCalls : KeyRules Nat) where
  may _ _ := true
  ok _ _ := true
  may_iff _ _ _ := trivial
  ok_iff _ _ _ := trivial

def first (s : KeyState Nat) (e : Event (sdk Nat) Fate) : Bool :=
  match e.op with
  | .set (.identity o) r => r.accountBinding ≠ .null || (s.mem.kv.lookup (.identity o)).isNone
  | .set (.deviceIdentity o d) _ => (s.mem.kv.lookup (.deviceIdentity o d)).isNone
  | _ => true

theorem first_spec {s : KeyState Nat} {e : Event (sdk Nat) Fate} (h : first s e = true) :
    First s e := by
  obtain ⟨t, op, ans, f⟩ := e
  cases op with
  | set key v =>
    cases key with
    | identity o =>
      intro hnull
      simp only [first, Bool.or_eq_true, decide_eq_true_eq, Option.isNone_iff_eq_none] at h
      exact h.resolve_left fun hne => hne hnull
    | deviceIdentity o d => exact Option.isNone_iff_eq_none.mp h
    | _ => trivial
  | _ => trivial

def judge : System.Judge (firstCalls : KeyRules Nat) where
  may _ _ := true
  ok := first
  may_iff _ _ _ := trivial
  ok_iff _ _ h := first_spec h

/-- Call `t` was told that `key` is the account's signing key. -/
def told (s : KeyState Nat) (t : Nat) (key : Id) : Bool :=
  match s.threads[t]? with
  | some ⟨.challenge o, .ret (.ok (.challenge k))⟩ => o = a && k = key
  | _ => false

theorem told_spec {s : KeyState Nat} {t : Nat} {key : Id} (h : told s t key = true) :
    Returned s t (.challenge a) (.challenge key) := by
  unfold told at h
  split at h
  · rename_i o k hth
    simp only [Bool.and_eq_true, decide_eq_true_eq] at h
    obtain ⟨rfl, rfl⟩ := h
    exact hth
  · cases h

def bothTold (s : KeyState Nat) : Bool := told s 0 (unary 0) && told s 1 (unary 1)

/-- Call `t` has stored the binding. -/
def boundBy (t : Nat) (s : KeyState Nat) : Bool :=
  match s.threads[t]? with
  | some ⟨.upsert o b, .ret (.ok (.binding b'))⟩ =>
    o = a && b = bindingOf a 50 && b' = bindingOf a 50
  | _ => false

theorem boundBy_spec {s : KeyState Nat} {t : Nat} (h : boundBy t s = true) :
    Returned s t (.upsert a (bindingOf a 50)) (.binding (bindingOf a 50)) := by
  unfold boundBy at h
  split at h
  · rename_i o b b' hth
    simp only [Bool.and_eq_true, decide_eq_true_eq] at h
    obtain ⟨⟨rfl, rfl⟩, rfl⟩ := h
    exact hth
  · cases h

end Example

open Example Counting in
/-- Two first calls generate two signing keys, and each is told its own. -/
theorem keys_replaced : ∃ s, ((keyCalls phone).lts anyCalls).Reachable s ∧ ¬ Stable phone s := by
  obtain ⟨s, hr, hs⟩ := System.reachable_of_play (S := keyCalls phone) anyJudge smooth
    [.call (.challenge a), .call (.challenge a), .go 0 3, .go 1 3, .go 0 4,
    .run 1 (.rand 1), .go 1 3]
    (m := .ofStore ∅ []) (P := bothTold) start_empty (by decide +kernel)
  simp only [bothTold, Bool.and_eq_true] at hs
  refine ⟨s, hr, fun h => ?_⟩
  obtain ⟨r₀, k₀, d₀, hr₀, hk₀, hpub₀⟩ := h.challenge 0 a _ (told_spec hs.1)
  obtain ⟨r₁, k₁, d₁, hr₁, hk₁, hpub₁⟩ := h.challenge 1 a _ (told_spec hs.2)
  rw [hr₀, Option.some.injEq] at hr₁
  subst hr₁
  rw [hk₀, Option.some.injEq, Prod.mk.injEq] at hk₁
  rw [← hk₁.1, hpub₀] at hpub₁
  exact absurd hpub₁ (by decide)

open Example Counting in
/-- A challenge and then an upsert. -/
theorem keys_stable_in_turn : ∃ s, ((keyCalls phone).lts firstCalls).Reachable s ∧
    Returned s 1 (.upsert a (bindingOf a 50)) (.binding (bindingOf a 50)) ∧ Stable phone s := by
  obtain ⟨s, hr, hs⟩ := System.reachable_of_play (S := keyCalls phone) judge smooth
    [.call (.challenge a), .go 0 7, .call (.upsert a (bindingOf a 50)),
    .go 1 4] (m := .ofStore ∅ []) (P := boundBy 1)
    start_empty (by decide +kernel)
  exact ⟨s, hr, boundBy_spec hs, keys_stable phone s hr⟩

end RezSdk.L4.IdentityKeys
