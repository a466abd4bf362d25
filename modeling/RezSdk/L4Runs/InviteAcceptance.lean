import RezSdk.L4Runs.IssuedInvites
import RezSdk.L4Runs.SetPublishing

/-!
# An issued invite at its acceptor

What `acceptInvite` checks of an envelope (`Accepted`), and that it is what
`createInvite` has put there. An envelope of the account's own key names no
chain and is checked under the inviter's key; one of a device key carries the
account's chain, and is accepted only while that chain lets the device act for
the account of the binding.

The clock of a check stands still (`AtTime`). An acceptor reads an envelope as
its class has it: `hbytes` says that the bytes it checks are those of the whole.

Results:
* `yields_verifyInvite`, `resolves_verifyInvite`: the checks pass exactly the
  `Accepted` envelopes.
* `accepted_issued`: an issued envelope is `Accepted` exactly while it is
  current and its binding is `Backed`.
* `issued_accepted`: the same of a call and an acceptor's run.
* `served_accepted`: the same of whatever the inviter serves, after any calls.
-/
namespace RezSdk.L4.InviteAcceptance

open RezSdk.L1 RezSdk.L2 RezSdk.L3 RezSdk.L4.SetOpening
open RezSdk.L4.IssuedInvites hiding State

variable {Snap : Type}

/-! ## A check at one time -/

/-- A lawful answer of a run whose clock says `t`. -/
def AtTime (core : Core Snap) (t : Nat) : Proc.Exch (sdk Snap) → Prop
  | ⟨.clock, n⟩ => n = t
  | x => Answered core x

/-- The answers of these two checks depend on what they are given alone. -/
structure Checks (core : Core Snap) : Prop where
  verify : ∀ key msg sig n n', core.answer (.verify key msg sig) n =
    core.answer (.verify key msg sig) n'
  authority :
    ∀ c n n', core.answer (.verifyAccountAuthority c) n = core.answer (.verifyAccountAuthority c) n'
  signature : ∀ inviter ref msg sig n n',
    core.answer (.verifyInviteSignature inviter ref msg sig) n =
      core.answer (.verifyInviteSignature inviter ref msg sig) n'

/-- The chain lets `signer` act for the account. -/
def Authorised (core : Core Snap) (account signer : Id) (chain : List Bytes) (t : Nat) : Prop :=
  Always core (.verifyAccountAuthority ⟨account, signer, chain, t⟩) none

/-- The key that a binding's signature is checked with. -/
inductive KeyOf (core : Core Snap) (account : Id) (chain : List Bytes) (t : Nat) :
    Option Id → Id → Prop
  | own : KeyOf core account chain t none account
  | same : KeyOf core account chain t (some account) account
  | delegated {signer : Id} : signer ≠ account → chain ≠ [] →
      Authorised core account signer chain t →
    core.isBase64 signer = true → KeyOf core account chain t (some signer) signer

/-- An account binding that vouches for the X3DH keys of `owner` at time `t`. -/
structure Vouched (core : Core Snap) (owner : Id) (x : X3dhBinding) (chain : List Bytes) (t : Nat)
    (account sig identity key : Id) (expires : Nat) : Prop where
  accountKey : x.accountIdentityPublicKeyB64 = some account
  bindingSig : x.accountBindingSigB64 = some sig
  signingKey : x.identitySigningPublicKeyB64 = some identity
  expiresAt : x.accountBindingExpiresAtMs = some expires
  accountText : core.isBase64 account = true
  sigText : core.isBase64 sig = true
  derives : core.deriveAccountId account = some owner
  unexpired : t < expires
  checked : KeyOf core account chain t x.accountBindingSignerPublicKeyB64 key
  signed :
    Signed core key (core.bindingPayload owner identity x.accountBindingIssuedAtMs expires) sig

section

variable {core : Core Snap} {reader : Service Snap} {t : Nat} {α β : Type}

abbrev YieldsAt (core : Core Snap) (t : Nat) (P : α → Prop) (p : Sdk Snap α) : Prop :=
  Js.Yields (AtTime core t) P p

abbrev ResolvesAt (core : Core Snap) (t : Nat) (v : α) (p : Sdk Snap α) : Prop :=
  Js.Resolves (AtTime core t) v p

theorem yields_clock : YieldsAt core t (fun n => n = t) (clock : Sdk Snap Nat) := by
  intro n hn v hv
  cases hv
  exact hn

theorem resolves_clock : ResolvesAt core t t (clock : Sdk Snap Nat) := by
  intro n hn
  exact congrArg Except.ok hn

theorem yields_coreAt {q : CoreCall Snap} :
    YieldsAt core t (fun v => ∃ n, core.answer q n = .ok v) (callCore q) := by
  intro r hr v hv
  obtain ⟨n, rfl⟩ := hr
  exact ⟨n, hv⟩

theorem resolves_coreAt {q : CoreCall Snap} {v : q.Value} (h : Always core q v) :
    ResolvesAt core t v (callCore q) := by
  intro r hr
  obtain ⟨n, rfl⟩ := hr
  exact h n

theorem always_authorised (hcore : Checks core) {account signer : Id} {chain : List Bytes} {n : Nat}
    (h : core.answer (.verifyAccountAuthority ⟨account, signer, chain, t⟩) n = .ok none) :
    Authorised core account signer chain t :=
  fun n' => (hcore.authority _ n' n).trans h

theorem yields_verifyKey (hcore : Checks reader.core) {account : Id} {signer : Option Id}
    {chain : List Bytes} :
    YieldsAt reader.core t (KeyOf reader.core account chain t signer)
      (bindingVerifyKey reader account signer chain) := by
  unfold bindingVerifyKey
  split
  · exact Js.yields_pure .own
  · rename_i signer
    split
    · rename_i hsame
      subst hsame
      exact Js.yields_pure .same
    · rename_i hother
      refine Js.yields_bind Js.yields_ensure fun _ hchain => ?_
      refine Js.yields_bind yields_clock fun now hnow => ?_
      subst hnow
      refine Js.yields_bind yields_coreAt fun refused hrefused => ?_
      refine Js.yields_bind Js.yields_ensure fun _ hnone => ?_
      refine Js.yields_bind Js.yields_ensure fun _ htext => ?_
      obtain ⟨n, hn⟩ := hrefused
      cases refused with
      | some reason => cases hnone
      | none =>
        refine Js.yields_pure (.delegated hother ?_ (always_authorised hcore hn) htext)
        rintro rfl
        cases hchain

theorem resolves_verifyKey {account key : Id} {signer : Option Id} {chain : List Bytes}
    (h : KeyOf reader.core account chain t signer key) :
    ResolvesAt reader.core t key (bindingVerifyKey reader account signer chain) := by
  cases h with
  | own => exact Js.resolves_pure
  | same =>
    rw [bindingVerifyKey, if_pos rfl]
    exact Js.resolves_pure
  | delegated hother hchain hauthorised htext =>
    rw [bindingVerifyKey, if_neg hother]
    refine Js.resolves_bind (Js.resolves_passed (by simpa using hchain)) ?_
    refine Js.resolves_bind resolves_clock ?_
    refine Js.resolves_bind (resolves_coreAt hauthorised) ?_
    refine Js.resolves_bind (Js.resolves_passed rfl) ?_
    exact Js.resolves_bind (Js.resolves_passed htext) Js.resolves_pure

theorem yields_verifyBinding (hcore : Checks reader.core) {owner : Id} {x : Option X3dhBinding}
    {chain : List Bytes} :
    YieldsAt reader.core t (fun _ =>
          ∃ x', x = some x' ∧
            ∃ account sig identity key expires,
              Vouched reader.core owner x' chain t account sig identity key expires)
      (verifyInviteX3dhBinding reader owner x chain) := by
  refine Js.yields_bind Js.yields_orThrow fun x' hx => ?_
  refine Js.yields_bind Js.yields_orThrow fun account haccount => ?_
  refine Js.yields_bind Js.yields_orThrow fun sig hsig => ?_
  refine Js.yields_bind Js.yields_orThrow fun identity hidentity => ?_
  refine Js.yields_bind Js.yields_orThrow fun expires hexpires => ?_
  refine Js.yields_bind Js.yields_ensure fun _ htext => ?_
  refine Js.yields_bind Js.yields_ensure fun _ hderives => ?_
  refine Js.yields_bind yields_clock fun now hnow => ?_
  subst hnow
  refine Js.yields_bind Js.yields_ensure fun _ hunexpired => ?_
  refine Js.yields_bind (yields_verifyKey hcore) fun key hkey => ?_
  refine Js.yields_bind yields_coreAt fun verified hverified => ?_
  refine Js.yields_ensure.mono fun _ hgood => ?_
  rw [Bool.and_eq_true] at htext
  obtain ⟨n, hn⟩ := hverified
  subst hgood
  exact ⟨x', hx, account, sig, identity, key, expires, haccount, hsig, hidentity,
    hexpires, htext.1, htext.2, of_decide_eq_true hderives,
    of_decide_eq_true hunexpired, hkey, fun n' => (hcore.verify _ _ _ n' n).trans hn⟩

theorem resolves_verifyBinding {owner : Id} {x : X3dhBinding} {chain : List Bytes}
    {account sig identity key : Id} {expires : Nat}
    (h : Vouched reader.core owner x chain t account sig identity key expires) :
    ResolvesAt reader.core t () (verifyInviteX3dhBinding reader owner (some x) chain) := by
  refine Js.resolves_bind (Js.resolves_found rfl) ?_
  refine Js.resolves_bind (Js.resolves_found h.accountKey) ?_
  refine Js.resolves_bind (Js.resolves_found h.bindingSig) ?_
  refine Js.resolves_bind (Js.resolves_found h.signingKey) ?_
  refine Js.resolves_bind (Js.resolves_found h.expiresAt) ?_
  refine Js.resolves_bind (Js.resolves_passed (by rw [h.accountText, h.sigText]; rfl)) ?_
  refine Js.resolves_bind (Js.resolves_passed (decide_eq_true h.derives)) ?_
  refine Js.resolves_bind resolves_clock ?_
  refine Js.resolves_bind (Js.resolves_passed (decide_eq_true h.unexpired)) ?_
  refine Js.resolves_bind (resolves_verifyKey h.checked) ?_
  refine Js.resolves_bind (resolves_coreAt h.signed) ?_
  exact Js.resolves_passed rfl

/-! ## The acceptor's checks -/

/-- The envelope's signature is good: under the inviter's key, or under a device key that the
chain roots at the account of the binding. -/
inductive Genuine (core : Core Snap) (args : AcceptArgs) (inviter : Id) (t : Nat) : Prop
  | direct : args.envelope.certChain = [] →
      Always core (.verifyInviteSignature inviter args.envelope.signerRef
      (core.canonicalPayloadBytes args.envelope)
      args.signatureB64) true → Genuine core args inviter t
  | delegated {signer anchor : Id} : args.envelope.certChain ≠ [] →
      args.envelope.signerRef = some ⟨some inviter, some signer⟩ →
    (Envelope.x3dh args.envelope).bind (·.accountIdentityPublicKeyB64) = some anchor →
    core.deriveAccountId anchor = some inviter →
    Signed core signer (core.canonicalPayloadBytes args.envelope) args.signatureB64 →
    Authorised core anchor signer args.envelope.certChain t → Genuine core args inviter t

structure Accepted (core : Core Snap) (args : AcceptArgs) (inviter : Id) (t : Nat) : Prop where
  text : core.isBase64 args.signatureB64 = true
  kind : args.envelope.kind = none ∨ args.envelope.kind = some directKind ∨
    args.envelope.kind = some groupKind
  creator : args.envelope.creatorAccountId = some inviter
  genuine : Genuine core args inviter t
  current : t < asPositiveInt args.envelope.expiresAtMs t
  vouched : ∃ x, Envelope.x3dh args.envelope = some x ∧ ∃ account sig identity key expires,
    Vouched core inviter x args.envelope.certChain t account sig identity key expires

theorem kind_iff {e : Envelope} :
    ((e.kind.map Id.val).getD "direct" == "direct" ||
      (e.kind.map Id.val).getD "direct" == "group") =
      true ↔
    e.kind = none ∨ e.kind = some directKind ∨ e.kind = some groupKind := by
  rw [Bool.or_eq_true, beq_iff_eq, beq_iff_eq]
  cases hkind : e.kind with
  | none => simp
  | some k =>
    have hval : ∀ k' : Id, k.val = k'.val ↔ k = k' := by
      intro k'
      constructor
      · intro h
        cases k
        cases k'
        cases h
        rfl
      · rintro rfl
        rfl
    simp only [Option.map_some, Option.getD_some, reduceCtorEq, Option.some.injEq, false_or]
    exact or_congr (hval directKind) (hval groupKind)

theorem yields_verifyDelegated (hcore : Checks reader.core) {args : AcceptArgs} {inviter : Id}
    (hchain : args.envelope.certChain ≠ []) :
    YieldsAt reader.core t (fun b => b = true → Genuine reader.core args inviter t)
      (verifyDelegated reader args.envelope args.signatureB64 inviter t) := by
  unfold verifyDelegated
  split
  · rename_i signer anchor hsigner hanchor
    split
    · rename_i howner
      refine Js.yields_bind (P := fun b => b = true → Signed reader.core signer
        (reader.core.canonicalPayloadBytes args.envelope) args.signatureB64)
        ?_ fun signed hsigned => ?_
      · intro r hr
        obtain ⟨n, hn⟩ := hr
        cases r with
        | error e =>
          intro v hv
          cases hv
          simp
        | ok b =>
          intro v hv
          cases hv
          rintro rfl
          exact fun n' => (hcore.verify _ _ _ n' n).trans hn.symm
      · split
        · rename_i htrue
          refine Js.yields_bind yields_coreAt fun refused hrefused => ?_
          obtain ⟨n, hn⟩ := hrefused
          refine Js.yields_pure fun hnone => ?_
          cases refused with
          | some reason => cases hnone
          | none =>
            have href : args.envelope.signerRef = some ⟨some inviter, some signer⟩ := by
              obtain ⟨ref, href, hkey⟩ := Option.bind_eq_some_iff.mp hsigner
              rw [href, Option.bind_some] at howner
              obtain ⟨account, key⟩ := ref
              rw [href, ← howner.1, ← hkey]
            exact .delegated hchain href hanchor howner.2 (hsigned htrue)
              (always_authorised hcore hn)
        · exact Js.yields_pure (by simp)
    · exact Js.yields_pure (by simp)
  · exact Js.yields_pure (by simp)

theorem resolves_verifyDelegated {args : AcceptArgs} {inviter signer anchor : Id}
    (href : args.envelope.signerRef = some ⟨some inviter, some signer⟩)
    (hanchor : (Envelope.x3dh args.envelope).bind (·.accountIdentityPublicKeyB64) = some anchor)
    (hderives : reader.core.deriveAccountId anchor = some inviter)
    (hsigned :
        Signed reader.core signer (reader.core.canonicalPayloadBytes args.envelope)
          args.signatureB64)
    (hauthorised : Authorised reader.core anchor signer args.envelope.certChain t) :
    ResolvesAt reader.core t true
      (verifyDelegated reader args.envelope args.signatureB64 inviter t) := by
  have hsigner : args.envelope.signerRef.bind (·.signerPublicKeyB64) = some signer := by
    rw [href]; rfl
  have howner : args.envelope.signerRef.bind (·.accountId) = some inviter := by rw [href]; rfl
  unfold verifyDelegated
  rw [hsigner, hanchor]
  dsimp only
  rw [if_pos ⟨howner, hderives⟩]
  refine Js.resolves_bind (a := true) ?_ ?_
  · intro r hr
    obtain ⟨n, rfl⟩ := hr
    dsimp only [callCore, Proc.bind]
    rw [hsigned n]
    exact Js.resolves_pure
  · rw [if_pos rfl]
    exact Js.resolves_bind (resolves_coreAt hauthorised) Js.resolves_pure

theorem yields_verifyInvite (hcore : Checks reader.core) {args : AcceptArgs} :
    YieldsAt reader.core t (fun v => v.2 = t ∧ Accepted reader.core args v.1 t)
      (verifyInvite reader args) := by
  refine Js.yields_bind Js.yields_ensure fun _ htext => ?_
  refine Js.yields_bind Js.yields_ensure fun _ hkind => ?_
  refine Js.yields_bind Js.yields_orThrow fun inviter hcreator => ?_
  refine Js.yields_bind yields_clock fun now hnow => ?_
  subst hnow
  have hrest : ∀ verified, (verified = true → Genuine reader.core args inviter now) →
      YieldsAt reader.core now (fun v => v.2 = now ∧ Accepted reader.core args v.1 now) (do
        Js.ensure verified (signatureInvalid "peer-link invite signature invalid")
        Js.ensure (now < asPositiveInt args.envelope.expiresAtMs now)
          (.coded "INVITE_EXPIRED" "peer-link invite expired")
        verifyInviteX3dhBinding reader inviter (Envelope.x3dh args.envelope) args.envelope.certChain
        return (inviter, now) : Sdk Snap (Id × Nat)) := by
    intro verified hgenuine
    refine Js.yields_bind Js.yields_ensure fun _ hverified => ?_
    refine Js.yields_bind Js.yields_ensure fun _ hcurrent => ?_
    refine Js.yields_bind (yields_verifyBinding hcore) fun _ hvouched => ?_
    exact Js.yields_pure ⟨rfl, htext, kind_iff.mp hkind, hcreator, hgenuine hverified,
      of_decide_eq_true hcurrent, hvouched⟩
  dsimp only
  split
  · rename_i hchain
    refine Js.yields_bind yields_coreAt fun verified hverified => hrest verified fun htrue => ?_
    obtain ⟨n, hn⟩ := hverified
    subst htrue
    exact .direct (List.isEmpty_iff.mp hchain) fun n' => (hcore.signature _ _ _ _ n' n).trans hn
  · rename_i hchain
    refine Js.yields_bind (yields_verifyDelegated hcore fun h => ?_) fun verified hverified =>
      hrest verified hverified
    exact hchain (List.isEmpty_iff.mpr h)

theorem resolves_verifyInvite {args : AcceptArgs} {inviter : Id}
    (h : Accepted reader.core args inviter t) :
    ResolvesAt reader.core t (inviter, t) (verifyInvite reader args) := by
  obtain ⟨x, hx, account, sig, identity, key, expires, hvouched⟩ := h.vouched
  have hrest : ResolvesAt reader.core t (inviter, t) (do
      Js.ensure true (signatureInvalid "peer-link invite signature invalid")
      Js.ensure (t < asPositiveInt args.envelope.expiresAtMs t)
        (.coded "INVITE_EXPIRED" "peer-link invite expired")
      verifyInviteX3dhBinding reader inviter (Envelope.x3dh args.envelope) args.envelope.certChain
      return (inviter, t) : Sdk Snap (Id × Nat)) := by
    refine Js.resolves_bind (Js.resolves_passed rfl) ?_
    refine Js.resolves_bind (Js.resolves_passed (decide_eq_true h.current)) ?_
    rw [hx]
    exact Js.resolves_bind (resolves_verifyBinding hvouched) Js.resolves_pure
  refine Js.resolves_bind (Js.resolves_passed h.text) ?_
  refine Js.resolves_bind (Js.resolves_passed (kind_iff.mpr h.kind)) ?_
  refine Js.resolves_bind (Js.resolves_found h.creator) ?_
  refine Js.resolves_bind resolves_clock ?_
  cases h.genuine with
  | direct hchain hsigned =>
    have hempty : args.envelope.certChain.isEmpty = true := List.isEmpty_iff.mpr hchain
    dsimp only
    rw [if_pos hempty]
    exact Js.resolves_bind (resolves_coreAt hsigned) hrest
  | delegated hchain href hanchor hderives hsigned hauthorised =>
    have hsome : ¬args.envelope.certChain.isEmpty = true := fun h => hchain (List.isEmpty_iff.mp h)
    dsimp only
    rw [if_neg hsome]
    exact Js.resolves_bind (resolves_verifyDelegated href hanchor hderives hsigned hauthorised)
      hrest

end

/-! ## What an inviter issues -/

/-- What `prepareInviteBinding` copies of the account binding. -/
structure Copied (x : X3dhBinding) (input : BundleInput) (b : AccountBinding) : Prop where
  account : x.accountIdentityPublicKeyB64 = b.accountIdentityPublicKeyB64
  sig : x.accountBindingSigB64 = b.accountBindingSigB64
  signer : x.accountBindingSignerPublicKeyB64 = none
  issuedAt : x.accountBindingIssuedAtMs = b.issuedAtMs.getD 0
  expiresAt : x.accountBindingExpiresAtMs = b.expiresAtMs
  signing : x.identitySigningPublicKeyB64 = some input.identity.publicKey

/-- What an inviter and an acceptor with core `core` rely on. -/
structure Agrees (svc : DeviceService Snap) (lib : InviteLib) (core : Core Snap) : Prop where
  checks : Checks core
  /-- the invite authority signs for its account -/
  account : ∀ owner key msg sig n n', svc.core.answer (.authoritySigner owner) n = .ok key →
    svc.core.answer (.authoritySign owner msg) n' = .ok sig → core.isBase64 sig = true ∧
      Always core (.verifyInviteSignature owner (some ⟨lib.signerAccountId owner, key⟩) msg sig)
        true
  /-- the device signs under its public key -/
  device : ∀ msg sig n, svc.core.answer (.sign svc.deviceSigningKeyPair.privateKey msg) n =
    .ok sig →
    core.isBase64 sig = true ∧ Signed core svc.devicePublicKeyB64 msg sig
  copies : ∀ input bundle b target, Copied (lib.preparedBinding input bundle b target).x3dh input b
  /-- the constructor asks a device without the account key for a chain -/
  chain : svc.hasAdminRoot = false → svc.inviteCertChain ≠ []

/-- The account binding of `identity` still vouches for its keys, and a device that signs for the
account may still do so. -/
structure Backed (svc : DeviceService Snap) (core : Core Snap) (owner : Id)
    (identity : BoundIdentity) (t : Nat) (account sig key : Id) (expires : Nat) : Prop where
  accountKey : identity.accountBinding.accountIdentityPublicKeyB64 = some account
  bindingSig : identity.accountBinding.accountBindingSigB64 = some sig
  expiresAt : identity.accountBinding.expiresAtMs = some expires
  accountText : core.isBase64 account = true
  sigText : core.isBase64 sig = true
  derives : core.deriveAccountId account = some owner
  unexpired : t < expires
  checked : KeyOf core account (if svc.hasAdminRoot then [] else svc.inviteCertChain) t
    (if svc.hasAdminRoot then none else identity.accountBinding.accountBindingSignerPublicKeyB64)
    key
  signed : Signed core key (core.bindingPayload owner identity.keyPair.publicKey
    (identity.accountBinding.issuedAtMs.getD 0) expires) sig
  delegated : svc.hasAdminRoot = false →
    Authorised core account svc.devicePublicKeyB64 svc.inviteCertChain t

section

variable {svc : DeviceService Snap} {lib : InviteLib} {core : Core Snap} {reader : Service Snap}
  {a : CreateArgs} {issue : Issue}
  {τ : List (Proc.Exch (sdk Snap))} {args : AcceptArgs} {t : Nat}

/-- The X3DH part of an issued envelope. -/
theorem surfaced {x : X3dhBinding} {input : BundleInput} {b : AccountBinding}
    (h : Copied x input b) :
    surfaceSigner svc b x = { x with
      accountBindingSignerPublicKeyB64 :=
        if svc.hasAdminRoot then none else b.accountBindingSignerPublicKeyB64 } := by
  unfold surfaceSigner
  split
  · rw [← h.signer]
  · rw [h.signer]
    cases b.accountBindingSignerPublicKeyB64 <;> rfl

theorem Backed.vouched {x : X3dhBinding} {owner account sig key : Id} {identity : BoundIdentity}
    {expires : Nat}
    (hx : Copied x ⟨owner, identity.keyPair, identity.identityDhKeyPair⟩ identity.accountBinding)
    (h : Backed svc core owner identity t account sig key expires) :
    Vouched core owner (surfaceSigner svc identity.accountBinding x)
      (if svc.hasAdminRoot then [] else svc.inviteCertChain) t account sig
      identity.keyPair.publicKey key expires := by
  rw [surfaced hx]
  refine ⟨hx.account.trans h.accountKey, hx.sig.trans h.bindingSig, hx.signing,
    hx.expiresAt.trans h.expiresAt, h.accountText, h.sigText,
    h.derives, h.unexpired, h.checked, ?_⟩
  dsimp only
  rw [hx.issuedAt]
  exact h.signed

theorem Vouched.backed {x : X3dhBinding} {owner account sig signing key : Id}
    {identity : BoundIdentity} {expires : Nat}
    (hx : Copied x ⟨owner, identity.keyPair, identity.identityDhKeyPair⟩ identity.accountBinding)
    (h : Vouched core owner (surfaceSigner svc identity.accountBinding x)
        (if svc.hasAdminRoot then [] else svc.inviteCertChain) t account sig signing key expires)
    (hdelegated : svc.hasAdminRoot = false →
      Authorised core account svc.devicePublicKeyB64 svc.inviteCertChain t) :
    Backed svc core owner identity t account sig key expires := by
  rw [surfaced hx] at h
  have hsigning : signing = identity.keyPair.publicKey :=
    Option.some.inj (h.signingKey.symm.trans hx.signing)
  have hsigned := h.signed
  dsimp only at hsigned
  rw [hsigning, hx.issuedAt] at hsigned
  exact ⟨hx.account.symm.trans h.accountKey, hx.sig.symm.trans h.bindingSig,
    hx.expiresAt.symm.trans h.expiresAt, h.accountText, h.sigText,
    h.derives, h.unexpired, h.checked, hsigned, hdelegated⟩

/-- The signature of an issued envelope is good, if the device that signed may act for the
account. -/
theorem genuine_issued (hagrees : Agrees svc lib core) (hτ : ∀ x ∈ τ, Answered svc.core x)
    (hmade : Made svc lib a τ issue)
    (henvelope : args.envelope = (issue.envelope svc lib a).toEnvelope)
    (hsignature : args.signatureB64 = issue.signature)
    (hbytes : core.canonicalPayloadBytes args.envelope =
        lib.canonicalPayloadBytes (issue.envelope svc lib a)) :
    core.isBase64 args.signatureB64 = true ∧
    ((svc.hasAdminRoot = false →
        ∃ anchor, (Envelope.x3dh args.envelope).bind (·.accountIdentityPublicKeyB64) = some anchor ∧
          core.deriveAccountId anchor = some a.owner ∧
          Authorised core anchor svc.devicePublicKeyB64 svc.inviteCertChain t) ↔
      Genuine core args a.owner t) := by
  have hchain : args.envelope.certChain = if svc.hasAdminRoot then [] else svc.inviteCertChain := by
    rw [henvelope]; rfl
  have href : args.envelope.signerRef = some issue.signer.toSignerRef := by rw [henvelope]; rfl
  have hsigner := hmade.signer
  generalize issue.signer = signer at hsigner href
  cases hsigner with
  | @account key hroot hkey =>
    rw [hroot, if_pos rfl] at hchain
    cases hmade.signed with
    | device hroot' _ => simp [hroot] at hroot'
    | account _ hsig =>
      obtain ⟨n, hn⟩ := hτ _ hkey
      obtain ⟨n', hn'⟩ := hτ _ hsig
      obtain ⟨htext, hverifies⟩ := hagrees.account _ _ _ _ n n' hn.symm hn'.symm
      rw [hsignature]
      refine ⟨htext, fun _ => .direct hchain ?_, fun _ hroot' => by simp [hroot] at hroot'⟩
      rw [href, hbytes, hsignature]
      exact hverifies
  | device hroot _ =>
    rw [hroot, if_neg (by simp)] at hchain
    cases hmade.signed with
    | account hroot' _ => simp [hroot] at hroot'
    | device _ hsig =>
      obtain ⟨n, hn⟩ := hτ _ hsig
      obtain ⟨htext, hverifies⟩ := hagrees.device _ _ n hn.symm
      rw [hsignature]
      refine ⟨htext, fun h => ?_, fun h _ => ?_⟩
      · obtain ⟨anchor, hanchor, hderives, hauthorised⟩ := h hroot
        refine .delegated ?_ href hanchor hderives ?_ (hchain ▸ hauthorised)
        · rw [hchain]
          exact hagrees.chain hroot
        · rw [hbytes, hsignature]
          exact hverifies
      · cases h with
        | direct hempty _ => exact absurd (hchain.symm.trans hempty) (hagrees.chain hroot)
        | @delegated signer anchor _ href' hanchor hderives _ hauthorised =>
          have hsame := href.symm.trans href'
          cases hsame
          exact ⟨anchor, hanchor, hderives, hchain ▸ hauthorised⟩

/-- An issued envelope passes the checks while it and the account binding are current. -/
theorem accepted_issued (hagrees : Agrees svc lib core) (hτ : ∀ x ∈ τ, Answered svc.core x)
    (hmade : Made svc lib a τ issue)
    (henvelope : args.envelope = (issue.envelope svc lib a).toEnvelope)
    (hsignature : args.signatureB64 = issue.signature)
    (hbytes : core.canonicalPayloadBytes args.envelope =
        lib.canonicalPayloadBytes (issue.envelope svc lib a)) :
    Accepted core args a.owner t ↔
    t < inviteExpiry a.expiresAtMs issue.nowMs ∧
    ∃ account sig key expires,
      Backed svc core a.owner issue.identity t account sig key expires := by
  obtain ⟨htext, hgenuine⟩ := genuine_issued (t := t) hagrees hτ hmade henvelope hsignature hbytes
  have hcopied :=
    hagrees.copies (issue.input a) issue.bundle issue.identity.accountBinding issue.target
  have hx : Envelope.x3dh args.envelope = some (surfaceSigner svc issue.identity.accountBinding
      (lib.preparedBinding (issue.input a) issue.bundle issue.identity.accountBinding
      issue.target).x3dh) := by rw [henvelope]; rfl
  have hchain : args.envelope.certChain = if svc.hasAdminRoot then [] else svc.inviteCertChain := by
    rw [henvelope]; rfl
  have hexpires :
      asPositiveInt args.envelope.expiresAtMs t = inviteExpiry a.expiresAtMs issue.nowMs := by
    have hpos : 0 < inviteExpiry a.expiresAtMs issue.nowMs :=
      asPositiveInt_pos (Nat.add_pos_right issue.nowMs (by decide))
    have hfield : args.envelope.expiresAtMs = inviteExpiry a.expiresAtMs issue.nowMs := by
      rw [henvelope]; rfl
    rw [hfield, asPositiveInt, if_neg (by omega)]
  have haccount : (Envelope.x3dh args.envelope).bind (·.accountIdentityPublicKeyB64) =
      issue.identity.accountBinding.accountIdentityPublicKeyB64 := by
    rw [hx, Option.bind_some, surfaced hcopied]
    exact hcopied.account
  constructor
  · intro h
    obtain ⟨x, hx', account, sig, signing, key, expires, hvouched⟩ := h.vouched
    rw [hx, Option.some.injEq] at hx'
    subst hx'
    rw [hchain] at hvouched
    refine ⟨hexpires ▸ h.current, account, sig, key, expires,
      hvouched.backed hcopied fun hroot => ?_⟩
    obtain ⟨anchor, hanchor, -, hauthorised⟩ := hgenuine.mpr h.genuine hroot
    have hsame : (Envelope.x3dh args.envelope).bind (·.accountIdentityPublicKeyB64) =
        some account := by
      rw [hx]
      exact hvouched.accountKey
    obtain rfl : anchor = account := Option.some.inj (hanchor.symm.trans hsame)
    exact hauthorised
  · intro h
    obtain ⟨hcurrent, account, sig, key, expires, hbacked⟩ := h
    refine ⟨htext, ?_, ?_, hgenuine.mp fun hroot => ?_, hexpires.symm ▸ hcurrent, ?_⟩
    · have hkind : args.envelope.kind = some (if isGroup a then groupKind else directKind) := by
        rw [henvelope]; rfl
      rw [hkind]
      split
      · exact .inr (.inr rfl)
      · exact .inr (.inl rfl)
    · rw [henvelope]
      rfl
    · exact ⟨account, haccount.trans hbacked.accountKey, hbacked.derives, hbacked.delegated hroot⟩
    · rw [hchain]
      exact ⟨_, hx, account, sig, _, key, expires, hbacked.vouched hcopied⟩

/-- **What is issued is accepted while it is current**: an acceptor lets an issued envelope through
at `t` exactly if it has not expired, its account binding vouches, and a device that signed it may
act for the account; it reads the inviter off it. -/
theorem issued_accepted {τ' : List (Proc.Exch (sdk Snap))} {x : Except Err (Id × Nat)}
    (hagrees : Agrees svc lib reader.core) (hτ : ∀ x ∈ τ, Answered svc.core x)
    (hmade : Made svc lib a τ issue)
    (henvelope : args.envelope = (issue.envelope svc lib a).toEnvelope)
    (hsignature : args.signatureB64 = issue.signature)
    (hbytes : reader.core.canonicalPayloadBytes args.envelope =
        lib.canonicalPayloadBytes (issue.envelope svc lib a))
    (hrun : Proc.Trace (verifyInvite reader args) τ' x) (hat : ∀ x ∈ τ', AtTime reader.core t x) :
    (x = .ok (a.owner, t) ↔
      t < inviteExpiry a.expiresAtMs issue.nowMs ∧
      ∃ account sig key expires,
        Backed svc reader.core a.owner issue.identity t account sig key expires) ∧
    ∀ v, x = .ok v → v = (a.owner, t) := by
  have haccepted := accepted_issued (t := t) hagrees hτ hmade henvelope hsignature hbytes
  have hyields : ∀ v, x = .ok v → v = (a.owner, t) ∧ Accepted reader.core args a.owner t := by
    rintro ⟨inviter, now⟩ rfl
    obtain ⟨rfl, hv⟩ := Js.Yields.trace hrun hat (yields_verifyInvite hagrees.checks)
    have hcreator : args.envelope.creatorAccountId = some a.owner := by rw [henvelope]; rfl
    obtain rfl : inviter = a.owner := Option.some.inj (hv.creator.symm.trans hcreator)
    exact ⟨rfl, hv⟩
  refine ⟨⟨fun hx => ?_, fun h => ?_⟩, fun v hv => (hyields v hv).1⟩
  · exact haccepted.mp (hyields _ hx).2
  · exact Js.Resolves.trace hrun hat (resolves_verifyInvite (haccepted.mpr h))

/-! ## Whole runs -/

variable [DecidableEq Snap]

/-- **What is served is accepted while it is current**: in every state that any calls of the
inviter lead to, an envelope that `getStoredInviteEnvelope` has served was issued by one call, and
an acceptor who gets its bytes lets it through as above. -/
theorem served_accepted (svc : DeviceService Snap) (lib : InviteLib) (base : Store Snap)
    (s : IssuedInvites.State Snap) (reader : Service Snap)
    (hr : ((inviteSystem svc lib).lts (issuing base)).Reachable s) {i : Nat} {owner id : String}
    {args : AcceptArgs}
    (hserved : s.threads[i]? =
        some
          ⟨.stored owner id, .ret (.ok (.served (some (args.envelope, some args.signatureB64))))⟩)
    (hbase : ∀ o i, nonEmpty owner = some o → nonEmpty id = some i →
        base.lookup (.invite o i) = none ∧ base.lookup (.invitePreKey o i) = none)
    (hagrees : Agrees svc lib reader.core) :
    ∃ o inviteId c a issue, nonEmpty owner = some o ∧ nonEmpty id = some inviteId ∧
      IssuedOnce svc lib s o inviteId c a issue ∧
      (reader.core.canonicalPayloadBytes args.envelope =
          lib.canonicalPayloadBytes (issue.envelope svc lib a) →
        ∀ t τ x, Proc.Trace (verifyInvite reader args) τ x → (∀ e ∈ τ, AtTime reader.core t e) →
          (x = .ok (o, t) ↔
            t < inviteExpiry a.expiresAtMs issue.nowMs ∧
            ∃ account sig key expires,
              Backed svc reader.core o issue.identity t account sig key expires) ∧
          ∀ v, x = .ok v → v = (o, t)) := by
  obtain ⟨o, inviteId, ho, hid, honce⟩ := (known hr).served hserved
  obtain ⟨c, a, issue, h, henvelope, hsignature⟩ :=
    honce (hbase o inviteId ho hid).1 (hbase o inviteId ho hid).2
  refine ⟨o, inviteId, c, a, issue, ho, hid, h, fun hbytes t τ x hrun hat => ?_⟩
  have hlawful :=
    (System.log_lawful (S := inviteSystem svc lib) (D := issuing base) (L := Answered svc.core)
    fun _ _ _ _ _ hf _ => act_answered hf.act).reachable s hr
  have hanswered : ∀ x ∈ Pool.history c s.log, Answered svc.core x := by
    intro x hx
    obtain ⟨e, he, -, rfl⟩ := Pool.mem_history.mp hx
    exact hlawful e he
  have haccepted :=
    issued_accepted hagrees hanswered h.made henvelope (Option.some.inj hsignature) hbytes hrun hat
  rw [h.owner] at haccepted
  exact haccepted

end

namespace Example

open IssuedInvites.Example
open Counting (a b)

theorem agrees : Agrees tablet lib Counting.deviceCore where
  checks := ⟨fun _ _ _ _ _ => rfl, fun _ _ _ => rfl, fun _ _ _ _ _ _ => rfl⟩
  account _ _ _ _ _ _ _ _ := ⟨rfl, fun _ => rfl⟩
  device _ _ _ _ := ⟨rfl, fun _ => rfl⟩
  copies _ _ _ _ := ⟨rfl, rfl, rfl, rfl, rfl, rfl⟩
  chain _ := List.cons_ne_nil _ _

/-- Reads give what is stored, and it is 5 o'clock. -/
def answers : (o : Op Nat) → (sdk Nat).Ans o
  | .core q => Counting.deviceCore.answer q 0
  | o => SetPublishing.Example.answers o

theorem atFive (o : Op Nat) : AtTime Counting.deviceCore 5 ⟨o, answers o⟩ := by
  cases o with
  | core q => exact ⟨0, rfl⟩
  | clock => rfl
  | _ => trivial

/-- Account `b` gets what was served. -/
def received (e : Envelope) (sig : Id) : AcceptArgs := ⟨e, sig, b, none, false, none, false⟩

abbrev checked (e : Envelope) (sig : Id) : List (Proc.Exch (sdk Nat)) × Except Err (Id × Nat) :=
  Proc.follow answers (verifyInvite tablet.toService (received e sig))

def servedAccepted (s : IssuedInvites.State Nat) : Bool :=
  match (s.threads[1]? : Option (Thread (sdk Nat) InviteCall (Except Err InviteReply))) with
  | some ⟨c, .ret (.ok (.served (some (e, some sig))))⟩ =>
    c = .stored "a" "zz" && (checked e sig).2.toOption = some (a, 5)
  | _ => false

theorem servedAccepted_spec {s : IssuedInvites.State Nat} (h : servedAccepted s = true) :
    ∃ e sig, s.threads[1]? = some ⟨.stored "a" "zz", .ret (.ok (.served (some (e, some sig))))⟩ ∧
      (checked e sig).2 = .ok (a, 5) := by
  unfold servedAccepted at h
  split at h
  · rename_i c e sig hth
    simp only [Bool.and_eq_true, decide_eq_true_eq] at h
    obtain ⟨rfl, hok⟩ := h
    refine ⟨e, sig, hth, ?_⟩
    cases hx : (checked e sig).2 with
    | error err =>
      rw [hx] at hok
      cases hok
    | ok v =>
      rw [hx] at hok
      exact congrArg Except.ok (Option.some.inj hok)
  · cases h

end Example

open Example IssuedInvites.Example in
theorem served_accepted_tablet :
    ∃ (s : IssuedInvites.State Nat) (c : Nat) (a : CreateArgs) (issue : Issue)
        (account sig key : Id) (expires : Nat),
      ((inviteSystem tablet lib).lts (issuing base)).Reachable s ∧
      IssuedOnce tablet lib s Counting.a zz c a issue ∧ 5 < inviteExpiry a.expiresAtMs issue.nowMs ∧
      Backed tablet Counting.deviceCore Counting.a issue.identity 5 account sig key expires := by
  obtain ⟨s, hr, hs⟩ := System.reachable_of_play (S := inviteSystem tablet lib)
    IssuedInvites.Example.judge Counting.smooth
    [.call (.create args), .go 0 15, .call (.stored "a" "zz"),
    .go 1 1] (m := .ofStore base []) (P := servedAccepted)
    ⟨rfl, fun o i r h => by simp [base_invite] at h⟩ (by decide +kernel)
  obtain ⟨e, sig, hserved, hok⟩ := servedAccepted_spec hs
  have hgiven : s.threads[1]? = some ⟨.stored "a" "zz", .ret (.ok (.served
      (some ((received e sig).envelope, some (received e sig).signatureB64))))⟩ := hserved
  obtain ⟨o, inviteId, c, a, issue, ho, hid, h, haccepted⟩ :=
    served_accepted tablet lib base s tablet.toService hr hgiven
    (fun _ _ _ _ => ⟨base_invite, base_preKey⟩) agrees
  obtain rfl : Counting.a = o :=
    Option.some.inj ((by decide : nonEmpty "a" = some Counting.a).symm.trans ho)
  obtain rfl : zz = inviteId :=
    Option.some.inj ((by decide : nonEmpty "zz" = some zz).symm.trans hid)
  have hrun : Proc.Trace (verifyInvite tablet.toService (received e sig)) (checked e sig).1
      (.ok (Counting.a, 5)) :=
    hok ▸ Proc.trace_follow
  obtain ⟨hiff, -⟩ := haccepted rfl 5 _ _ hrun (Proc.forall_follow atFive)
  obtain ⟨hcurrent, account, sig, key, expires, hbacked⟩ := hiff.mp rfl
  exact ⟨s, c, a, issue, account, sig, key, expires, hr, h, hcurrent, hbacked⟩

end RezSdk.L4.InviteAcceptance
