import RezSdk.L3Service.Counting
import RezSdk.L3Service.IssuedInvites
import RezSdk.L4Runs.Origins
import RezSdk.L4Runs.Provenance

/-!
# Issued invites over whole runs

The calls of one service that issues invites, with any interleaving and any
storage faults.

An `Issue` is what one `createInvite` call draws, reads and signs; `Made` says
that a call's own history has all of it. Only two programs write an invite: a
`createInvite` call its own, once, and the calls that count acceptors what they
have read, with its `terms`. No two calls draw one id (`Drawn`), so what is ever
seen of an invite is one call's.

Results:
* `invite_issued_once`: all that is ever stored or read under an invite, its
  pre-key included, is what one call has made and signed.
* `created_stays`: an invite that was returned can be served from then on, with
  the envelope that the returned record carries.
-/
namespace RezSdk.L4.IssuedInvites

open RezSdk.L1 RezSdk.L2 RezSdk.L3 Origins Provenance

variable {Snap : Type}

abbrev Exch (Snap : Type) := Proc.Exch (sdk Snap)

abbrev Lawful : Exch Snap → Prop := fun _ => True

/-! ## What one call makes -/

/-- What a `createInvite` call draws, reads and signs. -/
structure Issue where
  nowMs : Nat
  signer : FullSignerRef
  inviteId : Id
  identity : BoundIdentity
  target : Id
  bundle : Bytes
  preKeyState : Bytes
  postCap : Option Bytes
  signature : Id

namespace Issue

def input (i : Issue) (a : CreateArgs) : BundleInput :=
  ⟨a.owner, i.identity.keyPair, i.identity.identityDhKeyPair⟩

def envelope (i : Issue) (svc : DeviceService Snap) (lib : InviteLib) (a : CreateArgs) :
    IssuedEnvelope :=
  inviteEnvelope svc a i.inviteId i.nowMs i.signer
    (lib.preparedBinding (i.input a) i.bundle i.identity.accountBinding i.target)
    i.identity.accountBinding i.postCap

def ledger (i : Issue) (svc : DeviceService Snap) (lib : InviteLib) (a : CreateArgs) :
    InviteRecord :=
  inviteLedger lib a i.inviteId i.nowMs (i.envelope svc lib a) i.signature

end Issue

/-- Whose key signs: the account's, or the device's under the account's chain. -/
inductive Signs (svc : DeviceService Snap) (lib : InviteLib) (owner : Id) (τ : List (Exch Snap)) :
    FullSignerRef → Prop
  | account {key : Option Id} : svc.hasAdminRoot = true →
      (⟨.core (.authoritySigner owner), .ok key⟩ : Exch Snap) ∈ τ →
    Signs svc lib owner τ ⟨⟨lib.signerAccountId owner, key⟩, lib.signerKeyId owner,
      lib.signerAlg owner⟩
  | device : svc.hasAdminRoot = false →
      svc.core.deriveAccountId svc.inviteOwnerPublicKeyB64 = some owner →
    Signs svc lib owner τ ⟨⟨some owner, some svc.devicePublicKeyB64⟩,
      some "invite-ed25519-delegated-v1", some "ed25519"⟩

/-- `msg` was signed in `τ`. -/
inductive SignedIn (svc : DeviceService Snap) (owner : Id) (τ : List (Exch Snap))
    (msg : Bytes) (sig : Id) : Prop
  | account : svc.hasAdminRoot = true →
      (⟨.core (.authoritySign owner msg), .ok sig⟩ : Exch Snap) ∈ τ → SignedIn svc owner τ msg sig
  | device : svc.hasAdminRoot = false →
      (⟨.core (.sign svc.deviceSigningKeyPair.privateKey msg), .ok sig⟩ : Exch Snap) ∈ τ →
    SignedIn svc owner τ msg sig

/-- The account keys that the call has read. -/
structure Bound (owner : Id) (identity : BoundIdentity) : Prop where
  account : identity.accountBinding.accountId = some owner
  signing : identity.accountBinding.x3dhIdentityPublicKeyB64 = some identity.keyPair.publicKey

/-- The call with history `τ` has made `i`. -/
structure Made (svc : DeviceService Snap) (lib : InviteLib) (a : CreateArgs)
    (τ : List (Exch Snap)) (i : Issue) : Prop where
  read : (⟨.clock, i.nowMs⟩ : Exch Snap) ∈ τ
  drawn : (⟨.stableId "plinv", i.inviteId⟩ : Exch Snap) ∈ τ
  signer : Signs svc lib a.owner τ i.signer
  bound : Bound a.owner i.identity
  target : (a.peerInboxId <|> svc.inviteCapabilityId) = some i.target
  prepared :
    (⟨.core (.prepareInviteBinding (i.input a)), .ok (i.bundle, i.preKeyState)⟩ : Exch Snap) ∈ τ
  signed : SignedIn svc a.owner τ (lib.canonicalPayloadBytes (i.envelope svc lib a)) i.signature

/-- What no later write of an invite changes. -/
def terms (r : InviteRecord) : InviteRecord :=
  { r with updatedAtMs := 0, acceptedAcceptors := [], peerLinkId := none }

theorem ids_of_terms {r r₀ : InviteRecord} (h : terms r = terms r₀) :
    r.ownerAccountId = r₀.ownerAccountId ∧ r.inviteId = r₀.inviteId := by
  have howner := congrArg InviteRecord.ownerAccountId h
  have hid := congrArg InviteRecord.inviteId h
  exact ⟨howner, hid⟩

def savesIt : Op Snap → Bool
  | .set (.invite ..) _ => true
  | _ => false

def keepsPreKey : Op Snap → Bool
  | .set (.invitePreKey ..) _ => true
  | _ => false

/-- How each call may write an invite or its pre-key. -/
def Writes (svc : DeviceService Snap) (lib : InviteLib) : InviteCall → List (Exch Snap) →
    Op Snap → Prop
  | .service _, τ, .set (.invite o i) r => r.ownerAccountId = o ∧ r.inviteId = i ∧
    ∃ o' i' r₀, (⟨.get (.invite o' i'), .ok (some r₀)⟩ : Exch Snap) ∈ τ ∧ terms r = terms r₀
  | .create a, τ, .set (.invite o i) r =>
    (∀ x ∈ τ, savesIt x.op = false ∧ keepsPreKey x.op = false) ∧
    ∃ issue, Made svc lib a τ issue ∧ o = a.owner ∧ i = issue.inviteId ∧
    r = normalizeInviteRecord (issue.ledger svc lib a)
  | .create a, τ, .set (.invitePreKey o i) v => (∀ x ∈ τ, keepsPreKey x.op = false) ∧
    ∃ issue, Made svc lib a τ issue ∧ o = a.owner ∧ i = issue.inviteId ∧ v = issue.preKeyState ∧
      (⟨.set (.invite o i) (normalizeInviteRecord (issue.ledger svc lib a)), .ok ()⟩ : Exch Snap) ∈
      τ
  | _, _, _ => False

/-- The call has made and stored `i`. -/
structure Issued (svc : DeviceService Snap) (lib : InviteLib) (a : CreateArgs)
    (τ : List (Exch Snap)) (i : Issue) : Prop where
  made : Made svc lib a τ i
  saved : (⟨.set (.invite a.owner i.inviteId) (normalizeInviteRecord (i.ledger svc lib a)),
    .ok ()⟩ : Exch Snap) ∈ τ
  kept : (⟨.set (.invitePreKey a.owner i.inviteId) i.preKeyState, .ok ()⟩ : Exch Snap) ∈ τ

/-- The record's content, before its class has seen it. -/
def Carries (lib : InviteLib) : InviteDurable → String → Prop
  | .v1 skeleton _, text =>
    ∃ given, lib.buildDurableRecordV1 given = .ok skeleton ∧ given.payloadB64 = text
  | .v2 record, text => record.payloadB64 = text

def May (svc : DeviceService Snap) (lib : InviteLib) (c : InviteCall) (τ : List (Exch Snap))
    (o : Op Snap) : Prop :=
  Untouched o ∨ Writes svc lib c τ o

/-- What a finished call has read or made. -/
def Ended (svc : DeviceService Snap) (lib : InviteLib) : InviteCall → List (Exch Snap) →
    Except Err InviteReply → Prop
  | .create a, τ, .ok (.created p) =>
    ∃ issue, Issued svc lib a τ issue ∧ p.inviteId = issue.inviteId ∧
    Carries lib p.durableRecord (lib.payloadText (issue.envelope svc lib a) issue.signature)
  | .stored owner id, τ, .ok (.served (some (e, sig))) =>
    ∃ o i r, nonEmpty owner = some o ∧ nonEmpty id = some i ∧
    (⟨.get (.invite o i), .ok (some r)⟩ : Exch Snap) ∈ τ ∧ r.status = .active ∧
    r.envelope = some e ∧ r.signatureB64 = sig
  | _, _, _ => True

section

variable {svc : DeviceService Snap} {lib : InviteLib} {c : InviteCall} {call : Call}
  {a : CreateArgs} {τ : List (Exch Snap)}
  {α β : Type}

theorem obeys_untouched {Q : List (Exch Snap) → α → Prop} {p : Proc (sdk Snap) α}
    (hp : p.All Untouched) (hq : ∀ τ' x, Grows Untouched τ τ' → Q τ' x) :
    Obeys (.history (May svc lib c)) Lawful Q τ p :=
  obeys_grows (fun _ _ => .inl) hp hq

/-- A step that writes no invite, of a call whose errors do not matter. -/
theorem obeys_past {p : Sdk Snap α} {f : α → Sdk Snap β}
    {Q : List (Exch Snap) → Except Err β → Prop} (hp : Proc.All Untouched p)
    (he : ∀ τ' e, Q τ' (.error e))
    (hf : ∀ τ' v, Grows Untouched τ τ' → Obeys (.history (May svc lib c)) Lawful Q τ' (f v)) :
    Obeys (.history (May svc lib c)) Lawful Q τ (p >>= f : Sdk Snap β) := by
  refine obeys_js_bind (obeys_untouched hp fun τ' x hτ => ?_)
  cases x with
  | error e => exact he τ' e
  | ok v => exact hf τ' v hτ

theorem untouched_aside {o : Op Snap} (h : Untouched o) :
    savesIt o = false ∧ keepsPreKey o = false := by
  cases o with
  | set k v => cases k <;> first | exact ⟨rfl, rfl⟩ | exact h.elim
  | _ => exact ⟨rfl, rfl⟩

theorem Signs.mono {τ' : List (Exch Snap)} {owner : Id} {signer : FullSignerRef}
    (h : Signs svc lib owner τ signer) (hτ : τ <:+ τ') : Signs svc lib owner τ' signer := by
  cases h with
  | account hroot hkey => exact .account hroot (hτ.subset hkey)
  | device hroot hderive => exact .device hroot hderive

theorem SignedIn.mono {τ' : List (Exch Snap)} {owner : Id} {msg : Bytes} {sig : Id}
    (h : SignedIn svc owner τ msg sig) (hτ : τ <:+ τ') : SignedIn svc owner τ' msg sig := by
  cases h with
  | account hroot hsig => exact .account hroot (hτ.subset hsig)
  | device hroot hsig => exact .device hroot (hτ.subset hsig)

theorem Made.mono {τ' : List (Exch Snap)} {i : Issue} (h : Made svc lib a τ i) (hτ : τ <:+ τ') :
    Made svc lib a τ' i :=
  ⟨hτ.subset h.read, hτ.subset h.drawn, h.signer.mono hτ, h.bound, h.target,
  hτ.subset h.prepared, h.signed.mono hτ⟩

/-! ### Other calls -/

theorem obeys_inviteGet {owner id : Id}
    {Q : List (Exch Snap) → Except Err (Option InviteRecord) → Prop} (he : ∀ τ' e, Q τ' (.error e))
    (hnone : ∀ τ', Q τ' (.ok none))
    (hsome : ∀ τ' r, (⟨.get (.invite owner id), .ok (some r)⟩ : Exch Snap) ∈ τ' →
        Q τ' (.ok (some (normalizeInviteRecord r)))) :
    Obeys (.history (May svc lib c)) Lawful Q τ (Invites.get owner id) := by
  refine obeys_js_bind ⟨.inl trivial, fun x _ => ?_⟩
  cases x with
  | error e => exact he _ e
  | ok stored =>
    cases stored with
    | none => exact hnone _
    | some r => exact hsome _ r (.head _)

/-- A record that was read goes back with its terms. -/
theorem obeys_inviteSave {r r₀ : InviteRecord} {o i : Id}
    {Q : List (Exch Snap) → Except Err InviteRecord → Prop}
    (hread : (⟨.get (.invite o i), .ok (some r₀)⟩ : Exch Snap) ∈ τ) (hterms : terms r = terms r₀)
    (hq : ∀ τ' x, Q τ' x) :
    Obeys (.history (May svc lib (.service call))) Lawful Q τ (Invites.save r) := by
  refine obeys_js_bind ⟨.inr ⟨rfl, rfl, o, i, r₀, hread, hterms⟩, fun x _ => ?_⟩
  cases x with
  | error e => exact hq _ _
  | ok _ =>
    exact obeys_past (untouched_foot (l := [.set .inviteByHash]) (foot_set rfl trivial) rfl)
      (fun _ _ => hq _ _) fun _ _ _ => hq _ _

theorem obeys_locked {k : LockKey} {body : Sdk Snap α}
    (h : ∀ τ', Obeys (.history (May svc lib c)) Lawful (fun _ _ => True) τ' body) :
    Obeys (.history (May svc lib c)) Lawful (fun _ _ => True) τ (withLock k body) :=
  ⟨.inl trivial, fun _ _ => ⟨.inl trivial,
  fun _ _ => obeys_bind ((h _).mono fun _ _ _ => ⟨.inl trivial, fun _ _ => trivial⟩)⟩⟩

theorem obeys_verdict {owner id peer : Id} {record : Option InviteRecord} :
    Obeys (.history (May svc lib (.service call))) Lawful (fun _ _ => True) τ
      (inviteVerdict owner id peer record) := by
  cases record with
  | none => trivial
  | some _ =>
    refine obeys_locked fun τ' =>
      obeys_js_bind (obeys_inviteGet (fun _ _ => trivial) (fun _ => trivial) fun τ₁ r hr => ?_)
    refine obeys_past (untouched_foot (l := [.clock]) (foot_clock rfl) rfl)
      (fun _ _ => trivial) fun τ₂ now hτ => ?_
    split
    · trivial
    · split
      · trivial
      · split
        · trivial
        · refine obeys_js_bind (obeys_inviteSave (hτ.mem hr) rfl fun τ₃ x => ?_)
          cases x <;> trivial

theorem obeys_join {owner id joiner : Id} {nowMs : Option Nat} :
    Obeys (.history (May svc lib (.service call))) Lawful (fun _ _ => True) τ
      (authorizeInviteJoin owner id joiner nowMs) := by
  refine obeys_locked fun τ' =>
    obeys_js_bind (obeys_inviteGet (fun _ _ => trivial) (fun _ => trivial) fun τ₁ r hr => ?_)
  dsimp only [Goes]
  split
  · trivial
  · split
    · trivial
    · split
      · trivial
      · split
        · trivial
        · refine obeys_js_bind (obeys_inviteSave hr rfl fun τ₃ x => ?_)
          cases x <;> trivial

theorem obeys_backLink {found : Option InviteRecord} {link : Id} {now : Nat} :
    Obeys (.history (May svc lib (.service call))) Lawful (fun _ _ => True) τ
      (backLinkInvite found link now) := by
  cases found with
  | none => trivial
  | some l =>
    refine obeys_js_bind (obeys_inviteGet (fun _ _ => trivial) (fun _ => trivial) fun τ₁ r hr => ?_)
    refine obeys_js_bind (obeys_inviteSave hr rfl fun τ₃ x => ?_)
    cases x <;> trivial

theorem obeys_handshake {owner : Id} {b : Bytes} :
    Obeys (.history (May svc lib (.service call))) Lawful (fun _ _ => True) τ
      (handleIncomingHandshakePacket svc.toService owner b) := by
  refine obeys_js_bind (obeys_ensure (fun _ => ?_) fun _ => trivial)
  dsimp only [Goes]
  split
  · trivial
  · trivial
  · refine obeys_past (untouched apart_authenticate) (fun _ _ => trivial) fun τ₁ x _ => ?_
    refine obeys_past (untouched_foot foot_inviteGet rfl) (fun _ _ => trivial) fun τ₂ record _ => ?_
    refine obeys_js_bind (obeys_verdict.mono fun τ₃ verdict _ => ?_)
    cases verdict with
    | error e => trivial
    | ok verdict =>
      cases verdict with
      | reject _ => trivial
      | proceed exhausted already =>
        exact obeys_untouched (untouched apart_proceed) fun _ _ _ => trivial

theorem obeys_acceptFresh {args : AcceptArgs} {inviter : Id} {nowMs : Nat}
    {existing : Option PeerLinkRecord} :
    Obeys (.history (May svc lib (.service call))) Lawful (fun _ _ => True) τ
      (acceptFresh svc.toService args inviter nowMs existing) := by
  refine obeys_past (untouched_foot foot_inviteByHash rfl) (fun _ _ => trivial) fun τ₁ found _ => ?_
  refine obeys_past (untouched_foot foot_acceptLinkId rfl) (fun _ _ => trivial) fun τ₂ link _ => ?_
  refine obeys_past (untouched_foot foot_commitAccept rfl) (fun _ _ => trivial) fun τ₃ r _ => ?_
  refine obeys_past (untouched_foot foot_storePostCap rfl) (fun _ _ => trivial) fun τ₄ _ _ => ?_
  refine obeys_past (untouched_foot (l := [.newId]) (foot_stableId rfl) rfl)
    (fun _ _ => trivial) fun τ₅ attemptId _ => ?_
  refine obeys_past (untouched apart_orThrow) (fun _ _ => trivial) fun τ₆ inviteId _ => ?_
  refine obeys_past (untouched_foot foot_attemptCreate rfl) (fun _ _ => trivial) fun τ₇ attempt _ =>
    ?_
  refine obeys_js_bind (obeys_backLink.mono fun τ₈ x _ => ?_)
  cases x with
  | error e => trivial
  | ok _ => exact obeys_untouched untouched_establish fun _ _ _ => trivial

theorem obeys_accept {args : AcceptArgs} :
    Obeys (.history (May svc lib (.service call))) Lawful (fun _ _ => True) τ
      (acceptInvite svc.toService args) := by
  refine obeys_past (untouched apart_verifyInvite) (fun _ _ => trivial) fun τ₁ v _ => ?_
  refine obeys_past (untouched_foot foot_getByPair rfl) (fun _ _ => trivial) fun τ₂ existing _ => ?_
  cases existing with
  | none => exact obeys_acceptFresh
  | some e =>
    dsimp only
    split
    · exact obeys_acceptFresh
    · exact obeys_untouched (untouched (apart_skip foot_appendEvent rfl fun _ =>
        apart_skip foot_buildSnapshot rfl fun _ => trivial))
        fun _ _ _ => trivial

theorem obeys_reply {γ δ : Type} {p : Sdk Snap γ} {f : γ → δ}
    {Q : List (Exch Snap) → Except Err δ → Prop}
    (h : Obeys (.history (May svc lib c)) Lawful (fun τ x => Q τ (x.map f)) τ p) :
    Obeys (.history (May svc lib c)) Lawful Q τ (p >>= fun x => pure (f x) : Sdk Snap δ) := by
  refine obeys_js_bind (h.mono fun _ x hx => ?_)
  cases x <;> exact hx

theorem obeys_service [DecidableEq Snap] :
    Obeys (.history (May svc lib (.service call))) Lawful (fun _ _ => True) τ
      (program svc.toService call) := by
  cases call with
  | accept args => exact obeys_reply obeys_accept
  | handshake owner b => exact obeys_reply obeys_handshake
  | join owner id joiner now => exact obeys_reply obeys_join
  | _ => exact obeys_untouched (untouched (apart_program rfl)) fun _ _ _ => trivial

/-! ### createInvite -/

theorem obeys_signer {Q : List (Exch Snap) → Except Err FullSignerRef → Prop}
    (he : ∀ τ' e, Q τ' (.error e))
    (hq : ∀ τ' signer, Grows Untouched τ τ' → Signs svc lib a.owner τ' signer → Q τ' (.ok signer)) :
    Obeys (.history (May svc lib c)) Lawful Q τ (inviteSigner svc lib a.owner) := by
  unfold inviteSigner
  split
  · rename_i hroot
    refine obeys_js_bind ⟨.inl trivial, fun key _ => ?_⟩
    cases key with
    | error e => exact he _ e
    | ok key => exact hq _ _ ((Grows.refl τ).cons _ trivial) (.account hroot (.head _))
  · rename_i hroot
    refine obeys_js_bind (obeys_orThrow (fun anchor hanchor => ?_) fun _ => he _ _)
    refine obeys_js_bind (obeys_ensure (fun howner => ?_) fun _ => he _ _)
    obtain rfl := of_decide_eq_true howner
    exact hq _ _ (Grows.refl τ) (.device (Bool.not_eq_true _ ▸ hroot) hanchor)

theorem obeys_requireBound {owner : Id} {Q : List (Exch Snap) → Except Err BoundIdentity → Prop}
    (he : ∀ τ' e, Q τ' (.error e))
    (hq : ∀ τ' identity, Grows Untouched τ τ' → Bound owner identity → Q τ' (.ok identity)) :
    Obeys (.history (May svc lib c)) Lawful Q τ (requireBoundX3dhIdentity svc.toService owner) := by
  refine obeys_past (untouched apart_loadAccountKeys) he fun τ₁ keys hτ₁ => ?_
  refine obeys_past (untouched apart_loadAccountKeys) he fun τ₂ _ hτ₂ => ?_
  refine obeys_js_bind (obeys_orThrow (fun binding _ => ?_) fun _ => he _ _)
  refine obeys_js_bind (obeys_ensure (fun haccount => ?_) fun _ => he _ _)
  refine obeys_js_bind (obeys_ensure (fun hsigning => ?_) fun _ => he _ _)
  refine obeys_js_bind ⟨.inl trivial, fun now _ => ?_⟩
  refine obeys_js_bind (obeys_ensure (fun _ => ?_) fun _ => he _ _)
  exact hq _ _ ((hτ₁.trans hτ₂).cons _ trivial) ⟨of_decide_eq_true haccount,
    of_decide_eq_true hsigning⟩

theorem untouched_mintPostCap {seed : Id} {expiresAt : Nat} :
    Proc.All Untouched (mintPostCap lib seed expiresAt : Sdk Snap _) := by
  unfold mintPostCap
  split <;> trivial

theorem obeys_setSign {owner : Id} {msg : Bytes} {Q : List (Exch Snap) → Except Err Id → Prop}
    (he : ∀ τ' e, Q τ' (.error e))
    (hq : ∀ τ' sig, Grows Untouched τ τ' → SignedIn svc owner τ' msg sig → Q τ' (.ok sig)) :
    Obeys (.history (May svc lib c)) Lawful Q τ (setSign svc owner msg) := by
  unfold setSign
  split
  · rename_i hroot
    refine ⟨.inl trivial, fun x _ => ?_⟩
    cases x with
    | error e => exact he _ e
    | ok sig => exact hq _ _ ((Grows.refl τ).cons _ trivial) (.account hroot (.head _))
  · rename_i hroot
    refine ⟨.inl trivial, fun x _ => ?_⟩
    cases x with
    | error e => exact he _ e
    | ok sig =>
      exact hq _ _ ((Grows.refl τ).cons _ trivial) (.device (Bool.not_eq_true _ ▸ hroot) (.head _))

theorem obeys_durable {inviteId : Id} {nowMs : Nat} {publisher : Option Id} {text : String}
    {Q : List (Exch Snap) → Except Err InviteDurable → Prop} (he : ∀ τ' e, Q τ' (.error e))
    (hq : ∀ τ' d, Grows Untouched τ τ' → Carries lib d text → Q τ' (.ok d)) :
    Obeys (.history (May svc lib c)) Lawful Q τ
      (inviteDurable svc lib a inviteId nowMs publisher text) := by
  unfold inviteDurable
  split
  · refine obeys_js_bind (obeys_ofExcept (fun skeleton hbuilt => ?_) fun e _ => he τ e)
    refine obeys_js_bind ⟨.inl trivial, fun x _ => ?_⟩
    cases x with
    | error e => exact he _ e
    | ok sig => exact hq _ _ ((Grows.refl τ).cons _ trivial) ⟨_, hbuilt, rfl⟩
  · refine obeys_js_bind ⟨.inl trivial, fun x _ => ?_⟩
    cases x with
    | error e => exact he _ e
    | ok sig => exact hq _ _ ((Grows.refl τ).cons _ trivial) rfl

/-- From the signature on. -/
theorem obeys_store {issue : Issue} {publisher : Option Id} {f : InviteDurable → CreateResult}
    {Q : List (Exch Snap) → Except Err CreateResult → Prop} (hmade : Made svc lib a τ issue)
    (haside : ∀ x ∈ τ, savesIt x.op = false ∧ keepsPreKey x.op = false)
    (he : ∀ τ' e, Q τ' (.error e))
    (hq : ∀ τ' d, Issued svc lib a τ' issue →
        Carries lib d (lib.payloadText (issue.envelope svc lib a) issue.signature) →
        Q τ' (.ok (f d))) :
    Obeys (.history (May svc lib (.create a))) Lawful Q τ (do
      let _ ← Invites.save (issue.ledger svc lib a)
      kvSet (.invitePreKey a.owner issue.inviteId) issue.preKeyState
      let durable ← inviteDurable svc lib a issue.inviteId issue.nowMs publisher
        (lib.payloadText (issue.envelope svc lib a) issue.signature)
      return f durable : Sdk Snap CreateResult) := by
  refine obeys_js_bind (obeys_js_bind ⟨.inr ⟨haside, issue, hmade, rfl, rfl, rfl⟩,
    fun saved _ => ?_⟩)
  cases saved with
  | error e => exact he _ e
  | ok _ =>
    refine obeys_js_bind ⟨.inl trivial, fun hashed _ => ?_⟩
    cases hashed with
    | error e => exact he _ e
    | ok _ =>
      refine obeys_js_bind ⟨.inr ⟨fun x hx => ?_, issue, ?_, rfl, rfl, rfl, .tail _ (.head _)⟩,
        fun kept _ => ?_⟩
      · rcases List.mem_cons.mp hx with rfl | hx
        · rfl
        · rcases List.mem_cons.mp hx with rfl | hx
          · rfl
          · exact (haside x hx).2
      · exact hmade.mono ((List.suffix_cons _ _).trans (List.suffix_cons _ _))
      · cases kept with
        | error e => exact he _ e
        | ok _ =>
          refine obeys_js_bind (obeys_durable he fun τ₁ d hτ₁ hd => hq τ₁ d ⟨?_, ?_, ?_⟩ hd)
          · exact hmade.mono (((List.suffix_cons _ _).trans (List.suffix_cons _ _)).trans
              ((List.suffix_cons _ _).trans hτ₁.suffix))
          · exact hτ₁.mem (.tail _ (.tail _ (.head _)))
          · exact hτ₁.mem (.head _)

theorem obeys_create :
    Obeys (.history (May svc lib (.create a))) Lawful
      (fun τ x => Ended svc lib (.create a) τ (x.map .created)) [] (createInvite svc lib a) := by
  have he : ∀ τ e, Ended svc lib (.create a) τ (Except.map .created (.error e)) :=
    fun _ _ => trivial
  refine obeys_js_bind ⟨.inl trivial, fun nowMs _ => ?_⟩
  refine obeys_js_bind (obeys_signer he fun τ₁ signer hτ₁ hsigner => ?_)
  refine obeys_js_bind ⟨.inl trivial, fun inviteId _ => ?_⟩
  refine obeys_js_bind (obeys_requireBound he fun τ₂ identity hτ₂ hbound => ?_)
  refine obeys_js_bind (obeys_orThrow (fun target htarget => ?_) fun _ => trivial)
  refine obeys_js_bind ⟨.inl trivial, fun prepared _ => ?_⟩
  cases prepared with
  | error e => trivial
  | ok prepared =>
    obtain ⟨bundle, preKeyState⟩ := prepared
    refine obeys_past untouched_mintPostCap he fun τ₃ postCap hτ₃ => ?_
    refine obeys_js_bind (obeys_setSign he fun τ₄ signature hτ₄ hsigned => ?_)
    have h₂₄ := hτ₃.trans hτ₄
    have h₁₄ := (hτ₂.cons ⟨.core (.prepareInviteBinding _), _⟩ trivial).trans h₂₄
    have h₀₄ := (hτ₁.cons ⟨.stableId "plinv", inviteId⟩ trivial).trans h₁₄
    have hmade : Made svc lib a τ₄ ⟨nowMs, signer, inviteId, identity, target,
        bundle, preKeyState, postCap, signature⟩ := {
      read := h₀₄.mem (.head _)
      drawn := h₁₄.mem (.head _)
      signer := hsigner.mono ((List.suffix_cons _ _).trans h₁₄.suffix)
      bound := hbound
      target := htarget
      prepared := h₂₄.mem (.head _)
      signed := hsigned }
    have haside : ∀ x ∈ τ₄, savesIt x.op = false ∧ keepsPreKey x.op = false := by
      intro x hx
      rcases h₀₄.each x hx with hx | hx
      · obtain rfl := List.mem_singleton.mp hx
        exact ⟨rfl, rfl⟩
      · exact untouched_aside hx
    exact obeys_store hmade haside he fun τ' d hissued hd => ⟨_, hissued, rfl, hd⟩

/-! ### Every call -/

/-- `p` stands for the call, which the elaborator would run. -/
theorem obeys_stored {owner id : String} {p : Sdk Snap (Option (Envelope × Option Id))}
    (hp : getStoredInviteEnvelope owner id = p) :
    Obeys (.history (May svc lib (.stored owner id))) Lawful
      (fun τ x => Ended svc lib (.stored owner id) τ (x.map .served)) [] p := by
  rw [← hp, getStoredInviteEnvelope]
  split
  · rename_i o i ho hi
    refine obeys_js_bind (obeys_inviteGet (fun _ _ => trivial) (fun _ => trivial) fun τ' r hr => ?_)
    have hended : ∀ served, ((some (normalizeInviteRecord r)).filter (·.status = .active)).bind
        (fun r => r.envelope.map fun e => (e, r.signatureB64)) = served →
        Ended svc lib (.stored owner id) τ' (.ok (.served served)) := by
      intro served hserved
      cases served with
      | none => trivial
      | some p =>
        obtain ⟨r', hr', hmap⟩ := Option.bind_eq_some_iff.mp hserved
        obtain ⟨hsame, hactive⟩ := Option.filter_eq_some_iff.mp hr'
        cases hsame
        obtain ⟨e, he, hpair⟩ := Option.map_eq_some_iff.mp hmap
        cases hpair
        exact ⟨o, i, r, ho, hi, hr, of_decide_eq_true hactive, he, rfl⟩
    exact hended _ rfl
  · trivial

theorem obeys_program [DecidableEq Snap] (c : InviteCall) :
    Obeys (.history (May svc lib c)) Lawful (Ended svc lib c) [] (inviteProgram svc lib c) := by
  cases c with
  | service call => exact obeys_reply obeys_service
  | create a => exact obeys_reply obeys_create
  | stored owner id =>
    dsimp only [inviteProgram]
    generalize hp : getStoredInviteEnvelope owner id = p
    exact obeys_reply (obeys_stored hp)

end

/-! ## Whole runs -/

abbrev State (Snap : Type) := Run Snap InviteCall (Except Err InviteReply)
abbrev Rules (Snap : Type) := Discipline (sdk Snap) (Mem Snap) Fate InviteCall
    (Except Err InviteReply)

/-- Any calls, from a store in which invites lie under their own ids. -/
def issuing (base : Store Snap) : Rules Snap where
  init m := m.kv = base ∧ ∀ o i r, base.lookup (.invite o i) = some r →
    r.ownerAccountId = o ∧ r.inviteId = i
  may _ _ := True
  ok _ _ := True

def Creates (s : State Snap) (t : Nat) (a : CreateArgs) : Prop :=
  ∃ p, s.threads[t]? = some ⟨.create a, p⟩

/-- `T` are the terms of the invite in `base`, or those that one `createInvite` call has saved. -/
inductive Origin (base : Store Snap) (s : State Snap) (o i : Id) (T : InviteRecord) : Prop
  | given {r : InviteRecord} : base.lookup (.invite o i) = some r → T = terms r →
      Origin base s o i T
  | made {e : Event (sdk Snap) Fate} {a : CreateArgs} {r : InviteRecord} : e ∈ s.log →
      Creates s e.tid a →
    e.op = .set (.invite o i) r → T = terms r → Origin base s o i T

/-- Where an invite or a pre-key comes from. -/
def Sourced (base : Store Snap) (s : State Snap) : (k : Key) → Val Snap k → Prop
  | .invite o i, r => r.ownerAccountId = o ∧ r.inviteId = i ∧ Origin base s o i (terms r)
  | .invitePreKey o i, v =>
    base.lookup (.invitePreKey o i) = some v ∨ ∃ e ∈ s.log, e.op = .set (.invitePreKey o i) v
  | _, _ => True

section

variable {svc : DeviceService Snap} {lib : InviteLib} {base : Store Snap} {s s' : State Snap}

theorem Origin.mono {o i : Id} {T : InviteRecord} (h : Origin base s o i T)
    (hlog : ∀ e ∈ s.log, e ∈ s'.log) (hcall : ∀ t a, Creates s t a → Creates s' t a) :
    Origin base s' o i T := by
  cases h with
  | given hr hT => exact .given hr hT
  | made he hcreates hop hT => exact .made (hlog _ he) (hcall _ _ hcreates) hop hT

theorem Sourced.mono {k : Key} {v : Val Snap k} (h : Sourced base s k v)
    (hlog : ∀ e ∈ s.log, e ∈ s'.log) (hcall : ∀ t a, Creates s t a → Creates s' t a) :
    Sourced base s' k v := by
  cases k with
  | invite o i => exact ⟨h.1, h.2.1, h.2.2.mono hlog hcall⟩
  | invitePreKey o i =>
    rcases h with h | ⟨e, he, hop⟩
    · exact .inl h
    · exact .inr ⟨e, hlog e he, hop⟩
  | _ => trivial

abbrev Recalls (svc : DeviceService Snap) (lib : InviteLib) (s : State Snap) : Prop :=
  System.Recalls (May svc lib) (Ended svc lib) s

/-- What is known of a reachable state. -/
structure Known (svc : DeviceService Snap) (lib : InviteLib) (base : Store Snap) (s : State Snap) :
    Prop where
  recalls : Recalls svc lib s
  traced : Traced (Sourced base) s
  drawn : Drawn s

/-! ## One call for each invite -/

/-- Call `t` is the `createInvite` that has made invite `i` of account `o`. -/
structure IssuedBy (svc : DeviceService Snap) (lib : InviteLib) (s : State Snap)
    (o i : Id) (t : Nat) (a : CreateArgs) (issue : Issue) : Prop where
  call : Creates s t a
  made : Made svc lib a (Pool.history t s.log) issue
  owner : a.owner = o
  id : issue.inviteId = i

theorem IssuedBy.only (hk : Known svc lib base s) {o o' i : Id} {t t' : Nat} {a a' : CreateArgs}
    {issue issue' : Issue} (h : IssuedBy svc lib s o i t a issue)
    (h' : IssuedBy svc lib s o' i t' a' issue') : t = t' ∧ a = a' := by
  obtain rfl : t = t' := by
    have hi : issue.inviteId = issue'.inviteId := h.id.trans h'.id.symm
    have hdrawn := h'.made.drawn
    rw [← hi] at hdrawn
    exact hk.drawn.once h.made.drawn hdrawn rfl rfl
  obtain ⟨p, hp⟩ := h.call
  obtain ⟨p', hp'⟩ := h'.call
  cases hp.symm.trans hp'
  exact ⟨rfl, rfl⟩

/-- Every event came when its call's rule allowed it. -/
theorem Known.event (hk : Known svc lib base s) {e : Event (sdk Snap) Fate} (he : e ∈ s.log) :
    ∃ c p τ, s.threads[e.tid]? = some ⟨c, p⟩ ∧ May svc lib c τ e.op ∧
      τ <:+ Pool.history e.tid s.log := by
  obtain ⟨th, ht⟩ : ∃ th, s.threads[e.tid]? = some th :=
    ⟨_, List.getElem?_eq_getElem (hk.recalls.owned e he)⟩
  obtain ⟨c, p⟩ := th
  obtain ⟨newer, older, hlog⟩ := List.append_of_mem he
  refine ⟨c, p, Pool.history e.tid older, ht, hk.recalls.each newer e older c p hlog ht, ?_⟩
  rw [hlog]
  exact Pool.history_suffix ((List.suffix_cons e older).trans (List.suffix_append newer _))

/-- A write of an invite, or of its pre-key, is the only one of its call. -/
theorem Known.write_once (hk : Known svc lib base s) {q : Op Snap → Bool}
    (hrule : ∀ a τ o, q o = true → May svc lib (.create a) τ o → ∀ x ∈ τ, q x.op = false)
    {e e' : Event (sdk Snap) Fate} {a : CreateArgs} (he : e ∈ s.log) (he' : e' ∈ s.log)
    (ht : e.tid = e'.tid) (hc : Creates s e.tid a) (hqe : q e.op = true) (hqe' : q e'.op = true) :
    e = e' := by
  refine eq_of_fresh (q := fun x : Event (sdk Snap) Fate => x.tid = e.tid ∧
    q x.op = true) (fun newer x older hlog hx y hy hqy => ?_) he he'
    ⟨rfl, hqe⟩ ⟨ht.symm, hqe'⟩
  obtain ⟨p, hp⟩ := hc
  rw [← hx.1] at hp
  have hnot := hrule a _ _ hx.2 (hk.recalls.each newer x older _ p hlog hp) y.exch
    (Pool.mem_history.mpr ⟨y, hy, hqy.1.trans hx.1.symm, rfl⟩)
  exact absurd (hqy.2.symm.trans hnot) (by simp)

theorem save_first {a : CreateArgs} {τ : List (Exch Snap)} {o : Op Snap} (ho : savesIt o = true)
    (h : May svc lib (.create a) τ o) : ∀ x ∈ τ, savesIt x.op = false := by
  rcases h with h | h
  · rw [(untouched_aside h).1] at ho
    cases ho
  · cases o with
    | set k v =>
      cases k with
      | invite o i => exact fun x hx => (h.1 x hx).1
      | _ => cases ho
    | _ => cases ho

theorem preKey_first {a : CreateArgs} {τ : List (Exch Snap)} {o : Op Snap}
    (ho : keepsPreKey o = true) (h : May svc lib (.create a) τ o) :
    ∀ x ∈ τ, keepsPreKey x.op = false := by
  rcases h with h | h
  · rw [(untouched_aside h).2] at ho
    cases ho
  · cases o with
    | set k v =>
      cases k with
      | invitePreKey o i => exact h.1
      | _ => cases ho
    | _ => cases ho

/-- Who has saved the invite. -/
theorem Known.saved (hk : Known svc lib base s) {e : Event (sdk Snap) Fate} {a : CreateArgs}
    {o i : Id} {r : InviteRecord} (he : e ∈ s.log) (hc : Creates s e.tid a)
    (hop : e.op = .set (.invite o i) r) :
    ∃ issue, IssuedBy svc lib s o i e.tid a issue ∧
      r = normalizeInviteRecord (issue.ledger svc lib a) := by
  obtain ⟨c, p, τ, ht, hmay, hsuffix⟩ := hk.event he
  obtain ⟨p', hp'⟩ := hc
  cases ht.symm.trans hp'
  rw [hop] at hmay
  rcases hmay with hmay | hmay
  · exact hmay.elim
  · obtain ⟨-, issue, hmade, ho, hi, hr⟩ := hmay
    exact ⟨issue, ⟨⟨p, ht⟩, hmade.mono hsuffix, ho.symm, hi.symm⟩, hr⟩

/-- Who has kept the pre-key; the call has saved the invite before. -/
theorem Known.kept (hk : Known svc lib base s) {e : Event (sdk Snap) Fate} {o i : Id} {v : Bytes}
    (he : e ∈ s.log) (hop : e.op = .set (.invitePreKey o i) v) :
    ∃ a issue, IssuedBy svc lib s o i e.tid a issue ∧ v = issue.preKeyState ∧
      (⟨.set (.invite o i) (normalizeInviteRecord (issue.ledger svc lib a)), .ok ()⟩ : Exch Snap) ∈
        Pool.history e.tid s.log := by
  obtain ⟨c, p, τ, ht, hmay, hsuffix⟩ := hk.event he
  rw [hop] at hmay
  rcases hmay with hmay | hmay
  · exact hmay.elim
  · cases c with
    | create a =>
      obtain ⟨-, issue, hmade, ho, hi, hv, hsaved⟩ := hmay
      exact ⟨a, issue, ⟨⟨p, ht⟩, hmade.mono hsuffix, ho.symm, hi.symm⟩, hv, hsuffix.subset hsaved⟩
    | _ => exact hmay.elim

/-- All that is ever seen of an invite that was not there before is what one call has made. -/
structure IssuedOnce (svc : DeviceService Snap) (lib : InviteLib) (s : State Snap) (o i : Id)
    (t : Nat) (a : CreateArgs) (issue : Issue) : Prop extends IssuedBy svc lib s o i t a issue where
  alone : ∀ t' kind, (⟨.stableId kind, i⟩ : Exch Snap) ∈ Pool.history t' s.log → t' = t
  invite : ∀ r, Seen s (.invite o i) r → terms r = terms (issue.ledger svc lib a)
  preKey : ∀ v, Seen s (.invitePreKey o i) v → v = issue.preKeyState

theorem IssuedBy.alone (hk : Known svc lib base s) {o i : Id} {t : Nat} {a : CreateArgs}
    {issue : Issue} (h : IssuedBy svc lib s o i t a issue) {t' : Nat} {kind : String}
    (ht' : (⟨.stableId kind, i⟩ : Exch Snap) ∈ Pool.history t' s.log) : t' = t :=
  hk.drawn.once ht' h.made.drawn rfl (congrArg some h.id)

/-- All that is seen of the invite is what one call has saved. -/
theorem Known.only_saved (hk : Known svc lib base s) {o i : Id}
    (hbase : base.lookup (.invite o i) = none) {t : Nat} {a : CreateArgs} {issue : Issue}
    (h : IssuedBy svc lib s o i t a issue) {e : Event (sdk Snap) Fate} (he : e ∈ s.log)
    (ht : e.tid = t)
    (hop : e.op = .set (.invite o i) (normalizeInviteRecord (issue.ledger svc lib a)))
    {r : InviteRecord} (hr : Seen s (.invite o i) r) :
    terms r = terms (issue.ledger svc lib a) := by
  obtain ⟨-, -, horigin⟩ := hk.traced _ _ hr
  cases horigin with
  | given hr _ =>
    rw [hbase] at hr
    cases hr
  | @made e' a' r' he' hc' hop' hterms =>
    obtain ⟨issue', h', -⟩ := hk.saved he' hc' hop'
    obtain ⟨htid, rfl⟩ := h'.only hk h
    have hsame : e' = e := hk.write_once (q := savesIt) (fun a τ o ho hmay =>
        save_first ho hmay) he' he (htid.trans ht.symm) hc'
      (by rw [hop']; rfl) (by rw [hop]; rfl)
    subst hsame
    rw [hop', Op.set.injEq] at hop
    rw [hterms, eq_of_heq hop.2]
    rfl

/-- What one call has saved and kept is all that is seen. -/
theorem IssuedBy.once (hk : Known svc lib base s) {o i : Id}
    (hbase : base.lookup (.invite o i) = none) (hkey : base.lookup (.invitePreKey o i) = none)
    {t : Nat} {a : CreateArgs} {issue : Issue} (h : IssuedBy svc lib s o i t a issue)
    (hsaved : ∃ e ∈ s.log, e.tid = t ∧
        e.op = .set (.invite o i) (normalizeInviteRecord (issue.ledger svc lib a)))
    (hkept : ∃ e ∈ s.log, e.tid = t ∧ e.op = .set (.invitePreKey o i) issue.preKeyState) :
    IssuedOnce svc lib s o i t a issue := by
  obtain ⟨e₁, he₁, ht₁, hop₁⟩ := hsaved
  obtain ⟨e₂, he₂, ht₂, hop₂⟩ := hkept
  refine ⟨h, fun t' kind ht' => h.alone hk ht', fun r hr => hk.only_saved hbase h he₁ ht₁ hop₁ hr,
    fun v hv => ?_⟩
  obtain ⟨e, he, hop⟩ := (hk.traced _ _ hv).resolve_left (by simp [hkey])
  obtain ⟨a', issue', h', -, -⟩ := hk.kept he hop
  obtain ⟨htid, rfl⟩ := h.only hk h'
  have hsame : e = e₂ := hk.write_once (q := keepsPreKey) (fun a τ o ho hmay =>
      preKey_first ho hmay) he he₂ (htid.symm.trans ht₂.symm)
    h'.call (by rw [hop]; rfl) (by rw [hop₂]; rfl)
  subst hsame
  rw [hop, Op.set.injEq] at hop₂
  exact eq_of_heq hop₂.2

/-- A service creates an invite once. -/
theorem Known.issued_once (hk : Known svc lib base s) {o i : Id}
    (hbase : base.lookup (.invite o i) = none) (hkey : base.lookup (.invitePreKey o i) = none)
    (hseen : (∃ r, Seen s (.invite o i) r) ∨ ∃ v, Seen s (.invitePreKey o i) v) :
    ∃ t a issue, IssuedOnce svc lib s o i t a issue := by
  by_cases hkept : ∃ v, Seen s (.invitePreKey o i) v
  · obtain ⟨v, hv⟩ := hkept
    obtain ⟨e, he, hop⟩ := (hk.traced _ _ hv).resolve_left (by simp [hkey])
    obtain ⟨a, issue, h, rfl, hsaved⟩ := hk.kept he hop
    obtain ⟨e₁, he₁, ht₁, hx₁⟩ := Pool.mem_history.mp hsaved
    exact ⟨e.tid, a, issue,
      h.once hk hbase hkey ⟨e₁, he₁, ht₁, congrArg Proc.Exch.op hx₁⟩ ⟨e, he, rfl, hop⟩⟩
  · obtain ⟨r, hr⟩ := hseen.resolve_right hkept
    obtain ⟨-, -, horigin⟩ := hk.traced _ _ hr
    cases horigin with
    | given hr _ =>
      rw [hbase] at hr
      cases hr
    | @made e a r' he hc hop _ =>
      obtain ⟨issue, h, rfl⟩ := hk.saved he hc hop
      refine ⟨e.tid, a, issue, h, fun t' kind ht' => h.alone hk ht',
        fun r hr => hk.only_saved hbase h he rfl hop hr, fun v hv => ?_⟩
      exact absurd ⟨v, hv⟩ hkept

/-- What `getStoredInviteEnvelope` serves. -/
theorem Known.served (hk : Known svc lib base s) {t' : Nat} {owner id : String} {e : Envelope}
    {sig : Option Id}
    (ht : s.threads[t']? = some ⟨.stored owner id, .ret (.ok (.served (some (e, sig))))⟩) :
    ∃ o i, nonEmpty owner = some o ∧ nonEmpty id = some i ∧
      (base.lookup (.invite o i) = none → base.lookup (.invitePreKey o i) = none →
        ∃ t a issue, IssuedOnce svc lib s o i t a issue ∧
          e = (issue.envelope svc lib a).toEnvelope ∧ sig = some issue.signature) := by
  obtain ⟨o, i, r, ho, hi, hread, -, he, hsig⟩ := hk.recalls.result ht
  refine ⟨o, i, ho, hi, fun hbase hkey => ?_⟩
  obtain ⟨ev, hev, -, hx⟩ := Pool.mem_history.mp hread
  have hseen : Seen s (.invite o i) r := .read hev hx
  obtain ⟨t, a, issue, h⟩ := hk.issued_once hbase hkey (.inl ⟨r, hseen⟩)
  have hterms := h.invite r hseen
  have henvelope := congrArg InviteRecord.envelope hterms
  have hsignature := congrArg InviteRecord.signatureB64 hterms
  exact ⟨t, a, issue, h, Option.some.inj (he.symm.trans henvelope), hsig.symm.trans hsignature⟩

variable [DecidableEq Snap]

theorem traces : Traces svc.core (inviteProgram svc lib) (Recalls svc lib) (Sourced base) where
  spawn s c k v h := h.mono (fun _ he => he) fun t a hc => by
    obtain ⟨p, hp⟩ := hc
    exact ⟨p, Pool.spawn_thread hp⟩
  fires s e c next s' k v hf h := by
    refine h.mono (fun e' he => ?_) fun t a hc => ?_
    · rw [hf.log]
      exact .tail _ he
    · obtain ⟨p, hp⟩ := hc
      exact hf.call hp
  set s e c next s' k v hf hj ht hop := by
    have hmay := (hj.obeys e.tid c _ hf.thread).1
    have hself : e ∈ s'.log := by
      rw [hf.log]
      exact .head _
    cases k with
    | invite o i =>
      rw [hop] at hmay
      rcases hmay with hmay | hmay
      · exact hmay.elim
      · cases c with
        | service call =>
          obtain ⟨hvo, hvi, o', i', r₀, hread, hterms⟩ := hmay
          obtain ⟨e', he', -, hx⟩ := Pool.mem_history.mp hread
          obtain ⟨ho, hi, horigin⟩ := ht (.invite o' i') r₀ (.read he' hx)
          obtain ⟨howner, hid⟩ := ids_of_terms hterms
          obtain rfl : o' = o := by rw [← ho, ← howner, hvo]
          obtain rfl : i' = i := by rw [← hi, ← hid, hvi]
          refine ⟨hvo, hvi, ?_⟩
          rw [hterms]
          refine horigin.mono (fun e' he => ?_) fun t a hc => ?_
          · rw [hf.log]
            exact .tail _ he
          · obtain ⟨p, hp⟩ := hc
            exact hf.call hp
        | create a =>
          obtain ⟨-, issue, -, ho, hi, hv⟩ := hmay
          refine ⟨?_, ?_, .made hself (hf.call hf.thread) hop rfl⟩
          · exact (congrArg InviteRecord.ownerAccountId hv).trans ho.symm
          · exact (congrArg InviteRecord.inviteId hv).trans hi.symm
        | stored owner id => exact hmay.elim
    | invitePreKey o i => exact .inr ⟨e, hself, hop⟩
    | _ => trivial

theorem known (hr : ((inviteSystem svc lib).lts (issuing base)).Reachable s) :
    Known svc lib base s := by
  have h := (traced_inductive (P := Sourced base) (D := issuing base) traces
      (System.recalls_inductive obeys_program) fun m hm k v hv => ?_).reachable s hr
  · exact ⟨h.1, h.2, drawn_inductive.reachable s hr⟩
  · obtain ⟨rfl, hkeyed⟩ := hm
    cases k with
    | invite o i =>
      obtain ⟨ho, hi⟩ := hkeyed o i v hv
      exact ⟨ho, hi, .given hv rfl⟩
    | invitePreKey o i => exact .inl hv
    | _ => trivial

/-- **An invite is one call's**: whatever is ever stored under an invite, or read there, by any
call, has the terms that the one `createInvite` with its id has signed, and its pre-key is the one
that answers the bundle of that envelope. -/
theorem invite_issued_once (svc : DeviceService Snap) (lib : InviteLib) (base : Store Snap)
    (s : State Snap) (hr : ((inviteSystem svc lib).lts (issuing base)).Reachable s) (o i : Id)
    (hbase : base.lookup (.invite o i) = none) (hkey : base.lookup (.invitePreKey o i) = none)
    (hseen : (∃ r, Seen s (.invite o i) r) ∨ ∃ v, Seen s (.invitePreKey o i) v) :
    ∃ t a issue, IssuedOnce svc lib s o i t a issue := (known hr).issued_once hbase hkey hseen

/-- No call deletes an invite. -/
theorem stays (o i : Id) :
    ((inviteSystem svc lib).lts (issuing base)).Inductive fun s => Recalls svc lib s ∧ ∀ e ∈ s.log,
      ∀ r, e.exch = ⟨.set (.invite o i) r, .ok ()⟩ → (s.mem.kv.lookup (.invite o i)).isSome =
      true :=
  stays_inductive (System.recalls_inductive obeys_program) fun s e c next s' hj hf hop => by
    have hmay := (hj.obeys e.tid c _ hf.thread).1
    rw [hop] at hmay
    rcases hmay with hmay | hmay
    · exact hmay.elim
    · cases c <;> exact hmay.elim

/-- **A created invite stays**: it can be served from then on, with the terms and the envelope
that the returned record carries. -/
theorem created_stays (svc : DeviceService Snap) (lib : InviteLib) (base : Store Snap)
    (s : State Snap) (hr : ((inviteSystem svc lib).lts (issuing base)).Reachable s) (t : Nat)
    (a : CreateArgs) (p : CreateResult)
    (ht : s.threads[t]? = some ⟨.create a, .ret (.ok (.created p))⟩)
    (hbase : base.lookup (.invite a.owner p.inviteId) = none)
    (hkey : base.lookup (.invitePreKey a.owner p.inviteId) = none) :
    ∃ issue r, IssuedOnce svc lib s a.owner p.inviteId t a issue ∧
      s.mem.kv.lookup (.invite a.owner p.inviteId) = some r ∧ r.status = .active ∧
      r.envelope = some (issue.envelope svc lib a).toEnvelope ∧
      r.signatureB64 = some issue.signature ∧
      Carries lib p.durableRecord (lib.payloadText (issue.envelope svc lib a) issue.signature) := by
  have hk := known hr
  obtain ⟨issue, hissued, hid, hcarries⟩ := hk.recalls.result ht
  have hsaved := hissued.saved
  rw [← hid] at hsaved
  obtain ⟨e, he, het, hx⟩ := Pool.mem_history.mp hsaved
  obtain ⟨r, hstored⟩ :=
    Option.isSome_iff_exists.mp (((stays a.owner p.inviteId).reachable s hr).2 e he _ hx)
  have hkept := hissued.kept
  rw [← hid] at hkept
  obtain ⟨e', he', het', hx'⟩ := Pool.mem_history.mp hkept
  have hby : IssuedBy svc lib s a.owner p.inviteId t a issue :=
    ⟨⟨_, ht⟩, hissued.made, rfl, hid.symm⟩
  have honce := hby.once hk hbase hkey ⟨e, he, het, congrArg Proc.Exch.op hx⟩ ⟨e',
      he', het', congrArg Proc.Exch.op hx'⟩
  have hterms := honce.invite r (.stored hstored)
  have hstatus := congrArg InviteRecord.status hterms
  have henvelope := congrArg InviteRecord.envelope hterms
  have hsignature := congrArg InviteRecord.signatureB64 hterms
  exact ⟨issue, r, honce, hstored, hstatus, henvelope, hsignature, hcarries⟩

end

namespace Example

open Counting (a c)

/-- A library whose texts do not matter. -/
def lib : InviteLib where
  peerlinkInviteRecordKind := "peerlink-invite"
  signerAccountId := some
  signerKeyId _ := none
  signerAlg _ := none
  preparedBinding input bundle b target :=
    ⟨some target, some target, ⟨b.accountIdentityPublicKeyB64, b.accountBindingSigB64, none,
    b.issuedAtMs.getD 0, b.expiresAtMs, some input.identity.publicKey,
      some input.identityDh.publicKey, bundle⟩⟩
  signPostBearerCap := none
  canonicalPayloadBytes _ := []
  tokenHash _ := c
  payloadText _ _ := "invite"
  buildDurableRecordV1 := .ok
  durableRecordSignableBytes _ := []
  dateNow _ := 1
  dateNow_pos _ := Nat.one_pos

/-- Device `d` of account `a`, under a chain. -/
def tablet : DeviceService Nat :=
  { Counting.tablet with hasAdminRoot := false, inviteCertChain := [[99]] }

/-- The account's keys, and nothing else. -/
def base : Store Nat :=
  (∅ : Store Nat).insert (.identity a) (AccountKeys.toStored ⟨⟨a, a⟩, ⟨a, a⟩,
  a, some (Counting.bindingOf a 50)⟩)

theorem base_invite {o i : Id} : base.lookup (.invite o i) = none := by
  rw [base, AList.lookup_insert_ne (by simp)]
  rfl

theorem base_preKey {o i : Id} : base.lookup (.invitePreKey o i) = none := by
  rw [base, AList.lookup_insert_ne (by simp)]
  rfl

def args : CreateArgs := { owner := a, peerInboxId := some c }

def judge : System.Judge (issuing base) where
  may _ _ := true
  ok _ _ := true
  may_iff _ _ _ := trivial
  ok_iff _ _ _ := trivial

def zz : Id := Counting.unary 1

/-- Call 0 has created invite `zz`, and call 1 has served it. -/
def createdServed (s : State Nat) : Bool :=
  match (s.threads[0]? : Option (Thread (sdk Nat) InviteCall (Except Err InviteReply))),
    (s.threads[1]? : Option (Thread (sdk Nat) InviteCall (Except Err InviteReply))) with
  | some ⟨c₀, .ret (.ok (.created p))⟩, some ⟨c₁, .ret (.ok (.served (some (_, some _))))⟩ =>
    c₀ = .create args && c₁ = .stored "a" "zz" && p.inviteId = zz &&
      (s.mem.kv.lookup (.invite a zz)).isSome
  | _, _ => false

structure Served (s : State Nat) (p : CreateResult) (e : Envelope) (sig : Id) : Prop where
  created : s.threads[0]? = some ⟨.create args, .ret (.ok (.created p))⟩
  served : s.threads[1]? = some ⟨.stored "a" "zz", .ret (.ok (.served (some (e, some sig))))⟩
  id : p.inviteId = zz
  seen : ∃ r, Seen s (.invite a zz) r

theorem createdServed_spec {s : State Nat} (h : createdServed s = true) :
    ∃ p e sig, Served s p e sig := by
  unfold createdServed at h
  split at h
  · rename_i c₀ p c₁ e sig h₀ h₁
    simp only [Bool.and_eq_true, decide_eq_true_eq] at h
    obtain ⟨⟨⟨rfl, rfl⟩, hid⟩, hstored⟩ := h
    obtain ⟨r, hr⟩ := Option.isSome_iff_exists.mp hstored
    exact ⟨p, e, sig, h₀, h₁, hid, r, .stored hr⟩
  · cases h

theorem reachable :
    ∃ s, ((inviteSystem tablet lib).lts (issuing base)).Reachable s ∧
      ∃ p e sig, Served s p e sig := by
  obtain ⟨s, hr, hs⟩ :=
    System.reachable_of_play (S := inviteSystem tablet lib) judge Counting.smooth
    [.call (.create args), .go 0 15, .call (.stored "a" "zz"),
    .go 1 1] (m := .ofStore base []) (P := createdServed)
    ⟨rfl, fun o i r h => by simp [base_invite] at h⟩ (by decide +kernel)
  exact ⟨s, hr, createdServed_spec hs⟩

end Example

open Example in
theorem invite_issued_once_tablet :
    ∃ s t a issue, ((inviteSystem tablet lib).lts (issuing base)).Reachable s ∧
      IssuedOnce tablet lib s Counting.a zz t a issue := by
  obtain ⟨s, hr, p, e, sig, h⟩ := reachable
  obtain ⟨t, a, issue, honce⟩ :=
    invite_issued_once tablet lib base s hr Counting.a zz base_invite base_preKey (.inl h.seen)
  exact ⟨s, t, a, issue, hr, honce⟩

open Example in
theorem created_stays_tablet :
    ∃ (s : State Nat) (p : CreateResult) (issue : Issue) (r : InviteRecord),
      ((inviteSystem tablet lib).lts (issuing base)).Reachable s ∧
      IssuedOnce tablet lib s Counting.a p.inviteId 0 args issue ∧
      s.mem.kv.lookup (.invite Counting.a p.inviteId) = some r ∧
      r.envelope = some (issue.envelope tablet lib args).toEnvelope := by
  obtain ⟨s, hr, p, e, sig, h⟩ := reachable
  obtain ⟨issue, r, honce, hstored, -, henvelope, -⟩ :=
    created_stays tablet lib base s hr 0 args p h.created base_invite base_preKey
  exact ⟨s, p, issue, r, hr, honce, hstored, henvelope⟩

end RezSdk.L4.IssuedInvites
