import RezSdk.L4Runs.AckSession
import RezSdk.L4Runs.Reestablish

/-!
# The same handshake again

A handshake that was accepted may be delivered again. Its signatures verify
again as long as its binding is current (`PacketOk`, `calm_authenticate`);
then the replay guard answers it with the same nonce and touches no session,
but only if the invite's pre-key is still there: the gate on the pre-key
stands before the guard, and the acceptance that exhausts the invite deletes
the pre-key (`redelivery_refused`). `redelivery_idempotent` says exactly when
the redelivery is idempotent.
-/
namespace RezSdk.L4.Redelivery

open RezSdk.L1 RezSdk.L2 RezSdk.L3

variable {Snap : Type}

/-! ## What was checked -/

/-- The key that has to have signed a binding. -/
def SignedBy (core : Core Snap) (account : Id) (signer : Option Id) (chain : List Bytes)
    (key : Id) : Prop :=
  (key = account ∧ ∀ k, signer = some k → k = account) ∨
    (signer = some key ∧ key ≠ account ∧ chain ≠ [] ∧ core.isBase64 key = true)

/-- The binding passes every check but those of the time. -/
def BindingOk (core : Core Snap) (peer : Id) (x : X3dhBinding) (chain : List Bytes) : Prop :=
  ∃ account sig identity expires key, x.accountIdentityPublicKeyB64 = some account ∧
    x.accountBindingSigB64 = some sig ∧ x.identitySigningPublicKeyB64 = some identity ∧
    x.accountBindingExpiresAtMs = some expires ∧
      (core.isBase64 account && core.isBase64 sig) = true ∧
    core.deriveAccountId account = some peer ∧
      SignedBy core account x.accountBindingSignerPublicKeyB64 chain key ∧
    ∃ n, core.answer (.verify key
    (core.bindingPayload peer identity x.accountBindingIssuedAtMs expires) sig) n = .ok true

/-- The packet passes every check of `authenticate` but those of the time. -/
def PacketOk (core : Core Snap) (p : HandshakePacket) : Prop :=
  ∃ sig invite binding peer, p.signatureB64 = some sig ∧ sig ≠ "" ∧
    (∃ n, core.answer (.verifyHandshakeEnvelope (.handshake p.handshake sig)) n = .ok true) ∧
    p.handshake.inviteId = some invite ∧ p.handshake.senderAccountBinding = some binding ∧
    binding.x3dhIdentityPublicKeyB64 = p.handshake.senderIdentitySigningPubKeyB64 ∧
    acceptorOf core p.handshake = some peer ∧
      BindingOk core peer (senderX3dh binding) binding.certChain

section

variable {svc : Service Snap}

abbrev free : Monitor (sdk Snap) Unit := .free

theorem obeys_core {q : CoreCall Snap} {Q : Unit → Except Err q.Value → Prop} {u : Unit}
    (h : ∀ n, Q () (svc.core.answer q n)) : Obeys free (Lawful svc.core) Q u (callCore q) := by
  refine ⟨trivial, fun r hr => ?_⟩
  obtain ⟨n, rfl⟩ := hr
  exact h n

/-- The value a check resolves with, if it does. -/
abbrev Yields {α : Type} (P : α → Prop) (_ : Unit) (x : Except Err α) : Prop := ∀ v, x = .ok v → P v

theorem yields_error {α : Type} {P : α → Prop} {e : Err} : Yields P () (.error e) := fun _ h => by
  cases h

theorem yields_ok {α : Type} {P : α → Prop} {v : α} (h : P v) : Yields P () (.ok v) := by
  rintro _ ⟨⟩
  exact h

theorem obeys_verifyKey {account : Id} {signer : Option Id} {chain : List Bytes} {u : Unit} :
    Obeys free (Lawful svc.core) (Yields fun key => SignedBy svc.core account signer chain key) u
      (bindingVerifyKey svc account signer chain) := by
  cases signer with
  | none => exact yields_ok (.inl ⟨rfl, nofun⟩)
  | some key =>
    unfold bindingVerifyKey
    dsimp only
    split
    · refine yields_ok (.inl ⟨rfl, fun k hk => ?_⟩)
      cases hk
      assumption
    · rename_i hne
      refine obeys_js_bind (obeys_ensure (fun hchain => ?_) fun _ => yields_error)
      refine obeys_skip (fun _ => yields_error) fun now => ?_
      refine obeys_skip (fun _ => yields_error) fun refused => ?_
      refine obeys_skip (fun _ => yields_error) fun _ => ?_
      refine obeys_js_bind (obeys_ensure (fun hb => ?_) fun _ => yields_error)
      refine yields_ok (.inr ⟨rfl, hne, ?_, hb⟩)
      rintro rfl
      cases hchain

theorem obeys_verifyBinding {peer : Id} {x : X3dhBinding} {chain : List Bytes} {u : Unit} :
    Obeys free (Lawful svc.core) (Yields fun _ => BindingOk svc.core peer x chain) u
      (verifyInviteX3dhBinding svc peer (some x) chain) := by
  refine obeys_js_bind (obeys_orThrow (fun x' hx => ?_) fun _ => yields_error)
  cases hx
  refine obeys_js_bind (obeys_orThrow (fun account haccount => ?_) fun _ => yields_error)
  refine obeys_js_bind (obeys_orThrow (fun sig hsig => ?_) fun _ => yields_error)
  refine obeys_js_bind (obeys_orThrow (fun identity hidentity => ?_) fun _ => yields_error)
  refine obeys_js_bind (obeys_orThrow (fun expires hexpires => ?_) fun _ => yields_error)
  refine obeys_js_bind (obeys_ensure (fun hbase => ?_) fun _ => yields_error)
  refine obeys_js_bind (obeys_ensure (fun hderives => ?_) fun _ => yields_error)
  refine obeys_skip (fun _ => yields_error) fun now => ?_
  refine obeys_skip (fun _ => yields_error) fun _ => ?_
  refine obeys_js_bind (obeys_verifyKey.mono fun _ y hy => ?_)
  cases y with
  | error e => exact yields_error
  | ok key =>
    refine obeys_js_bind (obeys_core fun n => ?_)
    cases hv : svc.core.answer (.verify key
        (svc.core.bindingPayload peer identity x.accountBindingIssuedAtMs expires) sig) n with
    | error e => exact yields_error
    | ok verified =>
      refine obeys_ensure (fun hok => yields_ok ?_) fun _ => yields_error
      subst hok
      exact ⟨account, sig, identity, expires, key, haccount, hsig, hidentity, hexpires, hbase,
        of_decide_eq_true hderives, hy key rfl, n, hv⟩

theorem obeys_authenticate {p : HandshakePacket} {u : Unit} :
    Obeys free (Lawful svc.core) (Yields fun x => PacketOk svc.core p ∧ x.handshake = p.handshake) u
      (authenticate svc p) := by
  refine obeys_js_bind (obeys_orThrow (fun sig hsig => ?_) fun _ => yields_error)
  obtain ⟨hsig, hne⟩ := Option.filter_eq_some_iff.mp hsig
  refine obeys_js_bind (obeys_core fun n => ?_)
  cases hv : svc.core.answer (.verifyHandshakeEnvelope (.handshake p.handshake sig)) n with
  | error e => exact yields_error
  | ok verified =>
    refine obeys_js_bind (obeys_ensure (fun hok => ?_) fun _ => yields_error)
    subst hok
    refine obeys_js_bind (obeys_orThrow (fun invite hinvite => ?_) fun _ => yields_error)
    refine obeys_js_bind (obeys_orThrow (fun binding hbinding => ?_) fun _ => yields_error)
    refine obeys_js_bind (obeys_ensure (fun hcovers => ?_) fun _ => yields_error)
    refine obeys_js_bind (obeys_orThrow (fun peer hpeer => ?_) fun _ => yields_error)
    refine obeys_js_bind (obeys_verifyBinding.mono fun _ y hy => ?_)
    cases y with
    | error e => exact yields_error
    | ok u =>
      refine yields_ok ⟨⟨sig, invite, binding, peer, hsig, of_decide_eq_true hne,
        ⟨n, hv⟩, hinvite, hbinding,
        of_decide_eq_true hcovers, hpeer, hy u rfl⟩, rfl⟩

theorem ok_establishLink {owner : Id} {x : Authenticated} {preKey : Bytes} {exhausted : Bool}
    {name : String} {now : Nat} {existing : Option PeerLinkRecord} :
    Js.Ok (fun o => ∀ s ev n r l, o = .accepted s ev n r l → n = x.handshake.ackNonce)
      (establishLink svc owner x preKey exhausted name now existing) := by
  refine Js.ok_skip fun _ => Js.ok_skip fun _ => Js.ok_skip fun _ => Js.ok_skip fun _ =>
    Js.ok_skip fun _ =>
    Js.ok_skip fun _ => ?_
  cases exhausted with
  | false => exact Js.ok_pure fun _ _ _ _ _ h => by cases h; rfl
  | true => exact Js.ok_skip fun _ => Js.ok_pure fun _ _ _ _ _ h => by cases h; rfl

theorem ok_proceed {owner : Id} {x : Authenticated} {exhausted already : Bool} {name : String} :
    Js.Ok (fun o => ∀ s ev n r l, o = .accepted s ev n r l → n = x.handshake.ackNonce)
      (proceedHandshake svc owner x exhausted already name) := by
  refine Js.ok_skip fun _ => Js.ok_skip fun _ => Js.ok_skip fun _ => Js.ok_skip fun existing => ?_
  cases existing with
  | none => exact ok_establishLink
  | some e =>
    dsimp only
    split
    · exact Js.ok_skip fun _ => Js.ok_pure fun _ _ _ _ _ h => by cases h; rfl
    · exact ok_establishLink

/-- An accepted handshake was checked, and is answered with its nonce. -/
def Accepted (core : Core Snap) (bytes : Bytes) (o : HandshakeOutcome) : Prop :=
  ∀ s ev n r l, o = .accepted s ev n r l → bytes.isEmpty = false ∧
    ∃ p, core.parsePacket bytes = .ok (some p) ∧ PacketOk core p ∧ n = p.handshake.ackNonce

theorem obeys_handshake {owner : Id} {bytes : Bytes} {u : Unit} :
    Obeys free (Lawful svc.core) (Yields (Accepted svc.core bytes)) u
      (handleIncomingHandshakePacket svc owner bytes) := by
  refine obeys_js_bind (obeys_ensure (fun hne => ?_) fun _ => yields_error)
  rw [Bool.not_eq_true'] at hne
  dsimp only [Goes]
  split
  · exact yields_error
  · exact yields_ok fun _ _ _ _ _ h => by cases h
  · rename_i p hparse
    refine obeys_js_bind (obeys_authenticate.mono fun _ y hy => ?_)
    cases y with
    | error e => exact yields_error
    | ok x =>
      obtain ⟨hpacket, hx⟩ := hy x rfl
      refine obeys_skip (fun _ => yields_error) fun record =>
        obeys_skip (fun _ => yields_error) fun verdict => ?_
      cases verdict with
      | reject reason => exact yields_ok fun _ _ _ _ _ h => by cases h
      | proceed exhausted already =>
        refine (Obeys.and_ok obeys_any ok_proceed).mono fun _ o ho => ?_
        rintro o rfl s ev n r l hacc
        exact ⟨hne, p, hparse, hpacket, hx ▸ ho.2 o rfl s ev n r l hacc⟩

end

/-! ## The first delivery -/

/-- What is known of a call's reply. -/
def Replied (core : Core Snap) : Call → Unit → Except Err Reply → Prop
  | .handshake _ bytes, _, .ok (.handshake o) => Accepted core bytes o
  | _, _, _ => True

theorem obeys_replied [DecidableEq Snap] {svc : Service Snap} (c : Call) :
    Obeys free (Lawful svc.core) (Replied svc.core c) () (program svc c) := by
  cases c with
  | handshake owner bytes =>
    refine obeys_js_bind (obeys_handshake.mono fun _ x hx => ?_)
    cases x with
    | error e => trivial
    | ok o => exact hx o rfl
  | _ => exact obeys_any.mono fun _ x _ => by trivial

theorem accepted_reachable [DecidableEq Snap] {svc : Service Snap} {rows : LinkPeers.Rows}
    {s : State Snap} (hr : ((system svc).lts (LinkPeers.anyCalls rows)).Reachable s) {t : Nat}
    {owner : Id} {bytes : Bytes} {o : HandshakeOutcome}
    (ht : s.threads[t]? = some ⟨.handshake owner bytes, .ret (.ok (.handshake o))⟩) :
    Accepted svc.core bytes o := by
  have hconforms : System.Conforms free (Lawful svc.core) (fun _ => ()) (Replied svc.core) s := by
    refine System.conforms_reachable (fun _ c _ => ?_) (fun _ _ _ _ _ hf _ => lawful_fires hf) hr
    exact obeys_replied c
  exact hconforms.result ht

/-! ## The second delivery -/

/-- The verify functions of @rezprotocol/core are predicates. -/
structure Decides (core : Core Snap) : Prop where
  envelope : ∀ e n n', core.answer (.verifyHandshakeEnvelope e) n =
    core.answer (.verifyHandshakeEnvelope e) n'
  signature : ∀ k m sig n n', core.answer (.verify k m sig) n = core.answer (.verify k m sig) n'
  authority :
    ∀ c n n', core.answer (.verifyAccountAuthority c) n = core.answer (.verifyAccountAuthority c) n'

/-- The binding has not expired at `now`, nor has its certificate chain if a
delegate has signed it. -/
def Current (core : Core Snap) (b : AccountBinding) (now : Nat) : Prop :=
  (∀ expires, b.expiresAtMs = some expires → now < expires) ∧
    ∀ account key, b.accountIdentityPublicKeyB64 = some account →
    b.accountBindingSignerPublicKeyB64 = some key →
      key ≠ account →
        ∃ n, core.answer (.verifyAccountAuthority ⟨account, key, b.certChain, now⟩) n = .ok none

/-- Neither the invite nor the acceptor's binding has expired. -/
def Unexpired (core : Core Snap) (kv : Store Snap) (owner : Id) (p : HandshakePacket) (now : Nat) :
    Prop :=
  (∀ invite r, p.handshake.inviteId = some invite → kv.lookup (.invite owner invite) = some r →
  now < r.expiresAtMs) ∧
    ∀ b, p.handshake.senderAccountBinding = some b → Current core b now

section

variable {svc : Service Snap} {t : Nat} {m : Mem Snap} {C : Nat → Prop} {p : HandshakePacket}

theorem calm_verifyKey (hd : Decides svc.core) {b : AccountBinding} {account key : Id}
    {Q : Except Err Id → Mem Snap → Prop} (hc : ∀ now, C now → Current svc.core b now)
    (haccount : b.accountIdentityPublicKeyB64 = some account)
    (hs : SignedBy svc.core account b.accountBindingSignerPublicKeyB64 b.certChain key)
    (h : Q (.ok key) m) :
    After (within (Calm C) (act svc.core t)) Q
      (bindingVerifyKey svc account b.accountBindingSignerPublicKeyB64 b.certChain) m := by
  rcases hs with ⟨rfl, hown⟩ | ⟨hsigner, hne, hchain, hbase⟩
  · cases hsig : b.accountBindingSignerPublicKeyB64 with
    | none => exact h
    | some k =>
      obtain rfl := hown k hsig
      unfold bindingVerifyKey
      dsimp only
      rw [if_pos rfl]
      exact h
  · rw [hsigner]
    unfold bindingVerifyKey
    dsimp only
    rw [if_neg hne]
    have hnonempty : (!b.certChain.isEmpty) = true := by
      rw [Bool.not_eq_true', List.isEmpty_eq_false_iff]
      exact hchain
    refine after_js_bind (after_passed hnonempty ?_)
    refine after_js_bind (calm_clock fun now hnow => ?_)
    refine after_js_bind (calm_core fun n => ?_)
    obtain ⟨n', hn'⟩ := (hc now hnow).2 account key haccount hsigner hne
    rw [hd.authority _ n n', hn']
    exact after_js_bind (after_passed rfl (after_js_bind (after_passed hbase h)))

theorem calm_verifyBinding (hd : Decides svc.core) {b : AccountBinding} {peer : Id}
    {Q : Except Err Unit → Mem Snap → Prop} (hc : ∀ now, C now → Current svc.core b now)
    (hok : BindingOk svc.core peer (senderX3dh b) b.certChain) (h : Q (.ok ()) m) :
    After (within (Calm C) (act svc.core t)) Q
      (verifyInviteX3dhBinding svc peer (some (senderX3dh b)) b.certChain) m := by
  obtain ⟨account, sig, identity, expires, key, haccount, hsig, hidentity, hexpires,
    hbase, hderives, hkey, n, hv⟩ := hok
  refine after_js_bind (after_found rfl ?_)
  refine after_js_bind (after_found haccount (after_js_bind (after_found hsig ?_)))
  refine after_js_bind (after_found hidentity (after_js_bind (after_found hexpires ?_)))
  refine after_js_bind
    (after_passed hbase (after_js_bind (after_passed (decide_eq_true hderives) ?_)))
  refine after_js_bind (calm_clock fun now hnow => ?_)
  refine after_js_bind (after_passed (decide_eq_true ((hc now hnow).1 expires hexpires)) ?_)
  refine after_js_bind (calm_verifyKey hd hc haccount hkey ?_)
  refine after_js_bind (calm_core fun n' => ?_)
  rw [hd.signature _ _ _ n' n, hv]
  exact h

/-- A packet that was accepted authenticates again. -/
theorem calm_authenticate (hd : Decides svc.core) {Q : Except Err Authenticated → Mem Snap → Prop}
    (hc : ∀ now, C now → ∀ b, p.handshake.senderAccountBinding = some b → Current svc.core b now)
    (hok : PacketOk svc.core p)
    (h : ∀ x, x.handshake = p.handshake → acceptorOf svc.core p.handshake = some x.peerAccountId →
      p.handshake.inviteId = some x.inviteId → Q (.ok x) m) :
    After (within (Calm C) (act svc.core t)) Q (authenticate svc p) m := by
  obtain ⟨sig, invite, binding, peer, hsig, hne, ⟨n, hv⟩, hinvite, hbinding, hcovers, hpeer, hb⟩ :=
    hok
  have hfilter : p.signatureB64.filter (· ≠ "") = some sig := by
    rw [hsig, Option.filter_some, if_pos (decide_eq_true hne)]
  refine after_js_bind (after_found hfilter (after_js_bind (calm_core fun n' => ?_)))
  rw [hd.envelope _ n' n, hv]
  refine after_js_bind (after_passed rfl (after_js_bind (after_found hinvite ?_)))
  refine after_js_bind
    (after_found hbinding (after_js_bind (after_passed (decide_eq_true hcovers) ?_)))
  refine after_js_bind (after_found hpeer (after_js_bind ?_))
  exact calm_verifyBinding hd (fun now hnow => hc now hnow binding hbinding) hb
    (h _ rfl hpeer hinvite)

theorem calm_inviteGet {owner id : Id} {Q : Except Err (Option InviteRecord) → Mem Snap → Prop}
    (h : Q (.ok ((m.kv.lookup (.invite owner id)).map normalizeInviteRecord)) m) :
    After (within (Calm C) (act svc.core t)) Q (Invites.get owner id) m :=
  after_js_bind (calm_get h)

/-- A recorded acceptor may proceed. -/
theorem calm_verdict {owner id peer : Id} {r : InviteRecord}
    {Q : Except Err Verdict → Mem Snap → Prop} (hr : m.kv.lookup (.invite owner id) = some r)
    (hin : peer ∈ r.acceptedAcceptors) (hc : ∀ now, C now → now < r.expiresAtMs)
    (h : ∀ exhausted locks, Q (.ok (.proceed exhausted true)) { m with locks }) :
    After (within (Calm C) (act svc.core t)) Q
      (inviteVerdict owner id peer ((m.kv.lookup (.invite owner id)).map normalizeInviteRecord))
      m := by
  rw [hr]
  refine calm_withLock fun locks => after_js_bind (calm_inviteGet ?_)
  show After _ _ _ _
  rw [hr]
  refine after_js_bind (calm_clock fun now hnow => ?_)
  have hlive : ¬ (normalizeInviteRecord r).expiresAtMs ≤ now := Nat.not_le.mpr (hc now hnow)
  dsimp only [Then]
  rw [if_neg hlive, if_pos (show peer ∈ (normalizeInviteRecord r).acceptedAcceptors from hin)]
  exact fun locks' => h _ locks'

/-- The replay guard answers. -/
theorem calm_handshake (hd : Decides svc.core) {owner peer invite : Id} {bytes : Bytes}
    {link : PeerLinkRecord} (ho : Offers svc.core bytes p peer invite) (hok : PacketOk svc.core p)
    (hne : bytes.isEmpty = false) (hin : InLedger m.kv owner invite peer)
    (hkey : (m.kv.lookup (.invitePreKey owner invite)).isSome = true)
    (hlink : linkOfPair m.kv owner peer = some link) (hest : link.state = .sessionEstablished) :
    After (within (Calm (Unexpired svc.core m.kv owner p)) (act svc.core t)) (fun x m' =>
          m'.kv = m.kv ∧
          ∃ snapshot event remote localName,
            x = .ok (.accepted snapshot event p.handshake.ackNonce remote localName))
      (handleIncomingHandshakePacket svc owner bytes) m := by
  obtain ⟨r, hr, hmem⟩ := hin
  obtain ⟨preKey, hpre⟩ := Option.isSome_iff_exists.mp hkey
  refine after_js_bind (after_passed (by rw [hne]; rfl) ?_)
  dsimp only [Then]
  rw [ho.parses]
  refine after_js_bind (calm_authenticate hd (fun now hnow => hnow.2) hok fun x hx hpeer hinvite =>
    ?_)
  obtain rfl : peer = x.peerAccountId := Option.some.inj (ho.peer.symm.trans hpeer)
  obtain rfl : invite = x.inviteId := Option.some.inj (ho.invite.symm.trans hinvite)
  refine after_js_bind (calm_inviteGet (after_js_bind ?_))
  refine calm_verdict hr hmem (fun now hnow => hnow.1 _ r hinvite hr) fun exhausted locks => ?_
  refine after_js_bind
    (calm_get (after_js_bind (after_found hpre (after_js_bind (calm_clock fun now _ => ?_)))))
  refine after_js_bind (calm_getByPair ?_)
  rw [hlink]
  dsimp only [Then]
  rw [if_pos (by rw [hest]; rfl)]
  refine after_js_bind (calm_buildSnapshot fun snapshot => ?_)
  rw [← hx]
  exact ⟨rfl, snapshot, none, _, _, rfl⟩

end

/-! ## The theorem -/

/-- **Redelivery is idempotent** exactly when the invite's pre-key is still
stored and its ledger still has the acceptor. -/
theorem redelivery_idempotent [DecidableEq Snap] (svc : Service Snap) (hd : Decides svc.core)
    (rows : LinkPeers.Rows) (s : State Snap)
    (hr : ((system svc).lts (LinkPeers.anyCalls rows)).Reachable s) (owner : Id) (bytes : Bytes)
    (t₀ : Nat) (snapshot : PeerLinkSnapshot) (event : Option EventRecord) (nonce : Option Id)
    (remote localName : String)
    (hfirst : s.threads[t₀]? = some ⟨.handshake owner bytes,
            .ret (.ok (.handshake (.accepted snapshot event nonce remote localName)))⟩)
    (p : HandshakePacket) (peer invite : Id) (ho : Offers svc.core bytes p peer invite)
    (link : PeerLinkRecord) (hlink : linkOfPair s.mem.kv owner peer = some link)
    (hest : link.state = .sessionEstablished) (t : Nat) (fs : List Fate)
    (hcalm : ∀ f ∈ fs, Calm (Unexpired svc.core s.mem.kv owner p) f)
    (τ : List (Proc.Exch (sdk Snap))) (x : Except Err HandshakeOutcome) (m' : Mem Snap)
    (hrun : (system svc).solo t s.mem (handleIncomingHandshakePacket svc owner bytes) fs =
        some (τ, x, m')) :
    ((∃ snapshot event remote localName,
          x = .ok (.accepted snapshot event nonce remote localName)) ∧
      ∀ k, kindOf k ∈ sessionKinds → m'.kv.lookup k = s.mem.kv.lookup k) ↔
    ((s.mem.kv.lookup (.invitePreKey owner invite)).isSome = true ∧
      InLedger s.mem.kv owner invite peer) := by
  obtain ⟨hne, p', hparse, hok, hnonce⟩ := accepted_reachable hr hfirst _ _ _ _ _ rfl
  have hp := hparse.symm.trans ho.parses
  simp only [Except.ok.injEq, Option.some.injEq] at hp
  subst hp
  constructor
  · rintro ⟨⟨snapshot', event', remote', localName', rfl⟩, hkept⟩
    have hends := handshake_ends_reachable hr hrun
    generalize hx :
      (Except.ok (HandshakeOutcome.accepted snapshot' event' nonce remote' localName') :
      Except Err HandshakeOutcome) = x at hends
    generalize hw : (m', happened (picked marksIndex) τ fs) = w at hends
    cases hends with
    | failed => cases hx
    | refused => cases hx
    | declined hno _ =>
      cases hx
      exact absurd rfl (hno snapshot' event' nonce remote' localName')
    | replayed ho' hin _ _ hkey _ =>
      obtain ⟨rfl, rfl⟩ := ho.unique ho'
      exact ⟨hkey, hin⟩
    | established _ _ _ _ _ hchanged =>
      obtain ⟨sid, hsid⟩ := hchanged
      subst hw
      exact absurd (hkept (.session owner sid) (.head _)) hsid
  · rintro ⟨hkey, hin⟩
    obtain ⟨hkv, snapshot', event', remote', localName', hx⟩ := After.solo_within (S := system svc)
      (calm_handshake hd ho hok hne hin hkey hlink hest) hrun hcalm
    refine ⟨⟨snapshot', event', remote', localName', hnonce ▸ hx⟩, fun k _ => ?_⟩
    rw [hkv]

/-- **A replay keeps every ratchet** if its acceptor is recorded and has an
established link, or the pre-key is gone; a replay that is accepted otherwise
writes a session. -/
theorem replay_keeps_sessions [DecidableEq Snap] (svc : Service Snap) (rows : LinkPeers.Rows)
    (s : State Snap) (hr : ((system svc).lts (LinkPeers.anyCalls rows)).Reachable s) (owner : Id)
    (bytes : Bytes) (p : HandshakePacket) (peer invite : Id)
    (ho : Offers svc.core bytes p peer invite) (t : Nat) (fs : List Fate)
    (τ : List (Proc.Exch (sdk Snap))) (x : Except Err HandshakeOutcome) (m' : Mem Snap)
    (hrun : (system svc).solo t s.mem (handleIncomingHandshakePacket svc owner bytes) fs =
        some (τ, x, m')) :
    (Guarded s.mem.kv owner invite peer →
      ∀ k, kindOf k ∈ sessionKinds → m'.kv.lookup k = s.mem.kv.lookup k) ∧
    (¬ Guarded s.mem.kv owner invite peer →
      (∃ snapshot event nonce remote localName,
          x = .ok (.accepted snapshot event nonce remote localName)) →
      ∃ sid, m'.kv.lookup (.session owner sid) ≠ s.mem.kv.lookup (.session owner sid)) := by
  have hends := handshake_ends_reachable hr hrun
  generalize hw : (m', happened (picked marksIndex) τ fs) = w at hends
  obtain rfl : m' = w.1 := by rw [← hw]
  cases hends with
  | failed _ _ hkept =>
    refine ⟨fun hg => hkept p peer invite ho hg, fun _ hacc => ?_⟩
    obtain ⟨_, _, _, _, _, h⟩ := hacc
    cases h
  | refused ho' _ _ _ _ hchanged hopen _ =>
    obtain ⟨rfl, rfl⟩ := ho.unique ho'
    exact ⟨fun hg => absurd hg hopen, fun _ _ => hchanged⟩
  | declined hno hframe =>
    refine ⟨fun _ => sessions_of_frame hframe, fun _ hacc => ?_⟩
    obtain ⟨_, _, _, _, _, h⟩ := hacc
    cases h
    exact absurd rfl (hno _ _ _ _ _)
  | replayed ho' hin hlink hest _ hframe =>
    obtain ⟨rfl, rfl⟩ := ho.unique ho'
    exact ⟨fun _ => sessions_of_frame hframe, fun hg => absurd (.inl ⟨hin, _, hlink, hest⟩) hg⟩
  | established ho' hnot _ hkey _ hchanged =>
    obtain ⟨rfl, rfl⟩ := ho.unique ho'
    refine ⟨fun hg => ?_, fun _ _ => hchanged⟩
    rcases hg with hg | hg
    · exact absurd hg hnot
    · rw [hg] at hkey
      cases hkey

/-! ## Concrete runs -/

namespace Example

open Counting

theorem decides : Decides Counting.core where
  envelope _ _ _ := rfl
  signature _ _ _ _ _ := rfl
  authority _ _ _ := rfl

def packet : HandshakePacket := ⟨handshakeFor b d a, some "s"⟩

theorem offers : Offers Counting.core [1, 3, 0] packet b d := ⟨rfl, rfl, rfl⟩

/-- Account `a`'s invite `d` is open for `n` acceptors. -/
def start (n : Nat) (h : 0 < n) : Mem Nat := .ofStore (inviting (invite n [] h)) []

theorem start_init (n : Nat) (h : 0 < n) :
    (LinkPeers.anyCalls fun _ _ => none : Rules Nat).init (start n h) := by
  refine LinkPeers.init_of_wellKept ?_ fun _ _ _ h => (by cases h)
  rfl

abbrev receive : Sdk Nat HandshakeOutcome := handleIncomingHandshakePacket Counting.svc a [1, 3, 0]

def again (s : State Nat) : List Fate := (system Counting.svc).fates smooth 1 100 s.mem receive

/-- Account `b`'s handshake was accepted, its link is established with a
session, and the invite has not expired. -/
def settled (s : State Nat) : Bool :=
  (match outcome s 0 with
  | some (call, .ok (.handshake (.accepted _ _ n _ _))) =>
    call = .handshake a [1, 3, 0] && n = some a
  | _ => false) && (linkOfPair s.mem.kv a b).any (·.state = .sessionEstablished) &&
    AckSession.loadable s.mem.kv a b && (s.mem.kv.lookup (.invite a d)).all (5 < ·.expiresAtMs)

theorem settled_spec {s : State Nat} (h : settled s = true) :
    ∃ snapshot event remote localName link,
      s.threads[0]? = some ⟨.handshake a [1, 3, 0],
            .ret (.ok (.handshake (.accepted snapshot event (some a) remote localName)))⟩ ∧
      linkOfPair s.mem.kv a b = some link ∧ link.state = .sessionEstablished ∧
      Loadable s.mem.kv a b ∧
      ∀ f ∈ again s, Calm (Unexpired Counting.core s.mem.kv a packet) f := by
  simp only [settled, Bool.and_eq_true] at h
  obtain ⟨⟨⟨hfirst, hlink⟩, hload⟩, hlive⟩ := h
  obtain ⟨link, hlink, hest⟩ := (Option.any_eq_true _ _).mp hlink
  have hfive : Unexpired Counting.core s.mem.kv a packet 5 := by
    refine ⟨fun invite r hi hr => ?_, fun b' hb => ⟨fun e he => ?_, fun _ _ _ hs => ?_⟩⟩
    · cases hi
      rw [hr] at hlive
      exact of_decide_eq_true hlive
    · cases hb
      cases he
      decide
    · cases hb
      cases hs
  have hcalm : ∀ f ∈ again s, Calm (Unexpired Counting.core s.mem.kv a packet) f := by
    refine System.mem_fates fun n o => ?_
    cases o <;> first | exact hfive | trivial
  split at hfirst
  · rename_i call snapshot event nonce remote localName hout
    rw [Bool.and_eq_true, decide_eq_true_eq, decide_eq_true_eq] at hfirst
    obtain ⟨rfl, rfl⟩ := hfirst
    exact ⟨snapshot, event, remote, localName, link, outcome_some.mp hout, hlink,
      of_decide_eq_true hest,
      AckSession.loadable_iff.mp hload, hcalm⟩
  · cases hfirst

/-- The redelivered handshake is refused for the pre-key. -/
def keyless (s : State Nat) : Bool :=
  settled s && ((system Counting.svc).solo 1 s.mem receive (again s)).any fun x =>
    match x.2.1 with
    | .error e => e.code = some "PEER_LINK_PREKEY_MISSING"
    | .ok _ => false

/-- The pre-key is there and the ledger has account `b`. -/
def reusable (s : State Nat) : Bool :=
  settled s && (s.mem.kv.lookup (.invitePreKey a d)).isSome &&
    (s.mem.kv.lookup (.invite a d)).any (fun r => b ∈ r.acceptedAcceptors) &&
    ((system Counting.svc).solo 1 s.mem receive (again s)).isSome

end Example

open Example Counting in
/-- The only use of the invite is account `b`'s; its handshake is delivered
once more, and refused for the pre-key that the first delivery deleted. -/
theorem redelivery_refused : ∃ s snapshot event remote localName link τ e m',
    ((system Counting.svc).lts (LinkPeers.anyCalls fun _ _ => none)).Reachable s ∧
      s.threads[0]? = some ⟨.handshake a [1, 3, 0],
        .ret (.ok (.handshake (.accepted snapshot event (some a) remote localName)))⟩ ∧
      Offers Counting.core [1, 3, 0] packet b d ∧ linkOfPair s.mem.kv a b = some link ∧
      link.state = .sessionEstablished ∧ Loadable s.mem.kv a b ∧
      (∀ f ∈ again s, Calm (Unexpired Counting.core s.mem.kv a packet) f) ∧
      (system Counting.svc).solo 1 s.mem receive (again s) = some (τ, .error e, m') ∧
      e.code = some "PEER_LINK_PREKEY_MISSING" := by
  obtain ⟨s, hr, hs⟩ :=
    System.reachable_of_play (S := system Counting.svc) (LinkPeers.judge fun _ _ => none) smooth
    [.call (.handshake a [1, 3, 0]), .go 0 52] (m := start 1 (by decide))
    (P := keyless) (start_init _ _) (by decide +kernel)
  rw [keyless, Bool.and_eq_true] at hs
  obtain ⟨snapshot, event, remote, localName, link, hfirst, hlink, hest, hload, hcalm⟩ :=
    settled_spec hs.1
  obtain ⟨⟨τ, x, m'⟩, hrun, hx⟩ := (Option.any_eq_true _ _).mp hs.2
  cases x with
  | ok v => cases hx
  | error e =>
    exact ⟨s, snapshot, event, remote, localName, link, τ, e, m', hr, hfirst,
      offers, hlink, hest, hload, hcalm, hrun,
      of_decide_eq_true hx⟩

open Example Counting in
/-- The invite has a second use: the redelivered handshake is acknowledged
again. -/
theorem redelivery_idempotent_open :
    ∃ s τ x m', ((system Counting.svc).lts (LinkPeers.anyCalls fun _ _ => none)).Reachable s ∧
      (system Counting.svc).solo 1 s.mem receive (again s) = some (τ, x, m') ∧
      (∃ snapshot event remote localName,
          x = .ok (.accepted snapshot event (some a) remote localName)) ∧
      ∀ k, kindOf k ∈ sessionKinds → m'.kv.lookup k = s.mem.kv.lookup k := by
  obtain ⟨s, hr, hs⟩ :=
    System.reachable_of_play (S := system Counting.svc) (LinkPeers.judge fun _ _ => none) smooth
    [.call (.handshake a [1, 3, 0]), .go 0 51] (m := start 2 (by decide))
    (P := reusable) (start_init _ _) (by decide +kernel)
  simp only [reusable, Bool.and_eq_true] at hs
  obtain ⟨⟨⟨hsettled, hkey⟩, hledger⟩, hrun⟩ := hs
  obtain ⟨snapshot, event, remote, localName, link, hfirst, hlink, hest, -, hcalm⟩ :=
    settled_spec hsettled
  obtain ⟨r, hlook, hin⟩ := (Option.any_eq_true _ _).mp hledger
  obtain ⟨⟨τ, x, m'⟩, hrun⟩ := Option.isSome_iff_exists.mp hrun
  exact ⟨s, τ, x, m', hr, hrun,
    (redelivery_idempotent Counting.svc decides (fun _ _ => none) s hr a [1, 3, 0] 0 snapshot
    event (some a) remote localName hfirst packet b d offers link hlink hest 1
      (again s) hcalm τ x m' hrun).mpr
    ⟨hkey, r, hlook, of_decide_eq_true hin⟩⟩

namespace Example

open Counting

/-- Account `a` accepts an invite of `b`, to recover its link. -/
def recover : AcceptArgs := Reestablish.Example.recover

/-- The ratchet of account `b`'s session. -/
def ratchet (kv : Store Nat) : Option Nat :=
  ((linkOfPair kv a b).bind fun link => sessionOfLink kv a link.peerLinkId).map (·.ratchetSnapshot)

/-- Account `b`'s handshake was accepted, and once more it sets the ratchet
back. -/
def setsBack (s : State Nat) : Bool :=
  (match outcome s 0 with
  | some (call, .ok (.handshake (.accepted ..))) => call = .handshake a [1, 3, 0]
  | _ => false) && ratchet s.mem.kv = some 1 &&
    ((system Counting.svc).solo 3 s.mem receive
    ((system Counting.svc).fates smooth 3 200 s.mem receive)).any
      fun x => ratchet x.2.2.kv = some 0

end Example

open Example Counting in
/-- Account `b`'s handshake is accepted; account `a` recovers its link to `b`
and sends a message; the old handshake is delivered again and sets the ratchet
back. -/
theorem replay_resets_ratchet : ∃ s snapshot event nonce remote localName fs τ x m',
    ((system Counting.svc).lts (LinkPeers.anyCalls fun _ _ => none)).Reachable s ∧
      s.threads[0]? = some ⟨.handshake a [1, 3, 0],
        .ret (.ok (.handshake (.accepted snapshot event nonce remote localName)))⟩ ∧
      (system Counting.svc).solo 3 s.mem receive fs = some (τ, x, m') ∧
      ratchet s.mem.kv = some 1 ∧ ratchet m'.kv = some 0 := by
  obtain ⟨s, hr, hs⟩ :=
    System.reachable_of_play (S := system Counting.svc) (LinkPeers.judge fun _ _ => none) smooth
    [.call (.handshake a [1, 3, 0]), .go 0 51, .call (.accept recover), .go 1 56,
    .call (.encrypt a b [9]), .go 2 9]
    (m := start 2 (by decide)) (P := setsBack) (start_init _ _) (by decide +kernel)
  simp only [setsBack, Bool.and_eq_true] at hs
  obtain ⟨⟨hfirst, hbefore⟩, hafter⟩ := hs
  obtain ⟨⟨τ, x, m'⟩, hrun, hx⟩ := (Option.any_eq_true _ _).mp hafter
  split at hfirst
  · rename_i call snapshot event nonce remote localName hout
    rw [decide_eq_true_eq] at hfirst
    subst hfirst
    exact ⟨s, snapshot, event, nonce, remote, localName, _, τ, x, m', hr, outcome_some.mp hout,
      hrun,
      of_decide_eq_true hbefore, of_decide_eq_true hx⟩
  · cases hfirst

open Example Counting in
/-- While the link is established, the replay leaves the sessions alone. -/
theorem replay_keeps_sessions_established : ∃ s τ x m',
    ((system Counting.svc).lts (LinkPeers.anyCalls fun _ _ => none)).Reachable s ∧
      (system Counting.svc).solo 1 s.mem receive (again s) = some (τ, x, m') ∧
      ∀ k, kindOf k ∈ sessionKinds → m'.kv.lookup k = s.mem.kv.lookup k := by
  obtain ⟨s, hr, hs⟩ :=
    System.reachable_of_play (S := system Counting.svc) (LinkPeers.judge fun _ _ => none) smooth
    [.call (.handshake a [1, 3, 0]), .go 0 51] (m := start 2 (by decide))
    (P := reusable) (start_init _ _) (by decide +kernel)
  simp only [reusable, Bool.and_eq_true] at hs
  obtain ⟨⟨⟨hsettled, -⟩, hledger⟩, hrun⟩ := hs
  obtain ⟨-, -, -, -, link, -, hlink, hest, -, -⟩ := settled_spec hsettled
  obtain ⟨r, hlook, hin⟩ := (Option.any_eq_true _ _).mp hledger
  obtain ⟨⟨τ, x, m'⟩, hrun⟩ := Option.isSome_iff_exists.mp hrun
  exact ⟨s, τ, x, m', hr, hrun,
    (replay_keeps_sessions Counting.svc (fun _ _ => none) s hr a [1, 3, 0] packet b d offers 1
    (again s) τ x m' hrun).1 (.inl ⟨⟨r, hlook, of_decide_eq_true hin⟩, link, hlink, hest⟩)⟩

end RezSdk.L4.Redelivery
