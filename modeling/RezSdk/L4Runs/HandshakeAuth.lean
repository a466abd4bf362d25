import RezSdk.L3Service.Counting
import RezSdk.L4Runs.LinkPeers

/-!
# A handshake is authenticated before it has an effect

`handleIncomingHandshakePacket` checks the chain envelope signature, account
binding, account key, account id before it writes anything but the owner's
own key record (`obeys_handshake`). `handshake_authentic` says so of every
run of every calls: whatever a handshake call has written, and whatever it
has returned, its packet is `Authentic` for the account the records are
stored under.
-/
namespace RezSdk.L4.HandshakeAuth

open RezSdk.L1 RezSdk.L2 RezSdk.L3

variable {Snap : Type}

/-! ## Authentic packets -/

/-- A signer whose certificate chain was accepted under the account key. -/
structure Delegated (core : Core Snap) (times : List Nat) (b : AccountBinding) (account key : Id) :
    Prop where
  named : b.accountBindingSignerPublicKeyB64 = some key
  chain : b.certChain ≠ []
  accepted : ∃ now ∈ times, ∃ n, core.answer (.verifyAccountAuthority ⟨account,
    key, b.certChain, now⟩) n = .ok none

/-- A binding whose signature by the account key, or a delegate of it, binds
the X3DH identity key to the account. `times` are the clock readings the
checks were made at. -/
structure Binds (core : Core Snap) (times : List Nat) (b : AccountBinding)
    (account identity peer : Id) : Prop where
  accountKey : b.accountIdentityPublicKeyB64 = some account
  identityKey : b.x3dhIdentityPublicKeyB64 = some identity
  derives : core.deriveAccountId account = some peer
  signed : ∃ expires sig key, b.expiresAtMs = some expires ∧ b.accountBindingSigB64 = some sig ∧
    (∃ now ∈ times, now < expires) ∧
    (∃ n, core.answer
    (.verify key (core.bindingPayload peer identity (b.issuedAtMs.getD 0) expires) sig) n
      = .ok true) ∧
    (key = account ∨ Delegated core times b account key)

/-- The packet's envelope verifies under the key that its binding names, for
account `peer`. -/
def Authentic (core : Core Snap) (packetBytes : Bytes) (times : List Nat) (peer : Id) : Prop :=
  ∃ p sig binding account identity, core.parsePacket packetBytes = .ok (some p) ∧
    p.signatureB64 = some sig ∧
    (∃ n, core.answer (.verifyHandshakeEnvelope (.handshake p.handshake sig)) n = .ok true) ∧
    p.handshake.senderAccountBinding = some binding ∧
    p.handshake.senderIdentitySigningPubKeyB64 = some identity ∧
    Binds core times binding account identity peer

theorem Delegated.mono {core : Core Snap} {times times' : List Nat} {b : AccountBinding}
    {account key : Id} (h : Delegated core times b account key) (ht : times ⊆ times') :
    Delegated core times' b account key := by
  obtain ⟨now, hnow, hn⟩ := h.accepted
  exact ⟨h.named, h.chain, now, ht hnow, hn⟩

theorem Binds.mono {core : Core Snap} {times times' : List Nat} {b : AccountBinding}
    {account identity peer : Id} (h : Binds core times b account identity peer)
    (ht : times ⊆ times') : Binds core times' b account identity peer := by
  obtain ⟨expires, sig, key, he, hs, ⟨now, hnow, hlt⟩, hv, hkey⟩ := h.signed
  refine ⟨h.accountKey, h.identityKey, h.derives, expires, sig, key, he, hs,
    ⟨now, ht hnow, hlt⟩, hv, ?_⟩
  exact hkey.imp id fun hd => hd.mono ht

theorem Authentic.mono {core : Core Snap} {b : Bytes} {times times' : List Nat} {peer : Id}
    (h : Authentic core b times peer) (ht : times ⊆ times') : Authentic core b times' peer := by
  obtain ⟨p, sig, binding, account, identity, hp, hs, hv, hb, hi, hbinds⟩ := h
  exact ⟨p, sig, binding, account, identity, hp, hs, hv, hb, hi, hbinds.mono ht⟩

/-! ## What a handshake call may write -/

/-- The record is stored for account `peer`. -/
def Under (peer : Id) : Op Snap → Prop
  | .set (.peerLink _ _) r => r.peerAccountId = peer
  | .set (.pair _ p) _ => p = peer
  | .set (.session _ _) r => r.peerAccountId = peer
  | .set (.invite _ _) r => r.acceptedAcceptors.getLast? = some peer
  | .set (.event _ _) ev => ("peerAccountId", some peer.val) ∈ ev.details
  | _ => True

/-- The key the operation writes or deletes. -/
def writesKey : Op Snap → Option Key
  | .set k _ => some k
  | .delete k => some k
  | _ => none

/-- The owner and the packet of a handshake call, and its clock readings. -/
structure View where
  packet : Option (Id × Bytes)
  times : List Nat

def View.next (a : View) : Proc.Exch (sdk Snap) → View
  | ⟨.clock, n⟩ => { a with times := n :: a.times }
  | _ => a

/-- Everything but the owner's key record is written for an authenticated
account. -/
def View.May (core : Core Snap) (a : View) (o : Op Snap) : Prop :=
  ∀ owner b, a.packet = some (owner, b) → ∀ k, writesKey o = some k →
    k = .identity owner ∨ ∃ peer, Authentic core b a.times peer ∧ Under peer o

def monitor (core : Core Snap) : Monitor (sdk Snap) View := ⟨View.next, View.May core⟩

theorem next_packet (a : View) (x : Proc.Exch (sdk Snap)) : (a.next x).packet = a.packet := by
  unfold View.next
  split <;> rfl

theorem next_times (a : View) (x : Proc.Exch (sdk Snap)) : a.times ⊆ (a.next x).times := by
  unfold View.next
  split
  · exact List.subset_cons_self _ _
  · exact List.Subset.refl _

/-! ## The checks -/

/-- What is known of the answers a call gets: @rezprotocol/core is `core`, and
links agree with the final store `kv` about their peers. -/
def Law (core : Core Snap) (kv : Store Snap) (x : Proc.Exch (sdk Snap)) : Prop :=
  Lawful core x ∧ LinkPeers.Agrees kv x

section

variable {svc : Service Snap} {kv : Store Snap} {a : View} {α : Type}

/-- The call is still the same, and later. -/
def View.Later (a a' : View) : Prop := a'.packet = a.packet ∧ a.times ⊆ a'.times

theorem obeys_core {q : CoreCall Snap} {Q : View → Except Err q.Value → Prop}
    (h : ∀ n, Q a (svc.core.answer q n)) :
    Obeys (monitor svc.core) (Law svc.core kv) Q a (callCore q) := by
  refine ⟨fun _ _ _ _ hk => (by cases hk), fun r hr => ?_⟩
  obtain ⟨n, rfl⟩ := hr.1
  exact h n

theorem obeys_clock {Q : View → Except Err Nat → Prop}
    (h : ∀ n, Q { a with times := n :: a.times } (.ok n)) :
    Obeys (monitor svc.core) (Law svc.core kv) Q a (clock : Sdk Snap Nat) :=
  ⟨fun _ _ _ _ hk => (by cases hk), fun n _ => h n⟩

theorem obeys_verifyKey {b : AccountBinding} {account : Id} :
    Obeys (monitor svc.core) (Law svc.core kv) (fun a' x => a.Later a' ∧
        ∀ key, x = .ok key → key = account ∨ Delegated svc.core a'.times b account key) a
      (bindingVerifyKey svc account b.accountBindingSignerPublicKeyB64 b.certChain) := by
  have hrefl : a.Later a := ⟨rfl, List.Subset.refl _⟩
  unfold bindingVerifyKey
  split
  · refine ⟨hrefl, fun key h => ?_⟩
    cases h
    exact .inl rfl
  · rename_i signer hsigner
    split
    · refine ⟨hrefl, fun key h => ?_⟩
      cases h
      exact .inl rfl
    · refine obeys_js_bind (obeys_ensure (fun hchain => ?_) fun _ => ⟨hrefl, fun _ h => by cases h⟩)
      refine obeys_js_bind (obeys_clock fun now => ?_)
      refine obeys_js_bind (obeys_core fun n => ?_)
      have hlater : a.Later { a with times := now :: a.times } := ⟨rfl, List.subset_cons_self _ _⟩
      cases hans :
        svc.core.answer (.verifyAccountAuthority ⟨account, signer, b.certChain, now⟩) n with
      | error e => exact ⟨hlater, fun _ h => by cases h⟩
      | ok refused =>
        refine obeys_js_bind (obeys_ensure (fun hnone => ?_) fun _ =>
          ⟨hlater, fun _ h => by cases h⟩)
        refine obeys_js_bind (obeys_ensure (fun _ => ?_) fun _ => ⟨hlater, fun _ h => by cases h⟩)
        refine ⟨hlater, fun key h => ?_⟩
        cases h
        refine .inr ⟨hsigner, ?_, now, .head _, n, ?_⟩
        · intro hnil
          rw [hnil] at hchain
          cases hchain
        · rw [hans, Option.isNone_iff_eq_none.mp hnone]

theorem obeys_verifyBinding {b : AccountBinding} {peer : Id} :
    Obeys (monitor svc.core) (Law svc.core kv) (fun a' x => a.Later a' ∧
        (x = .ok () → ∃ account identity, Binds svc.core a'.times b account identity peer)) a
      (verifyInviteX3dhBinding svc peer (some (senderX3dh b)) b.certChain) := by
  have hrefl : a.Later a := ⟨rfl, List.Subset.refl _⟩
  have hfail : ∀ {a' : View} {e : Err}, a.Later a' → a.Later a' ∧
      ((.error e : Except Err Unit) = .ok () →
      ∃ account identity, Binds svc.core a'.times b account identity peer) :=
    fun h => ⟨h, fun he => by cases he⟩
  refine obeys_js_bind (obeys_orThrow (fun x hx => ?_) fun _ => hfail hrefl)
  cases hx
  refine obeys_js_bind (obeys_orThrow (fun account hacc => ?_) fun _ => hfail hrefl)
  refine obeys_js_bind (obeys_orThrow (fun sig hsig => ?_) fun _ => hfail hrefl)
  refine obeys_js_bind (obeys_orThrow (fun identity hid => ?_) fun _ => hfail hrefl)
  refine obeys_js_bind (obeys_orThrow (fun expires hexp => ?_) fun _ => hfail hrefl)
  refine obeys_js_bind (obeys_ensure (fun _ => ?_) fun _ => hfail hrefl)
  refine obeys_js_bind (obeys_ensure (fun hder => ?_) fun _ => hfail hrefl)
  refine obeys_js_bind (obeys_clock fun now => ?_)
  have hlater : a.Later { a with times := now :: a.times } := ⟨rfl, List.subset_cons_self _ _⟩
  refine obeys_js_bind (obeys_ensure (fun hlt => ?_) fun _ => hfail hlater)
  rw [decide_eq_true_eq] at hder hlt
  refine obeys_js_bind ((obeys_verifyKey (b := b)).mono fun a₁ y hy => ?_)
  obtain ⟨hl₁, hkey⟩ := hy
  have hlater₁ : a.Later a₁ := ⟨hl₁.1, fun n hn => hl₁.2 (.tail _ hn)⟩
  cases y with
  | error e => exact hfail hlater₁
  | ok key =>
    refine obeys_js_bind (obeys_core fun n => ?_)
    cases hans : svc.core.answer (.verify key (svc.core.bindingPayload peer identity
        (b.issuedAtMs.getD 0) expires) sig) n with
    | error e =>
      simp only [senderX3dh, hans]
      exact hfail hlater₁
    | ok verified =>
      simp only [senderX3dh, hans]
      refine obeys_ensure
        (fun htrue => ⟨hlater₁, fun _ => ⟨account, identity, hacc, hid, hder, ?_⟩⟩)
        fun _ => hfail hlater₁
      refine ⟨expires, sig, key, hexp, hsig, ⟨now, hl₁.2 (.head _), hlt⟩, ⟨n, ?_⟩, hkey key rfl⟩
      rw [hans, htrue]

/-- The checks on a packet pass only if it is authentic. -/
theorem obeys_authenticate {b : Bytes} {p : HandshakePacket}
    (hp : svc.core.parsePacket b = .ok (some p)) :
    Obeys (monitor svc.core) (Law svc.core kv) (fun a' x => a.Later a' ∧
        ∀ y, x = .ok y → Authentic svc.core b a'.times y.peerAccountId) a (authenticate svc p) := by
  have hrefl : a.Later a := ⟨rfl, List.Subset.refl _⟩
  have hfail : ∀ {a' : View} {e : Err}, a.Later a' → a.Later a' ∧ ∀ y : Authenticated,
      (.error e : Except Err Authenticated) = .ok y →
      Authentic svc.core b a'.times y.peerAccountId :=
    fun h => ⟨h, fun _ he => by cases he⟩
  refine obeys_js_bind (obeys_orThrow (fun sig hsig => ?_) fun _ => hfail hrefl)
  refine obeys_js_bind (obeys_core fun n => ?_)
  cases hans : svc.core.answer (.verifyHandshakeEnvelope (.handshake p.handshake sig)) n with
  | error e => exact hfail hrefl
  | ok verified =>
    refine obeys_js_bind (obeys_ensure (fun htrue => ?_) fun _ => hfail hrefl)
    subst htrue
    refine obeys_js_bind (obeys_orThrow (fun inviteId _ => ?_) fun _ => hfail hrefl)
    refine obeys_js_bind (obeys_orThrow (fun binding hb => ?_) fun _ => hfail hrefl)
    refine obeys_js_bind (obeys_ensure (fun hkey => ?_) fun _ => hfail hrefl)
    refine obeys_js_bind (obeys_orThrow (fun peer hpeer => ?_) fun _ => hfail hrefl)
    refine obeys_js_bind (obeys_verifyBinding.mono fun a' y hy => ?_)
    obtain ⟨hlater, hbinds⟩ := hy
    cases y with
    | error e => exact hfail hlater
    | ok u =>
      refine ⟨hlater, fun y hy => ?_⟩
      cases hy
      obtain ⟨account, identity, hbinds⟩ := hbinds rfl
      rw [decide_eq_true_eq, hbinds.identityKey] at hkey
      exact ⟨p, sig, binding, account, identity, hp, (Option.filter_eq_some_iff.mp hsig).1,
        ⟨n, hans⟩, hb,
        hkey.symm, hbinds⟩

end

/-! ## The writes -/

/-- The record writes that name an account. -/
def named : List OpClass := [.set .peerLink, .set .pair, .set .session, .set .invite, .set .event]

section

variable {svc : Service Snap} {peer : Id} {α : Type}

theorem under_foot {l : List OpClass} {p : Proc (sdk Snap) α} (hp : Foot l p)
    (hl : l.all (fun c => !named.contains c) = true) : p.All (Under peer) := by
  refine Proc.All.mono (fun o ho => ?_) hp
  have hc := List.all_eq_true.mp hl _ (List.contains_iff_mem.mp ho.1)
  unfold Under
  split <;> trivial

theorem under_update {r : PeerLinkRecord} {v : Nat} (h : r.peerAccountId = peer) :
    Proc.All (Under peer) (PeerLinks.update r v : Sdk Snap _) := by
  refine Js.all_bind ⟨trivial, fun _ => trivial⟩ fun _ =>
    Js.all_bind (Js.all_orThrow _ _ _) fun current => ?_
  refine Js.all_bind (Js.all_ensure _ _ _) fun _ => Js.all_bind (Js.all_ensure _ _ _) fun _ => ?_
  refine Js.all_bind (Js.all_ensure _ _ _) fun _ => Js.all_bind (Js.all_ensure _ _ _) fun _ => ?_
  exact Js.all_bind ⟨h, fun _ => trivial⟩ fun _ => Js.all_bind ⟨h, fun _ => trivial⟩ fun _ =>
    trivial

theorem under_create {r : PeerLinkRecord} (h : r.peerAccountId = peer) :
    Proc.All (Under peer) (PeerLinks.create r : Sdk Snap _) := by
  refine Js.all_bind ⟨trivial, fun _ => trivial⟩ fun _ => Js.all_bind (Js.all_ensure _ _ _) fun _ =>
    ?_
  refine Js.all_bind ⟨trivial, fun _ => trivial⟩ fun _ => Js.all_bind (Js.all_ensure _ _ _) fun _ =>
    ?_
  exact Js.all_bind ⟨h, fun _ => trivial⟩ fun _ => Js.all_bind ⟨h, fun _ => trivial⟩ fun _ =>
    trivial

theorem under_put {r : SessionRecord Snap} (h : r.peerAccountId = peer) :
    Proc.All (Under peer) (Sessions.put r) := by
  refine Js.all_bind ⟨trivial, fun _ => trivial⟩ fun _ => Js.all_bind ⟨h, fun _ => trivial⟩ fun _ =>
    ?_
  refine Js.all_bind ?_ fun _ => trivial
  unfold Sessions.setIndex
  split <;> exact ⟨trivial, fun _ => trivial⟩

theorem under_appendEvent {owner link : Id} {type : EventType} {summary : Option String}
    {details : List (String × Option String)} {now : Nat}
    (h : ("peerAccountId", some peer.val) ∈ details) :
    Proc.All (Under peer)
      (appendPeerLinkEvent owner link type summary details now : Sdk Snap _) := by
  refine Js.all_bind ⟨trivial, fun _ => trivial⟩ fun _ => Js.all_bind ⟨trivial,
    fun _ => trivial⟩ fun _ => ?_
  refine Js.all_bind ⟨trivial, fun _ => trivial⟩ fun existing => ?_
  cases existing with
  | some e => exact Js.all_bind (Js.all_ensure _ _ _) fun _ => trivial
  | none =>
    exact Js.all_bind ⟨h, fun _ => trivial⟩ fun _ => Js.all_bind ⟨trivial,
      fun _ => trivial⟩ fun _ =>
      Js.all_bind ⟨trivial, fun _ => trivial⟩ fun _ => trivial

theorem under_track {π : Type} {q : π} {p : Sdk Snap α} (hp : Proc.All (Under peer) p) :
    Proc.All (Under peer) (track q p) :=
  Proc.all_bind hp fun
    | .ok _ => trivial
    | .error _ => trivial

/-- A commit for `peer`, whose details do not name another account. -/
theorem under_commitSession {args : CommitArgs Snap} (hp : args.peer = peer)
    (hl : args.peerLinkRecord.peerAccountId = peer)
    (hd : args.eventDetails.any (·.1 == "peerAccountId") = false) :
    Proc.All (Under peer) (commitSession svc args) := by
  have hlink : ∀ now stored p, Proc.All (Under peer) (commitLink svc args now stored p) := by
    intro now stored p
    refine Js.all_bind (under_foot (l := []) (foot_track foot_checkTransition) rfl) fun _ => ?_
    refine Js.all_bind (under_track (under_update hl)) fun next => ?_
    refine Js.all_bind (under_track (under_appendEvent ?_)) fun event => ?_
    · refine List.mem_append_left _ (List.mem_filter.mpr ⟨?_, by rw [hd]; rfl⟩)
      rw [hp]
      exact .head _
    · refine Js.all_bind (under_foot (l := [.count]) (foot_track (foot_clearCounts rfl)) rfl)
        fun _ => ?_
      refine Js.all_bind (under_foot (l := [.count]) (foot_track (foot_markSuccess rfl)) rfl)
        fun _ => ?_
      exact Js.all_bind (under_foot (foot_track foot_buildSnapshot) rfl) fun _ => trivial
  refine Js.all_bind (under_foot (l := [.clock]) (foot_track (foot_clock rfl)) rfl) fun c => ?_
  split
  · exact hlink _ _ _
  · refine Js.all_bind (under_foot (foot_track foot_commitSessionId) rfl) fun sid => ?_
    exact Js.all_bind (under_track (under_put hp)) fun stored => hlink _ _ _

end

/-! ## The results -/

section

variable {svc : Service Snap}

theorem ok_buildSnapshot {r : PeerLinkRecord} :
    Js.Ok (·.peerAccountId = r.peerAccountId) (buildSnapshot r : Sdk Snap PeerLinkSnapshot) :=
  Js.ok_skip fun _ => Js.ok_skip fun _ => Js.ok_pure rfl

theorem ok_update {r : PeerLinkRecord} {v : Nat} :
    Js.Ok (·.peerAccountId = r.peerAccountId) (PeerLinks.update r v : Sdk Snap PeerLinkRecord) :=
  Js.ok_skip fun _ => Js.ok_skip fun _ => Js.ok_skip fun _ => Js.ok_skip fun _ =>
    Js.ok_skip fun _ =>
    Js.ok_skip fun _ => Js.ok_skip fun _ => Js.ok_skip fun _ => Js.ok_pure rfl

theorem ok_create {r : PeerLinkRecord} :
    Js.Ok (·.peerAccountId = r.peerAccountId) (PeerLinks.create r : Sdk Snap PeerLinkRecord) :=
  Js.ok_skip fun _ => Js.ok_skip fun _ => Js.ok_skip fun _ => Js.ok_skip fun _ =>
    Js.ok_skip fun _ => Js.ok_skip fun _ => Js.ok_pure rfl

theorem ok_track {π α : Type} {P : α → Prop} {q : π} {p : Sdk Snap α} (hp : Js.Ok P p) :
    Js.Ok P (track q p) := by
  refine Proc.returns_bind (Proc.Returns.mono (fun x hx => ?_) hp)
  cases x with
  | ok v => exact fun _ h => by cases h; exact hx v rfl
  | error e => exact fun _ h => by cases h

theorem ok_untrack {π α : Type} {P : α → Prop} {p : Tracked Snap π α} (hp : Js.Ok P p) :
    Js.Ok P (untrack p) := by
  refine Proc.returns_bind (Proc.Returns.mono (fun x hx => ?_) hp)
  cases x with
  | ok v => exact fun _ h => by cases h; exact hx v rfl
  | error e => exact fun _ h => by cases h

/-- The commit's snapshot is one of the given link. -/
theorem ok_commitSession {args : CommitArgs Snap} :
    Js.Ok (·.snapshot.peerAccountId = args.peerLinkRecord.peerAccountId)
      (commitSession svc args) := by
  have hlink : ∀ now stored p, Js.Ok (·.snapshot.peerAccountId = args.peerLinkRecord.peerAccountId)
      (commitLink svc args now stored p) := by
    intro now stored p
    refine Js.ok_skip fun _ => Js.ok_bind (ok_track ok_update) fun next hnext => ?_
    refine Js.ok_skip fun _ => Js.ok_skip fun _ => Js.ok_skip fun _ => ?_
    exact Js.ok_bind (ok_track ok_buildSnapshot) fun snapshot hs => Js.ok_pure (hs.trans hnext)
  refine Js.ok_skip fun c => ?_
  split
  · exact hlink _ _ _
  · exact Js.ok_skip fun _ => Js.ok_skip fun _ => hlink _ _ _

/-- The outcome is about account `peer`. -/
def About (peer : Id) : HandshakeOutcome → Prop
  | .notHandshake => False
  | .rejected _ _ _ p => p = peer
  | .accepted snapshot .. => snapshot.peerAccountId = peer

end

/-! ## The call -/

section

variable {svc : Service Snap} {kv : Store Snap} {a : View} {owner peer : Id} {b : Bytes} {α : Type}

/-- The call's packet is authentic. -/
def View.Authed (core : Core Snap) (a : View) (owner : Id) (b : Bytes) (peer : Id) : Prop :=
  a.packet = some (owner, b) ∧ Authentic core b a.times peer

theorem obeys_under {L : Proc.Exch (sdk Snap) → Prop} {p : Proc (sdk Snap) α}
    (hp : p.All (Under peer)) :
    ∀ {a : View}, a.Authed svc.core owner b peer →
      Obeys (monitor svc.core) L (fun a' _ => a'.Authed svc.core owner b peer) a p := by
  induction p with
  | ret x => exact fun ha => ha
  | ask o k ih =>
    intro a ha
    refine ⟨fun owner' b' hpkt key _ => ?_, fun r _ => ih r (hp.2 r) ?_⟩
    · rw [ha.1, Option.some.injEq, Prod.mk.injEq] at hpkt
      obtain ⟨rfl, rfl⟩ := hpkt
      exact .inr ⟨peer, ha.2, hp.1⟩
    · exact ⟨(next_packet a _).trans ha.1, ha.2.mono (next_times a _)⟩

/-- What the call ends with. -/
def Ends (core : Core Snap) (owner : Id) (b : Bytes) (peer : Id) (a : View)
    (x : Except Err HandshakeOutcome) : Prop :=
  a.Authed core owner b peer ∧ ∀ out, x = .ok out → About peer out

theorem obeys_establishLink {x : Authenticated} {preKey : Bytes} {ex : Bool} {name : String}
    {now : Nat} {existing : Option PeerLinkRecord} (ha : a.Authed svc.core owner b x.peerAccountId)
    (he : ∀ e, existing = some e → e.peerAccountId = x.peerAccountId) :
    Obeys (monitor svc.core) (Law svc.core kv) (Ends svc.core owner b x.peerAccountId) a
      (establishLink svc owner x preKey ex name now existing) := by
  have hlink :
      Proc.All (Under x.peerAccountId) (responderLink x owner now existing : Sdk Snap _) ∧
      Js.Ok (·.peerAccountId = x.peerAccountId)
        (responderLink x owner now existing : Sdk Snap _) := by
    cases existing with
    | some e => exact ⟨trivial, Js.ok_pure (he e rfl)⟩
    | none =>
      exact ⟨Js.all_bind ⟨trivial, fun _ => trivial⟩ fun _ => under_create rfl,
        Js.ok_skip fun _ => ok_create⟩
  refine obeys_js_bind (((obeys_under hlink.1 ha).and_ok hlink.2).mono fun a' y hy => ?_)
  obtain ⟨ha', hpeer⟩ := hy
  cases y with
  | error e => exact ⟨ha', fun _ h => by cases h⟩
  | ok link =>
    refine (obeys_under ?_ ha').and_ok ?_
    · refine Js.all_bind (under_foot foot_establishAsResponder rfl) fun _ =>
        Js.all_bind (under_foot foot_sessionByLink rfl) fun _ => Js.all_bind ?_ fun commit => ?_
      · exact Proc.all_bind (under_commitSession rfl (hpeer link rfl) rfl) fun
          | .ok _ => trivial
          | .error _ => trivial
      · refine Js.all_bind ⟨trivial, fun _ => trivial⟩ fun _ =>
          Js.all_bind (under_foot foot_attemptCreate rfl) fun _ => ?_
        split
        · exact Js.all_bind ⟨trivial, fun _ => trivial⟩ fun _ => trivial
        · trivial
    · refine Js.ok_skip fun _ => Js.ok_skip fun _ =>
        Js.ok_bind (ok_untrack ok_commitSession) fun commit hc => ?_
      have habout := hc.trans (hpeer link rfl)
      refine Js.ok_skip fun _ => Js.ok_skip fun _ => ?_
      split
      · exact Js.ok_skip fun _ => Js.ok_pure habout
      · exact Js.ok_pure habout

theorem obeys_proceed {x : Authenticated} {ex al : Bool} {name : String}
    (ha : a.Authed svc.core owner b x.peerAccountId) :
    Obeys (monitor svc.core) (Law svc.core kv) (Ends svc.core owner b x.peerAccountId) a
      (proceedHandshake svc owner x ex al name) := by
  have hfail : ∀ {a' : View} {e : Err}, a'.Authed svc.core owner b x.peerAccountId →
      Ends svc.core owner b x.peerAccountId a' (.error e) := fun h => ⟨h, fun _ he => by cases he⟩
  refine obeys_js_bind
    ((obeys_under (under_foot (l := [.get .invitePreKey]) (foot_get rfl) rfl) ha).mono
    fun a' y ha => ?_)
  cases y with
  | error e => exact hfail ha
  | ok stored =>
    refine obeys_js_bind (obeys_orThrow (fun preKey _ => ?_) fun _ => hfail ha)
    refine obeys_js_bind (obeys_clock fun now => ?_)
    have ha' : View.Authed svc.core { a' with times := now :: a'.times } owner b x.peerAccountId :=
      ⟨ha.1, ha.2.mono (List.subset_cons_self _ _)⟩
    refine obeys_js_bind
      (LinkPeers.obeys_getByPair (fun _ _ => ⟨fun _ _ _ _ hk => (by cases hk), fun _ => rfl⟩)
      (fun _ h => h.2) (fun e he => ?_) ?_ fun _ => hfail ha')
    · dsimp only [Goes]
      split
      · refine (obeys_under ?_ ha').and_ok (Js.ok_bind ok_buildSnapshot fun s hs =>
          Js.ok_pure (hs.trans he))
        exact Js.all_bind (under_foot foot_buildSnapshot rfl) fun _ => trivial
      · exact obeys_establishLink ha' fun e' h => by cases h; exact he
    · exact obeys_establishLink ha' fun e' h => by cases h

/-- A ledger entry that is added names the acceptor. -/
theorem under_verdict {inviteId : Id} {record : Option InviteRecord} :
    Proc.All (Under peer) (inviteVerdict owner inviteId peer record : Sdk Snap _) := by
  cases record with
  | none => trivial
  | some r =>
    refine ⟨trivial,
      fun _ => ⟨trivial, fun _ => Proc.all_bind ?_ fun _ => ⟨trivial, fun _ => trivial⟩⟩⟩
    refine Js.all_bind (under_foot foot_inviteGet rfl) fun found => ?_
    cases found with
    | none => trivial
    | some fresh =>
      refine Js.all_bind ⟨trivial, fun _ => trivial⟩ fun now => ?_
      split
      · trivial
      split
      · trivial
      split
      · trivial
      · refine Js.all_bind ?_ fun _ => trivial
        refine Js.all_bind ⟨?_, fun _ => trivial⟩ fun _ => Js.all_bind ⟨trivial,
          fun _ => trivial⟩ fun _ => trivial
        exact List.getLast?_concat

theorem obeys_handleHandshake {p : HandshakePacket} (hp : svc.core.parsePacket b = .ok (some p))
    (ha : a.packet = some (owner, b)) :
    Obeys (monitor svc.core) (Law svc.core kv) (fun a' x => ∀ out, x = .ok out →
      ∃ peer, Ends svc.core owner b peer a' x) a (handleHandshake svc owner p) := by
  refine obeys_js_bind ((obeys_authenticate hp).mono fun a₁ y hy => ?_)
  obtain ⟨hlater, hauth⟩ := hy
  cases y with
  | error e => exact fun _ h => by cases h
  | ok x =>
    have ha₁ : a₁.Authed svc.core owner b x.peerAccountId := ⟨hlater.1.trans ha, hauth x rfl⟩
    refine obeys_js_bind
      ((obeys_under (under_foot foot_inviteGet rfl) ha₁).mono fun a₂ record ha₂ => ?_)
    cases record with
    | error e => exact fun _ h => by cases h
    | ok record =>
      refine obeys_js_bind ((obeys_under under_verdict ha₂).mono fun a₃ verdict ha₃ => ?_)
      match verdict with
      | .error e => exact fun _ h => by cases h
      | .ok (.reject reason) =>
        intro out hout
        refine ⟨x.peerAccountId, ha₃, fun out hout => ?_⟩
        cases hout
        rfl
      | .ok (.proceed ex al) =>
        exact (obeys_proceed ha₃).mono fun a₄ z hz out _ => ⟨x.peerAccountId, hz⟩

theorem obeys_handshake (ha : a.packet = some (owner, b)) :
    Obeys (monitor svc.core) (Law svc.core kv) (fun a' x =>
          ∀ out, x = .ok out → out = .notHandshake ∨ ∃ peer, Ends svc.core owner b peer a' x) a
      (handleIncomingHandshakePacket svc owner b) := by
  refine obeys_js_bind (obeys_ensure (fun _ => ?_) fun _ _ h => by cases h)
  dsimp only [Goes]
  split
  · exact fun _ h => by cases h
  · exact fun _ h => by cases h; exact .inl rfl
  · rename_i p hp
    exact (obeys_handleHandshake hp ha).mono fun a' x hx out hout => .inr (hx out hout)

end

/-! ## Whole runs -/

variable [DecidableEq Snap] {svc : Service Snap}

def start : Call → View
  | .handshake owner b => ⟨some (owner, b), []⟩
  | _ => ⟨none, []⟩

/-- The clock readings of call `t`. -/
def times (t : Nat) (log : List (Ev Snap)) : List Nat :=
  log.filterMap fun e =>
    match e.tid == t, e.exch with
    | true, ⟨.clock, n⟩ => some n
    | _, _ => none

/-- The reply of a handshake call is about an authenticated account. -/
def Replied (core : Core Snap) (owner : Id) (b : Bytes) (a : View) : Except Err Reply → Prop
  | .ok (.handshake out) =>
    out = .notHandshake ∨ ∃ peer, a.Authed core owner b peer ∧ About peer out
  | .ok _ => False
  | .error _ => True

def Post (core : Core Snap) : Call → View → Except Err Reply → Prop
  | .handshake owner b, a, x => Replied core owner b a x
  | _, _, _ => True

omit [DecidableEq Snap] in
/-- A call that is no handshake is not watched. -/
theorem obeys_unwatched {α : Type} {L : Proc.Exch (sdk Snap) → Prop} {core : Core Snap}
    {p : Proc (sdk Snap) α} :
    ∀ {a : View}, a.packet = none → Obeys (monitor core) L (fun _ _ => True) a p := by
  induction p with
  | ret x => exact fun _ => trivial
  | ask o k ih =>
    intro a ha
    refine ⟨fun _ _ h => ?_, fun r _ => ih r ((next_packet a _).trans ha)⟩
    rw [ha] at h
    cases h

theorem obeys_program (kv : Store Snap) (c : Call) :
    Obeys (monitor svc.core) (Law svc.core kv) (Post svc.core c) (start c) (program svc c) := by
  cases c with
  | handshake owner b =>
    refine obeys_js_bind ((obeys_handshake rfl).mono fun a x hx => ?_)
    match x with
    | .error e => trivial
    | .ok out =>
      rcases hx out rfl with h | ⟨peer, ha, hp⟩
      · exact .inl h
      · exact .inr ⟨peer, ha, hp out rfl⟩
  | _ => exact obeys_unwatched rfl

omit [DecidableEq Snap] in
theorem mon_times {core : Core Snap} (pk : Option (Id × Bytes)) (t : Nat) (log : List (Ev Snap)) :
    Pool.mon (monitor core) ⟨pk, []⟩ t log = ⟨pk, times t log⟩ := by
  induction log with
  | nil => rfl
  | cons e log ih =>
    by_cases ht : e.tid = t
    · subst ht
      rw [Pool.mon_self, ih]
      obtain ⟨t, op, ans, f⟩ := e
      cases op <;> simp [monitor, View.next, times, Event.exch]
    · rw [Pool.mon_other ht, ih]
      have hne : (e.tid == t) = false := beq_false_of_ne ht
      simp [times, hne]

/-- **Authentication before effect.** -/
theorem handshake_authentic (svc : Service Snap) (rows : LinkPeers.Rows) (s : State Snap)
    (hr : ((system svc).lts (LinkPeers.anyCalls rows)).Reachable s) (t : Nat) (owner : Id)
    (b : Bytes) (p : Proc (sdk Snap) (Except Err Reply))
    (ht : s.threads[t]? = some ⟨.handshake owner b, p⟩) :
    (∀ newer e older k, s.log = newer ++ e :: older → e.tid = t → writesKey e.op = some k →
        k = .identity owner ∨ ∃ peer, Authentic svc.core b (times t older) peer ∧ Under peer e.op) ∧
    (∀ out, p = .ret (.ok (.handshake out)) →
        out = .notHandshake ∨
        ∃ peer, Authentic svc.core b (times t s.log) peer ∧ About peer out) := by
  have hinv := (LinkPeers.inv_inductive svc rows).reachable s hr
  have hlawful := (System.log_lawful (S := system svc) (D := LinkPeers.anyCalls rows)
    fun _ _ _ _ _ hf _ => lawful_fires hf).reachable s hr
  have hlog : ∀ e ∈ s.log, Law svc.core s.mem.kv e.exch :=
    fun e he => ⟨hlawful e he, hinv.agrees e he⟩
  obtain ⟨hcon, hall⟩ := (System.conforms_within (S := system svc) (D := LinkPeers.anyCalls rows)
    fun _ c _ => obeys_program s.mem.kv c).reachable s hr hlog
  refine ⟨fun newer e older k hsplit het hk => ?_, fun out hp => ?_⟩
  · subst het
    have hmay := hall newer e older _ hsplit ht
    rw [start, mon_times] at hmay
    exact hmay owner b rfl k hk
  · subst hp
    have hpost := hcon.result ht
    rw [start, mon_times] at hpost
    rcases hpost with h | ⟨peer, ha, hp⟩
    · exact .inl h
    · exact .inr ⟨peer, ha.2, hp⟩

/-! ## A concrete run -/

/-- Any calls but replications. -/
def judge : System.Judge (LinkPeers.anyCalls fun _ _ => none : Rules Snap) where
  may _ c := !namesLink c
  ok _ _ := true
  may_iff _ c h := by
    cases c with
    | upsert args => cases h
    | _ => trivial
  ok_iff _ _ _ := trivial

open Counting

theorem inviting_init (i : InviteRecord) (hi : i.ownerAccountId = a ∧ i.inviteId = d) :
    (LinkPeers.anyCalls fun _ _ => none : Rules Nat).init (.ofStore (inviting i) []) := by
  have hfiled := ((FiledStore.empty : FiledStore (∅ : Store Nat)).insert (k := .identity a)
    (v := AccountKeys.toStored ⟨⟨a, a⟩, ⟨a, a⟩, a, some (bindingOf a 50)⟩) trivial).insert (k :=
  .invite a d)
    (v := i) hi
  have hlink : ∀ o l p, ¬ LinkPeers.HasPeer (inviting i) o l p := by
    rintro o l p ⟨r, hr, -⟩
    rw [inviting_other (k := .peerLink o l) nofun nofun nofun] at hr
    cases hr
  refine ⟨hfiled.insert (k := .invitePreKey a d) (v := []) trivial,
    fun o l p h => (hlink o l p h).elim,
    fun o l p q h => (hlink o l p h).elim, fun o p l h => ?_, fun _ _ _ h => by cases h⟩
  have hnone : (inviting i).lookup (.pair o p) = none := inviting_other nofun nofun nofun
  cases hnone.symm.trans h

/-- The first call is account `b`'s handshake, and it was accepted. -/
def accepted (s : State Nat) : Bool :=
  s.threads[0]?.any fun th => th.call = .handshake a [1, 3, 0] &&
    match th.proc with
    | .ret (.ok (.handshake (.accepted ..))) => true
    | _ => false

/-- Account `b`'s handshake for a fresh invite is accepted, and authentic. -/
theorem handshake_authentic_accepted :
    ∃ s out, ((system Counting.svc).lts (LinkPeers.anyCalls fun _ _ => none)).Reachable s ∧
      accepted s = true ∧
      ∃ peer, Authentic Counting.core [1, 3, 0] (times 0 s.log) peer ∧ About peer out := by
  obtain ⟨s, hr, hs⟩ := System.reachable_of_play (S := system Counting.svc) judge smooth
    [.call (.handshake a [1, 3, 0]), .go 0 51] (m := .ofStore (inviting (invite 2 [])) [])
    (P := accepted)
    (inviting_init _ ⟨rfl, rfl⟩) (by decide +kernel)
  obtain ⟨⟨c, p⟩, hth, hacc⟩ := (Option.any_eq_true _ _).mp hs
  rw [Bool.and_eq_true, decide_eq_true_eq] at hacc
  obtain ⟨rfl, hp⟩ := hacc
  dsimp only at hp
  split at hp
  · rename_i snapshot event nonce remote name
    have h := (handshake_authentic Counting.svc _ s hr 0 a [1, 3, 0] _ hth).2 _ rfl
    refine ⟨s, _, hr, hs, h.resolve_left fun h => by cases h⟩
  · cases hp

end RezSdk.L4.HandshakeAuth
