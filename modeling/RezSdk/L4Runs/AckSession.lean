import RezSdk.L3Service.Counting
import RezSdk.L4Runs.HandshakeAlone

/-!
# An acknowledged handshake and its session

`handleIncomingHandshakePacket` answers an acceptor that is already in the
invite's ledger without building a session, as soon as the acceptor's link is
established. A link that was replicated from a sibling device is established
and has no session here, so the ack it sends then promises a session that
`encryptDirectMessage` does not find (`ack_without_session`).
`ack_has_session` says that this is the only way.
-/
namespace RezSdk.L4.AckSession

open RezSdk.L1 RezSdk.L2 RezSdk.L3

variable {Snap : Type}

/-! ## What `encryptDirectMessage` loads -/

/-- `encryptDirectMessage` up to the codec. -/
def loadSession (owner peer : Id) : Sdk Snap (PeerLinkRecord × SessionRecord Snap) := do
  let found ← PeerLinks.getByPair owner peer
  let link ← Js.orThrow found (threadNotReady "No peer link exists for this contact")
  let session ← Sessions.getByPeerLinkId owner link.peerLinkId
  let record ← Js.orThrow session (threadNotReady "Secure session is not ready yet")
  Js.ensure (isSessionUsable record.status) (threadNotReady "Secure session is not ready yet")
  return (link, record)

/-- `encryptDirectMessage` from the codec on. -/
def sealWith (owner peer : Id) (plaintextBytes : Bytes) (x : PeerLinkRecord × SessionRecord Snap) :
    Sdk Snap EncryptResult := do
  let (packet, snapshot) ← callCore (.encryptForPeer x.2.ratchetSnapshot peer plaintextBytes)
  let now ← clock
  let stored ← Sessions.put
    { x.2 with
      localAccountId := owner
      peerAccountId := peer
      ratchetSnapshot := snapshot
      updatedAtMs := now }
  return {
    peerLinkId := x.1.peerLinkId
    sessionId := stored.sessionId
    encryptedPacket := packet
    sessionState := stored.status }

theorem encrypt_loads (owner peer : Id) (plaintextBytes : Bytes) :
    (encryptDirectMessage owner peer plaintextBytes : Sdk Snap EncryptResult) =
      (do
        Js.ensure (!plaintextBytes.isEmpty)
          { message := "encryptDirectMessage requires non-empty plaintextBytes" }
        let x ← loadSession owner peer
        sealWith owner peer plaintextBytes x) := by
  unfold loadSession
  simp only [Js.bind_assoc, Js.pure_bind]
  rfl

variable {svc : Service Snap} {t : Nat} {m : Mem Snap} {owner peer : Id}

/-- A session is loaded only if there is one. -/
theorem after_loadSession {g : Key → Fate → Bool} {b : Bool} :
    After (alone svc.core t g) (fun x _ => x.toBool = true → Loadable m.kv owner peer)
      (loadSession owner peer) (m, b) := by
  refine after_js_bind (after_getByPair ?_ fun _ => nofun)
  refine after_js_bind (after_orThrow (fun link hlink => ?_) fun _ => nofun)
  refine after_js_bind (after_sessionByLink ?_ fun _ => nofun)
  refine after_js_bind (after_orThrow (fun record hrecord => ?_) fun _ => nofun)
  refine after_js_bind (after_ensure (fun husable => ?_) fun _ => nofun)
  exact fun _ => ⟨link, record, hlink, hrecord, husable⟩

/-- A read that succeeds, alone. -/
theorem solo_get [DecidableEq Snap] {α : Type} {k : Key} {v : Option (Val Snap k)}
    {f : Option (Val Snap k) → Sdk Snap α} {fs : List Fate} {y : Except Err α × Mem Snap}
    (hk : m.kv.lookup k = v) (h : ∃ τ, (system svc).solo t m (f v) fs = some (τ, y)) :
    ∃ τ, (system svc).solo t m (kvGet k >>= f : Sdk Snap α) (.ok :: fs) = some (τ, y) := by
  obtain ⟨τ, h⟩ := h
  subst hk
  refine ⟨⟨.get k, .ok (m.kv.lookup k)⟩ :: τ, ?_⟩
  exact Option.map_eq_some_iff.mpr ⟨(τ, y), h, rfl⟩

/-- **A session can be loaded exactly when it is stored and usable.** -/
theorem loads_iff [DecidableEq Snap] : Loadable m.kv owner peer ↔
    ∃ fs τ x, (system svc).solo t m (loadSession owner peer) fs = some (τ, .ok x, m) := by
  constructor
  · rintro ⟨link, session, hlink, hsession, husable⟩
    obtain ⟨l, hl, hlink⟩ := Option.bind_eq_some_iff.mp hlink
    obtain ⟨sid, hsid, hsession⟩ := Option.bind_eq_some_iff.mp hsession
    have hrun : ∃ τ, (system svc).solo t m (loadSession owner peer) [.ok, .ok, .ok, .ok] =
        some (τ, .ok (link, session), m) := by
      unfold loadSession PeerLinks.getByPair Sessions.getByPeerLinkId
      simp only [Js.bind_assoc]
      refine solo_get hl (solo_get hlink (solo_get hsid (solo_get hsession ?_)))
      simp only [Js.orThrow, Js.pure_bind, Js.ensure, husable, if_true]
      exact ⟨[], rfl⟩
    obtain ⟨τ, hrun⟩ := hrun
    exact ⟨_, τ, _, hrun⟩
  · rintro ⟨fs, τ, x, hrun⟩
    exact After.solo_observed (S := system svc) (b := false)
      (after_loadSession (g := fun _ _ => false)) hrun rfl

/-! ## The theorem -/

/-- The acceptor is in the ledger and its link is established, but there is
no session to load. -/
def Hollow (kv : Store Snap) (owner invite peer : Id) : Prop :=
  InLedger kv owner invite peer ∧
    (∃ link, linkOfPair kv owner peer = some link ∧ link.state = .sessionEstablished) ∧
    ¬ Loadable kv owner peer

theorem loadable_frame {w : World Snap} (h : Frame verdictKinds (m, false) w) :
    Loadable w.1.kv owner peer ↔ Loadable m.kv owner peer := by
  have hlink : linkOfPair w.1.kv owner peer = linkOfPair m.kv owner peer := by
    refine linkOfPair_congr fun k hk => h.kv k ?_
    rcases hk with hk | hk <;> rw [hk] <;> decide
  have hsession : ∀ l, sessionOfLink w.1.kv owner l = sessionOfLink m.kv owner l := by
    intro l
    unfold sessionOfLink
    rw [h.kv (.sessionByLink owner l) nofun]
    cases m.kv.lookup (.sessionByLink owner l) with
    | none => rfl
    | some sid => exact h.kv (.session owner sid) nofun
  unfold Loadable
  simp only [hlink, hsession]

/-- **An acknowledged handshake has a session** exactly when it did not find
an established link of a recorded acceptor without one. -/
theorem ack_has_session [DecidableEq Snap] (svc : Service Snap) (rows : LinkPeers.Rows)
    (s : State Snap) (hr : ((system svc).lts (LinkPeers.anyCalls rows)).Reachable s) (owner : Id)
    (bytes : Bytes) (t : Nat) (fs : List Fate) (τ : List (Proc.Exch (sdk Snap)))
    (snapshot : PeerLinkSnapshot) (event : Option EventRecord) (nonce : Option Id)
    (remote localName : String) (m' : Mem Snap)
    (hrun : (system svc).solo t s.mem (handleIncomingHandshakePacket svc owner bytes) fs =
        some (τ, .ok (.accepted snapshot event nonce remote localName), m')) :
    ∃ p peer invite, Offers svc.core bytes p peer invite ∧
      (Loadable m'.kv owner peer ↔ ¬ Hollow s.mem.kv owner invite peer) := by
  have hends := handshake_ends_reachable hr hrun
  generalize hx : (Except.ok (HandshakeOutcome.accepted snapshot event nonce remote localName) :
    Except Err HandshakeOutcome) = x at hends
  generalize hw : (m', happened (picked marksIndex) τ fs) = w at hends
  cases hends with
  | failed => cases hx
  | refused => cases hx
  | declined hno _ =>
    cases hx
    exact absurd rfl (hno snapshot event nonce remote localName)
  | @replayed p peer invite link _ _ _ _ _ ho hin hlink hest _ hframe =>
    refine ⟨p, peer, invite, ho, ?_⟩
    subst hw
    have hsame : Loadable m'.kv owner peer ↔ Loadable s.mem.kv owner peer := loadable_frame hframe
    rw [hsame]
    exact ⟨fun h hollow => hollow.2.2 h,
      fun h => by_contra fun hno => h ⟨hin, ⟨link, hlink, hest⟩, hno⟩⟩
  | @established p peer invite _ _ _ _ _ ho hnot _ _ hload _ =>
    refine ⟨p, peer, invite, ho, ?_⟩
    subst hw
    exact ⟨fun _ hollow => hnot ⟨hollow.1, hollow.2.1⟩, fun _ => hload⟩

/-! ## Concrete runs -/

/-- `Loadable`, decided. -/
def loadable (kv : Store Snap) (owner peer : Id) : Bool :=
  (linkOfPair kv owner peer).any fun link =>
    (sessionOfLink kv owner link.peerLinkId).any fun session => isSessionUsable session.status

theorem loadable_iff {kv : Store Snap} :
    loadable kv owner peer = true ↔ Loadable kv owner peer := by
  unfold loadable Loadable
  simp only [Option.any_eq_true]
  constructor
  · rintro ⟨link, hlink, session, hsession, husable⟩
    exact ⟨link, session, hlink, hsession, husable⟩
  · rintro ⟨link, session, hlink, hsession, husable⟩
    exact ⟨link, hlink, session, hsession, husable⟩

namespace Example

open Counting

/-- Account `a`'s invite `d` is open, and a sibling device has the link `c` to
account `b`. -/
def start : Mem Nat := .ofStore (inviting (invite 2 [])) [c]

abbrev rows : LinkPeers.Rows := LinkPeers.row a c b

theorem start_init : (LinkPeers.anyCalls rows : Rules Nat).init start := by
  refine LinkPeers.init_of_wellKept (by decide) fun o l p h => ?_
  unfold rows LinkPeers.row at h
  split at h
  · rename_i heq
    rw [heq.2]
    exact ⟨.head _, inviting_other nofun nofun nofun⟩
  · cases h

/-- The sibling's link is replicated. -/
def replicate : RelationshipArgs := ⟨a, b, some c, some b, some b, some b, 1⟩

/-- Account `b`'s handshake is processed on `m`. -/
abbrev receive : Sdk Nat HandshakeOutcome := handleIncomingHandshakePacket Counting.svc a [1, 3, 0]

def receiveFates (m : Mem Nat) : List Fate := (system Counting.svc).fates smooth 2 100 m receive

/-- The handshake is acknowledged on `m`, and has a session after it or not. -/
def acks (hasSession : Bool) (m : Mem Nat) : Bool :=
  ((system Counting.svc).solo 2 m receive (receiveFates m)).any fun x =>
    (match x.2.1 with
    | .ok (.accepted ..) => true
    | _ => false) && loadable x.2.2.kv a b == hasSession

theorem acks_run {hasSession : Bool} {m : Mem Nat} (h : acks hasSession m = true) :
    ∃ τ snapshot event nonce remote localName m',
      (system Counting.svc).solo 2 m receive (receiveFates m) =
        some (τ, .ok (.accepted snapshot event nonce remote localName), m') ∧
      loadable m'.kv a b = hasSession := by
  obtain ⟨⟨τ, x, m'⟩, hrun, hx⟩ := (Option.any_eq_true _ _).mp h
  simp only [Bool.and_eq_true, beq_iff_eq] at hx
  obtain ⟨hacc, hload⟩ := hx
  split at hacc
  · rename_i snapshot event nonce remote localName
    exact ⟨τ, snapshot, event, nonce, remote, localName, m', hrun, hload⟩
  · cases hacc

theorem offers : Offers Counting.core [1, 3, 0] ⟨handshakeFor b d a, some "s"⟩ b d :=
  ⟨rfl, rfl, rfl⟩

end Example

open Example Counting in
/-- Account `b`'s handshake is recorded in the ledger and fails on the
storage; the link is replicated; the redelivered handshake is acknowledged
without a session. -/
theorem ack_without_session : ∃ s τ snapshot event nonce remote localName m' p,
    ((system Counting.svc).lts (LinkPeers.anyCalls rows)).Reachable s ∧
      (system Counting.svc).solo 2 s.mem receive (receiveFates s.mem) =
        some (τ, .ok (.accepted snapshot event nonce remote localName), m') ∧
      Offers Counting.core [1, 3, 0] p b d ∧ ¬ Loadable m'.kv a b := by
  obtain ⟨s, hr, hs⟩ :=
    System.reachable_of_play (S := system Counting.svc) (LinkPeers.judge rows) smooth
    [.call (.handshake a [1, 3, 0]), .go 0 11, .run 0 (.fail fault), .call (.upsert replicate),
    .go 1 6]
    (m := start) (P := fun s => acks false s.mem) start_init (by decide +kernel)
  obtain ⟨τ, snapshot, event, nonce, remote, localName, m', hrun, hload⟩ := acks_run hs
  refine ⟨s, τ, snapshot, event, nonce, remote, localName, m', _, hr, hrun, offers, fun h => ?_⟩
  rw [loadable_iff.mpr h] at hload
  cases hload

open Example Counting in
/-- Account `b`'s handshake for the open invite is acknowledged, and has its
session. -/
theorem ack_has_session_fresh :
    ∃ τ snapshot event nonce remote localName m',
      (system Counting.svc).solo 2 start receive (receiveFates start) =
        some (τ, .ok (.accepted snapshot event nonce remote localName), m') ∧
      Loadable m'.kv a b := by
  obtain ⟨τ, snapshot, event, nonce, remote, localName, m', hrun, -⟩ :=
    acks_run (show acks true start = true by decide +kernel)
  obtain ⟨p, peer, invite, ho, hload⟩ := ack_has_session Counting.svc rows ⟨start, [], []⟩
    ⟨_, [], ⟨start_init, rfl, rfl⟩, .nil _⟩ a [1, 3,
    0] 2 _ τ snapshot event nonce remote localName m' hrun
  obtain ⟨rfl, rfl⟩ := offers.unique ho
  refine ⟨τ, snapshot, event, nonce, remote, localName, m', hrun, hload.mpr fun hollow => ?_⟩
  obtain ⟨r, hr, hin⟩ := hollow.1
  have hopen : start.kv.lookup (.invite a d) = some (Counting.invite 2 []) := by decide
  cases hopen.symm.trans hr
  exact absurd hin List.not_mem_nil

end RezSdk.L4.AckSession
