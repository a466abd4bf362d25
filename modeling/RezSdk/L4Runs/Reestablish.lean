import RezSdk.L3Service.Alone
import RezSdk.L4Runs.HandshakeAuth

/-!
# A failed accept on a live link

`acceptInvite` finds an established link and leaves it alone, unless
`forceReestablish` is set: then it first writes the link back to
`accept_committed` without a session, and everything that can still fail
comes after that write (`teardown_kills_link`). `accept_keeps_live_link` says
which failures leave the link live: those before that write.
-/
namespace RezSdk.L4.Reestablish

open RezSdk.L1 RezSdk.L2 RezSdk.L3

variable {Snap : Type}

/-! ## The property -/

/-- The link of `owner` and `peer` is established on session `sid`, and the
session's ratchet is `ratchet`. -/
def Live (kv : Store Snap) (owner peer link sid : Id) (ratchet : Snap) : Prop :=
  kv.lookup (.pair owner peer) = some link ∧
    (∃ r, kv.lookup (.peerLink owner link) = some r ∧ r.state = .sessionEstablished ∧
    r.activeSessionId = some sid) ∧
    ∃ r, kv.lookup (.session owner sid) = some r ∧ r.ratchetSnapshot = ratchet

/-- A write of this link that takes effect. -/
def writesLink (owner link : Id) (k : Key) (f : Fate) : Bool :=
  decide (k = .peerLink owner link) && f.lands

/-! ## After the teardown -/

/-- The operation does not establish a link. -/
def Down : Op Snap → Prop
  | .set (.peerLink _ _) r => r.state ≠ .sessionEstablished
  | .delete (.peerLink _ _) => False
  | _ => True

section

variable {α β π : Type} {svc : Service Snap}

theorem down_foot {l : List OpClass} {p : Proc (sdk Snap) α} (hp : Foot l p)
    (hs : l.contains (.set .peerLink) = false) (hd : l.contains (.delete .peerLink) = false) :
    p.All Down := by
  refine Proc.All.mono (fun o ho => ?_) hp
  cases o with
  | set k v =>
    cases k with
    | peerLink o l =>
      exact absurd ho.1
        (by rw [show classOf (.set (.peerLink o l) v) = .set .peerLink from rfl, hs]; nofun)
    | _ => trivial
  | delete k =>
    cases k with
    | peerLink o l =>
      exact absurd ho.1
        (by rw [show classOf (.delete (.peerLink o l)) = .delete .peerLink from rfl, hd]; nofun)
    | _ => trivial
  | _ => trivial

/-- A helper that writes no link, in front of `f`. -/
theorem down_over {l : List OpClass} {ε : Type} {p : Js (sdk Snap) ε α} {f : α → Js (sdk Snap) ε β}
    (hp : Foot l p) (hs : l.contains (.set .peerLink) = false)
    (hd : l.contains (.delete .peerLink) = false) (hf : ∀ x, Proc.All Down (f x)) :
    Proc.All Down (p >>= f : Js (sdk Snap) ε β) :=
  Js.all_bind (down_foot hp hs hd) hf

theorem down_track {p : π} {x : Sdk Snap α} (h : Proc.All Down x) : Proc.All Down (track p x) :=
  Proc.all_bind h fun y => by cases y <;> trivial

theorem down_update {r : PeerLinkRecord} {v : Nat} (h : r.state ≠ .sessionEstablished) :
    Proc.All Down (PeerLinks.update r v : Sdk Snap _) := by
  refine down_over (l := [.get .peerLink]) (foot_get rfl) rfl rfl fun _ => ?_
  refine Js.all_bind (Js.all_orThrow _ _ _) fun _ => Js.all_bind (Js.all_ensure _ _ _) fun _ => ?_
  refine Js.all_bind (Js.all_ensure _ _ _) fun _ => Js.all_bind (Js.all_ensure _ _ _) fun _ => ?_
  refine Js.all_bind (Js.all_ensure _ _ _) fun _ => Js.all_bind ⟨h, fun _ => trivial⟩ fun _ => ?_
  exact down_over (l := [.set .pair]) (foot_set rfl trivial) rfl rfl fun _ => trivial

theorem down_commitLink {a : CommitArgs Snap} {now : Nat} {stored : Option (SessionRecord Snap)}
    {p : Progress Snap} (h : a.peerLinkState ≠ .sessionEstablished) :
    Proc.All Down (commitLink svc a now stored p) := by
  refine down_over (l := []) (foot_track foot_checkTransition) rfl rfl fun _ => ?_
  refine Js.all_bind (down_track (down_update h)) fun next => ?_
  refine down_over (foot_track foot_appendEvent) rfl rfl fun _ => ?_
  refine down_over (l := [.count]) (foot_track (foot_clearCounts rfl)) rfl rfl fun _ => ?_
  refine down_over (l := [.count]) (foot_track (foot_markSuccess rfl)) rfl rfl fun _ => ?_
  exact down_over (foot_track foot_buildSnapshot) rfl rfl fun _ => trivial

theorem down_commitSession {a : CommitArgs Snap} (h : a.peerLinkState ≠ .sessionEstablished) :
    Proc.All Down (commitSession svc a) := by
  refine down_over (l := [.clock]) (foot_track (foot_clock rfl)) rfl rfl fun c => ?_
  split
  · exact down_commitLink h
  · refine down_over (foot_track foot_commitSessionId) rfl rfl fun _ => ?_
    exact down_over (foot_track foot_put) rfl rfl fun _ => down_commitLink h

theorem down_trySend {a : AcceptArgs} {inviter sid : Id} {p : HandshakePacket} {now : Nat}
    {s : SendState} : Proc.All Down (trySend svc a inviter sid p now s) := by
  refine down_over (l := []) (foot_track foot_orThrow) rfl rfl fun _ => ?_
  refine down_over (l := [.crypto]) (foot_track (foot_core rfl)) rfl rfl fun _ => ?_
  refine down_over (foot_track foot_linkById) rfl rfl fun fresh => ?_
  split
  · trivial
  · refine down_over (foot_track foot_attemptUpdate) rfl rfl fun _ => ?_
    refine down_over (l := []) (foot_track foot_checkTransition) rfl rfl fun _ => ?_
    refine Js.all_bind (down_track (down_update nofun)) fun _ => ?_
    exact down_over (foot_track foot_appendEvent) rfl rfl fun _ => trivial

theorem down_sendFailed {a : AcceptArgs} {sid : Id} {now : Nat} {s : SendState} {e : Err} :
    Proc.All Down (sendFailed svc a sid now s e) := by
  refine down_over foot_linkById rfl rfl fun fresh => ?_
  split
  · trivial
  · refine Js.all_bind
      (Js.all_attempt (down_foot foot_attemptUpdate rfl rfl) fun x => by cases x <;> trivial)
      fun _ => ?_
    refine down_over (l := []) foot_checkTransition rfl rfl fun _ => ?_
    refine Js.all_bind (down_update nofun) fun _ => ?_
    exact down_over foot_appendEvent rfl rfl fun _ => trivial

theorem down_sendIfAsked {a : AcceptArgs} {inviter id key : Id} {x : HandshakeData} {now : Nat}
    {s : SendState} {session : Option (SessionRecord Snap)} :
    Proc.All Down (sendIfAsked svc a inviter id x key now s session) := by
  cases session with
  | none => trivial
  | some r =>
    dsimp only [sendIfAsked]
    split
    · refine down_over foot_loadAccountKeys rfl rfl fun _ =>
        Js.all_bind (Js.all_orThrow _ _ _) fun _ => ?_
      refine down_over (l := [.newId]) (foot_uuid rfl) rfl rfl fun _ => ?_
      refine down_over (l := [.crypto]) (foot_core rfl) rfl rfl fun _ => ?_
      refine down_over (l := [.set .ackNonce]) (foot_set rfl trivial) rfl rfl fun _ => ?_
      refine Proc.all_bind down_trySend fun y => ?_
      cases y with
      | ok s => trivial
      | error y => exact down_sendFailed
    · trivial

theorem down_acceptEstablish {a : AcceptArgs} {inviter id link : Id} {now : Nat}
    {existing : Option PeerLinkRecord} {r : PeerLinkRecord} {attempt : HandshakeAttemptRecord} :
    Proc.All Down (acceptEstablish svc a inviter id link now existing r attempt) := by
  refine down_over foot_appendEvent rfl rfl fun _ => down_over foot_requireBound rfl rfl fun _ => ?_
  refine down_over (l := [.x3dh]) (foot_core rfl) rfl rfl fun _ =>
    down_over foot_priorSession rfl rfl fun _ => ?_
  refine Js.all_bind (Proc.all_bind (down_commitSession nofun) fun y => by cases y <;> trivial)
    fun _ => ?_
  exact Js.all_bind down_sendIfAsked fun _ => down_over foot_buildSnapshot rfl rfl fun _ => trivial

theorem down_backLink {found : Option InviteRecord} {link : Id} {now : Nat} :
    Proc.All Down (backLinkInvite found link now : Sdk Snap _) := by
  cases found with
  | none => trivial
  | some l =>
    refine down_over foot_inviteGet rfl rfl fun fresh => ?_
    cases fresh with
    | none => trivial
    | some f => exact down_over foot_inviteSave rfl rfl fun _ => trivial

/-- Everything `acceptInvite` does once the link is torn down. -/
theorem down_rest {a : AcceptArgs} {inviter link : Id} {now : Nat} {found : Option InviteRecord}
    {existing : Option PeerLinkRecord} {r : PeerLinkRecord} : Proc.All Down (do
      storePostCap a.acceptor link a.envelope.postCap
      let attemptId ← stableId "hs"
      let inviteId ← Js.orThrow a.envelope.inviteId (svc.core.requireIdError "inviteId")
      let attempt ← HandshakeAttempts.create (newAttempt a attemptId link inviteId now)
      backLinkInvite found link now
      acceptEstablish svc a inviter inviteId link now existing r attempt :
        Sdk Snap AcceptResult) := by
  refine down_over foot_storePostCap rfl rfl fun _ => ?_
  refine down_over (l := [.newId]) (foot_stableId rfl) rfl rfl fun _ =>
    Js.all_bind (Js.all_orThrow _ _ _) fun _ => ?_
  refine down_over foot_attemptCreate rfl rfl fun _ => ?_
  exact Js.all_bind down_backLink fun _ => down_acceptEstablish

end

/-! ## The call -/

section

variable {svc : Service Snap} {t : Nat} {a : AcceptArgs} {m₀ : Mem Snap} {link sid : Id}

/-- What the property reads is as it was, and the link was not written. -/
structure Kept (m₀ : Mem Snap) (owner link : Id) (w : World Snap) : Prop where
  pair : ∀ p, w.1.kv.lookup (.pair owner p) = m₀.kv.lookup (.pair owner p)
  link : w.1.kv.lookup (.peerLink owner link) = m₀.kv.lookup (.peerLink owner link)
  session : ∀ i, w.1.kv.lookup (.session owner i) = m₀.kv.lookup (.session owner i)
  mark : w.2 = false

/-- The link was written, and is not established. -/
structure Torn (a : AcceptArgs) (link : Id) (w : World Snap) : Prop where
  force : a.forceReestablish = true
  link : ∃ r, w.1.kv.lookup (.peerLink a.acceptor link) = some r ∧ r.state ≠ .sessionEstablished
  mark : w.2 = true

def Ends (m₀ : Mem Snap) (a : AcceptArgs) (link : Id) (w : World Snap) : Prop :=
  Kept m₀ a.acceptor link w ∨ Torn a link w

theorem Kept.frame {owner : Id} {kinds : List KeyKind} {w w' : World Snap}
    (h : Kept m₀ owner link w) (hw : Frame kinds w w') (hl : .peerLink ∉ kinds) (hp : .pair ∉ kinds)
    (hs : .session ∉ kinds) : Kept m₀ owner link w' :=
  ⟨fun p => (hw.kv (.pair owner p) hp).trans (h.pair p),
  (hw.kv (.peerLink owner link) hl).trans h.link,
    fun i => (hw.kv (.session owner i) hs).trans (h.session i), hw.mark.trans h.mark⟩

/-- Only link writes set the mark. -/
theorem writesLink_kind {owner : Id} {kinds : List KeyKind} (hl : .peerLink ∉ kinds) (k : Key)
    (f : Fate) (hk : kindOf k ∈ kinds) : writesLink owner link k f = false := by
  refine Bool.and_eq_false_imp.mpr fun heq => ?_
  rw [decide_eq_true_eq] at heq
  subst heq
  exact absurd hk hl

theorem writesLink_fail {owner : Id} (k : Key) (f : Fault) :
    writesLink owner link k (.fail f) = false :=
  Bool.and_false _

theorem after_torn {α : Type} {p : Proc (sdk Snap) α} (hp : p.All Down) {w : World Snap}
    (hw : Torn a link w) :
    After (alone svc.core t (writesLink a.acceptor link)) (fun _ w' => Torn a link w') p w := by
  refine after_keeps hp ?_ hw
  rintro ⟨m₁, b₁⟩ o f r ⟨m₂, b₂⟩ ho ha ⟨hforce, ⟨r₁, hr₁, hst⟩, hmark⟩
  obtain ⟨ha, hb⟩ := observe_some.mp ha
  refine ⟨hforce, ?_, ?_⟩
  · have hlook := act_kv ha
    dsimp only at hlook ⊢
    rw [hlook]
    rcases effect_cases m₁.kv o f (.peerLink a.acceptor link) with hk | ⟨v,
      hop, -, hk⟩ | ⟨hop, -, -⟩
    · exact ⟨r₁, hk.trans hr₁, hst⟩
    · subst hop
      exact ⟨v, hk, ho⟩
    · subst hop
      exact ho.elim
  · rw [hb, hmark, Bool.true_or]

theorem ok_verifyInvite :
    Js.Ok (fun v => a.envelope.creatorAccountId = some v.1) (verifyInvite svc a) := by
  refine Js.ok_skip fun _ => Js.ok_skip fun _ =>
    Js.ok_bind (Js.ok_orThrow fun _ h => h) fun inviter hin => ?_
  refine Js.ok_skip fun now => ?_
  dsimp only
  split
  · exact Js.ok_skip fun _ => Js.ok_skip fun _ => Js.ok_skip fun _ => Js.ok_skip fun _ =>
      Js.ok_pure hin
  · exact Js.ok_skip fun _ => Js.ok_skip fun _ => Js.ok_skip fun _ => Js.ok_skip fun _ =>
      Js.ok_pure hin

/-- The write of the link, and what it depends on. -/
theorem after_teardown {e : PeerLinkRecord} {inviter : Id} {now : Nat} {w : World Snap}
    {Q : Except Err PeerLinkRecord → World Snap → Prop} (hown : e.localAccountId = a.acceptor)
    (hforce : a.forceReestablish = true) (hw : Kept m₀ a.acceptor link w)
    (herr : ∀ x w', Ends m₀ a link w' → Q (.error x) w')
    (hok : ∀ x w', Torn a link w' → Q (.ok x) w') :
    After (alone svc.core t (writesLink a.acceptor link)) Q
      (commitAccept svc a inviter link now (some e)) w := by
  have htorn : ∀ {next : PeerLinkRecord} {f : Fate} {w' : World Snap}, LinkStored next w w' →
      f.lands = true →
      next.localAccountId = a.acceptor → next.peerLinkId = link → next.state = .acceptCommitted →
        w'.2 = (w.2 || writesLink a.acceptor link (.peerLink a.acceptor link) f) →
      Torn a link w' := by
    intro next f w' hstored hf ho hl hst hmark
    refine ⟨hforce, ⟨next, ?_, by rw [hst]; nofun⟩, ?_⟩
    · rw [← hstored.link, ho, hl]
    · rw [hmark, writesLink, decide_eq_true rfl, hf, Bool.and_self, Bool.or_true]
  obtain ⟨m, b⟩ := w
  refine after_js_bind (after_orThrow (fun _ _ => ?_) fun _ => herr _ _ (.inl hw))
  refine after_js_bind (after_orThrow (fun _ _ => ?_) fun _ => herr _ _ (.inl hw))
  refine after_update writesLink_fail
    (fun o p f => writesLink_kind (show KeyKind.peerLink ∉ [.pair] by decide) _ f (.head _))
    (fun x _ => herr x _ (.inl hw)) (fun cur f f' w' _ hf hstored hmark =>
    ?_) fun cur w' _ hstored _ hmark => ?_
  · refine herr _ _ (.inr (htorn hstored hf hown rfl rfl ?_))
    rw [hmark, hown]
  · refine hok _ _ (htorn hstored (f := .ok) rfl hown rfl rfl ?_)
    rw [hmark, hown]

theorem after_acceptFresh {e : PeerLinkRecord} {inviter : Id} {now : Nat} {w : World Snap}
    (hown : e.localAccountId = a.acceptor) (hlink : e.peerLinkId = link)
    (hforce : a.forceReestablish = true) (hw : Kept m₀ a.acceptor link w) :
    After (alone svc.core t (writesLink a.acceptor link)) (fun _ w' => Ends m₀ a link w')
      (acceptFresh svc a inviter now (some e)) w := by
  refine after_over foot_inviteByHash (writesLink_kind (by decide))
    (fun _ _ h => .inl (hw.frame h nofun nofun nofun))
    fun found w₁ h₁ => ?_
  have hw₁ := hw.frame h₁ nofun nofun nofun
  subst hlink
  refine after_js_bind (after_js_bind ?_)
  refine after_teardown hown hforce hw₁ (fun _ _ h => h) fun r w₂ h₂ => ?_
  exact (after_torn down_rest h₂).mono fun _ _ h => .inr h

/-- A live link makes no re-attempt of its own. -/
theorem force_of_reattempts {force : Bool} {r : PeerLinkRecord}
    (hst : r.state = .sessionEstablished) (hsid : r.activeSessionId = some sid)
    (h : reattempts force r = true) : force = true := by
  simpa [reattempts, hst, hsid] using h

theorem after_accept {inviter : Id} {r : PeerLinkRecord}
    (hin : a.envelope.creatorAccountId = some inviter) (hfiled : FiledStore m₀.kv)
    (hpair : m₀.kv.lookup (.pair a.acceptor inviter) = some link)
    (hr : m₀.kv.lookup (.peerLink a.acceptor link) = some r) (hst : r.state = .sessionEstablished)
    (hsid : r.activeSessionId = some sid) :
    After (alone svc.core t (writesLink a.acceptor link)) (fun _ w' => Ends m₀ a link w')
      (acceptInvite svc a) (m₀, false) := by
  have hstart : Kept m₀ a.acceptor link (m₀, false) := ⟨fun _ => rfl, rfl, fun _ => rfl, rfl⟩
  obtain ⟨hown, hlink⟩ := hfiled.links _ _ _ hr
  refine after_js_bind (((after_frame foot_verifyInvite (writesLink_kind (by decide))).and_returns
    ok_verifyInvite).mono fun v w₁ h₁ => ?_)
  obtain ⟨hframe, hv⟩ := h₁
  have hw₁ := hstart.frame hframe nofun nofun nofun
  cases v with
  | error e => exact .inl hw₁
  | ok v =>
    obtain ⟨inviter', now⟩ := v
    have heq := hin.symm.trans (hv _ rfl)
    rw [Option.some.injEq] at heq
    subst heq
    obtain ⟨m₁, b₁⟩ := w₁
    refine after_js_bind (after_getByPair ?_ fun _ => .inl hw₁)
    have hfound : linkOfPair m₁.kv a.acceptor inviter = some r := by
      rw [linkOfPair, hw₁.pair, hpair]
      exact hw₁.link.trans hr
    rw [hfound]
    dsimp only [Then]
    split
    · exact after_acceptFresh hown hlink (force_of_reattempts hst hsid ‹_›) hw₁
    · refine after_over foot_appendEvent (writesLink_kind (by decide))
        (fun _ _ h => .inl (hw₁.frame h nofun nofun nofun))
        fun _ w₂ h₂ => ?_
      have hw₂ := hw₁.frame h₂ nofun nofun nofun
      exact after_over foot_buildSnapshot (writesLink_kind (by decide))
        (fun _ _ h => .inl (hw₂.frame h nofun nofun nofun)) fun _ _ h =>
        .inl (hw₂.frame h nofun nofun nofun)

end

/-! ## The theorem -/

theorem Kept.live {m₀ : Mem Snap} {owner peer link sid : Id} {ratchet : Snap} {w : World Snap}
    (hw : Kept m₀ owner link w) (h : Live m₀.kv owner peer link sid ratchet) :
    Live w.1.kv owner peer link sid ratchet := by
  obtain ⟨hpair, ⟨r, hr, hrest⟩, sess, hs, hratchet⟩ := h
  exact ⟨(hw.pair peer).trans hpair, ⟨r, hw.link.trans hr, hrest⟩, sess, (hw.session sid).trans hs,
    hratchet⟩

/-- **A failed accept keeps a live link** exactly when it did not write it. -/
theorem accept_keeps_live_link [DecidableEq Snap] (svc : Service Snap) (rows : LinkPeers.Rows)
    (s : State Snap) (hr : ((system svc).lts (LinkPeers.anyCalls rows)).Reachable s)
    (a : AcceptArgs) (inviter link sid : Id) (ratchet : Snap)
    (hin : a.envelope.creatorAccountId = some inviter)
    (hlive : Live s.mem.kv a.acceptor inviter link sid ratchet) (t : Nat) (fs : List Fate)
    (τ : List (Proc.Exch (sdk Snap))) (e : Err) (m' : Mem Snap)
    (hrun : (system svc).solo t s.mem (acceptInvite svc a) fs = some (τ, .error e, m')) :
    Live m'.kv a.acceptor inviter link sid ratchet ↔
    ¬ (a.forceReestablish = true ∧ happened (picked (writesLink a.acceptor link)) τ fs = true) := by
  have hfiled :=
    ((FiledRun.inductive svc (D := LinkPeers.anyCalls rows) fun _ h => h.1).reachable s hr).store
  obtain ⟨hpair, ⟨r, hlook, hst, hsid⟩, -⟩ := id hlive
  have hend :=
    After.solo_observed (S := system svc) (after_accept hin hfiled hpair hlook hst hsid) hrun
  rw [Bool.false_or] at hend
  rcases hend with hkept | htorn
  · refine ⟨fun _ h => ?_, fun _ => hkept.live hlive⟩
    have hmark : happened (picked (writesLink a.acceptor link)) τ fs = false := hkept.mark
    rw [hmark] at h
    exact absurd h.2 nofun
  · refine ⟨fun h => ?_, fun h => absurd ⟨htorn.force, htorn.mark⟩ h⟩
    obtain ⟨r₁, hr₁, hdown⟩ := htorn.link
    obtain ⟨-, ⟨r₂, hr₂, hup, -⟩, -⟩ := h
    rw [hr₁, Option.some.injEq] at hr₂
    rw [hr₂] at hdown
    exact absurd hup hdown

/-! ## Concrete runs -/

namespace Example

open Counting

/-- Account `b`'s invite `d`. -/
def envelope : Envelope :=
  ⟨none, some d, some b, none, 90, none, [],
    some ⟨some b, some ⟨some b, some b, none, 1, some 90, some b, none, []⟩⟩, none⟩

/-- Account `a` accepts it again, to recover its live link to `b`. -/
def recover : AcceptArgs := ⟨envelope, a, a, none, false, none, true⟩

/-- Account `a`'s link `c` to `b` is established on session `d`. -/
def live : Mem Nat := .ofStore (linked .sessionEstablished .active) [c]

def initial : State Nat := ⟨live, [], []⟩

theorem initial_reachable :
    ((system Counting.svc).lts (LinkPeers.anyCalls fun _ _ => none)).Reachable initial :=
  ⟨initial, [], ⟨LinkPeers.init_of_wellKept (by decide) nofun, rfl, rfl⟩, .nil _⟩

theorem live_before : Live live.kv a b c d 1 :=
  ⟨by decide, ⟨link .sessionEstablished, by decide, rfl, rfl⟩, session .active none 1, by decide,
  rfl⟩

/-- The invite is verified and the link found; `a` has the inviter's hash
looked up; then the link is written (`teardown`), and the attempt's read
fails. -/
def failAfter : List Fate :=
  [.time 5, .rand 0, .time 5, .rand 0, .ok, .ok, .ok, .ok, .ok, .ok, .fresh a, .fail fault]

/-- The same, but already the write of the link fails. -/
def failBefore : List Fate := [.time 5, .rand 0, .time 5, .rand 0, .ok, .ok, .ok, .ok, .fail fault]

/-- The run throws, its teardown took effect or not, and the link is down
after it or not. -/
def throws (landed : Bool) (fs : List Fate) : Bool :=
  ((system Counting.svc).solo 0 live (acceptInvite Counting.svc recover) fs).any fun x =>
    !x.2.1.toBool && happened (picked (writesLink a c)) x.1 fs == landed &&
      (x.2.2.kv.lookup (.peerLink a c)).all (fun r => r.state ≠ .sessionEstablished) == landed

theorem throws_run {landed : Bool} {fs : List Fate} (h : throws landed fs = true) :
    ∃ τ e m',
      (system Counting.svc).solo 0 live (acceptInvite Counting.svc recover) fs =
        some (τ, .error e, m') ∧
      happened (picked (writesLink a c)) τ fs = landed ∧
      (m'.kv.lookup (.peerLink a c)).all (fun r => r.state ≠ .sessionEstablished) = landed := by
  obtain ⟨⟨τ, x, m'⟩, hrun, hx⟩ := (Option.any_eq_true _ _).mp h
  simp only [Bool.and_eq_true, beq_iff_eq] at hx
  cases x with
  | error e => exact ⟨τ, e, m', hrun, hx.1.2, hx.2⟩
  | ok v => cases hx.1.1

end Example

open Example Counting in
/-- The recovery of a live link tears it down and then fails on the storage:
the link is lost. -/
theorem teardown_kills_link :
    ∃ s τ e m', ((system Counting.svc).lts (LinkPeers.anyCalls fun _ _ => none)).Reachable s ∧
      recover.envelope.creatorAccountId = some b ∧ Live s.mem.kv recover.acceptor b c d 1 ∧
      (system Counting.svc).solo 0 s.mem (acceptInvite Counting.svc recover) failAfter =
        some (τ, .error e, m') ∧
      ¬ Live m'.kv recover.acceptor b c d 1 := by
  obtain ⟨τ, e, m', hrun, -, hdown⟩ :=
    throws_run (show throws true failAfter = true by decide +kernel)
  refine ⟨initial, τ, e, m', initial_reachable, rfl, live_before, hrun, ?_⟩
  rintro ⟨-, ⟨r, hr, hup, -⟩, -⟩
  rw [show recover.acceptor = a from rfl] at hr
  simp [hr, hup] at hdown

open Example Counting in
/-- When the teardown itself fails, the link is as it was. -/
theorem accept_keeps_live_link_early :
    ∃ τ e m',
      (system Counting.svc).solo 0 initial.mem (acceptInvite Counting.svc recover) failBefore =
        some (τ, .error e, m') ∧
      Live m'.kv recover.acceptor b c d 1 := by
  obtain ⟨τ, e, m', hrun, hland, -⟩ :=
    throws_run (show throws false failBefore = true by decide +kernel)
  refine ⟨τ, e, m', hrun,
    (accept_keeps_live_link Counting.svc (fun _ _ => none) initial initial_reachable recover b c d 1
    rfl live_before 0 failBefore τ e m' hrun).mpr fun h => ?_⟩
  rw [show recover.acceptor = a from rfl, hland] at h
  exact absurd h.2 nofun

end RezSdk.L4.Reestablish
