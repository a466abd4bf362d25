import RezSdk.L3Service.Alone
import RezSdk.L4Runs.LinkPeers

/-!
# What one handshake does

`handleIncomingHandshakePacket` with nothing in between, from any store in
which the link under a pair is that pair's link: `handshake_ends` lists the
ways it can end, with what it leaves. The mark says that the call has stored
a session.
-/
namespace RezSdk.L4

open RezSdk.L1 RezSdk.L2 RezSdk.L3

variable {Snap : Type}

/-- A session of the link that `encryptDirectMessage` can work with. -/
def Loadable (kv : Store Snap) (owner peer : Id) : Prop :=
  ∃ link session, linkOfPair kv owner peer = some link ∧
  sessionOfLink kv owner link.peerLinkId = some session ∧
    isSessionUsable session.status = true

/-- The packet is a handshake of `peer` for `invite`. -/
structure Offers (core : Core Snap) (b : Bytes) (p : HandshakePacket) (peer invite : Id) :
    Prop where
  parses : core.parsePacket b = .ok (some p)
  peer : acceptorOf core p.handshake = some peer
  invite : p.handshake.inviteId = some invite

/-- The ledger of the invite has the acceptor. -/
def InLedger (kv : Store Snap) (owner invite peer : Id) : Prop :=
  ∃ r, kv.lookup (.invite owner invite) = some r ∧ peer ∈ r.acceptedAcceptors

/-- A session of `owner` is not as it was. -/
def SessionChanged (m : Mem Snap) (owner : Id) (w : World Snap) : Prop :=
  ∃ sid, w.1.kv.lookup (.session owner sid) ≠ m.kv.lookup (.session owner sid)

/-- The kinds a verdict writes. -/
abbrev verdictKinds : List KeyKind := [.invite, .inviteByHash]

/-- The kinds that are written before the session is. -/
abbrev earlyKinds : List KeyKind := verdictKinds ++ [.identity]

/-- The kinds of session records. -/
abbrev sessionKinds : List KeyKind := [.session, .sessionByLink, .sessionByDevice]

/-- Every session record and index entry is as it was. -/
def SessionsKept (m : Mem Snap) (w : World Snap) : Prop :=
  ∀ k, kindOf k ∈ sessionKinds → w.1.kv.lookup k = m.kv.lookup k

/-- A handshake for the invite builds no session: its acceptor is recorded
and has an established link, or there is no pre-key. -/
def Guarded (kv : Store Snap) (owner invite peer : Id) : Prop :=
  (InLedger kv owner invite peer ∧
    ∃ link, linkOfPair kv owner peer = some link ∧ link.state = .sessionEstablished) ∨
  kv.lookup (.invitePreKey owner invite) = none

/-- A session of the link is written, the one that its index names or a new one,
and nothing else but the invite and the account keys. -/
structure SessionOnly (m : Mem Snap) (owner : Id) (link : PeerLinkRecord) (r : SessionRecord Snap)
    (w : World Snap) : Prop where
  ofLink : r.localAccountId = owner ∧ r.peerLinkId = link.peerLinkId
  before : (∃ r₀, sessionOfLink m.kv owner link.peerLinkId = some r₀ ∧ r.sessionId = r₀.sessionId ∧
    r.peerDeviceId = r₀.peerDeviceId) ∨ r.sessionId ∉ m.used ∧ r.peerDeviceId = none
  stored : w.1.kv.lookup (.session owner r.sessionId) = some r
  index : r.peerDeviceId = none →
    w.1.kv.lookup (.sessionByLink owner link.peerLinkId) = some r.sessionId
  other : ∀ k, kindOf k ∉ earlyKinds → k ≠ .session owner r.sessionId → k ≠ indexKey r →
    w.1.kv.lookup k = m.kv.lookup k

/-- A link found under a pair is the pair's link, filed under its ids. -/
def PairsLinks (kv : Store Snap) : Prop :=
  ∀ o p link, linkOfPair kv o p = some link →
    link.localAccountId = o ∧ link.peerAccountId = p ∧ kv.lookup (.pair o p) = some link.peerLinkId

/-- The pair's link may become established, or nobody minds. -/
def Passes (svc : Service Snap) (kv : Store Snap) (owner peer : Id) : Prop :=
  ∀ link, linkOfPair kv owner peer = some link →
    checkTransition link.state .sessionEstablished = true ∨ svc.strictTransitions = false

inductive VerdictEnds (svc : Service Snap) (owner : Id) (b : Bytes) (m : Mem Snap) :
    Except Err HandshakeOutcome → World Snap → Prop
  | failed {e : Err} {w : World Snap} : (NoRefusals svc.core → Legal e) →
      (w.2 = true → ∀ p peer invite, Offers svc.core b p peer invite → Passes svc m.kv owner peer) →
      (∀ p peer invite, Offers svc.core b p peer invite → Guarded m.kv owner invite peer →
      SessionsKept m w) →
      VerdictEnds svc owner b m (.error e) w
  | refused {p : HandshakePacket} {peer invite : Id} {link : PeerLinkRecord}
      {r : SessionRecord Snap} {w : World Snap} :
      Offers svc.core b p peer invite → linkOfPair m.kv owner peer = some link →
        svc.strictTransitions = true →
      checkTransition link.state .sessionEstablished = false → w.2 = true →
        SessionChanged m owner w →
      ¬ Guarded m.kv owner invite peer → SessionOnly m owner link r w →
      VerdictEnds svc owner b m (.error (illegalTransition link.state .sessionEstablished)) w
  | declined {o : HandshakeOutcome} {w : World Snap} : (∀ s ev n r l, o ≠ .accepted s ev n r l) →
      Frame verdictKinds (m, false) w → VerdictEnds svc owner b m (.ok o) w
  | replayed {p : HandshakePacket} {peer invite : Id} {link : PeerLinkRecord}
      {snapshot : PeerLinkSnapshot}
      {event : Option EventRecord} {remote localName : String} {w : World Snap} :
      Offers svc.core b p peer invite → InLedger m.kv owner invite peer →
        linkOfPair m.kv owner peer = some link →
      link.state = .sessionEstablished → (m.kv.lookup (.invitePreKey owner invite)).isSome = true →
      Frame verdictKinds (m, false) w → VerdictEnds svc owner b m
        (.ok (.accepted snapshot event p.handshake.ackNonce remote localName)) w
  | established {p : HandshakePacket} {peer invite : Id} {snapshot : PeerLinkSnapshot}
      {event : Option EventRecord}
      {remote localName : String} {w : World Snap} : Offers svc.core b p peer invite →
      ¬ (InLedger m.kv owner invite peer ∧ ∃ link, linkOfPair m.kv owner peer = some link ∧
        link.state = .sessionEstablished) →
      Passes svc m.kv owner peer → (m.kv.lookup (.invitePreKey owner invite)).isSome = true →
      Loadable w.1.kv owner peer → SessionChanged m owner w → VerdictEnds svc owner b m
        (.ok (.accepted snapshot event p.handshake.ackNonce remote localName)) w

theorem sessionKinds_verdict {kind : KeyKind} (h : kind ∈ sessionKinds) : kind ∉ verdictKinds := by
  revert kind
  decide

theorem sessions_of_frame {m : Mem Snap} {b : Bool} {w : World Snap}
    (h : Frame verdictKinds (m, b) w) : SessionsKept m w :=
  fun k hk => h.kv k (sessionKinds_verdict hk)

/-! ## The verdict -/

section

variable {svc : Service Snap} {t : Nat} {owner : Id} {m : Mem Snap} {b : Bool}

theorem after_inviteGet {core : Core Snap} {g : Key → Fate → Bool} {id : Id}
    {Q : Except Err (Option InviteRecord) → World Snap → Prop}
    (hok : Q (.ok ((m.kv.lookup (.invite owner id)).map normalizeInviteRecord)) (m, b))
    (herr : ∀ f, Q (.error (.fault f)) (m, b)) :
    After (alone core t g) Q (Invites.get owner id) (m, b) :=
  after_js_bind (after_get hok herr)

/-- The verdict knows whether the acceptor is in the ledger. -/
theorem after_verdictLocked {core : Core Snap} {id peer : Id} :
    After (alone core t marksIndex) (fun x w =>
          Frame verdictKinds (m, b) w ∧ (∀ e, x = .error e → Legal e) ∧
          ∀ ex al, x = .ok (.proceed ex al) → (al = true ↔ InLedger m.kv owner id peer))
      (verdictLocked owner id peer) (m, b) := by
  have hframe : Frame verdictKinds (m, b) (m, b) := .refl _
  refine after_js_bind (after_inviteGet ?_ fun f =>
    ⟨hframe, fun _ h => by cases h; exact legal_fault f,
    fun _ _ h => by cases h⟩)
  cases hr : m.kv.lookup (.invite owner id) with
  | none =>
    refine ⟨hframe, fun _ h => (by cases h), fun ex al h => ?_⟩
    cases h
    refine ⟨nofun, ?_⟩
    rintro ⟨r, hr', -⟩
    cases hr.symm.trans hr'
  | some r =>
    have hledger : InLedger m.kv owner id peer ↔ peer ∈ r.acceptedAcceptors := by
      refine ⟨?_, fun h => ⟨r, hr, h⟩⟩
      rintro ⟨r', hr', hp⟩
      cases hr.symm.trans hr'
      exact hp
    refine after_js_bind (after_clock fun now => ?_)
    dsimp only [Then]
    split
    · exact ⟨hframe, fun _ h => (by cases h), fun _ _ h => (by cases h)⟩
    split
    · rename_i hin
      refine ⟨hframe, fun _ h => (by cases h), fun ex al h => ?_⟩
      cases h
      exact ⟨fun _ => hledger.mpr hin, fun _ => rfl⟩
    split
    · exact ⟨hframe, fun _ h => (by cases h), fun _ _ h => (by cases h)⟩
    · rename_i hnot _
      refine after_js_bind ((after_legal foot_inviteSave legal_inviteSave
        (marksIndex_kind (by decide) (by decide))).mono fun x w hw => ?_)
      cases x with
      | error e =>
        exact ⟨hw.1, fun _ h => (by cases h; exact hw.2 e rfl), fun _ _ h => (by cases h)⟩
      | ok v =>
        refine ⟨hw.1, fun _ h => (by cases h), fun ex al h => ?_⟩
        cases h
        exact ⟨nofun, fun h => absurd (hledger.mp h) hnot⟩

theorem after_verdict {core : Core Snap} {id peer : Id} {record : Option InviteRecord}
    (hrecord : record = (m.kv.lookup (.invite owner id)).map normalizeInviteRecord) :
    After (alone core t marksIndex) (fun x w =>
          Frame verdictKinds (m, b) w ∧ (∀ e, x = .error e → Legal e) ∧
          ∀ ex al, x = .ok (.proceed ex al) → (al = true ↔ InLedger m.kv owner id peer))
      (inviteVerdict owner id peer record) (m, b) := by
  cases record with
  | none =>
    refine ⟨.refl _, fun _ h => (by cases h), fun ex al h => ?_⟩
    cases h
    refine ⟨nofun, ?_⟩
    rintro ⟨r, hr, -⟩
    rw [hr] at hrecord
    cases hrecord
  | some r =>
    refine after_withLock fun locks => after_verdictLocked.mono fun x w hx locks' => ?_
    exact ⟨⟨hx.1.kv, hx.1.used, hx.1.mark⟩, hx.2⟩

/-! ## The commit of the responder -/

/-- The arguments `establishLink` commits with. -/
def responderArgs (owner : Id) (x : Authenticated) (link : PeerLinkRecord) (snapshot : Snap)
    (existingSession : Option (SessionRecord Snap)) (nowMs : Nat) : CommitArgs Snap :=
  { owner
    peerLinkRecord := link
    peer := x.peerAccountId
    ratchet := some snapshot
    sessionStatus := .active
    peerLinkState := .sessionEstablished
    existingSession
    resetSessionCreatedAt := false
    peerInboxId := some (link.peerInboxId <|> x.handshake.senderInboxId)
    eventType := .handshakeReceived
    eventSummary := "Handshake received and session established"
    eventDetails := [("inviteId", some x.inviteId.val)]
    atMs := nowMs }

/-- The responder's link, and the store at that point. -/
structure Responds (owner peer : Id) (m : Mem Snap) (link : PeerLinkRecord) (w : World Snap) :
    Prop where
  own : link.localAccountId = owner
  ofPeer : link.peerAccountId = peer
  old : ∀ e, linkOfPair m.kv owner peer = some e → link.state = e.state
  new : linkOfPair m.kv owner peer = none → link.state = .handshakeReceived
  sessions : ∀ k, kindOf k ∈ sessionKinds → w.1.kv.lookup k = m.kv.lookup k
  kept : ∀ e, linkOfPair m.kv owner peer = some e → link.peerLinkId = e.peerLinkId ∧
    m.used ⊆ w.1.used ∧
    ∀ k, kindOf k ∉ earlyKinds → w.1.kv.lookup k = m.kv.lookup k
  mark : w.2 = false

theorem Responds.frame {peer : Id} {link : PeerLinkRecord} {w w' : World Snap}
    {kinds : List KeyKind} (h : Responds owner peer m link w) (hw : Frame kinds w w')
    (hk : ∀ k ∈ sessionKinds, k ∉ kinds) (hearly : kinds ⊆ earlyKinds) :
    Responds owner peer m link w' :=
  { h with
    sessions := fun k hs => (hw.kv k (hk _ hs)).trans (h.sessions k hs)
    kept := fun e he => ⟨(h.kept e he).1, List.Subset.trans (h.kept e he).2.1 hw.used, fun k hne =>
      (hw.kv k fun hmem => hne (hearly hmem)).trans ((h.kept e he).2.2 k hne)⟩
    mark := hw.mark.trans h.mark }

/-- The transition of the responder's link is that of the stored one. -/
theorem Responds.passes {peer : Id} {link : PeerLinkRecord} {w : World Snap}
    (h : Responds owner peer m link w)
    (hcheck :
        checkTransition link.state .sessionEstablished = true ∨ svc.strictTransitions = false) :
    Passes svc m.kv owner peer := by
  intro e he
  rw [← h.old e he]
  exact hcheck

/-- Once the session is stored, a session record is not as it was. -/
theorem changed_of_saved {peer : Id} {link : PeerLinkRecord} {x : Authenticated} {snapshot : Snap}
    {session : Option (SessionRecord Snap)} {atMs now : Nat} {sid : Id} {w w₁ w' : World Snap}
    (h : Responds owner peer m link w)
    (hsaved : Saved (responderArgs owner x link snapshot session atMs) snapshot sid now w w₁)
    (hw : w'.1.kv.lookup (.session owner sid) = w₁.1.kv.lookup (.session owner sid)) :
    SessionChanged m owner w' := by
  refine ⟨sid, ?_⟩
  have hstored : w₁.1.kv.lookup (.session owner sid) = _ := hsaved.session
  rw [show (responderArgs owner x link snapshot session atMs).owner = owner from rfl,
    h.sessions (.session owner sid) (.head _)] at hstored
  rw [hw, hstored]
  cases hl : m.kv.lookup (.session owner sid) with
  | none => nofun
  | some r =>
    intro heq
    rw [Option.some.injEq] at heq
    have hversion : normalizeVersion r.version + 1 = r.version := congrArg SessionRecord.version heq
    unfold normalizeVersion at hversion
    split at hversion <;> omega

/-- Up to the check, only the session is written. -/
theorem Responds.sessionOnly {peer : Id} {link e : PeerLinkRecord} {x : Authenticated}
    {snapshot : Snap} {session : Option (SessionRecord Snap)} {atMs now : Nat} {sid : Id}
    {w w' : World Snap} (h : Responds owner peer m link w)
    (hsaved : Saved (responderArgs owner x link snapshot session atMs) snapshot sid now w w')
    (hsession : session = sessionOfLink w.1.kv owner link.peerLinkId)
    (he : linkOfPair m.kv owner peer = some e) :
    SessionOnly m owner e (Sessions.putVersion (w.1.kv.lookup (.session owner sid))
          ((responderArgs owner x link snapshot session atMs).putInput snapshot sid now)) w' := by
  obtain ⟨hid, hused, hkept⟩ := h.kept e he
  have hsame :
      sessionOfLink w.1.kv owner link.peerLinkId = sessionOfLink m.kv owner e.peerLinkId := by
    unfold sessionOfLink
    rw [hid, h.sessions (.sessionByLink owner e.peerLinkId) (.tail _ (.head _))]
    exact congrArg _ (funext fun i => h.sessions (.session owner i) (.head _))
  refine ⟨⟨rfl, hid⟩, ?_, hsaved.session, fun hdevice => hid ▸ hsaved.index hdevice,
    fun k hk hs hi => (hsaved.other k hs hi).trans (hkept k hk)⟩
  cases session with
  | some r₀ => exact .inl ⟨r₀, hsame.symm.trans hsession.symm, hsaved.same r₀ rfl, rfl⟩
  | none => exact .inr ⟨fun hmem => hsaved.fresh rfl (hused hmem), rfl⟩

/-- Once the session and the link are stored, the session can be loaded. -/
theorem loadable_of_saved {peer : Id} {link next : PeerLinkRecord} {x : Authenticated}
    {snapshot : Snap} {session : Option (SessionRecord Snap)} {atMs now : Nat} {sid : Id}
    {w w₁ w₂ w' : World Snap}
    (hsaved : Saved (responderArgs owner x link snapshot session atMs) snapshot sid now w w₁)
    (hlink : LinkStored next w₁ w₂)
    (hsession : session = sessionOfLink w.1.kv owner link.peerLinkId)
    (hfiled : ∀ o i r, w.1.kv.lookup (.session o i) = some r → r.sessionId = i)
    (hnext :
        next.localAccountId = owner ∧ next.peerAccountId = peer ∧ next.peerLinkId = link.peerLinkId)
    (hpair : w₂.1.kv.lookup (.pair owner peer) = some link.peerLinkId)
    (hw : ∀ k, kindOf k ∈ [KeyKind.peerLink, .pair, .session, .sessionByLink] →
        w'.1.kv.lookup k = w₂.1.kv.lookup k) : Loadable w'.1.kv owner peer := by
  obtain ⟨hown, hpeer, hid⟩ := hnext
  have hstored := hlink.link
  rw [hown, hid] at hstored
  have hindex : w₁.1.kv.lookup (.sessionByLink owner link.peerLinkId) = some sid := by
    cases hd : session.bind (·.peerDeviceId) with
    | none => exact hsaved.index hd
    | some device =>
      -- the index names the session already
      obtain ⟨r, hr, hdev⟩ := Option.bind_eq_some_iff.mp hd
      have hsid := hsaved.same r hr
      rw [hr] at hsession
      obtain ⟨i, hi, hr'⟩ := Option.bind_eq_some_iff.mp hsession.symm
      have hkept :=
        hsaved.other (.sessionByLink owner link.peerLinkId) (fun h => by cases h) fun he => by
        have hdevice : ((responderArgs owner x link snapshot session atMs).putInput
            snapshot sid now).peerDeviceId =
          some device := hd
        rw [indexKey, hdevice] at he
        cases he
      rw [hkept, hi, hsid, hfiled _ _ _ hr']
  refine ⟨next, Sessions.putVersion (w.1.kv.lookup (.session owner sid))
    ((responderArgs owner x link snapshot session atMs).putInput snapshot sid now), ?_, ?_, rfl⟩
  rotate_left
  · rw [sessionOfLink, hid, hw (.sessionByLink owner link.peerLinkId) (by simp [kindOf]),
      hlink.keeps (k := .sessionByLink owner link.peerLinkId) (fun h => by cases h)
        (fun h => by cases h), hindex]
    exact (hw (.session owner sid) (by simp [kindOf])).trans
      ((hlink.keeps (k := .session owner sid) (fun h => by cases h) (fun h => by cases h)).trans
      hsaved.session)
  · rw [linkOfPair, hw (.pair owner peer) (by simp [kindOf]), hpair]
    exact (hw (.peerLink owner link.peerLinkId) (.head _)).trans hstored

/-- The responder's link is the stored one, or a new one. -/
theorem after_responderLink {x : Authenticated} {now : Nat} {w : World Snap}
    {Q : Except Err PeerLinkRecord → World Snap → Prop} (hpairs : PairsLinks m.kv)
    (hw : Frame verdictKinds (m, false) w)
    (herr : ∀ e w', Legal e → w'.2 = false → Q (.error e) w')
    (hok : ∀ link w', Responds owner x.peerAccountId m link w' → Q (.ok link) w') :
    After (alone svc.core t marksIndex) Q
      (responderLink x owner now (linkOfPair m.kv owner x.peerAccountId)) w := by
  cases hl : linkOfPair m.kv owner x.peerAccountId with
  | some e =>
    obtain ⟨hown, hpeer, -⟩ := hpairs owner _ e hl
    refine hok _ w ⟨hown, hpeer, fun e' he' => ?_, fun hn => ?_,
      fun k hk => hw.kv k (sessionKinds_verdict hk),
      fun e' he' => ⟨?_, hw.used, fun k hk => hw.kv k fun hmem => hk (List.mem_append_left _ hmem)⟩,
        hw.mark⟩
    · cases hl.symm.trans he'
      rfl
    · cases hl.symm.trans hn
    · cases hl.symm.trans he'
      rfl
  | none =>
    obtain ⟨m₁, b₁⟩ := w
    refine after_js_bind (after_stableId fun i _ => ?_)
    refine after_create marksIndex_fail (fun _ _ f => by cases f <;> rfl)
      (fun _ _ f => by cases f <;> rfl)
      (fun e w' he hb => herr e w' (by rw [Legal, he]; exact fun h => by cases h)
      (hb.trans hw.mark)) fun w' hstored hb => ?_
    refine hok _ w' ⟨rfl, rfl, fun e' he' => ?_, fun _ => rfl, fun k hk => ?_,
      fun e' he' => ?_, hb.trans hw.mark⟩
    · cases hl.symm.trans he'
    rotate_left
    · cases hl.symm.trans he'
    · rw [hstored.keeps (ne_of_mem_of_not_mem hk (by decide)) (ne_of_mem_of_not_mem hk (by decide))]
      exact hw.kv k (sessionKinds_verdict hk)

theorem Offers.unique {core : Core Snap} {bytes : Bytes} {p p' : HandshakePacket}
    {peer peer' invite invite' : Id} (h : Offers core bytes p peer invite)
    (h' : Offers core bytes p' peer' invite') : peer = peer' ∧ invite = invite' := by
  have hp := h.parses.symm.trans h'.parses
  simp only [Except.ok.injEq, Option.some.injEq] at hp
  subst hp
  exact ⟨Option.some.inj (h.peer.symm.trans h'.peer),
    Option.some.inj (h.invite.symm.trans h'.invite)⟩

/-- An error once the session may be stored. -/
theorem VerdictEnds.of_passes {bytes : Bytes} {p : HandshakePacket} {peer invite : Id} {e : Err}
    {w : World Snap} (ho : Offers svc.core bytes p peer invite) (he : NoRefusals svc.core → Legal e)
    (h : w.2 = false ∨ Passes svc m.kv owner peer)
    (hkept : Guarded m.kv owner invite peer → SessionsKept m w) :
    VerdictEnds svc owner bytes m (.error e) w := by
  refine .failed he (fun hmark p' peer' invite' ho' => ?_) fun p' peer' invite' ho' hg => ?_
  · obtain ⟨rfl, -⟩ := ho.unique ho'
    rcases h with h | h
    · rw [h] at hmark
      cases hmark
    · exact h
  · obtain ⟨rfl, rfl⟩ := ho.unique ho'
    exact hkept hg

/-- The kinds that are written after the commit. -/
abbrev finishKinds : List KeyKind := [.event, .eventIndex, .attempt, .invitePreKey]

/-- What follows the commit of the responder. -/
theorem after_finish {core : Core Snap} {x : Authenticated} {exhausted : Bool} {name : String}
    {now : Nat} {commit : CommitResult Snap} {w : World Snap}
    {Q : Except Err HandshakeOutcome → World Snap → Prop}
    (herr : ∀ e w', Legal e → Q (.error e) w')
    (hok : ∀ w', Frame finishKinds w w' →
        Q (.ok (.accepted commit.snapshot commit.event x.handshake.ackNonce
          x.handshake.senderDisplayName name)) w') :
    After (alone core t marksIndex) Q (do
      let attemptId ← stableId "hs"
      let _ ← HandshakeAttempts.create
        (responderAttempt attemptId commit.peerLinkRecord.peerLinkId owner x.inviteId
          (commit.sessionRecord.map (·.sessionId)) now)
      if exhausted then
        let _ ← kvDelete (.invitePreKey owner x.inviteId)
        return .accepted commit.snapshot commit.event x.handshake.ackNonce
          x.handshake.senderDisplayName name
      else
        return .accepted commit.snapshot commit.event x.handshake.ackNonce
          x.handshake.senderDisplayName name :
          Sdk Snap HandshakeOutcome) w := by
  refine after_js_bind ((after_legal (l := [.newId]) (foot_stableId rfl) legal_total
    (marksIndex_kind (by decide) (by decide))).mono fun y w₁ h₁ => ?_)
  cases y with
  | error e => exact herr e w₁ (h₁.2 e rfl)
  | ok i =>
    refine after_js_bind ((after_legal foot_attemptCreate legal_attemptCreate
      (marksIndex_kind (by decide) (by decide))).mono fun y w₂ h₂ => ?_)
    cases y with
    | error e => exact herr e w₂ (h₂.2 e rfl)
    | ok attempt =>
      have hw₂ := h₁.1.trans h₂.1
      dsimp only [Then]
      split
      · refine after_js_bind
          ((after_legal (l := [.delete .invitePreKey]) (foot_delete rfl) legal_delete
          (marksIndex_kind (by decide) (by decide))).mono fun y w₃ h₃ => ?_)
        cases y with
        | error e => exact herr e w₃ (h₃.2 e rfl)
        | ok gone => exact hok w₃ ((hw₂.trans h₃.1).mono (by decide))
      · exact hok w₂ (hw₂.mono (by decide))

theorem after_establishLink {bytes : Bytes} {p : HandshakePacket} {x : Authenticated}
    {preKey : Bytes} {exhausted : Bool} {name : String} {now : Nat} {w : World Snap}
    (ho : Offers svc.core bytes p x.peerAccountId x.inviteId) (hx : x.handshake = p.handshake)
    (hpairs : PairsLinks m.kv)
    (hfiled : ∀ o i r, m.kv.lookup (.session o i) = some r → r.sessionId = i)
    (hnot : ¬ (InLedger m.kv owner x.inviteId x.peerAccountId ∧
          ∃ link, linkOfPair m.kv owner x.peerAccountId = some link ∧
            link.state = .sessionEstablished)) (hw : Frame verdictKinds (m, false) w)
    (hkey : (m.kv.lookup (.invitePreKey owner x.inviteId)).isSome = true) :
    After (alone svc.core t marksIndex) (VerdictEnds svc owner bytes m)
      (establishLink svc owner x preKey exhausted name now (linkOfPair m.kv owner x.peerAccountId))
      w := by
  have hopen : ¬ Guarded m.kv owner x.inviteId x.peerAccountId := by
    rintro (hg | hg)
    · exact hnot hg
    · rw [hg] at hkey
      cases hkey
  refine after_js_bind (after_responderLink hpairs hw
    (fun e w' he hb => .of_passes ho (fun _ => he) (.inl hb) (absurd · hopen)) fun link w₁ h₁ => ?_)
  refine after_js_bind
    ((after_legal_of foot_establishAsResponder (fun hc => legal_establishAsResponder hc)
    (marksIndex_kind (by decide) (by decide))).mono fun y w₂ h₂ => ?_)
  have hr₂ := h₁.frame h₂.1 (by decide) (by decide)
  cases y with
  | error e => exact .of_passes ho (fun hc => h₂.2 hc e rfl) (.inl hr₂.mark) (absurd · hopen)
  | ok snapshot =>
    obtain ⟨m₂, b₂⟩ := w₂
    refine after_js_bind (after_sessionByLink ?_ fun f =>
      .of_passes ho (fun _ => legal_fault f) (.inl hr₂.mark) (absurd · hopen))
    refine after_js_bind (after_untrack (after_commitSession
      (a := responderArgs owner x link snapshot (sessionOfLink m₂.kv owner link.peerLinkId) now) rfl
      (fun _ e w' he hb => ?_) (fun sid at_ w' hsaved hstrict hcheck => ?_) ?_))
    · exact .of_passes ho (fun _ => he) (hb.imp (·.trans hr₂.mark) hr₂.passes) (absurd · hopen)
    · have hchanged := changed_of_saved hr₂ hsaved rfl
      cases hl : linkOfPair m.kv owner x.peerAccountId with
      | none =>
        rw [show (responderArgs owner x link snapshot _ now).peerLinkRecord.state =
          link.state from rfl,
          hr₂.new hl] at hcheck
        cases hcheck
      | some e =>
        have hstate := hr₂.old e hl
        show VerdictEnds svc owner bytes m
            (.error (illegalTransition link.state .sessionEstablished)) w'
        rw [hstate]
        refine .refused ho hl hstrict ?_ hsaved.mark hchanged hopen (hr₂.sessionOnly hsaved rfl hl)
        rw [← hstate]
        exact hcheck
    · intro sid at_ cur w₃ w₄ w₅ r hsaved hcheck hlink hpair hevent _ _
      refine after_finish (fun e w' he =>
        .of_passes ho (fun _ => he) (.inr (hr₂.passes hcheck)) (absurd · hopen)) fun w' hw' => ?_
      rw [hx]
      have hkeep : ∀ k, kindOf k ∈ [KeyKind.peerLink, .pair, .session, .sessionByLink] →
          w'.1.kv.lookup k = w₄.1.kv.lookup k := by
        intro k hk
        have hne : kindOf k ∉ finishKinds ∧ kindOf k ∉ eventKinds := by
          revert hk
          generalize kindOf k = kind
          revert kind
          decide
        exact (hw'.kv k hne.1).trans (hevent.kv k hne.2)
      refine .established ho hnot (hr₂.passes hcheck) hkey ?_ ?_
      · refine loadable_of_saved hsaved hlink rfl (fun o i r hr => ?_) ⟨hr₂.own,
          hr₂.ofPeer, rfl⟩ ?_ hkeep
        · rw [hr₂.sessions (.session o i) (.head _)] at hr
          exact hfiled o i r hr
        · rw [← hr₂.own, ← hr₂.ofPeer]
          exact hpair
      · refine changed_of_saved hr₂ hsaved ?_
        exact (hkeep (.session owner sid) (by simp [kindOf])).trans
          (hlink.keeps (k := .session owner sid) nofun nofun)

theorem linkOfPair_congr {kv kv' : Store Snap} {peer : Id}
    (h : ∀ k, kindOf k = .pair ∨ kindOf k = .peerLink → kv'.lookup k = kv.lookup k) :
    linkOfPair kv' owner peer = linkOfPair kv owner peer := by
  unfold linkOfPair
  rw [h (.pair owner peer) (.inl rfl)]
  cases kv.lookup (.pair owner peer) with
  | none => rfl
  | some link => exact h (.peerLink owner link) (.inr rfl)

theorem after_proceed {bytes : Bytes} {p : HandshakePacket} {x : Authenticated}
    {exhausted already : Bool} {name : String} {w : World Snap}
    (ho : Offers svc.core bytes p x.peerAccountId x.inviteId) (hx : x.handshake = p.handshake)
    (hpairs : PairsLinks m.kv)
    (hfiled : ∀ o i r, m.kv.lookup (.session o i) = some r → r.sessionId = i)
    (hal : already = true ↔ InLedger m.kv owner x.inviteId x.peerAccountId)
    (hw : Frame verdictKinds (m, false) w) :
    After (alone svc.core t marksIndex) (VerdictEnds svc owner bytes m)
      (proceedHandshake svc owner x exhausted already name) w := by
  have hlink : linkOfPair w.1.kv owner x.peerAccountId = linkOfPair m.kv owner x.peerAccountId := by
    refine linkOfPair_congr fun k hk => hw.kv k ?_
    rcases hk with hk | hk <;> rw [hk] <;> decide
  have hkept : SessionsKept m w := sessions_of_frame hw
  have hfault : ∀ f w', w'.2 = false → SessionsKept m w' →
      VerdictEnds svc owner bytes m (.error (.fault f)) w' :=
    fun f w' hb hk => .of_passes ho (fun _ => legal_fault f) (.inl hb) fun _ => hk
  obtain ⟨m₁, b₁⟩ := w
  refine after_js_bind (after_get ?_ fun f => hfault f _ hw.mark hkept)
  refine after_js_bind (after_orThrow (fun preKey hpre => ?_) fun _ =>
    .of_passes ho (fun _ => legal_coded (by decide)) (.inl hw.mark) fun _ => hkept)
  have hkey : (m.kv.lookup (.invitePreKey owner x.inviteId)).isSome = true := by
    rw [← hw.kv (.invitePreKey owner x.inviteId) nofun]
    exact Option.isSome_iff_exists.mpr ⟨preKey, hpre⟩
  refine after_js_bind (after_clock fun now => ?_)
  refine after_js_bind (after_getByPair ?_ fun f => hfault f _ hw.mark hkept)
  have hestablish : ¬ (InLedger m.kv owner x.inviteId x.peerAccountId ∧
      ∃ link, linkOfPair m.kv owner x.peerAccountId = some link ∧
      link.state = .sessionEstablished) →
      After (alone svc.core t marksIndex) (VerdictEnds svc owner bytes m)
        (establishLink svc owner x preKey exhausted name now
        (linkOfPair m.kv owner x.peerAccountId)) (m₁, b₁) :=
    fun hnot => after_establishLink ho hx hpairs hfiled hnot hw hkey
  rw [hlink]
  cases hl : linkOfPair m.kv owner x.peerAccountId with
  | none =>
    rw [hl] at hestablish
    refine hestablish ?_
    rintro ⟨-, link, hno, -⟩
    cases hno
  | some e =>
    rw [hl] at hestablish
    dsimp only [Then]
    split
    · rename_i hboth
      rw [Bool.and_eq_true, decide_eq_true_eq] at hboth
      rw [hx]
      refine after_js_bind ((after_legal foot_buildSnapshot legal_buildSnapshot
        (marksIndex_kind (by decide) (by decide))).mono fun y w₂ h₂ => ?_)
      have hw₂ := (hw.trans h₂.1).mono (show verdictKinds ++ written _ ⊆ verdictKinds by decide)
      cases y with
      | error err =>
        exact .of_passes ho (fun _ => h₂.2 err rfl) (.inl hw₂.mark) fun _ => sessions_of_frame hw₂
      | ok snapshot => exact .replayed ho (hal.mp hboth.1) hl hboth.2 hkey hw₂
    · rename_i hnot
      refine hestablish ?_
      rintro ⟨hin, link, hsome, hest⟩
      cases hsome
      exact hnot (by rw [hal.mpr hin, hest]; rfl)

theorem ok_authenticate {p : HandshakePacket} : Js.Ok (fun x => x.handshake = p.handshake ∧
    acceptorOf svc.core p.handshake = some x.peerAccountId ∧ p.handshake.inviteId = some x.inviteId)
    (authenticate svc p) := by
  refine Js.ok_skip fun _ => Js.ok_skip fun _ => Js.ok_skip fun _ => ?_
  refine Js.ok_bind (Js.ok_orThrow fun _ h => h) fun invite hi => Js.ok_skip fun binding =>
    Js.ok_skip fun _ => ?_
  refine Js.ok_bind (Js.ok_orThrow fun _ h => h) fun peer hp => Js.ok_skip fun _ =>
    Js.ok_pure ⟨rfl, hp, hi⟩

/-- **The ways a handshake can end.** -/
theorem handshake_ends {bytes : Bytes} (hpairs : PairsLinks m.kv)
    (hfiled : ∀ o i r, m.kv.lookup (.session o i) = some r → r.sessionId = i) :
    After (alone svc.core t marksIndex) (VerdictEnds svc owner bytes m)
      (handleIncomingHandshakePacket svc owner bytes) (m, false) := by
  have hstart : Frame verdictKinds (m, false) (m, false) := .refl _
  have hearly : ∀ e w, (NoRefusals svc.core → Legal e) → Frame verdictKinds (m, false) w →
      VerdictEnds svc owner bytes m (.error e) w := by
    intro e w he hw
    refine .failed he (fun hmark => ?_) fun _ _ _ _ _ => sessions_of_frame hw
    rw [hw.mark] at hmark
    cases hmark
  refine after_js_bind (after_ensure (fun _ => ?_) fun _ =>
    hearly _ _ (fun _ => legal_message _) hstart)
  dsimp only [Then]
  split
  · rename_i e hparse
    exact hearly e _ (fun hc => hc.parse bytes e hparse) hstart
  · exact .declined (fun _ _ _ _ _ h => by cases h) hstart
  · rename_i p hparse
    refine after_js_bind (((after_legal_of foot_authenticate (fun hc => legal_authenticate hc)
      (marksIndex_kind (by decide)
      (by decide))).and_returns ok_authenticate).mono fun y w₁ h₁ => ?_)
    obtain ⟨⟨hframe, hlegal⟩, hok⟩ := h₁
    have hw₁ := hframe.mono (show written [.clock, .crypto] ⊆ verdictKinds by decide)
    cases y with
    | error e => exact hearly e w₁ (fun hc => hlegal hc e rfl) hw₁
    | ok x =>
      obtain ⟨hx, hpeer, hinv⟩ := hok x rfl
      have ho : Offers svc.core bytes p x.peerAccountId x.inviteId := ⟨hparse, hpeer, hinv⟩
      obtain ⟨m₁, b₁⟩ := w₁
      refine after_js_bind (after_inviteGet ?_ fun f => hearly _ _ (fun _ => legal_fault f) hw₁)
      refine after_js_bind ((after_verdict rfl).mono fun v w₂ h₂ => ?_)
      obtain ⟨hframe₂, hlegal₂, hal⟩ := h₂
      have hw₂ :=
        (hw₁.trans hframe₂).mono (show verdictKinds ++ verdictKinds ⊆ verdictKinds by decide)
      have hledger : InLedger m₁.kv owner x.inviteId x.peerAccountId ↔
          InLedger m.kv owner x.inviteId x.peerAccountId := by
        have hsame :
            m₁.kv.lookup (.invite owner x.inviteId) = m.kv.lookup (.invite owner x.inviteId) :=
          hframe.kv (.invite owner x.inviteId) nofun
        unfold InLedger
        rw [hsame]
      match v with
      | .error e => exact hearly e w₂ (fun _ => hlegal₂ e rfl) hw₂
      | .ok (.reject reason) => exact .declined (fun _ _ _ _ _ h => by cases h) hw₂
      | .ok (.proceed ex al) =>
        exact after_proceed ho hx hpairs hfiled ((hal ex al rfl).trans hledger) hw₂

end

/-! ## Reachable stores -/

theorem pairsLinks_of {rows : LinkPeers.Rows} {s : State Snap} (hf : FiledStore s.mem.kv)
    (hi : LinkPeers.Inv rows s) : PairsLinks s.mem.kv := by
  intro o p link hlink
  obtain ⟨l, hl, hr⟩ := Option.bind_eq_some_iff.mp hlink
  obtain ⟨r, hr', hpeer⟩ := hi.sound.pairs o p l hl
  cases hr.symm.trans hr'
  obtain ⟨hown, hid⟩ := hf.links o l link hr
  exact ⟨hown, hpeer, hid ▸ hl⟩

/-- **The ways a handshake can end on a reachable store.** -/
theorem handshake_ends_reachable [DecidableEq Snap] {svc : Service Snap} {rows : LinkPeers.Rows}
    {s : State Snap} (hr : ((system svc).lts (LinkPeers.anyCalls rows)).Reachable s) {owner : Id}
    {bytes : Bytes} {t : Nat} {fs : List Fate} {τ : List (Proc.Exch (sdk Snap))}
    {x : Except Err HandshakeOutcome} {m' : Mem Snap}
    (hrun : (system svc).solo t s.mem (handleIncomingHandshakePacket svc owner bytes) fs =
        some (τ, x, m')) :
    VerdictEnds svc owner bytes s.mem x (m', happened (picked marksIndex) τ fs) := by
  have hfiled :=
    ((FiledRun.inductive svc (D := LinkPeers.anyCalls rows) fun _ h => h.1).reachable s hr).store
  have hinv := (LinkPeers.inv_inductive svc rows).reachable s hr
  have hends := After.solo_observed (S := system svc)
    (handshake_ends (pairsLinks_of hfiled hinv) fun o i r h => (hfiled.sessions o i r h).2) hrun
  rwa [Bool.false_or] at hends

end RezSdk.L4
