import RezSdk.L4Runs.AckSession
import RezSdk.L4Runs.SessionHomes

/-!
# Refused transitions

With strict transitions a call that would move a peer link along an edge the
table does not have throws `PEER_LINK_ILLEGAL_TRANSITION`. The check of
`commitSession` stands behind the write of the session, so a handshake that
is refused has already stored its session (`refusal_leaves_session`). No
other call is ever refused: an accept checks edges that the table has, an ack
and a reject are only taken on a link that waits for them, and a decrypt
keeps its plaintext once the ratchet is stored (`refusal_keeps_links`).
-/
namespace RezSdk.L4.Refusal

open RezSdk.L1 RezSdk.L2 RezSdk.L3
open RezSdk.L4.SessionHomes (Homes Placed Whose home homedCalls inv_inductive makes_whose)

variable {Snap α β : Type}

/-! ## Calls that are never refused -/

section

variable {svc : Service Snap} {t : Nat} {w : World Snap}

/-- The call does not end with a refused transition. -/
def Accords (x : Except Err α) : Prop := ∀ e, x = .error e → Legal e

theorem accords_ok {x : α} : Accords (.ok x) := fun _ h => by cases h

theorem accords_error {e : Err} (h : Legal e) : Accords (.error e : Except Err α) := fun _ he => by
  cases he; exact h

abbrev Accord (x : Except Err α) (_ : World Snap) : Prop := Accords x

theorem after_accords {core : Core Snap} {g : Key → Fate → Bool} {p : Sdk Snap α}
    (hp : Lawfully core p) : After (alone core t g) Accord p w :=
  after_throws (fun _ _ _ _ _ ha => act_answered (observe_some.mp ha).1) hp

/-- A lawful step, in front of `f`. -/
theorem after_lawful {core : Core Snap} {g : Key → Fate → Bool} {p : Sdk Snap α}
    {f : α → Sdk Snap β} (hp : Lawfully core p)
    (hf : ∀ x w', After (alone core t g) Accord (f x) w') :
    After (alone core t g) Accord (p >>= f : Sdk Snap β) w := by
  refine after_js_bind ((after_accords hp).mono fun x w' hx => ?_)
  cases x with
  | error e => exact accords_error (hx e rfl)
  | ok v => exact hf v w'

/-! ## Decrypts -/

variable [DecidableEq Snap]

/-- The session that was put is stored with the advanced ratchet. -/
structure Holds (a : CommitArgs Snap) (s : Snap) (sid : Id) (w : World Snap) : Prop where
  ratchet : a.ratchet = some s
  stored : ∃ r, w.1.kv.lookup (.session a.owner sid) = some r ∧ r.ratchetSnapshot = s

omit [DecidableEq Snap] in
theorem Holds.of_saved {a a' : CommitArgs Snap} {s : Snap} {sid : Id} {now : Nat}
    {w w' : World Snap} (hr : a.ratchet = some s) (h : Saved a' s sid now w w')
    (ho : a'.owner = a.owner) : Holds a s sid w' :=
  ⟨hr, _, ho ▸ h.session, rfl⟩

/-- Reading the session back finds it. -/
theorem after_matches {core : Core Snap} {g : Key → Fate → Bool} {a : CommitArgs Snap} {s : Snap}
    {input : SessionRecord Snap} {p : Progress Snap} {Q : Except Err Bool → World Snap → Prop}
    (hp : p.sessionPutInput = some input) (h : Holds a s input.sessionId w) (hok : Q (.ok true) w)
    (herr : ∀ f, Q (.error (.fault f)) w) :
    After (alone core t g) Q (storedRatchetMatches a p) w := by
  obtain ⟨m, b⟩ := w
  obtain ⟨r, hr, hs⟩ := h.stored
  unfold storedRatchetMatches
  rw [h.ratchet, hp]
  refine after_js_bind (after_get ?_ herr)
  rw [hr]
  simp only [Then, hs, decide_true]
  exact hok

theorem legal_matches {core : Core Snap} {a : CommitArgs Snap} {p : Progress Snap} :
    Lawfully core (storedRatchetMatches a p) := by
  unfold storedRatchetMatches
  split
  · exact Js.throws_bind legal_get fun _ => Js.throws_pure
  · exact Js.throws_pure

omit [DecidableEq Snap] in
theorem legal_rewrite {core : Core Snap} {input : SessionRecord Snap} :
    ∀ {n : Nat}, Lawfully core (rewrite input n)
  | 0 => Js.throws_pure
  | n + 1 => by
    refine Js.throws_attempt fun x => ?_
    cases x with
    | ok v => exact Js.throws_pure
    | error e => exact legal_rewrite

theorem legal_durable {core : Core Snap} {a : CommitArgs Snap} {p : Progress Snap} :
    Lawfully core (confirmAdvancedRatchetDurable a p) := by
  unfold confirmAdvancedRatchetDurable
  split
  · exact Js.throws_bind legal_matches fun _ => Js.throws_pure
  · split
    · exact Js.throws_pure
    · refine Js.throws_bind legal_rewrite fun wrote => ?_
      cases wrote with
      | false => exact Js.throws_pure
      | true => exact Js.throws_bind legal_matches fun _ => Js.throws_pure

omit [DecidableEq Snap] in
theorem legal_keepPlaintext {core : Core Snap} {r : PeerLinkRecord} {e : Option CommitError} :
    Lawfully core (keepPlaintext r e : Sdk Snap (CommitResult Snap)) :=
  Js.throws_bind legal_buildSnapshot fun _ => Js.throws_pure

/-- The advance is durable, or the storage fails. -/
theorem after_durable {core : Core Snap} {g : Key → Fate → Bool} {a : CommitArgs Snap} {s : Snap}
    {input : SessionRecord Snap} {Q : Except Err (Bool × Progress Snap) → World Snap → Prop}
    (h : Holds a s input.sessionId w) (hok : Q (.ok (true, .written input)) w)
    (herr : ∀ f, Q (.error (.fault f)) w) :
    After (alone core t g) Q (confirmAdvancedRatchetDurable a (.written input)) w :=
  have hinput : (Progress.written input).sessionPutInput = some input := rfl
  after_js_bind (after_matches hinput h hok herr)

/-- The second commit was refused or failed: it is as the first one. -/
theorem after_recoverRetry {g : Key → Fate → Bool} {a : CommitArgs Snap} {p rp : Progress Snap}
    {f : PeerLinkRecord} {e : Err}
    (h : Legal e ∨ ∃ s input, rp = .written input ∧ Holds a s input.sessionId w) :
    After (alone svc.core t g) Accord (recoverRetry a p f rp e) w := by
  unfold recoverRetry
  rcases h with he | ⟨s, input, rfl, hholds⟩
  · have hrest : ∀ durable w', After (alone svc.core t g) Accord (do
        Js.ensure durable e
        keepPlaintext f (some (.of (failedStage rp) e)) :
          Sdk Snap (CommitResult Snap)) w' := fun durable w' =>
      after_lawful (Js.throws_ensure he) fun _ w' => after_accords legal_keepPlaintext
    split
    · exact after_lawful legal_durable fun r w' => hrest r.1 w'
    · exact after_lawful legal_matches hrest
  · refine after_js_bind (after_durable hholds ?_ fun f => accords_error (legal_fault f))
    show After _ Accord (do
      Js.ensure true e
      keepPlaintext f (some (.of (failedStage (.written input)) e)) :
        Sdk Snap (CommitResult Snap)) w
    exact after_accords (Js.throws_bind (Js.throws_passed rfl) fun _ => legal_keepPlaintext)

theorem after_recoverLink {a : CommitArgs Snap} {s : Snap} {p : Progress Snap} {e : Err}
    {fresh : Option PeerLinkRecord} (hs : a.ratchet = some s) :
    After (alone svc.core t marksIndex) Accord (recoverLink svc a p e fresh) w := by
  cases fresh with
  | none => exact after_accords legal_keepPlaintext
  | some f =>
    by_cases hest : f.state = .sessionEstablished
    · rw [show recoverLink svc a p e (some f) = _ from if_pos hest]
      exact after_accords legal_keepPlaintext
    · rw [show recoverLink svc a p e (some f) = _ from if_neg hest]
      obtain ⟨m, b⟩ := w
      have hsnap : ({ a with peerLinkRecord := f } : CommitArgs Snap).snapshot = some s := by
        simp only [CommitArgs.snapshot, hs]
      refine after_bind
        (after_commitSession hsnap (fun rp e w' he _ => ?_) (fun sid now w' hsaved _ _ => ?_) ?_)
      · exact after_recoverRetry (.inl he)
      · exact after_recoverRetry (.inr ⟨s, _, rfl, .of_saved hs hsaved rfl⟩)
      · intro sid now cur w₁ w₂ w' r _ _ _ _ _ _ _
        exact accords_ok

/-- A commit after a decrypt is not refused. -/
theorem after_commitAfterDecrypt {a : CommitArgs Snap} {s : Snap} (hs : a.ratchet = some s) :
    After (alone svc.core t marksIndex) Accord (commitSessionAfterDecrypt svc a) w := by
  obtain ⟨m, b⟩ := w
  have hsnap : a.snapshot = some s := by simp only [CommitArgs.snapshot, hs]
  refine after_bind
    (after_commitSession hsnap (fun p e w' he _ => ?_) (fun sid now w' hsaved _ _ => ?_) ?_)
  · refine after_lawful legal_durable fun x w₁ => after_lawful (Js.throws_ensure he) fun _ w₂ => ?_
    exact after_lawful legal_get fun fresh w₃ => after_recoverLink hs
  · refine after_js_bind (after_durable (.of_saved hs hsaved rfl) ?_ fun f =>
      accords_error (legal_fault f))
    refine after_lawful (Js.throws_passed rfl) fun _ w₂ => ?_
    exact after_lawful legal_get fun fresh w₃ => after_recoverLink hs
  · intro sid now cur w₁ w₂ w' r _ _ _ _ _ _ _
    exact accords_ok

theorem after_commitDecrypt {owner peer : Id} {link : PeerLinkRecord} {record : SessionRecord Snap}
    {opened : Opened} {advanced : Snap} :
    After (alone svc.core t marksIndex) Accord
      (commitDecrypt svc owner peer link record opened advanced) w := by
  unfold commitDecrypt
  split
  · refine after_lawful legal_total fun now w₁ =>
      after_js_bind ((after_commitAfterDecrypt rfl).mono fun x w₂ hx => ?_)
    cases x with
    | error e => exact accords_error (hx e rfl)
    | ok commit => exact accords_ok
  · refine after_accords (Js.throws_bind legal_total fun now => Js.throws_bind legal_put fun _ =>
      ?_)
    exact Js.throws_bind legal_buildSnapshot fun _ => Js.throws_pure

theorem after_decrypt (hc : NoRefusals svc.core) {owner peer : Id} {b : Bytes} :
    After (alone svc.core t marksIndex) Accord (decryptDirectMessage svc owner peer b) w := by
  refine after_lawful (Js.throws_ensure (legal_message _)) fun _ w₁ =>
    after_lawful legal_getByPair fun found w₂ => ?_
  refine after_lawful (Js.throws_orThrow (legal_coded (by decide))) fun link w₃ => ?_
  refine after_lawful legal_sessionByLink fun session w₄ => ?_
  refine after_lawful (Js.throws_orThrow (legal_coded (by decide))) fun record w₅ => ?_
  refine after_lawful (Js.throws_ensure (legal_coded (by decide))) fun _ w₆ => ?_
  refine after_lawful (legal_core hc) fun x w₇ => ?_
  refine after_lawful (Js.throws_ensure (legal_coded (by decide))) fun _ w₈ => ?_
  split
  · exact after_accords (Js.throws_bind legal_total fun n => Js.throws_throw (by simp [Legal]))
  · exact after_lawful legal_total fun _ w₉ => after_commitDecrypt

/-! ## Trial decryption -/

theorem after_tryLegacy (hc : NoRefusals svc.core) {owner : Id} {b : Bytes} {row : PeerLinkRecord} :
    After (alone svc.core t marksIndex) Accord (tryLegacy svc owner b row) w := by
  refine after_lawful legal_sessionByLink fun session w₁ => ?_
  cases session with
  | none => exact accords_ok
  | some record =>
    dsimp only
    split
    · exact accords_ok
    · refine after_lawful (legal_core hc) fun x w₂ => ?_
      split
      · exact accords_ok
      · refine after_lawful legal_total fun _ w₃ => after_lawful legal_total fun now w₄ =>
          after_lawful legal_total fun _ w₅ =>
            after_js_bind (after_commitDecrypt.mono fun y w₆ hy => ?_)
        cases y with
        | error e => exact accords_error (hy e rfl)
        | ok r => exact accords_ok

theorem after_tryRow (hc : NoRefusals svc.core) {owner : Id} {b : Bytes} {row : PeerLinkRecord} :
    After (alone svc.core t marksIndex) Accord (tryRow svc owner b row) w := by
  unfold tryRow
  split
  · refine after_lawful (legal_trialDevices hc) fun hit w₁ => ?_
    cases hit with
    | none => exact after_tryLegacy hc
    | some x =>
      refine after_lawful legal_total fun _ w₂ => after_lawful legal_total fun now w₃ =>
        after_lawful legal_total fun _ w₄ => ?_
      exact after_accords (Js.throws_bind legal_buildSnapshot fun _ => Js.throws_pure)
  · exact after_tryLegacy hc

omit [DecidableEq Snap] in
theorem legal_candidates {owner : Id} {now : Nat} :
    ∀ {rows : List PeerLinkRecord}, Lawfully svc.core (recoveryCandidates owner now rows)
  | [] => Js.throws_pure
  | _ :: _ =>
    Js.throws_bind legal_total fun _ => Js.throws_bind legal_candidates fun _ => Js.throws_pure

theorem after_anyPeerLoop (hc : NoRefusals svc.core) {owner : Id} {b : Bytes}
    {rows : List PeerLinkRecord} :
    ∀ {candidates : List PeerLinkRecord} {w : World Snap},
      After (alone svc.core t marksIndex) Accord (anyPeerLoop svc owner b rows candidates) w := by
  induction rows with
  | nil =>
    intro candidates w
    refine after_accords (Js.throws_bind legal_total fun now =>
      Js.throws_bind legal_candidates fun cs => ?_)
    exact Js.throws_throw (by simp [Legal])
  | cons row rows ih =>
    intro candidates w
    refine after_js_bind ((after_tryRow hc).mono fun x w₁ hx => ?_)
    cases x with
    | error e => exact accords_error (hx e rfl)
    | ok outcome =>
      cases outcome with
      | hit r => exact accords_ok
      | skip => exact ih
      | miss => exact ih

theorem after_decryptAny (hc : NoRefusals svc.core) {owner : Id} {b : Bytes} :
    After (alone svc.core t marksIndex) Accord (decryptDirectMessageAnyPeer svc owner b) w :=
  after_lawful (Js.throws_ensure (legal_message _)) fun _ _ =>
    after_lawful legal_listLinks fun _ _ =>
    after_anyPeerLoop hc

end

/-! ## Accepts -/

section

variable {svc : Service Snap} {t : Nat} {w : World Snap} {a : AcceptArgs} {owner : Id}
  {link : PeerLinkRecord}

/-- The link, as known and as stored, may still degrade. -/
structure Unsettled (owner : Id) (link : PeerLinkRecord) (w : World Snap) : Prop where
  own : link.localAccountId = owner
  state : checkTransition link.state .degraded = true
  stored : ∀ r, w.1.kv.lookup (.peerLink owner link.peerLinkId) = some r →
    r.localAccountId = owner ∧ r.peerLinkId = link.peerLinkId ∧
      checkTransition r.state .degraded = true

theorem Unsettled.frame {kinds : List KeyKind} {w' : World Snap} (h : Unsettled owner link w)
    (hw : Frame kinds w w') (hk : .peerLink ∉ kinds) : Unsettled owner link w' :=
  { h with stored := fun r hr => h.stored r ((hw.kv (.peerLink owner link.peerLinkId) hk).symm.trans
  hr) }

/-- Once `next` is stored under the link's id, it is what is known. -/
theorem Unsettled.of_stored {next : PeerLinkRecord} {w' : World Snap} (h : LinkStored next w w')
    (hown : next.localAccountId = owner) (hstate : checkTransition next.state .degraded = true) :
    Unsettled owner next w' := by
  refine ⟨hown, hstate, fun r hr => ?_⟩
  have hlink := h.link
  rw [hown] at hlink
  cases hlink.symm.trans hr
  exact ⟨hown, rfl, hstate⟩

/-- What is known under the same id is stored with it. -/
theorem Unsettled.sibling {next : PeerLinkRecord} (h : Unsettled owner next w)
    (hid : next.peerLinkId = link.peerLinkId) (hown : link.localAccountId = owner)
    (hstate : checkTransition link.state .degraded = true) : Unsettled owner link w :=
  ⟨hown, hstate, hid ▸ h.stored⟩

/-- The link the send phase goes on with. -/
theorem Unsettled.current {fresh : Option PeerLinkRecord} (h : Unsettled owner link w)
    (hf : fresh = w.1.kv.lookup (.peerLink owner link.peerLinkId)) :
    (fresh.getD link).localAccountId = owner ∧ (fresh.getD link).peerLinkId = link.peerLinkId ∧
      checkTransition (fresh.getD link).state .degraded = true := by
  cases fresh with
  | none => exact ⟨h.own, rfl, h.state⟩
  | some r => exact h.stored r hf.symm

theorem after_trySend {inviter sid : Id} {packet : HandshakePacket} {now : Nat} {s : SendState}
    (h : Unsettled a.acceptor s.link w) :
    After (alone svc.core t marksIndex) (fun y w' => match y with
      | .ok _ => True
      | .error (s', _) =>
        Unsettled a.acceptor s'.link w') (trySend svc a inviter sid packet now s) w := by
  obtain ⟨m, b⟩ := w
  refine after_track (after_orThrow (fun inbox _ => ?_) fun _ => h)
  refine after_track (after_core fun n => ?_)
  cases svc.core.answer (.sendHandshake inbox packet inviter) n with
  | error e => exact h
  | ok packetId =>
    refine after_track (after_get ?_ fun _ => h)
    obtain ⟨hown, hid, hstate⟩ := h.current rfl
    dsimp only
    split
    · exact trivial
    · refine after_track ((after_frame foot_attemptUpdate
        (marksIndex_kind (by decide) (by decide))).mono fun x w₁ hx => ?_)
      have h₁ := h.frame hx (by decide)
      cases x with
      | error e => exact h₁
      | ok attempt =>
        refine after_track (after_ensure (fun _ => ?_) fun _ => h₁)
        obtain ⟨m₁, b₁⟩ := w₁
        refine after_track
          (after_update marksIndex_fail (fun _ _ f => by cases f <;> rfl) (fun _ _ => h₁)
          (fun cur f f' w₂ _ _ hstored _ => ?_) fun cur w₂ _ hstored _ _ => ?_)
        · exact (Unsettled.of_stored hstored hown rfl).sibling hid h.own h.state
        · refine after_track ((after_frame foot_appendEvent
            (marksIndex_kind (by decide) (by decide))).mono fun y w₃ hy => ?_)
          have h₃ := (Unsettled.of_stored hstored hown rfl).frame hy (by decide)
          cases y with
          | error e => exact h₃
          | ok event => exact trivial

/-- The `catch` of the send degrades a link that may. -/
theorem after_sendFailed {sid : Id} {now : Nat} {s : SendState} {e : Err}
    (h : Unsettled a.acceptor s.link w) :
    After (alone svc.core t marksIndex) Accord (sendFailed svc a sid now s e) w := by
  obtain ⟨m, b⟩ := w
  refine after_js_bind (after_get ?_ fun f => accords_error (legal_fault f))
  obtain ⟨-, -, hstate⟩ := h.current rfl
  dsimp only [Then]
  split
  · exact accords_ok
  · refine after_accords (Js.throws_bind (Js.throws_attempt fun x => ?_) fun attempt => ?_)
    · cases x <;> exact Js.throws_pure
    · refine Js.throws_bind (legal_check hstate) fun _ => Js.throws_bind legal_update fun _ => ?_
      exact Js.throws_bind legal_appendEvent fun _ => Js.throws_pure

theorem after_sendPhase (hc : NoRefusals svc.core) {inviter inviteId key sid : Id}
    {x3dh : HandshakeData} {now : Nat} {s : SendState} (h : Unsettled a.acceptor s.link w) :
    After (alone svc.core t marksIndex) Accord (sendPhase svc a inviter inviteId x3dh key sid now s)
      w := by
  refine after_js_bind ((after_legal foot_loadAccountKeys (legal_loadAccountKeys hc)
    (marksIndex_kind (by decide) (by decide))).mono fun x w₁ h₁ => ?_)
  have hw₁ := h.frame h₁.1 (by decide)
  cases x with
  | error e => exact accords_error (h₁.2 e rfl)
  | ok keys =>
    refine after_js_bind (after_orThrow (fun binding _ => ?_) fun _ =>
      accords_error (legal_coded (by decide)))
    refine after_js_bind ((after_legal (l := [.newId]) (foot_uuid rfl) legal_total
      (marksIndex_kind (by decide) (by decide))).mono fun x w₂ h₂ => ?_)
    have hw₂ := hw₁.frame h₂.1 (by decide)
    cases x with
    | error e => exact accords_error (h₂.2 e rfl)
    | ok nonce =>
      refine after_js_bind ((after_legal (l := [.crypto]) (foot_core rfl) (legal_core hc)
        (marksIndex_kind (by decide) (by decide))).mono fun x w₃ h₃ => ?_)
      have hw₃ := hw₂.frame h₃.1 (by decide)
      cases x with
      | error e => exact accords_error (h₃.2 e rfl)
      | ok signature =>
        refine after_js_bind ((after_legal (l := [.set .ackNonce])
          (foot_set (k := .ackNonce _ _) rfl trivial) legal_set
          (marksIndex_kind (by decide) (by decide))).mono fun x w₄ h₄ => ?_)
        have hw₄ := hw₃.frame h₄.1 (by decide)
        cases x with
        | error e => exact accords_error (h₄.2 e rfl)
        | ok u =>
          refine after_bind ((after_trySend hw₄).mono fun y w₅ h₅ => ?_)
          cases y with
          | ok s' => exact accords_ok
          | error e => exact after_sendFailed h₅

/-- The accepted link, and its commit. -/
theorem after_acceptEstablish (hc : NoRefusals svc.core) {inviter inviteId link : Id} {now : Nat}
    {existing : Option PeerLinkRecord} {r : PeerLinkRecord} {attempt : HandshakeAttemptRecord}
    (hstate : r.state = .acceptCommitted) (hown : r.localAccountId = a.acceptor) :
    After (alone svc.core t marksIndex) Accord
      (acceptEstablish svc a inviter inviteId link now existing r attempt) w := by
  refine after_lawful legal_appendEvent fun _ w₁ =>
    after_lawful (legal_requireBound hc) fun identity w₂ => ?_
  refine after_lawful (legal_core hc) fun x w₃ => ?_
  refine after_lawful ?_ fun session w₄ => ?_
  · cases existing with
    | none => exact Js.throws_pure
    | some e => exact legal_sessionByLink
  obtain ⟨m, b⟩ := w₄
  refine after_js_bind (after_untrack (after_commitSession rfl (fun _ e w' he _ => accords_error he)
    (fun sid at_ w' _ _ hcheck => ?_) ?_))
  · have hcheck : checkTransition r.state .acceptCommitted = false := hcheck
    rw [hstate] at hcheck
    cases hcheck
  · intro sid at_ cur w₅ w₆ w₇ commit _ _ hstored _ hevent _ hrecord
    have hsent : Unsettled a.acceptor commit.peerLinkRecord w₇ := by
      rw [hrecord]
      exact (Unsettled.of_stored hstored hown rfl).frame hevent (by decide)
    refine after_js_bind (After.mono (Q := Accord) (fun y w' hy => ?_) ?_)
    · cases y with
      | error e => exact accords_error (hy e rfl)
      | ok s => exact after_accords (Js.throws_bind legal_buildSnapshot fun _ => Js.throws_pure)
    · unfold sendIfAsked
      cases commit.sessionRecord with
      | none => exact accords_ok
      | some session =>
        dsimp only
        split
        · exact after_sendPhase hc hsent
        · exact accords_ok

theorem ok_commitAccept {inviter link : Id} {now : Nat} {existing : Option PeerLinkRecord}
    (hown : ∀ e, existing = some e → e.localAccountId = a.acceptor) :
    Js.Ok (fun r => r.state = .acceptCommitted ∧ r.localAccountId = a.acceptor)
      (commitAccept svc a inviter link now existing) := by
  refine Js.ok_skip fun _ => Js.ok_skip fun _ => ?_
  cases existing with
  | none => exact Js.ok_skip fun _ => Js.ok_skip fun _ => Js.ok_skip fun _ => Js.ok_skip fun _ =>
      Js.ok_skip fun _ => Js.ok_skip fun _ => Js.ok_pure ⟨rfl, rfl⟩
  | some e =>
    exact Js.ok_skip fun _ => Js.ok_skip fun _ => Js.ok_skip fun _ => Js.ok_skip fun _ =>
      Js.ok_skip fun _ =>
      Js.ok_skip fun _ => Js.ok_skip fun _ => Js.ok_skip fun _ => Js.ok_pure ⟨rfl, hown e rfl⟩

theorem after_acceptFresh (hc : NoRefusals svc.core) {inviter : Id} {now : Nat}
    {existing : Option PeerLinkRecord}
    (hown : ∀ e, existing = some e → e.localAccountId = a.acceptor) :
    After (alone svc.core t marksIndex) Accord (acceptFresh svc a inviter now existing) w := by
  refine after_lawful legal_inviteByHash fun found w₁ => after_lawful ?_ fun link w₂ => ?_
  · cases existing with
    | none => exact legal_total
    | some e => exact Js.throws_pure
  refine after_js_bind
    (((after_accords (legal_commitAccept hc)).and_returns (ok_commitAccept hown)).mono
    fun x w₃ h₃ => ?_)
  obtain ⟨hlegal, hok⟩ := h₃
  cases x with
  | error e => exact accords_error (hlegal e rfl)
  | ok r =>
    obtain ⟨hstate, hr⟩ := hok r rfl
    refine after_lawful ?_ fun _ w₄ => ?_
    · cases a.envelope.postCap with
      | none => exact Js.throws_pure
      | some cap => exact legal_set
    refine after_lawful legal_total fun attemptId w₅ => ?_
    refine after_lawful (Js.throws_orThrow (hc.requireId _)) fun inviteId w₆ => ?_
    refine after_lawful legal_attemptCreate fun attempt w₇ =>
      after_lawful legal_backLink fun _ w₈ => ?_
    exact after_acceptEstablish hc hstate hr

theorem after_acceptInvite (hc : NoRefusals svc.core) {m : Mem Snap} {b : Bool}
    (hpairs : PairsLinks m.kv) :
    After (alone svc.core t marksIndex) Accord (acceptInvite svc a) (m, b) := by
  refine after_js_bind ((after_legal foot_verifyInvite (legal_verifyInvite hc)
    (marksIndex_kind (by decide) (by decide))).mono fun x w₁ h₁ => ?_)
  obtain ⟨hframe, hlegal⟩ := h₁
  cases x with
  | error e => exact accords_error (hlegal e rfl)
  | ok v =>
    obtain ⟨m₁, b₁⟩ := w₁
    refine after_js_bind (after_getByPair ?_ fun f => accords_error (legal_fault f))
    have hsame : linkOfPair m₁.kv a.acceptor v.1 = linkOfPair m.kv a.acceptor v.1 := by
      refine linkOfPair_congr fun k hk => hframe.kv k ?_
      rcases hk with hk | hk <;> rw [hk] <;> decide
    rw [hsame]
    cases hl : linkOfPair m.kv a.acceptor v.1 with
    | none => exact after_acceptFresh hc fun e h => by cases h
    | some e =>
      dsimp only [Then]
      split
      · refine after_acceptFresh hc fun e' h => ?_
        cases h
        exact (hpairs _ _ e hl).1
      · exact after_accords (Js.throws_bind legal_appendEvent fun _ =>
          Js.throws_bind legal_buildSnapshot fun _ =>
          Js.throws_pure)

end

/-! ## The theorem -/

section

variable [DecidableEq Snap] {svc : Service Snap} {t : Nat} {w : World Snap}

omit [DecidableEq Snap] in
/-- The reply only wraps the result. -/
theorem after_reply {core : Core Snap} {g : Key → Fate → Bool} {p : Sdk Snap α} {f : α → β}
    (h : After (alone core t g) Accord p w) :
    After (alone core t g) Accord (do let r ← p; return f r : Sdk Snap β) w := by
  refine after_js_bind (h.mono fun x w' hx => ?_)
  cases x with
  | error e => exact accords_error (hx e rfl)
  | ok v => exact accords_ok

/-- Only a handshake can be refused. -/
theorem after_program (hc : NoRefusals svc.core) {m : Mem Snap} {b : Bool}
    (hpairs : PairsLinks m.kv) {c : Call} (hno : ∀ owner bytes, c ≠ .handshake owner bytes) :
    After (alone svc.core t marksIndex) Accord (program svc c) (m, b) := by
  cases c with
  | encrypt owner peer bytes => exact after_reply (after_accords (legal_encrypt hc))
  | decrypt owner peer bytes => exact after_reply (after_decrypt hc)
  | decryptAny owner bytes => exact after_reply (after_decryptAny hc)
  | ack owner bytes => exact after_reply (after_accords (legal_ack hc))
  | reject owner bytes => exact after_reply (after_accords (legal_reject hc))
  | accept a => exact after_reply (after_acceptInvite hc hpairs)
  | handshake owner bytes => exact absurd rfl (hno owner bytes)
  | join owner inviteId joiner now => exact after_reply (after_accords legal_join)
  | encryptDevice owner peer link device bytes =>
    exact after_reply (after_accords (legal_encryptDevice hc))
  | decryptDevice owner peer link device bytes =>
    exact after_reply (after_accords (legal_decryptDevice hc))
  | trialDevices owner peer link bytes => exact after_reply (after_accords (legal_trialDevices hc))
  | initiateDevice a => exact after_reply (after_accords (legal_initiateDevice hc))
  | respondDevice a => exact after_reply (after_accords (legal_respondDevice hc))
  | upsert a => exact after_reply (after_accords legal_upsert)
  | getLink owner link => exact after_reply (after_accords legal_getLink)
  | listLinks owner => exact after_reply (after_accords legal_listPeerLinks)

end

/-- The kinds of the session records and their index, the peer links and the
event logs. -/
def tracedKinds : List KeyKind :=
  [.session, .sessionByLink, .sessionByDevice, .peerLink, .pair, .event, .eventIndex]

def Untouched (kv kv' : Store Snap) : Prop := ∀ k, kindOf k ∈ tracedKinds →
    kv'.lookup k = kv.lookup k

theorem tracedKinds_early {kind : KeyKind} (h : kind ∈ tracedKinds) : kind ∉ earlyKinds := by
  revert kind
  decide

/-- How a handshake's reply ends. -/
theorem after_handshakeReply {svc : Service Snap} {t : Nat} {owner : Id} {bytes : Bytes}
    [DecidableEq Snap] {m : Mem Snap} (hpairs : PairsLinks m.kv)
    (hfiled : ∀ o i r, m.kv.lookup (.session o i) = some r → r.sessionId = i) :
    After (alone svc.core t marksIndex)
      (fun x w => ∃ y, VerdictEnds svc owner bytes m y w ∧ x = y.map .handshake)
      (program svc (.handshake owner bytes)) (m, false) := by
  refine after_js_bind ((handshake_ends hpairs hfiled).mono fun y w hy => ?_)
  cases y with
  | error e => exact ⟨.error e, hy, rfl⟩
  | ok o => exact ⟨.ok o, hy, rfl⟩

/-- `r` is the legacy session of the link. -/
structure SessionOf (owner : Id) (link : PeerLinkRecord) (r : SessionRecord Snap) : Prop where
  owner : r.localAccountId = owner
  link : r.peerLinkId = link.peerLinkId
  legacy : r.peerDeviceId = none

/-- What a refused handshake leaves: `r`, of this link, where nothing or a
session of this link was, and the link's index entry. -/
structure LeavesSession (kv kv' : Store Snap) (owner : Id) (link : PeerLinkRecord)
    (r : SessionRecord Snap) : Prop where
  ofLink : SessionOf owner link r
  before : ∀ r₀, kv.lookup (.session owner r.sessionId) = some r₀ → SessionOf owner link r₀
  stored : kv'.lookup (.session owner r.sessionId) = some r
  index : kv'.lookup (.sessionByLink owner link.peerLinkId) = some r.sessionId
  others : ∀ k, kindOf k ∈ tracedKinds → k ≠ .session owner r.sessionId →
    k ≠ .sessionByLink owner link.peerLinkId →
    kv'.lookup k = kv.lookup k

/-- Over sessions that are at home. -/
theorem leavesSession_of {made : Snap → Id → Prop} {H : Homes} {m m' : Mem Snap} {b : Bool}
    {owner : Id} {link : PeerLinkRecord} {r : SessionRecord Snap} (hplaced : Placed made H m)
    (hfiled : FiledStore m.kv) (honly : SessionOnly m owner link r (m', b)) :
    LeavesSession m.kv m'.kv owner link r := by
  have hbefore : (∀ r₀, m.kv.lookup (.session owner r.sessionId) = some r₀ →
      SessionOf owner link r₀) ∧
      r.peerDeviceId = none := by
    rcases honly.before with ⟨r₀, hr₀, hid, hdevice⟩ | ⟨hnew, hlegacy⟩
    · obtain ⟨i, hi, hstored⟩ := Option.bind_eq_some_iff.mp hr₀
      have hhome := hplaced.ofLink hi hstored
      obtain ⟨howner, hsid⟩ := hfiled.sessions owner i r₀ hstored
      refine ⟨fun r₁ hr₁ => ?_, hdevice.trans (congrArg Prod.snd hhome)⟩
      rw [hid, hsid, hstored] at hr₁
      cases hr₁
      exact ⟨howner, congrArg Prod.fst hhome, congrArg Prod.snd hhome⟩
    · refine ⟨fun r₁ hr₁ => ?_, hlegacy⟩
      rw [hplaced.unused hnew] at hr₁
      cases hr₁
  obtain ⟨howner, hlink⟩ := honly.ofLink
  have hindex : indexKey r = .sessionByLink owner link.peerLinkId := by
    rw [indexKey, hbefore.2, howner, hlink]
  refine ⟨⟨howner, hlink, hbefore.2⟩, hbefore.1, honly.stored, honly.index hbefore.2,
    fun k hk hs hi => ?_⟩
  exact honly.other k (tracedKinds_early hk) hs fun he => hi (he.trans hindex)

/-- **A refused transition leaves no trace but the session** of the link that
was refused; and it is a handshake that was refused. -/
theorem refusal_keeps_links [DecidableEq Snap] (svc : Service Snap) (hc : NoRefusals svc.core)
    (rows : LinkPeers.Rows) (s : State Snap)
    (hr : ((system svc).lts (homedCalls Whose rows)).Reachable s) (c : Call) (t : Nat)
    (fs : List Fate) (τ : List (Proc.Exch (sdk Snap))) (e : Err) (m' : Mem Snap)
    (hrun : (system svc).solo t s.mem (program svc c) fs = some (τ, .error e, m'))
    (hcode : e.code = some "PEER_LINK_ILLEGAL_TRANSITION") :
    ∃ owner bytes p peer invite link, ∃ r : SessionRecord Snap, c = .handshake owner bytes ∧
      Offers svc.core bytes p peer invite ∧ linkOfPair s.mem.kv owner peer = some link ∧
      checkTransition link.state .sessionEstablished = false ∧
      LeavesSession s.mem.kv m'.kv owner link r := by
  have hinv := (inv_inductive makes_whose rows).reachable s hr
  obtain ⟨H, hagreed⟩ := hinv.homes
  have hfiled := hinv.filed.store
  have hpairs := pairsLinks_of hfiled hinv.peers
  by_cases hh : ∃ owner bytes, c = .handshake owner bytes
  · obtain ⟨owner, bytes, rfl⟩ := hh
    obtain ⟨y, hends, hy⟩ := After.solo_observed (S := system svc)
      (after_handshakeReply hpairs fun o i r h => (hfiled.sessions o i r h).2) hrun
    generalize hw : (m', false || happened (picked marksIndex) τ fs) = w at hends
    cases hends with
    | failed he _ _ =>
      cases hy
      exact absurd hcode (he hc)
    | refused ho hlink _ hcheck _ _ _ honly =>
      subst hw
      exact ⟨owner, bytes, _, _, _, _, _, rfl, ho, hlink, hcheck,
        leavesSession_of hagreed.placed hfiled honly⟩
    | declined _ _ => cases hy
    | replayed _ _ _ _ _ _ => cases hy
    | established _ _ _ _ _ _ => cases hy
  · have hno : ∀ owner bytes, c ≠ .handshake owner bytes :=
      fun owner bytes h => hh ⟨owner, bytes, h⟩
    have haccord :=
      After.solo_observed (S := system svc) (b := false) (after_program hc hpairs hno) hrun
    exact absurd hcode (haccord e rfl)

/-! ## Concrete runs -/

namespace Example

open Counting

def strict : Service Nat := { Counting.svc with strictTransitions := true }

theorem noRefusals : NoRefusals strict.core where
  answer q n e h := by
    cases q with
    | decryptIncoming base pkt =>
      simp only [strict, Counting.svc, core, answer] at h
      split at h <;> cases h
    | sendHandshake inbox p peer =>
      cases n with
      | zero => cases h
      | succ n =>
        cases h
        exact legal_message _
    | _ => cases h
  parse b e h := by
    simp only [strict, Counting.svc, core, parsePacket] at h
    split at h <;> cases h
  requireId label := legal_message _
  base64 := legal_message _

/-- Account `b` has rejected account `a`, and now accepts `a`'s invite `d`. -/
def start : Mem Nat :=
  .ofStore (((inviting (invite 2 [] Nat.two_pos)).insert (.peerLink a c)
    { link .rejected with activeSessionId := none }).insert
    (.pair a b) c) [c]

def initial : State Nat := ⟨start, [], []⟩

theorem initial_reachable :
    ((system strict).lts (homedCalls Whose fun _ _ => none)).Reachable initial := by
  have hplaced : Placed (SessionHomes.Is fun _ => a) (fun _ _ => none) start :=
    SessionHomes.placed_of_atHome (by decide) nofun
  exact ⟨initial, [], ⟨⟨LinkPeers.init_of_wellKept (by decide) nofun, _, hplaced.whose⟩, rfl, rfl⟩,
    .nil _⟩

abbrev receive : Call := .handshake a [1, 3, 0]

def smoothly : List Fate := (system strict).fates smooth 0 100 start (program strict receive)

/-- The session that is stored under the 125th id. -/
abbrev newSession : Key := .session a (unary 125)

/-- The handshake is refused, and has stored its session. -/
def refused : Bool :=
  ((system strict).solo 0 start (program strict receive) smoothly).any fun x =>
    (match x.2.1 with
    | .error e => e.code = some "PEER_LINK_ILLEGAL_TRANSITION"
    | .ok _ => false) && (x.2.2.kv.lookup newSession).isSome

theorem refused_run :
    ∃ τ e m',
      (system strict).solo 0 start (program strict receive) smoothly = some (τ, .error e, m') ∧
      e.code = some "PEER_LINK_ILLEGAL_TRANSITION" ∧ (m'.kv.lookup newSession).isSome = true := by
  obtain ⟨⟨τ, x, m'⟩, hrun, hx⟩ :=
    (Option.any_eq_true _ _).mp (show refused = true by decide +kernel)
  rw [Bool.and_eq_true] at hx
  cases x with
  | error e => exact ⟨τ, e, m', hrun, of_decide_eq_true hx.1, hx.2⟩
  | ok v => cases hx.1

end Example

open Example in
/-- The handshake on a rejected link is refused, and its session stays. -/
theorem refusal_leaves_session :
    ∃ s τ e m', ((system strict).lts (homedCalls Whose fun _ _ => none)).Reachable s ∧
      strict.strictTransitions = true ∧ NoRefusals strict.core ∧
      (system strict).solo 0 s.mem (program strict receive) smoothly = some (τ, .error e, m') ∧
      e.code = some "PEER_LINK_ILLEGAL_TRANSITION" ∧ ¬ Untouched s.mem.kv m'.kv := by
  obtain ⟨τ, e, m', hrun, hcode, hsession⟩ := refused_run
  refine ⟨initial, τ, e, m', initial_reachable, rfl, noRefusals, hrun, hcode, fun h => ?_⟩
  rw [h newSession (.head _), show initial.mem.kv.lookup newSession = none by decide +kernel]
    at hsession
  cases hsession

open Example Counting in
/-- That handshake leaves the rejected link as it was, with one session of the link. -/
theorem refusal_keeps_links_rejected : ∃ τ e m', ∃ r : SessionRecord Nat,
    (system strict).solo 0 start (program strict receive) smoothly = some (τ, .error e, m') ∧
      e.code = some "PEER_LINK_ILLEGAL_TRANSITION" ∧
      m'.kv.lookup (.peerLink a c) = some { link .rejected with activeSessionId := none } ∧
      LeavesSession start.kv m'.kv a { link .rejected with activeSessionId := none } r := by
  obtain ⟨τ, e, m', hrun, hcode, -⟩ := refused_run
  obtain ⟨owner, bytes, p, peer, invite, link, r, hcall, hoffers, hlink, -, hleaves⟩ :=
    refusal_keeps_links strict noRefusals
    (fun _ _ => none) initial initial_reachable receive 0 smoothly τ e m' hrun hcode
  cases hcall
  have hpeer : peer = Counting.b := by
    have hparses := hoffers.parses.symm.trans (show strict.core.parsePacket [1, 3, 0] =
      .ok (some ⟨handshakeFor Counting.b d a, some "s"⟩) from rfl)
    cases hparses
    exact Option.some.inj (hoffers.peer.symm.trans (by decide))
  subst hpeer
  obtain rfl : link = _ :=
    Option.some.inj (hlink.symm.trans (show linkOfPair initial.mem.kv a Counting.b =
    some { Counting.link .rejected with activeSessionId := none } by decide +kernel))
  refine ⟨τ, e, m', r, hrun, hcode, ?_, hleaves⟩
  rw [hleaves.others (.peerLink a c) (by decide) nofun nofun]
  decide

end RezSdk.L4.Refusal
