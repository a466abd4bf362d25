import RezSdk.Core.Histories
import RezSdk.L3Service.Counting
import RezSdk.L3Service.HandshakeControls
import RezSdk.L4Runs.HandshakeAuth
import RezSdk.L4Runs.Origins

/-!
# Agreement of a handshake

An inviter and an acceptor, each with any calls, over a network that may do
anything with packets (`L3Service/HandshakeControls`).

* `handshake_offered`: a packet under the acceptor's key that the inviter has judged is
  the one handshake of one `acceptInvite` call, and was signed once.
* `handshake_acknowledged`: where an ack has moved a link that is bound to the inviter's
  key, the inviter has established its own link by a packet with this nonce;
  and if the acceptor signed that packet, both have run X3DH on the same
  handshake, and the nonce the ack was compared with is of this handshake.
* `handshake_declined`: the same of a reject: the inviter has refused such a packet, for
  this reason.

Each side is one history monitor, by its own calls: `Makes` and `Ended` for the
acceptor, `Judged` for the inviter.
-/
namespace RezSdk.L4.HandshakeAgreement

open RezSdk.L1 RezSdk.L2 RezSdk.L3 Origins

variable {Snap : Type}

abbrev Exch (Snap : Type) := Proc.Exch (sdk Snap)

abbrev Lawful : Exch Snap → Prop := fun _ => True

/-! ## The acceptor -/

def asksHandshake : Op Snap → Bool
  | .core (.signHandshakeEnvelope ..) => true
  | _ => false

/-- The call has run X3DH on the invite and drawn a nonce; `h` is made of
both. -/
structure Offer (svc : Service Snap) (a : AcceptArgs) (τ : List (Exch Snap))
    (h : HandshakeData) (nonce : Id) : Prop where
  drawn : (⟨.runtimeUuid, nonce⟩ : Exch Snap) ∈ τ
  derived : ∃ i x3dh snapshot inviteId binding nowMs,
    (⟨.core (.processAcceptedInvite i), .ok (x3dh, snapshot)⟩ : Exch Snap) ∈ τ ∧
    i.bundle = ((Envelope.x3dh a.envelope).map (·.bundle)).getD [] ∧
      h = handshakeOf svc a inviteId x3dh binding nonce nowMs

/-- What `acceptInvite` does that no other call does. -/
def Makes (svc : Service Snap) (a : AcceptArgs) (τ : List (Exch Snap)) : Op Snap → Prop
  | .core (.signHandshakeEnvelope h _) =>
    (∃ nonce, Offer svc a τ h nonce) ∧ ∀ x ∈ τ, asksHandshake x.op = false
  | .set (.ackNonce o _) n => o = a.acceptor ∧
    ∃ h k sig, (⟨.core (.signHandshakeEnvelope h k), .ok sig⟩ : Exch Snap) ∈ τ ∧ h.ackNonce = some n
  | _ => False

def May (svc : Service Snap) (c : Call) (τ : List (Exch Snap)) (o : Op Snap) : Prop :=
  Elsewhere o ∨ ∃ a, c = .accept a ∧ Makes svc a τ o

/-- The link has passed the ack or the reject; `stored` is the nonce it was
compared with. -/
structure Passed (owner : Id) (τ : List (Exch Snap)) (link : PeerLinkRecord) (publicKey : String)
    (envelope : SignedEnvelope) (nonce : String) (stored : Option Id) : Prop where
  found : ∃ l, (⟨.get (.peerLink owner l), .ok (some link)⟩ : Exch Snap) ∈ τ
  waits : awaitsConfirm link = true
  key : link.remoteIdentitySigningPublicKeyB64.map Id.val = some publicKey
  verified : (⟨.core (.verifyHandshakeEnvelope envelope), .ok true⟩ : Exch Snap) ∈ τ
  read : (⟨.get (.ackNonce owner link.peerLinkId), .ok stored⟩ : Exch Snap) ∈ τ
  same : ∀ n, stored = some n → n.val = nonce

/-- What an ack call or a reject call has done that had an effect. -/
def Ended (core : Core Snap) : Call → List (Exch Snap) → Except Err Reply → Prop
  | .ack owner b, τ, .ok (.acked (some _)) => ∃ ack link stored, core.parseAck b = some ack ∧
    Passed owner τ link ack.senderIdentitySigningPubKeyB64 (.ack ack) ack.ackNonce stored
  | .reject owner b, τ, .ok (.rejected (some _)) =>
    ∃ reject link stored, core.parseReject b = some reject ∧
    Passed owner τ link reject.senderIdentitySigningPubKeyB64
      (.reject reject) reject.ackNonce stored
  | _, _, _ => True

section

variable {svc : Service Snap} {c : Call} {a : AcceptArgs} {τ : List (Exch Snap)} {α β : Type}

theorem obeys_elsewhere {Q : List (Exch Snap) → α → Prop} {p : Proc (sdk Snap) α}
    (hp : p.All Elsewhere) (hq : ∀ τ' x, Grows Elsewhere τ τ' → Q τ' x) :
    Obeys (.history (May svc c)) Lawful Q τ p :=
  obeys_grows (fun _ _ => .inl) hp hq

/-- A step that makes no handshake, of a call whose result does not matter. -/
theorem obeys_past {p : Sdk Snap α} {f : α → Sdk Snap β} (hp : Proc.All Elsewhere p)
    (hf : ∀ τ' v, Grows Elsewhere τ τ' →
        Obeys (.history (May svc c)) Lawful (fun _ _ => True) τ' (f v)) :
    Obeys (.history (May svc c)) Lawful (fun _ _ => True) τ (p >>= f : Sdk Snap β) := by
  refine obeys_js_bind (obeys_elsewhere hp fun τ' x hτ => ?_)
  cases x with
  | error e => trivial
  | ok v => exact hf τ' v hτ

theorem obeys_rest {p : Sdk Snap α} (hp : Proc.All Elsewhere p) :
    Obeys (.history (May svc c)) Lawful (fun _ _ => True) τ p :=
  obeys_elsewhere hp fun _ _ _ => trivial

theorem not_handshake {o : Op Snap} (h : Elsewhere o) : asksHandshake o = false := by
  cases o with
  | core q => cases q <;> first | rfl | exact h.elim
  | _ => rfl

theorem Offer.mono {τ' : List (Exch Snap)} {h : HandshakeData} {nonce : Id}
    (ho : Offer svc a τ h nonce) (hτ : τ <:+ τ') : Offer svc a τ' h nonce := by
  obtain ⟨i, x3dh, snapshot, inviteId, binding, nowMs, hderived, hrest⟩ := ho.derived
  exact ⟨hτ.subset ho.drawn, i, x3dh, snapshot, inviteId, binding, nowMs, hτ.subset hderived, hrest⟩

/-! ### acceptInvite -/

theorem obeys_sendPhase {inviter inviteId signingKey sid : Id} {x3dh : HandshakeData} {nowMs : Nat}
    {s : SendState} {i : InitiatorInput} {snapshot : Snap}
    (hbundle : i.bundle = ((Envelope.x3dh a.envelope).map (·.bundle)).getD [])
    (hderived : (⟨.core (.processAcceptedInvite i), .ok (x3dh, snapshot)⟩ : Exch Snap) ∈ τ)
    (hfresh : ∀ x ∈ τ, asksHandshake x.op = false) :
    Obeys (.history (May svc (.accept a))) Lawful (fun _ _ => True) τ
      (sendPhase svc a inviter inviteId x3dh signingKey sid nowMs s) := by
  refine obeys_past (elsewhere apart_loadAccountKeys) fun τ₁ keys hτ₁ =>
    obeys_past (elsewhere apart_orThrow) fun τ₂ binding hτ₂ => ?_
  have hτ := hτ₁.trans hτ₂
  refine ⟨.inl trivial, fun nonce _ => ⟨.inr ⟨a, rfl, ?_, ?_⟩, fun signature _ => ?_⟩⟩
  · exact ⟨nonce, .head _, i, x3dh, snapshot, inviteId, binding, nowMs, .tail _ (hτ.mem hderived),
      hbundle, rfl⟩
  · intro x hx
    rcases List.mem_cons.mp hx with rfl | hx
    · rfl
    · exact hτ.none (fun _ => not_handshake) hfresh x hx
  · cases signature with
    | error e => trivial
    | ok signature =>
      refine ⟨.inr ⟨a, rfl, rfl, _, _, signature, .head _, rfl⟩, fun stored _ => ?_⟩
      cases stored with
      | error e => trivial
      | ok _ => exact obeys_rest (elsewhere apart_send)

theorem obeys_acceptEstablish {inviter inviteId link : Id} {nowMs : Nat}
    {existing : Option PeerLinkRecord} {r : PeerLinkRecord} {attempt : HandshakeAttemptRecord}
    (hfresh : ∀ x ∈ τ, asksHandshake x.op = false) :
    Obeys (.history (May svc (.accept a))) Lawful (fun _ _ => True) τ
      (acceptEstablish svc a inviter inviteId link nowMs existing r attempt) := by
  refine obeys_past (elsewhere_foot foot_appendEvent rfl) fun τ₁ _ hτ₁ =>
    obeys_past (elsewhere apart_requireBound) fun τ₂ identity hτ₂ => ?_
  refine obeys_js_bind ⟨.inl trivial, fun derived _ => ?_⟩
  cases derived with
  | error e => trivial
  | ok derived =>
    obtain ⟨x3dh, snapshot⟩ := derived
    refine obeys_past (elsewhere_foot foot_priorSession rfl) fun τ₃ session hτ₃ => ?_
    refine obeys_past (elsewhere_foot (foot_untrack foot_commitSession) rfl) fun τ₄ commit hτ₄ => ?_
    have hτ := hτ₃.trans hτ₄
    have hnone : ∀ x ∈ τ₄, asksHandshake x.op = false := by
      refine hτ.none (fun _ => not_handshake) fun x hx => ?_
      rcases List.mem_cons.mp hx with rfl | hx
      · rfl
      · exact (hτ₁.trans hτ₂).none (fun _ => not_handshake) hfresh x hx
    refine obeys_js_bind (Obeys.mono (Q := fun _ _ => True) (fun τ₅ s _ => ?_) ?_)
    · cases s with
      | error e => trivial
      | ok s => exact obeys_rest (elsewhere_skip foot_buildSnapshot rfl fun _ => trivial)
    · unfold sendIfAsked
      split
      · split
        · exact obeys_sendPhase rfl (hτ.mem (.head _)) hnone
        · trivial
      · trivial

theorem obeys_acceptFresh {inviter : Id} {nowMs : Nat} {existing : Option PeerLinkRecord}
    (hfresh : ∀ x ∈ τ, asksHandshake x.op = false) :
    Obeys (.history (May svc (.accept a))) Lawful (fun _ _ => True) τ
      (acceptFresh svc a inviter nowMs existing) := by
  refine obeys_past (elsewhere_foot foot_inviteByHash rfl) fun τ₁ found hτ₁ => ?_
  refine obeys_past (elsewhere_foot foot_acceptLinkId rfl) fun τ₂ link hτ₂ => ?_
  refine obeys_past (elsewhere_foot foot_commitAccept rfl) fun τ₃ r hτ₃ => ?_
  refine obeys_past (elsewhere_foot foot_storePostCap rfl) fun τ₄ _ hτ₄ => ?_
  refine obeys_past (elsewhere_foot (l := [.newId]) (foot_stableId rfl) rfl) fun τ₅ attemptId hτ₅ =>
    ?_
  refine obeys_past (elsewhere apart_orThrow) fun τ₆ inviteId hτ₆ => ?_
  refine obeys_past (elsewhere_foot foot_attemptCreate rfl) fun τ₇ attempt hτ₇ => ?_
  refine obeys_past elsewhere_backLink fun τ₈ _ hτ₈ => obeys_acceptEstablish ?_
  have hτ := (((((((hτ₁.trans hτ₂).trans hτ₃).trans hτ₄).trans hτ₅).trans hτ₆).trans hτ₇).trans hτ₈)
  exact hτ.none (fun _ => not_handshake) hfresh

theorem obeys_accept :
    Obeys (.history (May svc (.accept a))) Lawful (fun _ _ => True) [] (acceptInvite svc a) := by
  refine obeys_past (elsewhere apart_verifyInvite) fun τ₁ v hτ₁ =>
    obeys_past (elsewhere_foot foot_getByPair rfl) fun τ₂ existing hτ₂ => ?_
  have hnone := (hτ₁.trans hτ₂).none (fun _ => not_handshake) (q := asksHandshake) fun x hx => by
    simp at hx
  cases existing with
  | none => exact obeys_acceptFresh hnone
  | some e =>
    dsimp only
    split
    · exact obeys_acceptFresh hnone
    · exact obeys_rest (elsewhere_skip foot_appendEvent rfl fun _ =>
        elsewhere_skip foot_buildSnapshot rfl fun _ => trivial)

/-! ### The ack and the reject -/

theorem obeys_getByPair {owner peer : Id}
    {Q : List (Exch Snap) → Except Err (Option PeerLinkRecord) → Prop}
    (herror : ∀ τ' e, Q τ' (.error e)) (hnone : ∀ τ', Q τ' (.ok none))
    (hsome : ∀ τ' l link, (⟨.get (.peerLink owner l), .ok (some link)⟩ : Exch Snap) ∈ τ' →
        Q τ' (.ok (some link))) :
    Obeys (.history (May svc c)) Lawful Q τ (PeerLinks.getByPair owner peer) := by
  refine obeys_js_bind ⟨.inl trivial, fun link _ => ?_⟩
  cases link with
  | error e => exact herror _ e
  | ok link =>
    cases link with
    | none => exact hnone _
    | some l =>
      refine ⟨.inl trivial, fun found _ => ?_⟩
      cases found with
      | error e => exact herror _ e
      | ok found =>
        cases found with
        | none => exact hnone _
        | some link => exact hsome _ l link (.head _)

theorem obeys_checkControl {owner : Id} {link : PeerLinkRecord} {publicKey nonce : String}
    {envelope : SignedEnvelope} {Q : List (Exch Snap) → Except Err Bool → Prop}
    (hother : ∀ τ' x, x ≠ .ok true → Q τ' x)
    (hfound : ∃ l, (⟨.get (.peerLink owner l), .ok (some link)⟩ : Exch Snap) ∈ τ)
    (hpassed :
        ∀ τ' stored, Passed owner τ' link publicKey envelope nonce stored → Q τ' (.ok true)) :
    Obeys (.history (May svc c)) Lawful Q τ (checkControl owner link publicKey envelope nonce) := by
  have hrefused : ∀ τ', Q τ' (.ok false) := fun τ' => hother τ' _ (by simp)
  unfold checkControl
  split
  · rename_i hlink
    rw [Bool.and_eq_true] at hlink
    obtain ⟨hwaits, hkey⟩ := hlink
    have hkey : link.remoteIdentitySigningPublicKeyB64.map Id.val = some publicKey := by
      obtain ⟨key, hkey, heq⟩ := (Option.any_eq_true _ _).mp hkey
      rw [hkey, Option.map_some, of_decide_eq_true heq]
    obtain ⟨l, hl⟩ := hfound
    refine obeys_js_bind ⟨.inl trivial, fun verified _ => ?_⟩
    cases verified with
    | error e => exact hother _ _ (by simp)
    | ok verified =>
      cases verified with
      | false => exact hrefused _
      | true =>
        refine obeys_js_bind ⟨.inl trivial, fun stored _ => ?_⟩
        cases stored with
        | error e => exact hother _ _ (by simp)
        | ok stored =>
          cases stored with
          | none =>
            refine hpassed _ none ⟨⟨l, .tail _ (.tail _ hl)⟩, hwaits, hkey,
              .tail _ (.head _), .head _, fun n hn => ?_⟩
            cases hn
          | some n =>
            dsimp only [Obeys, Goes]
            split
            · rename_i hn
              refine obeys_js_bind ⟨.inl trivial, fun deleted _ => ?_⟩
              cases deleted with
              | error e => exact hother _ _ (by simp)
              | ok _ =>
                refine hpassed _ (some n) ⟨⟨l, .tail _ (.tail _ (.tail _ hl))⟩,
                  hwaits, hkey, .tail _ (.tail _ (.head _)),
                  .tail _ (.head _), fun m hm => ?_⟩
                cases hm
                exact hn
            · exact hrefused _
  · exact hrefused _

theorem Passed.mono {τ' : List (Exch Snap)} {owner : Id} {link : PeerLinkRecord}
    {publicKey nonce : String} {envelope : SignedEnvelope} {stored : Option Id}
    (h : Passed owner τ link publicKey envelope nonce stored) (hτ : τ <:+ τ') :
    Passed owner τ' link publicKey envelope nonce stored := by
  obtain ⟨l, hl⟩ := h.found
  exact { h with found := ⟨l,
    hτ.subset hl⟩, verified := hτ.subset h.verified, read := hτ.subset h.read }

/-- From its checks on, an acknowledgement is handled as a reject is. -/
theorem obeys_checked {owner : Id} {link : PeerLinkRecord} {publicKey nonce : String}
    {envelope : SignedEnvelope} {commit : Sdk Snap (Option β)} (hcommit : Proc.All Elsewhere commit)
    {Q : List (Exch Snap) → Except Err (Option β) → Prop} (herror : ∀ τ' e, Q τ' (.error e))
    (hnone : ∀ τ', Q τ' (.ok none))
    (hfound : ∃ l, (⟨.get (.peerLink owner l), .ok (some link)⟩ : Exch Snap) ∈ τ)
    (hsome : ∀ τ' r stored, Passed owner τ' link publicKey envelope nonce stored →
        Q τ' (.ok (some r))) :
    Obeys (.history (May svc c)) Lawful Q τ (do
      let ok ← checkControl owner link publicKey envelope nonce
      if ok then commit else return none : Sdk Snap (Option β)) := by
  refine obeys_js_bind (obeys_checkControl (fun τ₂ x hx => ?_) hfound fun τ₂ stored hpassed => ?_)
  · cases x with
    | error e => exact herror _ e
    | ok ok =>
      cases ok with
      | true => exact absurd rfl hx
      | false => exact hnone _
  · refine obeys_elsewhere hcommit fun τ₃ r hτ₃ => ?_
    cases r with
    | error e => exact herror _ e
    | ok r =>
      cases r with
      | none => exact hnone _
      | some r => exact hsome _ r stored (hpassed.mono hτ₃.suffix)

theorem obeys_ack {owner : Id} {b : Bytes}
    {Q : List (Exch Snap) → Except Err (Option AckResult) → Prop} (herror : ∀ τ' e, Q τ' (.error e))
    (hnone : ∀ τ', Q τ' (.ok none))
    (hsome : ∀ τ' r ack link stored, svc.core.parseAck b = some ack →
        Passed owner τ' link ack.senderIdentitySigningPubKeyB64 (.ack ack) ack.ackNonce stored →
        Q τ' (.ok (some r))) :
    Obeys (.history (May svc c)) Lawful Q τ (handleIncomingHandshakeAck svc owner b) := by
  unfold handleIncomingHandshakeAck
  split
  · exact hnone _
  · rename_i ack hack
    have hparse : svc.core.parseAck b = some ack := by
      split at hack
      · cases hack
      · exact hack
    refine obeys_js_bind (obeys_getByPair herror hnone fun τ₁ l link hl => ?_)
    exact obeys_checked (elsewhere apart_commitAck) herror hnone ⟨l, hl⟩
      fun τ₂ r stored hpassed => hsome τ₂ r ack link stored hparse hpassed

theorem obeys_reject {owner : Id} {b : Bytes}
    {Q : List (Exch Snap) → Except Err (Option RejectResult) → Prop}
    (herror : ∀ τ' e, Q τ' (.error e)) (hnone : ∀ τ', Q τ' (.ok none))
    (hsome : ∀ τ' r reject link stored, svc.core.parseReject b = some reject →
        Passed owner τ' link reject.senderIdentitySigningPubKeyB64 (.reject reject) reject.ackNonce
          stored →
        Q τ' (.ok (some r))) :
    Obeys (.history (May svc c)) Lawful Q τ (handleHandshakeReject svc owner b) := by
  unfold handleHandshakeReject
  split
  · exact hnone _
  · rename_i reject hreject
    have hparse : svc.core.parseReject b = some reject := by
      split at hreject
      · cases hreject
      · exact hreject
    refine obeys_js_bind (obeys_getByPair herror hnone fun τ₁ l link hl => ?_)
    exact obeys_checked (elsewhere apart_rollBack) herror hnone ⟨l, hl⟩
      fun τ₂ r stored hpassed => hsome τ₂ r reject link stored hparse hpassed

variable [DecidableEq Snap]

theorem obeys_program (svc : Service Snap) (c : Call) :
    Obeys (.history (May svc c)) Lawful (Ended svc.core c) [] (program svc c) := by
  cases hc : isAccept c with
  | true =>
    cases c with
    | accept a =>
      refine obeys_js_bind (obeys_accept.mono fun τ x _ => ?_)
      cases x <;> trivial
    | _ => cases hc
  | false =>
    cases c with
    | ack owner b =>
      exact obeys_js_bind
        (obeys_ack (fun _ _ => trivial) (fun _ => trivial) fun τ r ack link stored hack hpassed =>
        ⟨ack, link, stored, hack, hpassed⟩)
    | reject owner b =>
      exact obeys_js_bind (obeys_reject (fun _ _ => trivial)
        (fun _ => trivial) fun τ r reject link stored hreject hpassed =>
        ⟨reject, link, stored, hreject, hpassed⟩)
    | _ => exact obeys_elsewhere (elsewhere_program hc) fun _ _ _ => trivial

end

/-! ## The inviter -/

/-- The responder session was derived from this handshake, or the link was
established before. -/
def Derived (τ : List (Exch Snap)) (h : HandshakeData) : Prop :=
  (∃ i r, (⟨.core (.completeInviteHandshake i), .ok r⟩ : Exch Snap) ∈ τ ∧ i.handshake = h) ∨
    ∃ o l link, (⟨.get (.peerLink o l), .ok (some link)⟩ : Exch Snap) ∈ τ ∧
    link.state = .sessionEstablished

/-- The call has parsed its packet as `p`, checked its signature and come to
`out`. -/
structure Decided (core : Core Snap) (τ : List (Exch Snap)) (b : Bytes) (p : HandshakePacket)
    (out : HandshakeOutcome) : Prop where
  parsed : core.parsePacket b = .ok (some p)
  verified : ∃ sig, (⟨.core (.verifyHandshakeEnvelope (.handshake p.handshake sig)),
    .ok true⟩ : Exch Snap) ∈ τ
  nonce : ∀ answer, out.answer = some answer → p.handshake.ackNonce.map Id.val = some answer.nonce
  established :
    ∀ snapshot event nonce remote name, out = .accepted snapshot event nonce remote name →
    snapshot.state = .sessionEstablished ∧ Derived τ p.handshake

/-- What the inviter's calls end with. -/
def Judged {core : Core Snap} (inviter : Core Snap) (lib : ControlLib core) :
    ControlCall → List (Exch Snap) → Except Err ControlReply → Prop
  | .service (.handshake _ b), τ, .ok (.service (.handshake out)) =>
    out = .notHandshake ∨ ∃ p, Decided inviter τ b p out
  | .signAck owner _ _ nonce, _, .ok (.packet b) =>
    ∃ (payload : AckPayload) (sig : String), lib.ackBytes (payload.signed sig) = .ok b ∧
    payload.senderAccountId = owner ∧ payload.ackNonce = nonce
  | .signReject owner reason nonce, _, .ok (.packet b) =>
    ∃ (payload : RejectPayload) (sig : String),
    lib.rejectBytes (payload.signed sig) = .ok b ∧ payload.senderAccountId = owner ∧
      payload.reason = reason ∧ payload.ackNonce = nonce
  | _, _, _ => True

abbrev anything : Monitor (sdk Snap) (List (Exch Snap)) := .history fun _ _ => True

section

variable {svc : Service Snap} {τ : List (Exch Snap)} {α : Type}

theorem obeys_aside {Q : List (Exch Snap) → α → Prop} {p : Proc (sdk Snap) α}
    (hq : ∀ τ' x, τ <:+ τ' → Q τ' x) : Obeys anything Lawful Q τ p :=
  obeys_grows (P := fun _ => True) (fun _ _ _ => trivial)
    (Proc.all_of (fun _ => trivial) p) fun τ' x h => hq τ' x h.suffix

theorem ok_snapshot {r : PeerLinkRecord} :
    Js.Ok (·.state = r.state) (buildSnapshot r : Sdk Snap PeerLinkSnapshot) :=
  Js.ok_skip fun _ => Js.ok_skip fun _ => Js.ok_pure rfl

theorem ok_update {r : PeerLinkRecord} {v : Nat} :
    Js.Ok (·.state = r.state) (PeerLinks.update r v : Sdk Snap PeerLinkRecord) :=
  Js.ok_skip fun _ => Js.ok_skip fun _ => Js.ok_skip fun _ => Js.ok_skip fun _ =>
    Js.ok_skip fun _ => Js.ok_skip fun _ =>
    Js.ok_skip fun _ => Js.ok_skip fun _ => Js.ok_pure rfl

/-- A commit shows the link in the state it was asked for. -/
theorem ok_commitSession {args : CommitArgs Snap} :
    Js.Ok (·.snapshot.state = args.peerLinkState) (commitSession svc args) := by
  have hlink : ∀ now stored p, Js.Ok (·.snapshot.state = args.peerLinkState)
      (commitLink svc args now stored p) := by
    intro now stored p
    refine Js.ok_skip fun _ => Js.ok_bind (HandshakeAuth.ok_track ok_update) fun next hnext => ?_
    refine Js.ok_skip fun _ => Js.ok_skip fun _ => Js.ok_skip fun _ => ?_
    exact Js.ok_bind (HandshakeAuth.ok_track ok_snapshot) fun snapshot hs =>
      Js.ok_pure (hs.trans hnext)
  refine Js.ok_skip fun c => ?_
  split
  · exact hlink _ _ _
  · exact Js.ok_skip fun _ => Js.ok_skip fun _ => hlink _ _ _

/-- The packet was checked. -/
structure Checked (τ : List (Exch Snap)) (p : HandshakePacket) (x : Authenticated) : Prop where
  handshake : x.handshake = p.handshake
  verified : ∃ sig, (⟨.core (.verifyHandshakeEnvelope (.handshake p.handshake sig)),
    .ok true⟩ : Exch Snap) ∈ τ

theorem Checked.mono {τ' : List (Exch Snap)} {p : HandshakePacket} {x : Authenticated}
    (h : Checked τ p x) (hτ : τ <:+ τ') : Checked τ' p x := by
  obtain ⟨sig, hsig⟩ := h.verified
  exact ⟨h.handshake, sig, hτ.subset hsig⟩

section

variable {p : HandshakePacket} {Q : List (Exch Snap) → Except Err HandshakeOutcome → Prop}

theorem obeys_authenticate {Q : List (Exch Snap) → Except Err Authenticated → Prop}
    (herror : ∀ τ' e, Q τ' (.error e)) (hok : ∀ τ' x, Checked τ' p x → Q τ' (.ok x)) :
    Obeys anything Lawful Q τ (authenticate svc p) := by
  refine obeys_js_bind (obeys_orThrow (fun sig _ => ?_) fun _ => herror _ _)
  refine obeys_js_bind ⟨trivial, fun verified _ => ?_⟩
  cases verified with
  | error e => exact herror _ e
  | ok verified =>
    refine obeys_js_bind (obeys_ensure (fun htrue => ?_) fun _ => herror _ _)
    subst htrue
    refine obeys_js_bind (obeys_orThrow (fun inviteId _ => ?_) fun _ => herror _ _)
    refine obeys_js_bind (obeys_orThrow (fun binding _ => ?_) fun _ => herror _ _)
    refine obeys_js_bind (obeys_ensure (fun _ => ?_) fun _ => herror _ _)
    refine obeys_js_bind (obeys_orThrow (fun peer _ => ?_) fun _ => herror _ _)
    refine obeys_js_bind (obeys_aside fun τ' x hτ => ?_)
    cases x with
    | error e => exact herror _ e
    | ok _ => exact hok _ _ ⟨rfl, sig, hτ.subset (.head _)⟩

theorem obeys_establishLink {owner : Id} {x : Authenticated} {preKeyState : Bytes}
    {exhausted : Bool} {name : String} {nowMs : Nat} {existing : Option PeerLinkRecord}
    (herror : ∀ τ' e, Q τ' (.error e))
    (hok : ∀ τ' snapshot event, τ <:+ τ' → snapshot.state = .sessionEstablished →
        Derived τ' x.handshake →
        Q τ'
          (.ok
              (.accepted snapshot event x.handshake.ackNonce x.handshake.senderDisplayName name))) :
    Obeys anything Lawful Q τ
      (establishLink svc owner x preKeyState exhausted name nowMs existing) := by
  refine obeys_js_bind (obeys_aside fun τ₁ link hτ₁ => ?_)
  cases link with
  | error e => exact herror _ e
  | ok link =>
    refine obeys_js_bind (obeys_js_bind (obeys_aside fun τ₂ identity hτ₂ => ?_))
    cases identity with
    | error e => exact herror _ e
    | ok identity =>
      refine obeys_js_bind ⟨trivial, fun completed _ => ?_⟩
      cases completed with
      | error e => exact herror _ e
      | ok completed =>
        refine obeys_js_bind (obeys_aside fun τ₃ session hτ₃ => ?_)
        cases session with
        | error e => exact herror _ e
        | ok session =>
          refine obeys_js_bind (((obeys_aside fun τ₄ _ hτ₄ => hτ₄).and_ok
            (HandshakeAuth.ok_untrack ok_commitSession)).mono fun τ₄ commit h => ?_)
          obtain ⟨hτ₄, hstate⟩ := h
          cases commit with
          | error e => exact herror _ e
          | ok commit =>
            refine obeys_js_bind (obeys_aside fun τ₅ attemptId hτ₅ => ?_)
            cases attemptId with
            | error e => exact herror _ e
            | ok attemptId =>
              refine obeys_js_bind (obeys_aside fun τ₆ attempt hτ₆ => ?_)
              have hlater := hτ₃.trans (hτ₄.trans (hτ₅.trans hτ₆))
              have hderived : ∀ {τ'}, τ₆ <:+ τ' → Derived τ' x.handshake := fun hτ =>
                .inl ⟨_, completed, (hlater.trans hτ).subset (.head _), rfl⟩
              have hall := hτ₁.trans (hτ₂.trans ((List.suffix_cons _ _).trans hlater))
              cases attempt with
              | error e => exact herror _ e
              | ok attempt =>
                dsimp only [Goes, Js.cont]
                split
                · refine obeys_js_bind (obeys_aside fun τ₇ deleted hτ₇ => ?_)
                  cases deleted with
                  | error e => exact herror _ e
                  | ok _ => exact hok _ _ _ (hall.trans hτ₇) (hstate commit rfl) (hderived hτ₇)
                · exact hok _ _ _ hall (hstate commit rfl) (hderived (List.suffix_refl _))

theorem obeys_proceed {owner : Id} {x : Authenticated} {exhausted already : Bool} {name : String}
    (herror : ∀ τ' e, Q τ' (.error e))
    (hok : ∀ τ' snapshot event, τ <:+ τ' → snapshot.state = .sessionEstablished →
        Derived τ' x.handshake →
        Q τ'
          (.ok
              (.accepted snapshot event x.handshake.ackNonce x.handshake.senderDisplayName name))) :
    Obeys anything Lawful Q τ (proceedHandshake svc owner x exhausted already name) := by
  refine obeys_js_bind (obeys_aside fun τ₁ stored hτ₁ => ?_)
  cases stored with
  | error e => exact herror _ e
  | ok stored =>
    refine obeys_js_bind (obeys_orThrow (fun preKeyState _ => ?_) fun _ => herror _ _)
    refine obeys_js_bind ⟨trivial, fun nowMs _ => ?_⟩
    have hτ := hτ₁.trans (List.suffix_cons (⟨.clock, nowMs⟩ : Exch Snap) τ₁)
    have hestablish : ∀ {existing : Option PeerLinkRecord} {τ₂ : List (Exch Snap)}, τ <:+ τ₂ →
        Obeys anything Lawful Q τ₂
          (establishLink svc owner x preKeyState exhausted name nowMs existing) := fun hτ =>
      obeys_establishLink herror fun τ' snapshot event hτ' => hok τ' snapshot event (hτ.trans hτ')
    -- the pair's link, and that it was read
    refine obeys_js_bind (obeys_js_bind ⟨trivial, fun l _ => ?_⟩)
    cases l with
    | error e => exact herror _ e
    | ok l =>
      have hτ :=
        hτ.trans (List.suffix_cons (⟨.get (.pair owner x.peerAccountId), .ok l⟩ : Exch Snap) _)
      cases l with
      | none => exact hestablish hτ
      | some l =>
        refine ⟨trivial, fun existing _ => ?_⟩
        cases existing with
        | error e => exact herror _ e
        | ok existing =>
          have hτ :=
            hτ.trans (List.suffix_cons (⟨.get (.peerLink owner l), .ok existing⟩ : Exch Snap) _)
          cases existing with
          | none => exact hestablish hτ
          | some link =>
            dsimp only [Obeys, Goes, Js.cont]
            split
            · rename_i hreplay
              rw [Bool.and_eq_true, decide_eq_true_eq] at hreplay
              refine obeys_js_bind (((obeys_aside fun τ₃ _ hτ₃ => hτ₃).and_ok ok_snapshot).mono
                fun τ₃ snapshot h => ?_)
              obtain ⟨hτ₃, hstate⟩ := h
              cases snapshot with
              | error e => exact herror _ e
              | ok snapshot =>
                exact hok τ₃ snapshot none (hτ.trans hτ₃) ((hstate snapshot rfl).trans hreplay.2)
                  (.inr ⟨owner, l, link, hτ₃.subset (.head _), hreplay.2⟩)
            · exact hestablish hτ

theorem obeys_handshake {owner : Id} {b : Bytes} (herror : ∀ τ' e, Q τ' (.error e))
    (hother : ∀ τ', Q τ' (.ok .notHandshake))
    (hdecided : ∀ τ' p out, Decided svc.core τ' b p out → Q τ' (.ok out)) :
    Obeys anything Lawful Q τ (handleIncomingHandshakePacket svc owner b) := by
  refine obeys_js_bind (obeys_ensure (fun _ => ?_) fun _ => herror _ _)
  dsimp only [Goes, Js.cont]
  split
  · exact herror _ _
  · exact hother _
  · rename_i p hparsed
    refine obeys_js_bind (obeys_authenticate herror fun τ₁ x hx => ?_)
    refine obeys_js_bind (obeys_aside fun τ₂ record hτ₂ => ?_)
    cases record with
    | error e => exact herror _ e
    | ok record =>
      refine obeys_js_bind (obeys_aside fun τ₃ verdict hτ₃ => ?_)
      have hx := hx.mono (hτ₂.trans hτ₃)
      cases verdict with
      | error e => exact herror _ e
      | ok verdict =>
        cases verdict with
        | reject reason =>
          refine hdecided _ p _ ⟨hparsed, hx.verified, fun answer hanswer => ?_,
            fun _ _ _ _ _ hout => by cases hout⟩
          rw [← hx.handshake]
          cases hnonce : x.handshake.ackNonce with
          | none => simp [HandshakeOutcome.answer, hnonce] at hanswer
          | some n =>
            simp only [HandshakeOutcome.answer, hnonce, Option.some.injEq] at hanswer
            subst hanswer
            rfl
        | proceed exhausted already =>
          refine obeys_proceed herror fun τ₄ snapshot event hτ₄ hstate hderived => ?_
          rw [hx.handshake] at hderived
          have hx := hx.mono hτ₄
          refine hdecided _ p _ ⟨hparsed, hx.verified, fun answer hanswer => ?_,
            fun _ _ _ _ _ hout => ?_⟩
          · rw [← hx.handshake]
            cases hnonce : x.handshake.ackNonce with
            | none => simp [HandshakeOutcome.answer, hnonce] at hanswer
            | some n =>
              simp only [HandshakeOutcome.answer, hnonce, Option.some.injEq] at hanswer
              subst hanswer
              rfl
          · cases hout
            exact ⟨hstate, hderived⟩

end

variable [DecidableEq Snap]

theorem obeys_control {core : Core Snap} (lib : ControlLib core) (c : ControlCall) :
    Obeys anything Lawful (Judged svc.core lib c) [] (control svc lib c) := by
  cases c with
  | service c =>
    cases c with
    | handshake owner b =>
      refine obeys_js_bind (obeys_js_bind
        (obeys_handshake (fun _ _ => trivial) (fun τ' => .inl rfl) fun τ' p out hdecided => ?_))
      exact .inr ⟨p, hdecided⟩
    | _ => exact obeys_aside fun _ _ _ => trivial
  | signAck owner inbox name nonce =>
    refine obeys_js_bind (obeys_js_bind (obeys_ensure (fun _ => ?_) fun _ => trivial))
    refine obeys_js_bind (obeys_aside fun τ₁ identity _ => ?_)
    cases identity with
    | error e => trivial
    | ok identity =>
      refine obeys_js_bind ⟨trivial, fun createdAtMs _ => obeys_js_bind ⟨trivial, fun sig _ => ?_⟩⟩
      cases sig with
      | error e => trivial
      | ok sig =>
        dsimp only [Obeys, Goes, Js.cont, Js.ofExcept]
        split
        · rename_i b hb
          exact ⟨_, sig.val, hb, rfl, rfl⟩
        · trivial
  | signReject owner reason nonce =>
    refine obeys_js_bind (obeys_js_bind (obeys_ensure (fun _ => ?_) fun _ => trivial))
    refine obeys_js_bind (obeys_ensure (fun _ => ?_) fun _ => trivial)
    refine obeys_js_bind (obeys_aside fun τ₁ identity _ => ?_)
    cases identity with
    | error e => trivial
    | ok identity =>
      refine obeys_js_bind ⟨trivial, fun createdAtMs _ => obeys_js_bind ⟨trivial, fun sig _ => ?_⟩⟩
      cases sig with
      | error e => trivial
      | ok sig =>
        dsimp only [Obeys, Goes, Js.cont, Js.ofExcept]
        split
        · rename_i b hb
          exact ⟨_, sig.val, hb, rfl, rfl, rfl⟩
        · trivial

end

/-! ## The acceptor's nonces -/

/-- A nonce that is stored or was read was stored by an event of this run, and
no id is drawn twice. -/
structure Nonces (s : State Snap) : Prop where
  stored : ∀ o l n, s.mem.kv.lookup (.ackNonce o l) = some n →
    ∃ e ∈ s.log, e.op = .set (.ackNonce o l) n
  read : ∀ e ∈ s.log, ∀ o l n, e.exch = ⟨.get (.ackNonce o l), .ok (some n)⟩ →
    ∃ e' ∈ s.log, e'.op = .set (.ackNonce o l) n
  used : ∀ e ∈ s.log, ∀ i, e.exch = ⟨.runtimeUuid, i⟩ → i ∈ s.mem.used
  fresh : ∀ (newer : List (Ev Snap)) e older, s.log = newer ++ e :: older →
    ∀ i, e.exch = ⟨.runtimeUuid, i⟩ → ∀ y ∈ older, y.exch ≠ ⟨.runtimeUuid, i⟩

/-- Only one call draws an id. -/
theorem Nonces.drawn_once {s : State Snap} (h : Nonces s) {t t' : Nat} {i : Id}
    (hi : (⟨.runtimeUuid, i⟩ : Exch Snap) ∈ Pool.history t s.log)
    (hi' : (⟨.runtimeUuid, i⟩ : Exch Snap) ∈ Pool.history t' s.log) : t = t' := by
  obtain ⟨e, he, rfl, hx⟩ := Pool.mem_history.mp hi
  obtain ⟨e', he', rfl, hx'⟩ := Pool.mem_history.mp hi'
  have hsame : e = e' := by
    refine eq_of_fresh (q := fun e : Ev Snap => e.exch = ⟨.runtimeUuid, i⟩)
      (fun newer x older hlog hdrawn => ?_) he he' hx hx'
    exact h.fresh newer x older hlog i hdrawn
  rw [hsame]

section

variable [DecidableEq Snap] {svc : Service Snap} {s s' : State Snap} {e : Ev Snap} {c : Call}
  {k : (sdk Snap).Ans e.op → Proc (sdk Snap) (Except Err Reply)}

theorem Nonces.fires (h : Nonces s) (hf : Pool.Fires (system svc) s e c k s') : Nonces s' where
  stored o l n hn := by
    rw [kv_fires hf] at hn
    rw [hf.log]
    rcases lookup_effect hn with hn | ⟨hop, -⟩
    · obtain ⟨e', he', hop⟩ := h.stored o l n hn
      exact ⟨e', .tail _ he', hop⟩
    · exact ⟨e, .head _, hop⟩
  read e' he' o l n hx := by
    rw [hf.log] at he' ⊢
    rcases List.mem_cons.mp he' with rfl | he'
    · obtain ⟨t, op, r, f⟩ := e'
      simp only [Event.exch, Proc.Exch.mk.injEq] at hx
      obtain ⟨rfl, hr⟩ := hx
      cases hr
      obtain ⟨e₁, he₁, hop⟩ := h.stored o l n (act_get_ok hf.act)
      exact ⟨e₁, .tail _ he₁, hop⟩
    · obtain ⟨e₁, he₁, hop⟩ := h.read e' he' o l n hx
      exact ⟨e₁, .tail _ he₁, hop⟩
  used e' he' i hx := by
    rw [hf.log] at he'
    rcases List.mem_cons.mp he' with rfl | he'
    · obtain ⟨t, op, r, f⟩ := e'
      simp only [Event.exch, Proc.Exch.mk.injEq] at hx
      obtain ⟨rfl, hr⟩ := hx
      cases hr
      exact (act_uuid hf.act).2
    · exact act_used hf.act (h.used e' he' i hx)
  fresh newer e' older hlog i hx := by
    rw [hf.log] at hlog
    cases newer with
    | nil =>
      obtain ⟨rfl, rfl⟩ := List.cons.inj hlog
      intro y hy hdrawn
      obtain ⟨t, op, r, f⟩ := e
      simp only [Event.exch, Proc.Exch.mk.injEq] at hx
      obtain ⟨rfl, hr⟩ := hx
      cases hr
      exact (act_uuid hf.act).1 (h.used y hy i hdrawn)
    | cons e₁ newer => exact h.fresh newer e' older (List.cons.inj hlog).2 i hx

theorem nonces_inductive (svc : Service Snap) {D : Rules Snap}
    (hinit : ∀ m, D.init m → ∀ o l, m.kv.lookup (.ackNonce o l) = none) :
    ((system svc).lts D).Inductive Nonces := by
  refine System.inductive_of (fun m hm => ⟨fun o l n hn => ?_, fun e he => ?_,
    fun e he => ?_, fun newer e older hlog => ?_⟩)
    (fun s c h _ => ⟨h.stored, h.read, h.used, h.fresh⟩) fun s e c k s' h hf _ => h.fires hf
  · rw [hinit m hm o l] at hn
    cases hn
  · simp at he
  · simp at he
  · simp at hlog

end

/-! ## Both sides -/

section

variable [DecidableEq Snap] {inviter acceptor : Service Snap} {lib : ControlLib acceptor.core}
  {inviterKey acceptorKey : Id}
  {w : ControlState Snap × State Snap}

/-- What is known of a reachable state. -/
structure Known (inviter acceptor : Service Snap) (lib : ControlLib acceptor.core)
    (inviterKey acceptorKey : Id) (w : ControlState Snap × State Snap) : Prop where
  heard : Parties.Heard (P := handshakes inviter acceptor lib inviterKey acceptorKey) w
  made : ∀ e ∈ w.2.log, acceptorHears acceptor.core inviterKey w.1 e.exch
  advised : ∀ (t : Nat) (c : ControlCall) (p : Proc (sdk Snap) (Except Err ControlReply)),
    w.1.threads[t]? = some ⟨c, p⟩ → Advised w.1 c
  inviter : System.Recalls (fun _ _ _ => True) (Judged inviter.core lib) w.1
  acceptor : System.Recalls (May acceptor) (Ended acceptor.core) w.2
  nonces : Nonces w.2

section

variable {S : System (sdk Snap) (Mem Snap) Fate ControlCall (Except Err ControlReply)}
  {s s' : ControlState Snap}
  {e : Event (sdk Snap) Fate} {c₀ : ControlCall}
  {k : (sdk Snap).Ans e.op → Proc (sdk Snap) (Except Err ControlReply)}

omit [DecidableEq Snap] in
theorem advised_mono {c : ControlCall}
    (hmono : ∀ (t : Nat) (c : ControlCall) (x : Except Err ControlReply),
        s.threads[t]? = some ⟨c, .ret x⟩ → s'.threads[t]? = some ⟨c, .ret x⟩) (h : Advised s c) :
    Advised s' c := by
  cases c with
  | service c => trivial
  | signAck owner inbox name nonce =>
    obtain ⟨t, b, out, ht, hanswer⟩ := h
    exact ⟨t, b, out, hmono t _ _ ht, hanswer⟩
  | signReject owner reason nonce =>
    obtain ⟨t, b, out, ht, hanswer⟩ := h
    exact ⟨t, b, out, hmono t _ _ ht, hanswer⟩

omit [DecidableEq Snap] in
theorem hears_mono {core : Core Snap} {x : Exch Snap}
    (hmono : ∀ (t : Nat) (c : ControlCall) (x : Except Err ControlReply),
        s.threads[t]? = some ⟨c, .ret x⟩ → s'.threads[t]? = some ⟨c, .ret x⟩)
    (h : acceptorHears core inviterKey s x) : acceptorHears core inviterKey s' x := by
  unfold acceptorHears at h ⊢
  split
  · intro hkey
    obtain ⟨t, owner, inbox, name, nonce, b, made, ht, hmade⟩ := h hkey
    exact ⟨t, owner, inbox, name, nonce, b, made, hmono t _ _ ht, hmade⟩
  · intro hkey
    obtain ⟨t, owner, reason, nonce, b, made, ht, hmade⟩ := h hkey
    exact ⟨t, owner, reason, nonce, b, made, hmono t _ _ ht, hmade⟩
  · trivial

end

theorem known (hr : (handshakes inviter acceptor lib inviterKey acceptorKey).beside.Reachable w) :
    Known inviter acceptor lib inviterKey acceptorKey w where
  heard := Parties.heard_inductive.reachable w hr
  made := by
    refine (Parties.told_inductive (P := handshakes inviter acceptor lib inviterKey acceptorKey)
      (A := fun s e => acceptorHears acceptor.core inviterKey s e.exch) (fun _ _ _ h => h)
      (fun s c e h => ?_)
      fun s e' c k s' e hf h => ?_).reachable w hr
    · exact hears_mono (fun _ _ _ => Pool.spawn_thread) h
    · exact hears_mono (fun _ _ _ => hf.ended) h
  advised := by
    refine (Parties.left_inductive (P := handshakes inviter acceptor lib inviterKey acceptorKey)
      (System.licensed_inductive (L := Advised) (fun _ _ h => h) (fun s c c' h => ?_)
        fun s e c₀ k s' c hf h => ?_)).reachable w hr
    · exact advised_mono (fun _ _ _ => Pool.spawn_thread) h
    · exact advised_mono (fun _ _ _ => hf.ended) h
  inviter := (Parties.left_inductive (System.recalls_inductive (obeys_control lib))).reachable w hr
  acceptor :=
    (Parties.right_inductive (System.recalls_inductive (obeys_program acceptor))).reachable w hr
  nonces := (Parties.right_inductive (nonces_inductive acceptor fun _ h => h)).reachable w hr

/-- Of all the acceptor's finished signings, the ones of `h`. -/
def signings (h : HandshakeData) (s : State Snap) : List (Ev Snap) :=
  s.log.filter fun e => signsHandshake h e.exch

/-- Call `t` of the acceptor has made the handshake `h`, once, and no other. -/
structure Offers (svc : Service Snap) (s : State Snap) (t : Nat) (a : AcceptArgs)
    (h : HandshakeData) : Prop where
  call : ∃ p, s.threads[t]? = some ⟨.accept a, p⟩
  offer : ∃ nonce, h.ackNonce = some nonce ∧ Offer svc a (Pool.history t s.log) h nonce
  made : ∃ e, signings h s = [e] ∧ e.tid = t
  only : ∀ h' k' sig', (⟨.core (.signHandshakeEnvelope h' k'), sig'⟩ : Exch Snap) ∈
    Pool.history t s.log → h' = h

namespace Known

theorem asks_once (hk : Known inviter acceptor lib inviterKey acceptorKey w)
    {newer older : List (Ev Snap)} {e : Ev Snap} (hlog : w.2.log = newer ++ e :: older)
    (hasks : asksHandshake e.op = true) :
    ∀ x ∈ Pool.history e.tid older, asksHandshake x.op = false := by
  have ht : w.2.threads[e.tid]? = some ⟨_, _⟩ :=
    List.getElem?_eq_getElem (hk.acceptor.owned e (by simp [hlog]))
  rcases hk.acceptor.each newer e older _ _ hlog ht with helse | ⟨a, -, hmakes⟩
  · rw [not_handshake helse] at hasks
    cases hasks
  · revert hasks hmakes
    cases e.op with
    | core q =>
      cases q <;> first | exact fun _ hmakes => hmakes.2 | exact fun hasks => by cases hasks
    | _ => exact fun hasks => by cases hasks

/-- A call that has signed a handshake has drawn its nonce. -/
theorem signs (hk : Known inviter acceptor lib inviterKey acceptorKey w) {e : Ev Snap}
    {h : HandshakeData} (he : e ∈ w.2.log) (hsigns : signsHandshake h e.exch = true) :
    ∃ a p nonce, w.2.threads[e.tid]? = some ⟨.accept a, p⟩ ∧ h.ackNonce = some nonce ∧
      Offer acceptor a (Pool.history e.tid w.2.log) h nonce := by
  obtain ⟨t, op, r, f⟩ := e
  unfold signsHandshake at hsigns
  split at hsigns
  · rename_i h' key sig hx
    obtain rfl := of_decide_eq_true hsigns
    obtain ⟨c, p, τ, ht, hsuffix, hmay⟩ :=
      hk.acceptor.of_mem (Pool.mem_history.mpr ⟨_, he, rfl, hx⟩)
    rcases hmay with helse | ⟨a, rfl, ⟨nonce, hoffer⟩, -⟩
    · exact helse.elim
    · obtain ⟨i, x3dh, snapshot, inviteId, binding, nowMs, -, -, rfl⟩ := hoffer.derived
      exact ⟨a, p, nonce, ht, rfl, hoffer.mono ((List.suffix_cons _ τ).trans hsuffix)⟩
  · cases hsigns

omit [DecidableEq Snap] in
theorem asks_of_signs {h : HandshakeData} {e : Ev Snap} (hsigns : signsHandshake h e.exch = true) :
    asksHandshake e.op = true := by
  obtain ⟨t, op, r, f⟩ := e
  unfold signsHandshake at hsigns
  split at hsigns
  · rename_i h' key sig hx
    cases hx
    rfl
  · cases hsigns

/-- No handshake is signed twice: its nonce is one call's, and a call signs once. -/
theorem signs_once (hk : Known inviter acceptor lib inviterKey acceptorKey w)
    {newer older : List (Ev Snap)} {e : Ev Snap} {h : HandshakeData}
    (hlog : w.2.log = newer ++ e :: older) (hsigns : signsHandshake h e.exch = true) :
    ∀ x ∈ older, signsHandshake h x.exch = false := by
  refine fun x hx => Bool.eq_false_iff.mpr fun hsigns' => ?_
  have hx' : x ∈ w.2.log := by
    rw [hlog]
    exact List.mem_append_right newer (.tail _ hx)
  obtain ⟨a, p, nonce, -, hnonce, hoffer⟩ := hk.signs (by simp [hlog]) hsigns
  obtain ⟨a', p', nonce', -, hnonce', hoffer'⟩ := hk.signs hx' hsigns'
  cases hnonce.symm.trans hnonce'
  have htid : e.tid = x.tid := hk.nonces.drawn_once hoffer.drawn hoffer'.drawn
  have hnone :=
    hk.asks_once hlog (asks_of_signs hsigns) x.exch (Pool.mem_history.mpr ⟨x, hx, htid.symm, rfl⟩)
  cases hnone.symm.trans (asks_of_signs hsigns')

theorem offers (hk : Known inviter acceptor lib inviterKey acceptorKey w) {e : Ev Snap}
    {h : HandshakeData} (he : e ∈ w.2.log) (hsigns : signsHandshake h e.exch = true) :
    ∃ a, Offers acceptor w.2 e.tid a h := by
  obtain ⟨a, p, nonce, ht, hnonce, hoffer⟩ := hk.signs he hsigns
  refine ⟨a, ⟨p, ht⟩, ⟨nonce, hnonce, hoffer⟩, ⟨e, ?_, rfl⟩, fun h' key' sig' hx' => ?_⟩
  · exact filter_of_fresh (fun newer x older hlog hx => hk.signs_once hlog hx) he hsigns
  · obtain ⟨e', he', htid, hex'⟩ := Pool.mem_history.mp hx'
    have hasks' : asksHandshake e'.op = true := by
      rw [show e'.op = _ from congrArg Proc.Exch.op hex']
      rfl
    obtain rfl : e = e' := Pool.only_once (fun newer x older => hk.asks_once) he he' htid.symm
      (asks_of_signs hsigns) hasks'
    unfold signsHandshake at hsigns
    rw [hex'] at hsigns
    split at hsigns
    · rename_i hx
      cases hx
      exact of_decide_eq_true hsigns
    · cases hsigns

/-- A handshake under the acceptor's key that verified is the acceptor's. -/
theorem made_by (hk : Known inviter acceptor lib inviterKey acceptorKey w) {t : Nat}
    {h : HandshakeData} {sig : String}
    (hx : (⟨.core (.verifyHandshakeEnvelope (.handshake h sig)), .ok true⟩ : Exch Snap) ∈
        Pool.history t w.1.log) (hkey : h.senderIdentitySigningPubKeyB64 = some acceptorKey) :
    ∃ t' a, Offers acceptor w.2 t' a h := by
  obtain ⟨e, he, -, hex⟩ := Pool.mem_history.mp hx
  obtain ⟨newer, older, hlog⟩ := List.append_of_mem he
  obtain ⟨s, u, -, hu, hok⟩ := hk.heard.1 newer e older hlog
  change inviterHears acceptorKey u.log e.exch at hok
  rw [hex] at hok
  obtain ⟨e', he', hsigns⟩ := hok hkey
  exact ⟨e'.tid, hk.offers (hu.subset he') hsigns⟩

/-- A stored nonce is that of a handshake of the same call. -/
theorem stored_by (hk : Known inviter acceptor lib inviterKey acceptorKey w) {o l n : Id}
    (hset : ∃ e ∈ w.2.log, e.op = .set (.ackNonce o l) n) :
    ∃ t a h, Offers acceptor w.2 t a h ∧ h.ackNonce = some n ∧ a.acceptor = o ∧
      ∃ r, (⟨.set (.ackNonce o l) n, r⟩ : Exch Snap) ∈ Pool.history t w.2.log := by
  obtain ⟨⟨t, op, r, f⟩, he, hop⟩ := hset
  cases hop
  have hx : (⟨.set (.ackNonce o l) n, r⟩ : Exch Snap) ∈ Pool.history t w.2.log :=
    Pool.mem_history.mpr ⟨_, he, rfl, rfl⟩
  obtain ⟨c, p, τ, ht, hsuffix, hmay⟩ := hk.acceptor.of_mem hx
  rcases hmay with helse | ⟨a, rfl, ho, h, key, sig, hsigned, hnonce⟩
  · exact helse.elim
  · obtain ⟨e, hmem, rfl, hex⟩ := Pool.mem_history.mp (hsuffix.subset (.tail _ hsigned))
    obtain ⟨a', hoffers⟩ := hk.offers (h := h) hmem (by
      rw [hex]
      exact decide_eq_true rfl)
    obtain ⟨p', hp'⟩ := hoffers.call
    cases ht.symm.trans hp'
    exact ⟨e.tid, a, h, hoffers, hnonce, ho.symm, r, hx⟩

/-- The nonce `n` of handshake `h` that is stored for a link was stored by the
call that made `h`. -/
theorem same_offer (hk : Known inviter acceptor lib inviterKey acceptorKey w) {t : Nat}
    {a : AcceptArgs} {h : HandshakeData} (hoffers : Offers acceptor w.2 t a h) {o l n : Id}
    (hnonce : h.ackNonce = some n) (hset : ∃ e ∈ w.2.log, e.op = .set (.ackNonce o l) n) :
    a.acceptor = o ∧ ∃ r, (⟨.set (.ackNonce o l) n, r⟩ : Exch Snap) ∈ Pool.history t w.2.log := by
  obtain ⟨t', a', h', hoffers', hnonce', ho, r, hx⟩ := hk.stored_by hset
  obtain ⟨m, hm, hoffer⟩ := hoffers.offer
  obtain ⟨m', hm', hoffer'⟩ := hoffers'.offer
  cases hm.symm.trans hnonce
  cases hm'.symm.trans hnonce'
  obtain rfl := hk.nonces.drawn_once hoffer.drawn hoffer'.drawn
  obtain ⟨p, hp⟩ := hoffers.call
  obtain ⟨p', hp'⟩ := hoffers'.call
  cases hp.symm.trans hp'
  exact ⟨ho, r, hx⟩

end Known

/-! ## The results -/

/-- **A judged handshake is the acceptor's**: what the inviter has parsed and
checked under the acceptor's key was signed exactly once, by the one
`acceptInvite` call that has derived its X3DH part and drawn its nonce. -/
theorem handshake_offered (inviter acceptor : Service Snap) (lib : ControlLib acceptor.core)
    (inviterKey acceptorKey : Id) (w : ControlState Snap × State Snap)
    (hr : (handshakes inviter acceptor lib inviterKey acceptorKey).beside.Reachable w) (t : Nat)
    (owner : Id) (b : Bytes) (out : HandshakeOutcome)
    (ht : w.1.threads[t]? =
        some ⟨.service (.handshake owner b), .ret (.ok (.service (.handshake out)))⟩) :
    out = .notHandshake ∨
    ∃ p, Decided inviter.core (Pool.history t w.1.log) b p out ∧
      (p.handshake.senderIdentitySigningPubKeyB64 = some acceptorKey →
        ∃ t' a, Offers acceptor w.2 t' a p.handshake) := by
  have hk := known hr
  rcases hk.inviter.result ht with hout | ⟨p, hdecided⟩
  · exact .inl hout
  · obtain ⟨sig, hverified⟩ := hdecided.verified
    exact .inr ⟨p, hdecided, hk.made_by hverified⟩

/-- The inviter has come to this answer on packet `p` in call `t`; and if `p`
is under the acceptor's key, it is the handshake of the call that stored the
nonce the answer was compared with. -/
structure Answered (inviter acceptor : Service Snap) (acceptorKey : Id)
    (w : ControlState Snap × State Snap) (owner peer : Id) (link : PeerLinkRecord)
    (stored : Option Id) (answer : Answer) (t : Nat) (p : HandshakePacket)
    (out : HandshakeOutcome) : Prop where
  ended : ∃ b, w.1.threads[t]? = some ⟨.service (.handshake peer b),
    .ret (.ok (.service (.handshake out)))⟩ ∧
    Decided inviter.core (Pool.history t w.1.log) b p out
  answers : out.answer = some answer
  offered : p.handshake.senderIdentitySigningPubKeyB64 = some acceptorKey →
    ∃ t' a, Offers acceptor w.2 t' a p.handshake ∧ ∀ n, stored = some n → a.acceptor = owner ∧
      ∃ r, (⟨.set (.ackNonce owner link.peerLinkId) n, r⟩ : Exch Snap) ∈ Pool.history t' w.2.log

theorem Known.answered (hk : Known inviter acceptor lib inviterKey acceptorKey w) {t : Nat}
    {owner peer : Id} {link : PeerLinkRecord} {publicKey : String} {envelope : SignedEnvelope}
    {answer : Answer} {stored : Option Id}
    (hpassed : Passed owner (Pool.history t w.2.log) link publicKey envelope answer.nonce stored)
    (h : Tells w.1 peer answer) :
    ∃ t' p out, Answered inviter acceptor acceptorKey w owner peer link stored answer t' p out := by
  obtain ⟨t', b, out, ht', hanswer⟩ := h
  rcases hk.inviter.result ht' with hout | ⟨p, hdecided⟩
  · rw [hout] at hanswer
    cases hanswer
  · obtain ⟨sig, hverified⟩ := hdecided.verified
    refine ⟨t', p, out, ⟨b, ht', hdecided⟩, hanswer, fun hkey => ?_⟩
    obtain ⟨t'', a, hoffers⟩ := hk.made_by hverified hkey
    refine ⟨t'', a, hoffers, fun n hn => ?_⟩
    -- the nonce that was read is the one of the judged packet
    have hnonce : p.handshake.ackNonce = some n := by
      have hjudged := hdecided.nonce answer hanswer
      obtain ⟨m, hm, heq⟩ := Option.map_eq_some_iff.mp hjudged
      have hval : m.val = n.val := heq.trans (hpassed.same n hn).symm
      cases m
      cases n
      cases hval
      exact hm
    obtain ⟨e, he, -, hex⟩ := Pool.mem_history.mp hpassed.read
    exact hk.same_offer hoffers hnonce
      (hk.nonces.read e he owner link.peerLinkId n (by rw [hex, hn]))

end

/-! ## Concrete runs -/

namespace Example

open Counting

def ackOf (n : UInt8) : HandshakeAck := ⟨"b", b, none, "", (idOf n).val, 1, "a"⟩

def rejectOf (n : UInt8) : HandshakeReject := ⟨"b", b, "INVITE_USED_UP", (idOf n).val, 1, "a"⟩

/-- Control packets as the inviter `b` signs them. -/
def core : Core Nat :=
  { Counting.core with
    parseAck := fun
      | [n] => some (ackOf n)
      | _ => none
    parseReject := fun
      | [n] => some (rejectOf n)
      | _ => none }

def node : Service Nat := { Counting.svc with core }

def lib : ControlLib core where
  ackToSign _ := []
  rejectToSign _ := []
  ackBytes a := if a = ackOf 0 then .ok [0] else .error { message := "ack" }
  rejectBytes r := if r = rejectOf 0 then .ok [0] else .error { message := "reject" }
  parse_ack a b h := by
    split at h
    · cases h
      rename_i ha
      exact congrArg some ha.symm
    · cases h
  parse_reject r b h := by
    split at h
    · cases h
      rename_i hr
      exact congrArg some hr.symm
    · cases h

/-- Account `x`'s keys. -/
def keysOf (x : Id) : Store Nat :=
  (∅ : Store Nat).insert (.identity x) (AccountKeys.toStored ⟨⟨x, x⟩, ⟨x, x⟩,
  x, some (bindingOf x 50)⟩)

/-- Account `b`'s invite `d`. -/
def inviterStore (accepted : List Id) : Store Nat :=
  ((keysOf b).insert (.invite b d)
  { Counting.invite 1 accepted Nat.one_pos with ownerAccountId := b }).insert (.invitePreKey b d) []

/-- Everything succeeds at 1 o'clock; the nonce is `a`. -/
def fates (n : Nat) : Op Nat → Fate
  | .clock => .time 1
  | .runtimeUuid => .fresh a
  | o => smooth n o

def envelope : Envelope :=
  ⟨none, some d, some b, none, 90, none, [],
    some ⟨some b, some ⟨some b, some b, none, 1, some 90, some b, none, []⟩⟩, none⟩

def accept : Call := .accept ⟨envelope, a, a, none, true, none, false⟩


def answersIn (s : ControlState Nat) (owner : Id) (x : Answer) : Bool :=
  s.threads.any fun
    | ⟨.service (.handshake o _), .ret (.ok (.service (.handshake out)))⟩ =>
      o = owner && out.answer = some x
    | _ => false

def signedIn (log : List (Ev Nat)) (h : HandshakeData) : Bool :=
  log.any fun e => signsHandshake h e.exch

def inviterMayHear (log : List (Ev Nat)) : Exch Nat → Bool
  | ⟨.core (.verifyHandshakeEnvelope (.handshake h _)), .ok true⟩ =>
    h.senderIdentitySigningPubKeyB64 ≠ some a || signedIn log h
  | _ => true

def madeAckIn (s : ControlState Nat) (x : HandshakeAck) : Bool :=
  s.threads.any fun
    | ⟨.signAck .., .ret (.ok (.packet p))⟩ =>
      (core.parseAck p).any fun made => made.payload = x.payload
    | _ => false

def madeRejectIn (s : ControlState Nat) (x : HandshakeReject) : Bool :=
  s.threads.any fun
    | ⟨.signReject .., .ret (.ok (.packet p))⟩ =>
      (core.parseReject p).any fun made => made.payload = x.payload
    | _ => false

def acceptorMayHear (s : ControlState Nat) : Exch Nat → Bool
  | ⟨.core (.verifyHandshakeEnvelope (.ack x)), .ok true⟩ =>
    x.senderIdentitySigningPubKeyB64 ≠ "b" || madeAckIn s x
  | ⟨.core (.verifyHandshakeEnvelope (.reject x)), .ok true⟩ =>
    x.senderIdentitySigningPubKeyB64 ≠ "b" || madeRejectIn s x
  | _ => true

theorem answersIn_spec {s : ControlState Nat} {owner : Id} {x : Answer}
    (h : answersIn s owner x = true) : Tells s owner x := by
  obtain ⟨th, hth, h⟩ := List.any_eq_true.mp h
  obtain ⟨t, ht⟩ := List.mem_iff_getElem?.mp hth
  split at h
  · rename_i o packet out
    simp only [Bool.and_eq_true, decide_eq_true_eq] at h
    obtain ⟨rfl, hout⟩ := h
    exact ⟨t, packet, out, ht, hout⟩
  · cases h

theorem madeAckIn_spec {s : ControlState Nat} {x : HandshakeAck} (h : madeAckIn s x = true) :
    MadeAck core s x := by
  obtain ⟨th, hth, h⟩ := List.any_eq_true.mp h
  obtain ⟨t, ht⟩ := List.mem_iff_getElem?.mp hth
  split at h
  · rename_i owner inbox name nonce p
    obtain ⟨made, hmade, h⟩ := (Option.any_eq_true _ _).mp h
    exact ⟨t, owner, inbox, name, nonce, p, made, ht, hmade, of_decide_eq_true h⟩
  · cases h

theorem madeRejectIn_spec {s : ControlState Nat} {x : HandshakeReject}
    (h : madeRejectIn s x = true) : MadeReject core s x := by
  obtain ⟨th, hth, h⟩ := List.any_eq_true.mp h
  obtain ⟨t, ht⟩ := List.mem_iff_getElem?.mp hth
  split at h
  · rename_i owner reason nonce p
    obtain ⟨made, hmade, h⟩ := (Option.any_eq_true _ _).mp h
    exact ⟨t, owner, reason, nonce, p, made, ht, hmade, of_decide_eq_true h⟩
  · cases h

def mayCall (s : ControlState Nat) : ControlCall → Bool
  | .service _ => true
  | .signAck owner _ _ nonce => answersIn s owner (.ack nonce)
  | .signReject owner reason nonce => answersIn s owner (.reject reason nonce)

def judge : Parties.Judge (handshakes node node lib b a) where
  left := ⟨mayCall, fun _ _ => true, fun _ call h => by
    cases call with
    | service _ => trivial
    | signAck => exact answersIn_spec h
    | signReject => exact answersIn_spec h, fun _ _ _ => trivial⟩
  right := ⟨fun _ _ => true, fun _ _ => true, fun _ _ _ => trivial, fun _ _ _ => trivial⟩
  leftOk _ u e := inviterMayHear u.log e.exch
  rightOk s _ e := acceptorMayHear s e.exch
  leftOk_iff _ u e h := by
    show inviterHears a u.log e.exch
    unfold inviterHears
    split
    · rename_i x hx
      rw [hx] at h
      intro hkey
      simp only [inviterMayHear, hkey, ne_eq, not_true, decide_false, Bool.false_or] at h
      exact List.any_eq_true.mp h
    · trivial
  rightOk_iff s _ e h := by
    show acceptorHears core b s e.exch
    unfold acceptorHears
    split
    · rename_i x hx
      rw [hx] at h
      intro hkey
      refine madeAckIn_spec ?_
      simpa [acceptorMayHear, show x.senderIdentitySigningPubKeyB64 = "b" from hkey] using h
    · rename_i x hx
      rw [hx] at h
      intro hkey
      refine madeRejectIn_spec ?_
      simpa [acceptorMayHear, show x.senderIdentitySigningPubKeyB64 = "b" from hkey] using h
    · trivial

/-- Account `a` accepts, the inviter handles its packet and answers it, and
`a` handles the answer. -/
def script (reply : ControlCall) (receive : Call) : List (Parties.Move ControlCall Call) :=
  [.right accept, .go (.inr 0) 100, .left (.service (.handshake b [0, 3, 0])),
  .go (.inl 0) 100, .left reply, .go (.inl 1) 100,
    .right receive, .go (.inr 1) 100]

/-- The inviter has accepted the packet, and the acceptor the ack. -/
def acked (w : ControlState Nat × State Nat) : Bool :=
  (w.1.threads[0]?.any fun
    | ⟨.service (.handshake o p), .ret (.ok (.service (.handshake (.accepted ..))))⟩ =>
      o = b && p = [0, 3, 0]
    | _ => false) && w.2.threads[1]?.any fun
    | ⟨.ack o p, .ret (.ok (.acked (some _)))⟩ => o = a && p = [0]
    | _ => false

theorem acked_spec {w : ControlState Nat × State Nat} (h : acked w = true) :
    (∃ snapshot event nonce remote name,
        w.1.threads[0]? = some ⟨.service (.handshake b [0, 3, 0]),
              .ret (.ok (.service (.handshake (.accepted snapshot event nonce remote name))))⟩) ∧
    ∃ r, w.2.threads[1]? = some ⟨.ack a [0], .ret (.ok (.acked (some r)))⟩ := by
  rw [acked, Bool.and_eq_true] at h
  obtain ⟨th, hth, hhandled⟩ := (Option.any_eq_true _ _).mp h.1
  obtain ⟨th', hth', hacked⟩ := (Option.any_eq_true _ _).mp h.2
  constructor
  · split at hhandled
    · rename_i o p snapshot event nonce remote name
      simp only [Bool.and_eq_true, decide_eq_true_eq] at hhandled
      obtain ⟨rfl, rfl⟩ := hhandled
      exact ⟨snapshot, event, nonce, remote, name, hth⟩
    · cases hhandled
  · split at hacked
    · rename_i o p r
      simp only [Bool.and_eq_true, decide_eq_true_eq] at hacked
      obtain ⟨rfl, rfl⟩ := hacked
      exact ⟨r, hth'⟩
    · cases hacked

theorem acked_reachable : ∃ w, (handshakes node node lib b a).beside.Reachable w ∧ acked w = true :=
  Parties.reachable_of_play judge fates fates (script (.signAck b none "" "a") (.ack a [0]))
    (.ofStore (inviterStore []) []) (.ofStore (keysOf a) []) (Q := acked) trivial
    (fun _ _ => AList.lookup_insert_ne (by simp)) (by decide +kernel)

end Example

open Example in
open Counting (a b c parsePacket) in
/-- The inviter accepts a packet of the acceptor. -/
theorem handshake_offered_run : ∃ w, (handshakes node node lib b a).beside.Reachable w ∧
    ∃ p t a', parsePacket [0, 3, 0] = .ok (some p) ∧ Offers node w.2 t a' p.handshake := by
  obtain ⟨w, hr, hw⟩ := acked_reachable
  obtain ⟨snapshot, event, nonce, remote, name, ht⟩ := (acked_spec hw).1
  rcases handshake_offered _ _ _ _ _ w hr 0 _ _ _ ht with hout | ⟨p, hdecided, hoffers⟩
  · cases hout
  · have hp : parsePacket [0, 3, 0] = .ok (some p) := hdecided.parsed
    cases hp
    obtain ⟨t, a', h⟩ := hoffers rfl
    exact ⟨w, hr, _, t, a', rfl, h⟩

end RezSdk.L4.HandshakeAgreement
