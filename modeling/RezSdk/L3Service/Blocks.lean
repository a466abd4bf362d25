import RezSdk.L3Service.Calls
import RezSdk.L3Service.Footprints

/-!
# The blocks the calls are built from

Every call is a sequence of single operations and of the five functions that
write records: `PeerLinks.update` and `create`, `Sessions.put` and
`Invites.save`. A link is created under an id the call has drawn itself,
except by `upsertPeerRelationship`, which is told one. `Blocks G` says that a
property `G` of programs holds of these blocks and is kept by sequencing, and
`blocks_program` that it then holds of every call. The list `D` of `G p`
are the ids drawn so far.
-/
namespace RezSdk.L3

open RezSdk.L1 RezSdk.L2

variable {Snap : Type}

/-- The writes that only the record stores make, and the deletes of links
that none makes. -/
def recordWrites : List OpClass :=
  [.set .peerLink, .set .pair, .set .session, .set .invite, .delete .peerLink, .delete .pair]

structure Blocks (G : (α : Type) → Proc (sdk Snap) α → Prop) : Prop where
  ret : ∀ {α : Type} (x : α), G α (.ret x)
  bind : ∀ {α β : Type} {p : Proc (sdk Snap) α} {f : α → Proc (sdk Snap) β},
    G α p → (∀ x, G β (f x)) → G β (p.bind f)
  plain : ∀ {o : Op Snap}, recordWrites.contains (classOf o) = false → G _ (.ask o .ret)
  update : ∀ (r : PeerLinkRecord) (v : Nat), G _ (PeerLinks.update r v)
  create : ∀ {α : Type} (kind : String) (r : Id → PeerLinkRecord)
    (f : Id → Except Err PeerLinkRecord → Proc (sdk Snap) α), (∀ i, (r i).peerLinkId = i) →
    (∀ i x, G α (f i x)) →
    G α (.ask (.stableId kind) fun i => Proc.bind (PeerLinks.create (r i)) (f i))
  put : ∀ (r : SessionRecord Snap), G _ (Sessions.put r)
  save : ∀ (r : InviteRecord), G _ (Invites.save r)

namespace Blocks

variable {G : (α : Type) → Proc (sdk Snap) α → Prop} {α β π ε : Type} {svc : Service Snap}

/-! ## Combinators -/

theorem ask (h : Blocks G) {o : Op Snap} {next : o.Ans → Proc (sdk Snap) α}
    (ho : recordWrites.contains (classOf o) = false) (hn : ∀ r, G α (next r)) : G α (.ask o next) :=
  h.bind (h.plain ho) hn

theorem seq (h : Blocks G) {p : Js (sdk Snap) ε α} {f : α → Js (sdk Snap) ε β} (hp : G _ p)
    (hf : ∀ x, G _ (f x)) : G _ (p >>= f : Js (sdk Snap) ε β) :=
  h.bind hp fun
    | .ok x => hf x
    | .error _ => h.ret _

theorem foot (h : Blocks G) {l : List OpClass} {p : Proc (sdk Snap) α} (hp : Foot l p)
    (hl : l.all (fun c => !recordWrites.contains c) = true) : G α p := by
  induction p with
  | ret x => exact h.ret x
  | ask o next ih =>
    have ho := List.all_eq_true.mp hl _ (List.contains_iff_mem.mp hp.1.1)
    exact h.ask (by simpa using ho) fun r => ih r (hp.2 r)

theorem skip (h : Blocks G) {l : List OpClass} {p : Js (sdk Snap) ε α} {f : α → Js (sdk Snap) ε β}
    (hp : Foot l p) (hl : l.all (fun c => !recordWrites.contains c) = true) (hf : ∀ x, G _ (f x)) :
    G _ (p >>= f : Js (sdk Snap) ε β) := h.seq (h.foot hp hl) hf

theorem track (h : Blocks G) {q : π} {p : Sdk Snap α} (hp : G _ p) : G _ (track q p) :=
  h.bind hp fun
    | .ok _ => h.ret _
    | .error _ => h.ret _

theorem untrack (h : Blocks G) {p : Tracked Snap π α} (hp : G _ p) : G _ (untrack p) :=
  h.bind hp fun
    | .ok _ => h.ret _
    | .error _ => h.ret _

theorem attempt (h : Blocks G) {p : Sdk Snap α} {f : Except Err α → Sdk Snap β} (hp : G _ p)
    (hf : ∀ x, G _ (f x)) : G _ (p.attempt f) := h.bind hp hf

theorem withLock (h : Blocks G) {k : LockKey} {body : Sdk Snap α} (hb : G _ body) :
    G _ (withLock k body) :=
  h.ask rfl fun _ => h.ask rfl fun _ => h.bind hb fun _ => h.ask rfl fun _ => h.ret _

theorem createAlone (h : Blocks G) (kind : String) {r : Id → PeerLinkRecord}
    (hr : ∀ i, (r i).peerLinkId = i) :
    G _ (stableId kind >>= fun i => PeerLinks.create (r i) : Sdk Snap _) := by
  have hb := h.create kind r (fun _ => .ret) hr fun _ _ => h.ret _
  have hret : (fun i => Proc.bind (PeerLinks.create (r i) : Sdk Snap _) .ret) = fun i =>
      PeerLinks.create (r i) :=
    funext fun i => Proc.bind_ret _
  rwa [hret] at hb

/-! ## The commit -/

theorem commitLink (h : Blocks G) {a : CommitArgs Snap} {now : Nat}
    {stored : Option (SessionRecord Snap)} {p : Progress Snap} :
    G _ (commitLink svc a now stored p) :=
  h.skip (l := []) (foot_track foot_checkTransition) rfl fun _ =>
    h.seq (h.track (h.update _ _)) fun _ =>
    h.skip (foot_track foot_appendEvent) rfl fun _ =>
    h.skip (l := [.count]) (foot_track (foot_clearCounts rfl)) rfl fun _ =>
    h.skip (l := [.count]) (foot_track (foot_markSuccess rfl)) rfl fun _ =>
    h.skip (foot_track foot_buildSnapshot) rfl fun _ => h.ret _

theorem commitSession (h : Blocks G) {a : CommitArgs Snap} : G _ (commitSession svc a) := by
  refine h.skip (l := [.clock]) (foot_track (foot_clock rfl)) rfl fun c => ?_
  split
  · exact h.commitLink
  · exact h.skip (foot_track foot_commitSessionId) rfl fun _ =>
      h.seq (h.track (h.put _)) fun _ => h.commitLink

theorem rewrite (h : Blocks G) {input : SessionRecord Snap} : ∀ {n : Nat}, G _ (rewrite input n)
  | 0 => h.ret _
  | _ + 1 => h.attempt (h.put _) fun
    | .ok _ => h.ret _
    | .error _ => h.rewrite

theorem keepPlaintext (h : Blocks G) {r : PeerLinkRecord} {e : Option CommitError} :
    G _ (keepPlaintext r e : Sdk Snap _) := h.foot foot_keepPlaintext rfl

section

variable [DecidableEq Snap]

theorem confirm (h : Blocks G) {a : CommitArgs Snap} {p : Progress Snap} :
    G _ (confirmAdvancedRatchetDurable a p) := by
  unfold confirmAdvancedRatchetDurable
  split
  · exact h.skip foot_storedRatchetMatches rfl fun _ => h.ret _
  · split
    · exact h.ret _
    · refine h.seq h.rewrite fun wrote => ?_
      split
      · exact h.skip foot_storedRatchetMatches rfl fun _ => h.ret _
      · exact h.ret _

theorem recoverRetry (h : Blocks G) {a : CommitArgs Snap} {p rp : Progress Snap}
    {f : PeerLinkRecord} {e : Err} : G _ (recoverRetry a p f rp e) := by
  unfold RezSdk.L3.recoverRetry
  split
  · exact h.seq h.confirm fun _ => h.seq (h.ret _) fun _ =>
      h.skip (l := []) foot_ensure rfl fun _ => h.keepPlaintext
  · exact h.skip foot_storedRatchetMatches rfl fun _ => h.skip (l := []) foot_ensure rfl fun _ =>
      h.keepPlaintext

theorem recoverLink (h : Blocks G) {a : CommitArgs Snap} {p : Progress Snap} {e : Err} :
    ∀ fresh, G _ (recoverLink svc a p e fresh)
  | none => h.keepPlaintext
  | some f => by
    by_cases hest : f.state = .sessionEstablished
    · simp only [RezSdk.L3.recoverLink, hest]
      exact h.keepPlaintext
    · simp only [RezSdk.L3.recoverLink, hest]
      exact h.bind h.commitSession fun
        | .ok _ => h.ret _
        | .error (_, _) => h.recoverRetry

theorem commitAfterDecrypt (h : Blocks G) {a : CommitArgs Snap} :
    G _ (commitSessionAfterDecrypt svc a) :=
  h.bind h.commitSession fun
    | .ok _ => h.ret _
    | .error (_, _) => h.seq h.confirm fun _ => h.skip (l := []) foot_ensure rfl fun _ =>
      h.skip foot_linkById rfl h.recoverLink

/-! ## Messages -/

theorem commitDecrypt (h : Blocks G) {owner peer : Id} {link : PeerLinkRecord}
    {record : SessionRecord Snap} {opened : Opened} {s : Snap} :
    G _ (commitDecrypt svc owner peer link record opened s) := by
  unfold RezSdk.L3.commitDecrypt
  split
  · exact h.skip (l := [.clock]) (foot_clock rfl) rfl fun _ => h.seq h.commitAfterDecrypt fun _ =>
      h.ret _
  · exact h.skip (l := [.clock]) (foot_clock rfl) rfl fun _ => h.seq (h.put _) fun _ =>
      h.skip foot_buildSnapshot rfl fun _ => h.ret _

theorem decrypt (h : Blocks G) (owner peer : Id) (b : Bytes) :
    G _ (decryptDirectMessage svc owner peer b) := by
  refine h.skip (l := []) foot_ensure rfl fun _ => h.skip foot_getByPair rfl fun _ =>
    h.skip (l := []) foot_orThrow rfl fun _ => h.skip foot_sessionByLink rfl fun _ =>
    h.skip (l := []) foot_orThrow rfl fun _ => h.skip (l := []) foot_ensure rfl fun _ =>
    h.skip (l := [.codec]) (foot_core rfl) rfl fun out => ?_
  refine h.skip (l := []) foot_ensure rfl fun _ => ?_
  split
  · exact h.skip (l := [.count]) (foot_countFailure rfl) rfl fun _ => h.ret _
  · exact h.skip (l := [.count]) (foot_clearCounts rfl) rfl fun _ => h.commitDecrypt

end

theorem encrypt (h : Blocks G) (owner peer : Id) (m : Bytes) :
    G _ (encryptDirectMessage owner peer m : Sdk Snap _) :=
  h.skip (l := []) foot_ensure rfl fun _ => h.skip foot_getByPair rfl fun _ =>
    h.skip (l := []) foot_orThrow rfl fun _ => h.skip foot_sessionByLink rfl fun _ =>
    h.skip (l := []) foot_orThrow rfl fun _ => h.skip (l := []) foot_ensure rfl fun _ =>
    h.skip (l := [.codec]) (foot_core rfl) rfl fun _ =>
      h.skip (l := [.clock]) (foot_clock rfl) rfl fun _ =>
    h.seq (h.put _) fun _ => h.ret _

theorem tryDecrypt (h : Blocks G) {record : SessionRecord Snap} {expected : Id} {b : Bytes} :
    G _ (tryDecrypt record expected b) := by
  refine h.skip (l := []) foot_ensure rfl fun _ =>
    h.skip (l := [.codec]) (foot_core rfl) rfl fun out => ?_
  dsimp only
  split
  · exact h.skip (l := [.clock]) (foot_clock rfl) rfl fun _ => h.seq (h.put _) fun _ => h.ret _
  · exact h.ret _

theorem attemptDevice (h : Blocks G) {owner link device : Id} {peer : Option Id} {b : Bytes}
    {require : Bool} :
    G _ (attemptDeviceDecrypt owner peer link device b require : Sdk Snap _) := by
  refine h.withLock (h.skip foot_byDevice rfl fun found => ?_)
  cases found with
  | none => cases require <;> exact h.ret _
  | some record => exact h.seq h.tryDecrypt fun _ => h.ret _

theorem trialLoop (h : Blocks G) {owner link : Id} {peer : Option Id} {b : Bytes} :
    ∀ {rows : List (SessionRecord Snap)}, G _ (trialLoop owner peer link b rows)
  | [] => h.ret _
  | record :: rest => by
    unfold RezSdk.L3.trialLoop
    split
    · exact h.trialLoop
    · refine h.seq h.attemptDevice fun result => ?_
      cases result with
      | none => exact h.trialLoop
      | some _ => exact h.ret _

theorem trial (h : Blocks G) {owner link : Id} {peer : Option Id} {b : Bytes} :
    G _ (trialDecryptAcrossDevices svc owner peer link b) :=
  h.skip foot_listSessions rfl fun _ => h.trialLoop

theorem deviceHit (h : Blocks G) {owner device : Id} {row : PeerLinkRecord} {plaintext : Bytes} :
    G _ (deviceHit owner row plaintext device : Sdk Snap _) :=
  h.skip (l := [.count]) (foot_clearCounts rfl) rfl fun _ =>
    h.skip (l := [.clock]) (foot_clock rfl) rfl fun _ =>
    h.skip (l := [.count]) (foot_markSuccess rfl) rfl fun _ =>
      h.skip foot_buildSnapshot rfl fun _ => h.ret _

section

variable [DecidableEq Snap]

theorem tryLegacy (h : Blocks G) {owner : Id} {b : Bytes} {row : PeerLinkRecord} :
    G _ (tryLegacy svc owner b row) := by
  refine h.skip foot_sessionByLink rfl fun session => ?_
  cases session with
  | none => exact h.ret _
  | some record =>
    dsimp only
    split
    · exact h.ret _
    · refine h.skip (l := [.codec]) (foot_core rfl) rfl fun out => ?_
      split
      · exact h.ret _
      · exact h.skip (l := [.count]) (foot_clearCounts rfl) rfl fun _ =>
          h.skip (l := [.clock]) (foot_clock rfl) rfl fun _ =>
          h.skip (l := [.count]) (foot_markSuccess rfl) rfl fun _ => h.seq h.commitDecrypt fun _ =>
            h.ret _

theorem tryRow (h : Blocks G) {owner : Id} {b : Bytes} {row : PeerLinkRecord} :
    G _ (tryRow svc owner b row) := by
  unfold RezSdk.L3.tryRow
  split
  · refine h.seq h.trial fun hit => ?_
    cases hit with
    | none => exact h.tryLegacy
    | some x => exact h.deviceHit
  · exact h.tryLegacy

theorem anyPeerLoop (h : Blocks G) {owner : Id} {b : Bytes} :
    ∀ {rows candidates : List PeerLinkRecord}, G _ (anyPeerLoop svc owner b rows candidates)
  | [], _ =>
    h.skip (l := [.clock]) (foot_clock rfl) rfl fun _ => h.skip foot_recoveryCandidates rfl fun _ =>
      h.ret _
  | _ :: _, _ => h.seq h.tryRow fun
    | .hit _ => h.ret _
    | .skip => h.anyPeerLoop
    | .miss => h.anyPeerLoop

end

theorem persist (h : Blocks G) {owner peer link device : Id} {s : Snap} :
    G _ (persistDeviceSession owner peer link device s) := by
  refine h.skip (l := [.clock]) (foot_clock rfl) rfl fun _ =>
    h.skip foot_byDevice rfl fun existing =>
    h.seq ?_ fun _ => h.seq (h.put _) fun _ => h.ret _
  cases existing with
  | some r => exact h.ret _
  | none => exact h.ask rfl fun _ => h.ret _

/-! ## Invites and handshakes -/

theorem join (h : Blocks G) {owner id joiner : Id} {now : Option Nat} :
    G _ (authorizeInviteJoin owner id joiner now : Sdk Snap _) := by
  refine h.withLock (h.skip foot_inviteGet rfl fun found => ?_)
  cases found with
  | none => exact h.ret _
  | some fresh =>
    dsimp only
    split
    · exact h.ret _
    split
    · exact h.ret _
    split
    · exact h.ret _
    split
    · exact h.ret _
    · exact h.seq (h.save _) fun _ => h.ret _

theorem verdict (h : Blocks G) {owner id peer : Id} {record : Option InviteRecord} :
    G _ (inviteVerdict owner id peer record : Sdk Snap _) := by
  cases record with
  | none => exact h.ret _
  | some _ =>
    refine h.withLock (h.skip foot_inviteGet rfl fun found => ?_)
    cases found with
    | none => exact h.ret _
    | some fresh =>
      refine h.skip (l := [.clock]) (foot_clock rfl) rfl fun now => ?_
      split
      · exact h.ret _
      split
      · exact h.ret _
      split
      · exact h.ret _
      · exact h.seq (h.save _) fun _ => h.ret _

theorem responderLink (h : Blocks G) {x : Authenticated} {owner : Id} {now : Nat}
    {existing : Option PeerLinkRecord} : G _ (responderLink x owner now existing : Sdk Snap _) := by
  cases existing with
  | some e => exact h.ret _
  | none => exact h.createAlone "pl" fun _ => rfl

theorem establishLink (h : Blocks G) {owner : Id} {x : Authenticated} {b : Bytes} {ex : Bool}
    {name : String} {now : Nat} {existing : Option PeerLinkRecord} :
    G _ (establishLink svc owner x b ex name now existing) := by
  refine h.seq h.responderLink fun link => h.skip foot_establishAsResponder rfl fun _ =>
    h.skip foot_sessionByLink rfl fun _ => h.seq (h.untrack h.commitSession) fun commit =>
    h.skip (l := [.newId]) (foot_stableId rfl) rfl fun _ => h.skip foot_attemptCreate rfl fun _ =>
      ?_
  split
  · exact h.skip (l := [.delete .invitePreKey]) (foot_delete rfl) rfl fun _ => h.ret _
  · exact h.ret _

theorem proceed (h : Blocks G) {owner : Id} {x : Authenticated} {ex al : Bool} {name : String} :
    G _ (proceedHandshake svc owner x ex al name) := by
  refine h.skip (l := [.get .invitePreKey]) (foot_get rfl) rfl fun _ =>
    h.skip (l := []) foot_orThrow rfl fun _ =>
    h.skip (l := [.clock]) (foot_clock rfl) rfl fun _ => h.skip foot_getByPair rfl fun existing =>
      ?_
  split
  · split
    · exact h.skip foot_buildSnapshot rfl fun _ => h.ret _
    · exact h.establishLink
  · exact h.establishLink

theorem handshake (h : Blocks G) (owner : Id) (b : Bytes) :
    G _ (handleIncomingHandshakePacket svc owner b) := by
  refine h.skip (l := []) foot_ensure rfl fun _ => ?_
  split
  · exact h.ret _
  · exact h.ret _
  · refine h.skip foot_authenticate rfl fun x => h.skip foot_inviteGet rfl fun record =>
      h.seq h.verdict fun verdict => ?_
    cases verdict with
    | reject _ => exact h.ret _
    | proceed ex al => exact h.proceed

theorem trySend (h : Blocks G) {a : AcceptArgs} {inviter sid : Id} {p : HandshakePacket} {now : Nat}
    {s : SendState} : G _ (trySend svc a inviter sid p now s) := by
  refine h.skip (l := []) (foot_track foot_orThrow) rfl fun _ =>
    h.skip (l := [.crypto]) (foot_track (foot_core rfl)) rfl fun _ =>
    h.skip (foot_track foot_linkById) rfl fun fresh => ?_
  split
  · exact h.ret _
  · exact h.skip (foot_track foot_attemptUpdate) rfl fun _ =>
      h.skip (l := []) (foot_track foot_checkTransition) rfl fun _ =>
      h.seq (h.track (h.update _ _)) fun _ => h.skip (foot_track foot_appendEvent) rfl fun _ =>
        h.ret _

theorem sendFailed (h : Blocks G) {a : AcceptArgs} {sid : Id} {now : Nat} {s : SendState}
    {e : Err} : G _ (sendFailed svc a sid now s e) := by
  refine h.skip foot_linkById rfl fun fresh => ?_
  split
  · exact h.ret _
  · refine h.seq (h.attempt (h.foot foot_attemptUpdate rfl) fun x => ?_) fun _ =>
      h.skip (l := []) foot_checkTransition rfl fun _ => h.seq (h.update _ _) fun _ =>
      h.skip foot_appendEvent rfl fun _ => h.ret _
    cases x <;> exact h.ret _

theorem sendPhase (h : Blocks G) {a : AcceptArgs} {inviter id key sid : Id} {x : HandshakeData}
    {now : Nat} {s : SendState} : G _ (sendPhase svc a inviter id x key sid now s) :=
  h.skip foot_loadAccountKeys rfl fun _ => h.skip (l := []) foot_orThrow rfl fun _ =>
    h.skip (l := [.newId]) (foot_uuid rfl) rfl fun _ =>
      h.skip (l := [.crypto]) (foot_core rfl) rfl fun _ =>
    h.skip (l := [.set .ackNonce]) (foot_set rfl trivial) rfl fun _ => h.bind h.trySend fun
      | .ok _ => h.ret _
      | .error (_, _) => h.sendFailed

theorem sendIfAsked (h : Blocks G) {a : AcceptArgs} {inviter id key : Id} {x : HandshakeData}
    {now : Nat} {s : SendState} {session : Option (SessionRecord Snap)} :
    G _ (sendIfAsked svc a inviter id x key now s session) := by
  cases session with
  | none => exact h.ret _
  | some r =>
    simp only [RezSdk.L3.sendIfAsked]
    split
    · exact h.sendPhase
    · exact h.ret _

theorem acceptEstablish (h : Blocks G) {a : AcceptArgs} {inviter id link : Id} {now : Nat}
    {existing : Option PeerLinkRecord} {r : PeerLinkRecord} {attempt : HandshakeAttemptRecord} :
    G _ (acceptEstablish svc a inviter id link now existing r attempt) :=
  h.skip foot_appendEvent rfl fun _ => h.skip foot_requireBound rfl fun _ =>
    h.skip (l := [.x3dh]) (foot_core rfl) rfl fun _ => h.skip foot_priorSession rfl fun _ =>
    h.seq (h.untrack h.commitSession) fun _ => h.seq h.sendIfAsked fun _ =>
    h.skip foot_buildSnapshot rfl fun _ => h.ret _

theorem backLink (h : Blocks G) {found : Option InviteRecord} {link : Id} {now : Nat} :
    G _ (backLinkInvite found link now : Sdk Snap _) := by
  cases found with
  | none => exact h.ret _
  | some l =>
    refine h.skip foot_inviteGet rfl fun fresh => ?_
    cases fresh with
    | none => exact h.ret _
    | some f => exact h.seq (h.save _) fun _ => h.ret _

theorem acceptRest (h : Blocks G) {a : AcceptArgs} {inviter link : Id} {now : Nat}
    {found : Option InviteRecord} {existing : Option PeerLinkRecord} {r : PeerLinkRecord}
    {id : Option Id} :
    G _ (do
      storePostCap a.acceptor link a.envelope.postCap
      let attemptId ← stableId "hs"
      let inviteId ← Js.orThrow id (svc.core.requireIdError "inviteId")
      let attempt ← HandshakeAttempts.create (newAttempt a attemptId link inviteId now)
      backLinkInvite found link now
      RezSdk.L3.acceptEstablish svc a inviter inviteId link now existing r attempt :
        Sdk Snap AcceptResult) :=
  h.skip foot_storePostCap rfl fun _ =>
    h.skip (l := [.newId]) (foot_stableId rfl) rfl fun _ =>
      h.skip (l := []) foot_orThrow rfl fun _ =>
    h.skip foot_attemptCreate rfl fun _ => h.seq h.backLink fun _ => h.acceptEstablish

theorem acceptFresh (h : Blocks G) {a : AcceptArgs} {inviter : Id} {now : Nat}
    {existing : Option PeerLinkRecord} : G _ (acceptFresh svc a inviter now existing) := by
  refine h.skip foot_inviteByHash rfl fun found => ?_
  cases existing with
  | some e =>
    exact h.seq (h.ret _) fun _ => h.seq (h.skip (l := []) foot_orThrow rfl fun _ =>
      h.skip (l := []) foot_orThrow rfl fun _ => h.update _ _) fun _ => h.acceptRest
  | none =>
    -- the fields are checked between the draw and the create
    simp only [acceptLinkId, commitAccept]
    cases (Envelope.x3dh a.envelope).bind (·.identitySigningPublicKeyB64) with
    | none => exact h.ask rfl fun _ => h.ret _
    | some key =>
      cases hi : a.envelope.inviteId with
      | none => exact h.ask rfl fun _ => h.ret _
      | some id =>
        refine h.create "pl" _ _ (fun _ => ?_) fun i x => ?_
        · rfl
        · cases x with
          | error e => exact h.ret _
          | ok r => exact h.acceptRest

theorem accept (h : Blocks G) (a : AcceptArgs) : G _ (acceptInvite svc a) := by
  refine h.skip foot_verifyInvite rfl fun v => h.skip foot_getByPair rfl fun existing => ?_
  split
  · exact h.acceptFresh
  · split
    · exact h.acceptFresh
    · exact h.skip foot_appendEvent rfl fun _ => h.skip foot_buildSnapshot rfl fun _ => h.ret _

theorem ack (h : Blocks G) (owner : Id) (b : Bytes) :
    G _ (handleIncomingHandshakeAck svc owner b) := by
  unfold handleIncomingHandshakeAck
  split
  · exact h.ret _
  · refine h.skip foot_getByPair rfl fun found => ?_
    cases found with
    | none => exact h.ret _
    | some link =>
      refine h.skip foot_checkControl rfl fun ok => ?_
      split
      · refine h.skip (l := [.clock]) (foot_clock rfl) rfl fun _ =>
          h.skip foot_sessionByLink rfl fun _ =>
          h.attempt (h.untrack h.commitSession) fun x => ?_
        cases x with
        | ok commit => exact h.ret _
        | error e =>
          refine h.skip foot_getByPair rfl fun fresh => ?_
          cases fresh with
          | none => exact h.ret _
          | some f =>
            dsimp only
            split
            · exact h.skip foot_buildSnapshot rfl fun _ => h.ret _
            · exact h.ret _
      · exact h.ret _

theorem reject (h : Blocks G) (owner : Id) (b : Bytes) :
    G _ (handleHandshakeReject svc owner b) := by
  unfold handleHandshakeReject
  split
  · exact h.ret _
  · refine h.skip foot_getByPair rfl fun found => ?_
    cases found with
    | none => exact h.ret _
    | some link =>
      refine h.skip foot_checkControl rfl fun ok => ?_
      split
      · exact h.skip (l := [.clock]) (foot_clock rfl) rfl fun _ =>
          h.skip foot_sessionByLink rfl fun _ =>
          h.skip foot_dropSession rfl fun _ =>
            h.skip (l := [.delete .postCap]) (foot_delete rfl) rfl fun _ =>
          h.skip foot_listAttempts rfl fun _ => h.skip foot_rejectAttempts rfl fun _ =>
          h.skip (l := []) foot_checkTransition rfl fun _ => h.seq (h.update _ _) fun _ =>
          h.skip foot_appendEvent rfl fun _ => h.skip foot_buildSnapshot rfl fun _ => h.ret _
      · exact h.ret _

/-! ## Reading links -/

theorem expire (h : Blocks G) {r : PeerLinkRecord} :
    G _ (expireHandshakeIfStale r : Sdk Snap _) := by
  unfold expireHandshakeIfStale
  split
  · exact h.ret _
  · refine h.skip (l := [.clock]) (foot_clock rfl) rfl fun _ => ?_
    split
    · exact h.ret _
    · refine h.skip (l := [.clock]) (foot_clock rfl) rfl fun _ =>
        h.attempt (h.seq (h.update _ _) fun _ => h.skip foot_appendEvent rfl fun _ =>
          h.ret _) fun x => ?_
      cases x with
      | ok updated => exact h.ret _
      | error e => exact h.skip foot_linkById rfl fun _ => h.ret _

theorem getLink (h : Blocks G) (owner link : Id) : G _ (getPeerLink owner link : Sdk Snap _) := by
  refine h.skip foot_linkById rfl fun found => ?_
  cases found with
  | none => exact h.ret _
  | some r => exact h.seq h.expire fun _ => h.skip foot_buildSnapshot rfl fun _ => h.ret _

theorem snapshotRows (h : Blocks G) :
    ∀ {rows : List PeerLinkRecord}, G _ (snapshotRows rows : Sdk Snap _)
  | [] => h.ret _
  | _ :: _ => h.seq h.expire fun _ => h.skip foot_buildSnapshot rfl fun _ =>
      h.seq h.snapshotRows fun _ => h.ret _

end Blocks

/-! ## The calls -/

/-- The call is told the id of a link it creates. -/
def namesLink : Call → Bool
  | .upsert _ => true
  | _ => false

theorem blocks_program [DecidableEq Snap] {G : (α : Type) → Proc (sdk Snap) α → Prop} (h : Blocks G)
    (svc : Service Snap) {c : Call} (hc : namesLink c = false) : G _ (program svc c) := by
  cases c with
  | encrypt owner peer m => exact h.seq (h.encrypt owner peer m) fun _ => h.ret _
  | decrypt owner peer b => exact h.seq (h.decrypt owner peer b) fun _ => h.ret _
  | decryptAny owner b =>
    exact h.seq (h.skip (l := []) foot_ensure rfl fun _ => h.skip foot_listLinks rfl fun _ =>
      h.anyPeerLoop)
      fun _ => h.ret _
  | ack owner b => exact h.seq (h.ack owner b) fun _ => h.ret _
  | reject owner b => exact h.seq (h.reject owner b) fun _ => h.ret _
  | accept a => exact h.seq (h.accept a) fun _ => h.ret _
  | handshake owner b => exact h.seq (h.handshake owner b) fun _ => h.ret _
  | join owner id joiner now => exact h.seq h.join fun _ => h.ret _
  | encryptDevice owner peer link device b =>
    exact h.seq (h.skip (l := []) foot_ensure rfl fun _ => h.withLock
      (h.seq (h.skip foot_byDevice rfl fun _ => h.foot (l := []) foot_orThrow rfl) fun _ =>
        h.skip (l := [.codec]) (foot_core rfl) rfl fun _ =>
          h.skip (l := [.clock]) (foot_clock rfl) rfl fun _ =>
        h.seq (h.put _) fun _ => h.ret _)) fun _ => h.ret _
  | decryptDevice owner peer link device b =>
    exact h.seq (h.seq h.attemptDevice fun _ => h.foot (l := []) foot_orThrow rfl) fun _ => h.ret _
  | trialDevices owner peer link b => exact h.seq h.trial fun _ => h.ret _
  | initiateDevice a =>
    exact h.seq (h.skip (l := [.crypto]) (foot_core rfl) rfl fun _ =>
      h.skip (l := [.x3dh]) (foot_core rfl) rfl
      fun _ => h.seq (h.withLock h.persist) fun _ => h.ret _) fun _ => h.ret _
  | respondDevice a =>
    exact h.seq (h.skip (l := [.x3dh]) (foot_core rfl) rfl fun _ =>
      h.skip (l := []) foot_orThrow rfl
      fun _ => h.skip (l := []) foot_ensure rfl fun _ => h.seq (h.withLock h.persist) fun _ =>
        h.ret _)
      fun _ => h.ret _
  | getLink owner link => exact h.seq (h.getLink owner link) fun _ => h.ret _
  | listLinks owner =>
    exact h.seq (h.skip foot_listLinks rfl fun _ => h.seq h.snapshotRows fun _ => h.ret _) fun _ =>
      h.ret _
  | upsert a => cases hc

end RezSdk.L3
