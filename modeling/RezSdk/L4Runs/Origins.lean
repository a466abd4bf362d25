import RezSdk.L3Service.Blocks

/-!
# Where handshakes and invites come from

Of all calls only `acceptInvite` has a handshake envelope signed and stores an
ack nonce, and no call stores an invite that it has not read.
`Apart` is what nearly every helper keeps to: none of these.

* `elsewhere_program`: no call but `acceptInvite` signs a handshake or stores a
  nonce; `elsewhere_send` says so of what `acceptInvite` does after the two.
* `apart_program`: only a handshake, a join and an accept save an invite.
* `untouched_establish`: an accept saves none but when it links it back.
-/
namespace RezSdk.L4.Origins

open RezSdk.L1 RezSdk.L2 RezSdk.L3

variable {Snap : Type}

/-- Neither the signing of a handshake nor the storing of its nonce. -/
def Elsewhere : Op Snap → Prop
  | .core (.signHandshakeEnvelope ..) => False
  | .set (.ackNonce ..) _ => False
  | _ => True

/-- Neither an invite nor its pre-key is written. -/
def Untouched : Op Snap → Prop
  | .set (.invite ..) _ => False
  | .set (.invitePreKey ..) _ => False
  | .delete (.invite ..) => False
  | _ => True

def Apart (o : Op Snap) : Prop := Elsewhere o ∧ Untouched o

section

variable {svc : Service Snap} {α β π : Type} {l : List OpClass} {P : Op Snap → Prop}

/-! ## Combinators -/

theorem all_track {q : π} {p : Sdk Snap α} (hp : Proc.All P p) : Proc.All P (track q p) := by
  refine Proc.all_bind hp fun x => ?_
  cases x <;> trivial

theorem all_locked {k : LockKey} {body : Sdk Snap α} (hP : ∀ o, classOf o = .lock → P o)
    (h : Proc.All P body) : Proc.All P (withLock k body) :=
  ⟨hP _ rfl, fun _ => ⟨hP _ rfl, fun _ => Proc.all_bind h fun _ => ⟨hP _ rfl, fun _ => trivial⟩⟩⟩

theorem elsewhere_class {o : Op Snap}
    (h : (!([.crypto, .set .ackNonce] : List OpClass).contains (classOf o)) = true) :
    Elsewhere o := by
  cases o with
  | core q => cases q <;> trivial
  | set k v => cases k <;> trivial
  | _ => trivial

theorem untouched_class {o : Op Snap}
    (h :
        (!([.set .invite, .set .invitePreKey, .delete .invite] : List OpClass).contains
            (classOf o)) =
          true) : Untouched o := by
  cases o with
  | set k v => cases k <;> trivial
  | delete k => cases k <;> trivial
  | _ => trivial

theorem all_class {ws : List OpClass} {p : Proc (sdk Snap) α}
    (hP : ∀ o : Op Snap, (!ws.contains (classOf o)) = true → P o) (hp : Foot l p)
    (hl : l.all (fun c => !ws.contains c) = true) : p.All P :=
  Proc.All.mono (fun o ho => hP o (List.all_eq_true.mp hl _ (List.contains_iff_mem.mp ho.1))) hp

/-- A helper that signs nothing at all and stores no nonce. -/
theorem elsewhere_foot {p : Proc (sdk Snap) α} (hp : Foot l p)
    (hl : l.all (fun c => !([.crypto, .set .ackNonce] : List OpClass).contains c) = true) :
    p.All Elsewhere :=
  all_class (fun _ => elsewhere_class) hp hl

/-- A helper that writes no invite. -/
theorem untouched_foot {p : Proc (sdk Snap) α} (hp : Foot l p)
    (hl : l.all (fun c =>
            !([.set .invite, .set .invitePreKey, .delete .invite] : List OpClass).contains c) =
        true) : p.All Untouched := all_class (fun _ => untouched_class) hp hl

theorem apart_class {o : Op Snap}
    (h : (!([.crypto, .set .ackNonce, .set .invite, .set .invitePreKey, .delete .invite] :
              List OpClass).contains (classOf o)) =
        true) : Apart o := by
  simp only [List.contains_cons, List.contains_nil, Bool.or_false, Bool.not_or,
    Bool.and_eq_true] at h
  refine ⟨elsewhere_class ?_, untouched_class ?_⟩
  · simp only [List.contains_cons, List.contains_nil, Bool.or_false, Bool.not_or, Bool.and_eq_true]
    exact ⟨h.1, h.2.1⟩
  · simp only [List.contains_cons, List.contains_nil, Bool.or_false, Bool.not_or, Bool.and_eq_true]
    exact h.2.2

theorem apart_foot {p : Proc (sdk Snap) α} (hp : Foot l p)
    (hl : l.all (fun c =>
            !([.crypto, .set .ackNonce, .set .invite, .set .invitePreKey, .delete .invite] :
                  List OpClass).contains c) =
        true) : p.All Apart :=
  all_class (fun _ => apart_class) hp hl

theorem elsewhere {p : Proc (sdk Snap) α} (hp : p.All Apart) : p.All Elsewhere :=
  Proc.All.mono (fun _ ho => ho.1) hp

theorem untouched {p : Proc (sdk Snap) α} (hp : p.All Apart) : p.All Untouched :=
  Proc.All.mono (fun _ ho => ho.2) hp

theorem apart_core {q : CoreCall Snap} (h : Elsewhere (.core q)) : Proc.All Apart (callCore q) :=
  ⟨⟨h, trivial⟩, fun _ => trivial⟩

theorem apart_ensure {c : Bool} {e : Err} : Proc.All Apart (Js.ensure c e : Sdk Snap Unit) :=
  Js.all_ensure _ c e

theorem apart_orThrow {x : Option α} {e : Err} : Proc.All Apart (Js.orThrow x e : Sdk Snap α) :=
  Js.all_orThrow _ x e

theorem apart_locked {k : LockKey} {body : Sdk Snap α} (h : Proc.All Apart body) :
    Proc.All Apart (withLock k body) :=
  all_locked (fun o ho => apart_class (by rw [ho]; rfl)) h

/-- A step that signs and writes none of these, and what comes after it. -/
theorem apart_skip {p : Sdk Snap α} {f : α → Sdk Snap β} (hp : Foot l p)
    (hl : l.all (fun c =>
            !([.crypto, .set .ackNonce, .set .invite, .set .invitePreKey, .delete .invite] :
                  List OpClass).contains c) =
        true) (hf : ∀ x, Proc.All Apart (f x)) :
    Proc.All Apart (p >>= f : Sdk Snap β) := Js.all_bind (apart_foot hp hl) hf

theorem elsewhere_skip {p : Sdk Snap α} {f : α → Sdk Snap β} (hp : Foot l p)
    (hl : l.all (fun c => !([.crypto, .set .ackNonce] : List OpClass).contains c) = true)
    (hf : ∀ x, Proc.All Elsewhere (f x)) : Proc.All Elsewhere (p >>= f : Sdk Snap β) :=
  Js.all_bind (elsewhere_foot hp hl) hf

theorem elsewhere_locked {k : LockKey} {body : Sdk Snap α} (h : Proc.All Elsewhere body) :
    Proc.All Elsewhere (withLock k body) :=
  all_locked (fun o ho => elsewhere_class (by rw [ho]; rfl)) h

/-! ## Account keys and signatures -/

theorem apart_orMigration {p : Sdk Snap α} {reason : String} (hp : Proc.All Apart p) :
    Proc.All Apart (orMigration p reason) := by
  refine Js.all_attempt hp fun x => ?_
  cases x with
  | ok a => trivial
  | error e =>
    dsimp only
    split <;> trivial

theorem apart_validateLegacy {owner : Id} {r : AccountKeyRecord} {dh : KeyPair} {sig : Id} :
    Proc.All Apart (validateLegacyRecord svc owner r dh sig) := by
  refine Js.all_bind apart_orThrow fun _ => Js.all_bind apart_orThrow fun _ =>
    Js.all_bind apart_ensure fun _ => ?_
  refine Js.all_bind apart_orThrow fun _ => Js.all_bind apart_orThrow fun _ =>
    Js.all_bind apart_ensure fun _ => ?_
  refine Js.all_bind apart_ensure fun _ => Js.all_bind apart_orThrow fun _ =>
    Js.all_bind (apart_core trivial) fun _ => ?_
  refine Js.all_bind apart_ensure fun _ => Js.all_bind (apart_core trivial) fun _ =>
    Js.all_bind apart_ensure fun _ => ?_
  refine apart_orMigration (Js.all_bind (apart_core trivial) fun _ =>
    Js.all_bind (apart_core trivial) fun _ => ?_)
  exact Js.all_bind (apart_core trivial) fun _ => apart_ensure

theorem apart_adoptLegacy {owner : Id} {r : AccountKeyRecord} {injected : Option KeyPair} :
    Proc.All Apart (adoptLegacy svc owner r injected) := by
  unfold adoptLegacy
  split
  · split
    · trivial
    · refine Js.all_bind apart_ensure fun _ =>
        Js.all_bind (apart_orMigration apart_validateLegacy) fun _ => ?_
      exact ⟨⟨trivial, trivial⟩, fun _ => trivial⟩
  · trivial

theorem apart_createKeys {owner : Id} {stored : Option StoredAccountKeys} {r : AccountKeyRecord}
    {injected : Option KeyPair} : Proc.All Apart (createKeys svc owner stored r injected) := by
  have hrest : ∀ {k : Key} {v : Val Snap k} {keys : AccountKeys}, Apart (.set k v) →
      Proc.All Apart (kvSet k v >>= fun _ => pure keys : Sdk Snap AccountKeys) :=
        fun h => Js.all_bind ⟨h, fun _ => trivial⟩ fun _ => trivial
  unfold createKeys
  dsimp only
  split
  all_goals
    refine Js.all_bind (by first | trivial | exact apart_core trivial) fun signing => ?_
    split
    all_goals
      refine Js.all_bind (by first | trivial | exact apart_core trivial) fun dh => ?_
      exact Js.all_bind (apart_core trivial) fun sig => hrest ⟨trivial, trivial⟩

theorem apart_loadAccountKeys {owner : Id} : Proc.All Apart (loadAccountKeyRecord svc owner) := by
  refine apart_skip (l := [.get .identity]) (foot_get rfl) rfl fun stored => ?_
  refine apart_skip (l := [.accountDh]) (foot_accountDh rfl) rfl fun injected =>
    Js.all_bind apart_adoptLegacy fun _ => ?_
  refine apart_skip (l := [.accountDh]) (foot_accountDh rfl) rfl fun effective => ?_
  split
  · split
    · exact apart_skip (l := [.set .identity]) (foot_set rfl trivial) rfl fun _ => trivial
    · trivial
  · exact apart_createKeys

theorem apart_requireBound {owner : Id} : Proc.All Apart (requireBoundX3dhIdentity svc owner) := by
  refine Js.all_bind apart_loadAccountKeys fun _ => Js.all_bind apart_loadAccountKeys fun _ => ?_
  refine Js.all_bind apart_orThrow fun _ => Js.all_bind apart_ensure fun _ =>
    Js.all_bind apart_ensure fun _ => ?_
  exact apart_skip (l := [.clock]) (foot_clock rfl) rfl fun _ => Js.all_bind apart_ensure fun _ =>
    trivial

theorem apart_verifyKey {account : Id} {signer : Option Id} {chain : List Bytes} :
    Proc.All Apart (bindingVerifyKey svc account signer chain) := by
  unfold bindingVerifyKey
  split
  · trivial
  · split
    · trivial
    · refine Js.all_bind apart_ensure fun _ =>
        apart_skip (l := [.clock]) (foot_clock rfl) rfl fun _ => ?_
      refine Js.all_bind (apart_core trivial) fun _ => Js.all_bind apart_ensure fun _ => ?_
      exact Js.all_bind apart_ensure fun _ => trivial

theorem apart_verifyBinding {owner : Id} {x : Option X3dhBinding} {chain : List Bytes} :
    Proc.All Apart (verifyInviteX3dhBinding svc owner x chain) := by
  refine Js.all_bind apart_orThrow fun _ => Js.all_bind apart_orThrow fun _ =>
    Js.all_bind apart_orThrow fun _ => ?_
  refine Js.all_bind apart_orThrow fun _ => Js.all_bind apart_orThrow fun _ =>
    Js.all_bind apart_ensure fun _ => ?_
  refine Js.all_bind apart_ensure fun _ => apart_skip (l := [.clock]) (foot_clock rfl) rfl fun _ =>
    ?_
  refine Js.all_bind apart_ensure fun _ => Js.all_bind apart_verifyKey fun _ => ?_
  exact Js.all_bind (apart_core trivial) fun _ => apart_ensure

theorem apart_checkControl {owner : Id} {link : PeerLinkRecord} {key nonce : String}
    {env : SignedEnvelope} :
    Proc.All Apart (checkControl owner link key env nonce : Sdk Snap _) := by
  unfold checkControl
  split
  · refine Js.all_bind (apart_core trivial) fun verified => ?_
    split
    · refine apart_skip (l := [.get .ackNonce]) (foot_get rfl) rfl fun stored => ?_
      split
      · trivial
      · split
        · exact apart_skip (l := [.delete .ackNonce]) (foot_delete rfl) rfl fun _ => trivial
        · trivial
    · trivial
  · trivial

/-! ## The calls -/

theorem apart_authenticate {p : HandshakePacket} : Proc.All Apart (authenticate svc p) := by
  refine Js.all_bind apart_orThrow fun _ => Js.all_bind (apart_core trivial) fun _ =>
    Js.all_bind apart_ensure fun _ => ?_
  refine Js.all_bind apart_orThrow fun _ => Js.all_bind apart_orThrow fun _ =>
    Js.all_bind apart_ensure fun _ => ?_
  exact Js.all_bind apart_orThrow fun _ => Js.all_bind apart_verifyBinding fun _ => trivial

theorem apart_establishLink {owner : Id} {x : Authenticated} {b : Bytes} {exhausted : Bool}
    {name : String} {now : Nat} {existing : Option PeerLinkRecord} :
    Proc.All Apart (establishLink svc owner x b exhausted name now existing) := by
  refine apart_skip foot_responderLink rfl fun _ => Js.all_bind ?_ fun _ =>
    apart_skip foot_sessionByLink rfl fun _ => ?_
  · exact Js.all_bind apart_requireBound fun _ => Js.all_bind (apart_core trivial) fun _ => trivial
  · refine apart_skip (foot_untrack foot_commitSession) rfl fun _ => ?_
    refine apart_skip (l := [.newId]) (foot_stableId rfl) rfl fun _ =>
      apart_skip foot_attemptCreate rfl fun _ => ?_
    split
    · exact apart_skip (l := [.delete .invitePreKey]) (foot_delete rfl) rfl fun _ => trivial
    · trivial

theorem apart_proceed {owner : Id} {x : Authenticated} {exhausted already : Bool} {name : String} :
    Proc.All Apart (proceedHandshake svc owner x exhausted already name) := by
  refine apart_skip (l := [.get .invitePreKey]) (foot_get rfl) rfl fun _ =>
    Js.all_bind apart_orThrow fun _ => ?_
  refine apart_skip (l := [.clock]) (foot_clock rfl) rfl fun _ =>
    apart_skip foot_getByPair rfl fun existing => ?_
  split
  · split
    · exact apart_skip foot_buildSnapshot rfl fun _ => trivial
    · exact apart_establishLink
  · exact apart_establishLink

theorem elsewhere_inviteSave {r : InviteRecord} :
    Proc.All Elsewhere (Invites.save r : Sdk Snap _) :=
  elsewhere_foot foot_inviteSave rfl

theorem elsewhere_verdict {owner id peer : Id} {record : Option InviteRecord} :
    Proc.All Elsewhere (inviteVerdict owner id peer record : Sdk Snap _) := by
  cases record with
  | none => trivial
  | some _ =>
    refine elsewhere_locked (elsewhere_skip foot_inviteGet rfl fun found => ?_)
    cases found with
    | none => trivial
    | some fresh =>
      refine elsewhere_skip (l := [.clock]) (foot_clock rfl) rfl fun now => ?_
      split
      · trivial
      · split
        · trivial
        · split
          · trivial
          · exact Js.all_bind elsewhere_inviteSave fun _ => trivial

theorem elsewhere_handshake {owner : Id} {b : Bytes} :
    Proc.All Elsewhere (handleIncomingHandshakePacket svc owner b) := by
  refine Js.all_bind (elsewhere apart_ensure) fun _ => ?_
  split
  · trivial
  · trivial
  · refine Js.all_bind (elsewhere apart_authenticate) fun x =>
      elsewhere_skip foot_inviteGet rfl fun record => ?_
    refine Js.all_bind elsewhere_verdict fun verdict => ?_
    cases verdict with
    | reject _ => trivial
    | proceed exhausted already => exact elsewhere apart_proceed

theorem apart_commitAck {owner : Id} {ack : HandshakeAck} {link : PeerLinkRecord} :
    Proc.All Apart (commitAck svc owner ack link) := by
  refine apart_skip (l := [.clock]) (foot_clock rfl) rfl fun _ =>
    apart_skip foot_sessionByLink rfl fun _ => ?_
  refine Js.all_attempt (apart_foot (foot_untrack foot_commitSession) rfl) fun x => ?_
  cases x with
  | ok commit => trivial
  | error e =>
    refine apart_skip foot_getByPair rfl fun fresh => ?_
    cases fresh with
    | none => trivial
    | some f =>
      dsimp only
      split
      · exact apart_skip foot_buildSnapshot rfl fun _ => trivial
      · trivial

theorem apart_ack {owner : Id} {b : Bytes} :
    Proc.All Apart (handleIncomingHandshakeAck svc owner b) := by
  unfold handleIncomingHandshakeAck
  split
  · trivial
  · refine apart_skip foot_getByPair rfl fun found => ?_
    cases found with
    | none => trivial
    | some link =>
      refine Js.all_bind apart_checkControl fun ok => ?_
      split
      · exact apart_commitAck
      · trivial

theorem apart_rollBack {owner : Id} {reject : HandshakeReject} {link : PeerLinkRecord} :
    Proc.All Apart (rollBack svc owner reject link) := by
  refine apart_skip (l := [.clock]) (foot_clock rfl) rfl fun _ =>
    apart_skip foot_sessionByLink rfl fun _ => ?_
  refine apart_skip foot_dropSession rfl fun _ =>
    apart_skip (l := [.delete .postCap]) (foot_delete rfl) rfl fun _ => ?_
  refine apart_skip foot_listAttempts rfl fun _ => apart_skip foot_rejectAttempts rfl fun _ => ?_
  refine apart_skip (l := []) foot_checkTransition rfl fun _ =>
    apart_skip foot_linkUpdate rfl fun _ => ?_
  exact apart_skip foot_appendEvent rfl fun _ => apart_skip foot_buildSnapshot rfl fun _ => trivial

theorem apart_reject {owner : Id} {b : Bytes} :
    Proc.All Apart (handleHandshakeReject svc owner b) := by
  unfold handleHandshakeReject
  split
  · trivial
  · refine apart_skip foot_getByPair rfl fun found => ?_
    cases found with
    | none => trivial
    | some link =>
      refine Js.all_bind apart_checkControl fun ok => ?_
      split
      · exact apart_rollBack
      · trivial

theorem apart_trySend {a : AcceptArgs} {inviter sid : Id} {p : HandshakePacket} {now : Nat}
    {s : SendState} : Proc.All Apart (trySend svc a inviter sid p now s) := by
  refine Js.all_bind (all_track apart_orThrow) fun _ =>
    Js.all_bind (all_track (apart_core trivial)) fun _ => ?_
  refine Js.all_bind (all_track (apart_foot foot_linkById rfl)) fun fresh => ?_
  split
  · trivial
  · refine Js.all_bind (all_track (apart_foot foot_attemptUpdate rfl)) fun _ => ?_
    refine Js.all_bind (all_track (apart_foot (l := []) foot_checkTransition rfl)) fun _ => ?_
    refine Js.all_bind (all_track (apart_foot foot_linkUpdate rfl)) fun _ => ?_
    exact Js.all_bind (all_track (apart_foot foot_appendEvent rfl)) fun _ => trivial

theorem apart_sendFailed {a : AcceptArgs} {sid : Id} {now : Nat} {s : SendState} {e : Err} :
    Proc.All Apart (sendFailed svc a sid now s e) := by
  refine apart_skip foot_linkById rfl fun fresh => ?_
  split
  · trivial
  · refine Js.all_bind (Js.all_attempt (apart_foot foot_attemptUpdate rfl) fun x => ?_) fun _ => ?_
    · cases x <;> trivial
    · refine apart_skip (l := []) foot_checkTransition rfl fun _ =>
        apart_skip foot_linkUpdate rfl fun _ => ?_
      exact apart_skip foot_appendEvent rfl fun _ => trivial

/-- What is sent once the nonce is stored. -/
theorem apart_send {a : AcceptArgs} {inviter sid : Id} {p : HandshakePacket} {now : Nat}
    {s : SendState} :
    Proc.All Apart (Proc.bind (trySend svc a inviter sid p now s) fun
      | .ok s => .ret (.ok s)
      | .error (s, e) => sendFailed svc a sid now s e) := by
  refine Proc.all_bind apart_trySend fun x => ?_
  rcases x with ⟨s, e⟩ | s
  · exact apart_sendFailed
  · trivial

theorem apart_verifyInvite {a : AcceptArgs} : Proc.All Apart (verifyInvite svc a) := by
  have hrest : ∀ {verified : Bool} {inviter : Id} {now : Nat}, Proc.All Apart (do
      Js.ensure verified (signatureInvalid "peer-link invite signature invalid")
      Js.ensure (now < asPositiveInt a.envelope.expiresAtMs now)
        (.coded "INVITE_EXPIRED" "peer-link invite expired")
      verifyInviteX3dhBinding svc inviter (Envelope.x3dh a.envelope) a.envelope.certChain
      return (inviter, now) : Sdk Snap (Id × Nat)) := by
    intro verified inviter now
    refine Js.all_bind apart_ensure fun _ => Js.all_bind apart_ensure fun _ => ?_
    exact Js.all_bind apart_verifyBinding fun _ => trivial
  refine Js.all_bind apart_ensure fun _ => Js.all_bind apart_ensure fun _ =>
    Js.all_bind apart_orThrow fun inviter => ?_
  refine apart_skip (l := [.clock]) (foot_clock rfl) rfl fun now => ?_
  dsimp only
  split
  · exact Js.all_bind (apart_core trivial) fun _ => hrest
  · refine Js.all_bind ?_ fun _ => hrest
    unfold verifyDelegated
    split
    · split
      · refine Js.all_bind (Js.all_attempt (apart_core trivial) fun x => ?_) fun signed => ?_
        · cases x <;> trivial
        · split
          · exact Js.all_bind (apart_core trivial) fun _ => trivial
          · trivial
      · trivial
    · trivial

theorem elsewhere_backLink {found : Option InviteRecord} {link : Id} {now : Nat} :
    Proc.All Elsewhere (backLinkInvite found link now : Sdk Snap _) := by
  cases found with
  | none => trivial
  | some l =>
    refine elsewhere_skip foot_inviteGet rfl fun fresh => ?_
    cases fresh with
    | none => trivial
    | some f => exact Js.all_bind elsewhere_inviteSave fun _ => trivial

/-! ### An accept writes no invite, but links one back -/

theorem untouched_core {q : CoreCall Snap} : Proc.All Untouched (callCore q) :=
  ⟨trivial, fun _ => trivial⟩

theorem untouched_send {a : AcceptArgs} {inviter inviteId sid signingKey : Id}
    {x3dh : HandshakeData} {now : Nat} {s : SendState} :
    Proc.All Untouched (sendPhase svc a inviter inviteId x3dh signingKey sid now s) := by
  refine Js.all_bind (untouched apart_loadAccountKeys) fun keys =>
    Js.all_bind (untouched apart_orThrow) fun binding => ?_
  refine Js.all_bind (untouched_foot (l := [.newId]) (foot_uuid rfl) rfl) fun nonce =>
    Js.all_bind untouched_core fun sig => ?_
  exact Js.all_bind (untouched_foot (l := [.set .ackNonce]) (foot_set rfl trivial) rfl) fun _ =>
    untouched apart_send

theorem untouched_establish {a : AcceptArgs} {inviter inviteId link : Id} {now : Nat}
    {existing : Option PeerLinkRecord} {r : PeerLinkRecord} {attempt : HandshakeAttemptRecord} :
    Proc.All Untouched (acceptEstablish svc a inviter inviteId link now existing r attempt) := by
  refine Js.all_bind (untouched_foot foot_appendEvent rfl) fun _ =>
    Js.all_bind (untouched apart_requireBound) fun identity => ?_
  refine Js.all_bind untouched_core fun x =>
    Js.all_bind (untouched_foot foot_priorSession rfl) fun _ => ?_
  refine Js.all_bind (untouched_foot (foot_untrack foot_commitSession) rfl) fun commit =>
    Js.all_bind ?_ fun _ => ?_
  · unfold sendIfAsked
    split
    · split
      · exact untouched_send
      · trivial
    · trivial
  · exact Js.all_bind (untouched_foot foot_buildSnapshot rfl) fun _ => trivial

/-! ### Messages and device sessions -/

theorem apart_put {r : SessionRecord Snap} : Proc.All Apart (Sessions.put r) :=
  apart_foot foot_put rfl

theorem apart_tryDecrypt {record : SessionRecord Snap} {expected : Id} {b : Bytes} :
    Proc.All Apart (tryDecrypt record expected b) := by
  refine Js.all_bind apart_ensure fun _ => apart_skip (l := [.codec]) (foot_core rfl) rfl fun out =>
    ?_
  dsimp only
  split
  · exact apart_skip (l := [.clock]) (foot_clock rfl) rfl fun _ => Js.all_bind apart_put fun _ =>
      trivial
  · trivial

theorem apart_attemptDevice {owner link device : Id} {peer : Option Id} {b : Bytes}
    {require : Bool} :
    Proc.All Apart (attemptDeviceDecrypt owner peer link device b require : Sdk Snap _) := by
  refine apart_locked (apart_skip foot_byDevice rfl fun found => ?_)
  cases found with
  | none => cases require <;> trivial
  | some record => exact Js.all_bind apart_tryDecrypt fun _ => trivial

theorem apart_trialLoop {owner link : Id} {peer : Option Id} {b : Bytes} :
    ∀ {rows : List (SessionRecord Snap)}, Proc.All Apart (trialLoop owner peer link b rows)
  | [] => trivial
  | record :: rest => by
    unfold trialLoop
    split
    · exact apart_trialLoop
    · refine Js.all_bind apart_attemptDevice fun result => ?_
      cases result with
      | none => exact apart_trialLoop
      | some _ => trivial

theorem apart_trial {owner link : Id} {peer : Option Id} {b : Bytes} :
    Proc.All Apart (trialDecryptAcrossDevices svc owner peer link b) :=
  apart_skip foot_listSessions rfl fun _ => apart_trialLoop

theorem apart_persist {k : LockKey} {owner peer link device : Id} {snapshot : Snap} :
    Proc.All Apart (withLock k (persistDeviceSession owner peer link device snapshot)) :=
  apart_locked (apart_foot foot_persist rfl)

theorem apart_expire {r : PeerLinkRecord} :
    Proc.All Apart (expireHandshakeIfStale r : Sdk Snap _) := by
  unfold expireHandshakeIfStale
  split
  · trivial
  · refine apart_skip (l := [.clock]) (foot_clock rfl) rfl fun _ => ?_
    split
    · trivial
    · refine apart_skip (l := [.clock]) (foot_clock rfl) rfl fun _ => Js.all_attempt ?_ fun x => ?_
      · exact apart_skip foot_linkUpdate rfl fun _ => apart_skip foot_appendEvent rfl fun _ =>
          trivial
      · cases x with
        | ok updated => trivial
        | error e => exact apart_skip foot_linkById rfl fun _ => trivial

theorem apart_snapshotRows :
    ∀ {rows : List PeerLinkRecord}, Proc.All Apart (snapshotRows rows : Sdk Snap _)
  | [] => trivial
  | _ :: _ => Js.all_bind apart_expire fun _ => apart_skip foot_buildSnapshot rfl fun _ =>
      Js.all_bind apart_snapshotRows fun _ => trivial

variable [DecidableEq Snap]

theorem apart_recoverLink {a : CommitArgs Snap} {p : Progress Snap} {e : Err} :
    ∀ fresh, Proc.All Apart (recoverLink svc a p e fresh)
  | none => apart_foot foot_keepPlaintext rfl
  | some f => by
    by_cases hest : f.state = .sessionEstablished
    · simp only [recoverLink, hest]
      exact apart_foot foot_keepPlaintext rfl
    · simp only [recoverLink, hest]
      refine Proc.all_bind (apart_foot foot_commitSession rfl) fun x => ?_
      rcases x with ⟨rp, e⟩ | r
      · exact apart_foot foot_recoverRetry rfl
      · trivial

theorem apart_commitAfterDecrypt {a : CommitArgs Snap} :
    Proc.All Apart (commitSessionAfterDecrypt svc a) := by
  refine Proc.all_bind (apart_foot foot_commitSession rfl) fun x => ?_
  rcases x with ⟨p, e⟩ | r
  · refine apart_skip foot_confirm rfl fun _ => Js.all_bind apart_ensure fun _ => ?_
    exact apart_skip foot_linkById rfl apart_recoverLink
  · trivial

theorem apart_commitDecrypt {owner peer : Id} {link : PeerLinkRecord} {record : SessionRecord Snap}
    {opened : Opened} {s : Snap} :
    Proc.All Apart (commitDecrypt svc owner peer link record opened s) := by
  unfold commitDecrypt
  split
  · exact apart_skip (l := [.clock]) (foot_clock rfl) rfl fun _ =>
      Js.all_bind apart_commitAfterDecrypt fun _ => trivial
  · exact apart_skip (l := [.clock]) (foot_clock rfl) rfl fun _ => Js.all_bind apart_put fun _ =>
      apart_skip foot_buildSnapshot rfl fun _ => trivial

theorem apart_decrypt {owner peer : Id} {b : Bytes} :
    Proc.All Apart (decryptDirectMessage svc owner peer b) := by
  refine Js.all_bind apart_ensure fun _ => apart_skip foot_getByPair rfl fun _ =>
    Js.all_bind apart_orThrow fun _ => ?_
  refine apart_skip foot_sessionByLink rfl fun _ => Js.all_bind apart_orThrow fun _ =>
    Js.all_bind apart_ensure fun _ => ?_
  refine apart_skip (l := [.codec]) (foot_core rfl) rfl fun out => Js.all_bind apart_ensure fun _ =>
    ?_
  split
  · exact apart_skip (l := [.count]) (foot_countFailure rfl) rfl fun _ => trivial
  · exact apart_skip (l := [.count]) (foot_clearCounts rfl) rfl fun _ => apart_commitDecrypt

theorem apart_tryLegacy {owner : Id} {b : Bytes} {row : PeerLinkRecord} :
    Proc.All Apart (tryLegacy svc owner b row) := by
  refine apart_skip foot_sessionByLink rfl fun session => ?_
  cases session with
  | none => trivial
  | some record =>
    dsimp only
    split
    · trivial
    · refine apart_skip (l := [.codec]) (foot_core rfl) rfl fun out => ?_
      split
      · trivial
      · refine apart_skip (l := [.count]) (foot_clearCounts rfl) rfl fun _ => ?_
        refine apart_skip (l := [.clock]) (foot_clock rfl) rfl fun _ => ?_
        refine apart_skip (l := [.count]) (foot_markSuccess rfl) rfl fun _ => ?_
        exact Js.all_bind apart_commitDecrypt fun _ => trivial

theorem apart_tryRow {owner : Id} {b : Bytes} {row : PeerLinkRecord} :
    Proc.All Apart (tryRow svc owner b row) := by
  unfold tryRow
  split
  · refine Js.all_bind apart_trial fun hit => ?_
    cases hit with
    | none => exact apart_tryLegacy
    | some x =>
      refine apart_skip (l := [.count]) (foot_clearCounts rfl) rfl fun _ => ?_
      refine apart_skip (l := [.clock]) (foot_clock rfl) rfl fun _ => ?_
      refine apart_skip (l := [.count]) (foot_markSuccess rfl) rfl fun _ => ?_
      exact apart_skip foot_buildSnapshot rfl fun _ => trivial
  · exact apart_tryLegacy

theorem apart_anyPeerLoop {owner : Id} {b : Bytes} :
    ∀ {rows candidates : List PeerLinkRecord},
      Proc.All Apart (anyPeerLoop svc owner b rows candidates)
  | [], _ =>
    apart_skip (l := [.clock]) (foot_clock rfl) rfl fun _ =>
      apart_skip foot_recoveryCandidates rfl fun _ => trivial
  | _ :: _, _ => Js.all_bind apart_tryRow fun outcome => by
    cases outcome with
    | hit r => trivial
    | skip => exact apart_anyPeerLoop
    | miss => exact apart_anyPeerLoop

/-! ### Whole calls -/

def isAccept : Call → Bool
  | .accept _ => true
  | _ => false

/-- The calls that save an invite. -/
def savesInvite : Call → Bool
  | .accept _ => true
  | .handshake .. => true
  | .join .. => true
  | _ => false

theorem apart_program {c : Call} (hc : savesInvite c = false) : Proc.All Apart (program svc c) := by
  have hreply : ∀ {γ : Type} {p : Sdk Snap γ} {f : γ → Reply}, Proc.All Apart p →
      Proc.All Apart (p >>= fun x => pure (f x) : Sdk Snap Reply) :=
        fun h => Js.all_bind h fun _ => trivial
  cases c with
  | accept _ => cases hc
  | handshake _ _ => cases hc
  | join _ _ _ _ => cases hc
  | encrypt owner peer m =>
    refine hreply (Js.all_bind apart_ensure fun _ => apart_skip foot_getByPair rfl fun _ => ?_)
    refine Js.all_bind apart_orThrow fun _ => apart_skip foot_sessionByLink rfl fun _ => ?_
    refine Js.all_bind apart_orThrow fun _ => Js.all_bind apart_ensure fun _ => ?_
    refine apart_skip (l := [.codec]) (foot_core rfl) rfl fun _ =>
      apart_skip (l := [.clock]) (foot_clock rfl) rfl fun _ => ?_
    exact Js.all_bind apart_put fun _ => trivial
  | decrypt owner peer b => exact hreply apart_decrypt
  | decryptAny owner b =>
    exact hreply (Js.all_bind apart_ensure fun _ => apart_skip foot_listLinks rfl fun _ =>
      apart_anyPeerLoop)
  | ack owner b => exact hreply apart_ack
  | reject owner b => exact hreply apart_reject
  | encryptDevice owner peer link device b =>
    refine hreply (Js.all_bind apart_ensure fun _ => apart_locked (Js.all_bind ?_ fun _ => ?_))
    · exact apart_skip foot_byDevice rfl fun _ => apart_orThrow
    · refine apart_skip (l := [.codec]) (foot_core rfl) rfl fun _ =>
        apart_skip (l := [.clock]) (foot_clock rfl) rfl fun _ => ?_
      exact Js.all_bind apart_put fun _ => trivial
  | decryptDevice owner peer link device b =>
    exact hreply (Js.all_bind apart_attemptDevice fun _ => apart_orThrow)
  | trialDevices owner peer link b => exact hreply apart_trial
  | initiateDevice a =>
    refine hreply (Js.all_bind (apart_core trivial) fun _ =>
      Js.all_bind (apart_core trivial) fun _ => ?_)
    exact Js.all_bind apart_persist fun _ => trivial
  | respondDevice a =>
    refine hreply (Js.all_bind (apart_core trivial) fun _ => Js.all_bind apart_orThrow fun _ => ?_)
    exact Js.all_bind apart_ensure fun _ => Js.all_bind apart_persist fun _ => trivial
  | upsert a =>
    refine hreply (Js.all_bind apart_orThrow fun _ => Js.all_bind apart_orThrow fun _ =>
      Js.all_bind apart_orThrow fun _ => ?_)
    refine Js.all_bind apart_orThrow fun _ => apart_skip foot_getByPair rfl fun existing => ?_
    cases existing with
    | some e => trivial
    | none =>
      exact apart_skip (l := [.clock]) (foot_clock rfl) rfl fun _ => apart_foot foot_linkCreate rfl
  | getLink owner link =>
    refine hreply (apart_skip foot_linkById rfl fun found => ?_)
    cases found with
    | none => trivial
    | some r =>
      exact Js.all_bind apart_expire fun _ => apart_skip foot_buildSnapshot rfl fun _ => trivial
  | listLinks owner =>
    exact hreply (apart_skip foot_listLinks rfl fun _ => Js.all_bind apart_snapshotRows fun _ =>
      trivial)

theorem elsewhere_program {c : Call} (hc : isAccept c = false) :
    Proc.All Elsewhere (program svc c) := by
  cases c with
  | accept _ => cases hc
  | handshake owner b => exact Js.all_bind elsewhere_handshake fun _ => trivial
  | join owner id joiner now =>
    refine Js.all_bind (elsewhere_locked (elsewhere_skip foot_inviteGet rfl fun found => ?_))
      fun _ => trivial
    cases found with
    | none => trivial
    | some fresh =>
      dsimp only
      split
      · trivial
      · split
        · trivial
        · split
          · trivial
          · split
            · trivial
            · exact Js.all_bind elsewhere_inviteSave fun _ => trivial
  | _ => exact elsewhere (apart_program rfl)

end
end RezSdk.L4.Origins
