import RezSdk.L3Service.Footprints

/-!
# Which calls can refuse a transition

`PEER_LINK_ILLEGAL_TRANSITION` is thrown by `checkPeerLinkTransition` alone.
For every function without such a check, and for those whose check cannot
fail, `legal_` lemmas say that none of its errors has that code: a storage
failure has no code, and @rezprotocol/core knows no transitions
(`NoRefusals`).
-/
namespace RezSdk.L3

open RezSdk.L1 RezSdk.L2

variable {Snap α β π : Type}

def Legal (e : Err) : Prop := e.code ≠ some "PEER_LINK_ILLEGAL_TRANSITION"

/-- A storage error is a fault, and a core call is answered by the core. -/
def Answered (core : Core Snap) : Proc.Exch (sdk Snap) → Prop
  | ⟨.get _, .error e⟩ => ∃ f, e = .fault f
  | ⟨.set _ _, .error e⟩ => ∃ f, e = .fault f
  | ⟨.delete _, .error e⟩ => ∃ f, e = .fault f
  | ⟨.keys _, .error e⟩ => ∃ f, e = .fault f
  | ⟨.core q, r⟩ => ∃ n, r = core.answer q n
  | _ => True

/-- No error of the core is a refused transition. -/
structure NoRefusals (core : Core Snap) : Prop where
  answer : ∀ q n e, core.answer q n = .error e → Legal e
  parse : ∀ b e, core.parsePacket b = .error e → Legal e
  requireId : ∀ label, Legal (core.requireIdError label)
  base64 : Legal core.base64Error

theorem act_answered {core : Core Snap} {t : Nat} {m m' : Mem Snap} {o : Op Snap} {f : Fate}
    {r : o.Ans} (ha : act core t m o f = some (r, m')) : Answered core ⟨o, r⟩ := by
  cases o with
  | core q => exact act_core ha
  | get k =>
    cases f <;> cases ha
    · trivial
    · exact ⟨_, rfl⟩
  | set k v =>
    cases f <;> cases ha
    · trivial
    · exact ⟨_, rfl⟩
    · exact ⟨_, rfl⟩
  | delete k =>
    cases f <;> cases ha
    · trivial
    · exact ⟨_, rfl⟩
    · exact ⟨_, rfl⟩
  | keys p =>
    cases f <;> cases ha
    · trivial
    · exact ⟨_, rfl⟩
  | _ => trivial

theorem legal_fault (f : Fault) : Legal (.fault f) := nofun

theorem legal_message (s : String) : Legal { message := s } := nofun

theorem legal_coded {code message : String} (h : code ≠ "PEER_LINK_ILLEGAL_TRANSITION") :
    Legal (.coded code message) := fun heq => h (Option.some.inj heq)

/-- True of the errors that are a message and nothing else: those of the
storage, and those of its checks. -/
structure Tame (P : Err → Prop) : Prop where
  fault : ∀ f, P (.fault f)
  message : ∀ s, P { message := s }

theorem tame_legal : Tame Legal := ⟨legal_fault, legal_message⟩

section

variable {core : Core Snap} {P : Err → Prop}

/-- None of its errors is a refused transition. -/
abbrev Lawfully (core : Core Snap) (p : Sdk Snap α) : Prop := Js.Throws (Answered core) Legal p

theorem tame_get (h : Tame P) {k : Key} : Js.Throws (Answered core) P (kvGet k) := by
  intro r hr e he
  subst he
  obtain ⟨f, rfl⟩ := hr
  exact h.fault f

theorem tame_set (h : Tame P) {k : Key} {v : Val Snap k} :
    Js.Throws (Answered core) P (kvSet k v) := by
  intro r hr e he
  subst he
  obtain ⟨f, rfl⟩ := hr
  exact h.fault f

theorem legal_get {k : Key} : Lawfully core (kvGet k) := tame_get tame_legal

theorem legal_set {k : Key} {v : Val Snap k} : Lawfully core (kvSet k v) := tame_set tame_legal

theorem legal_delete {k : Key} : Lawfully core (kvDelete k) := by
  intro r hr e he
  subst he
  obtain ⟨f, rfl⟩ := hr
  exact legal_fault f

theorem legal_keys {p : Prefix} : Lawfully core (kvKeys p) := by
  intro r hr e he
  subst he
  obtain ⟨f, rfl⟩ := hr
  exact legal_fault f

theorem legal_core (hc : NoRefusals core) {q : CoreCall Snap} : Lawfully core (callCore q) := by
  intro r hr e he
  obtain ⟨n, hn⟩ := hr
  exact hc.answer q n e (hn.symm.trans he)

/-- An operation that cannot fail. -/
theorem throws_total {o : Op Snap} {f : o.Ans → α} :
    Js.Throws (Answered core) P (.ask o fun r => .ret (.ok (f r))) :=
  fun _ _ _ h => by cases h

theorem legal_total {o : Op Snap} {f : o.Ans → α} :
    Lawfully core (.ask o fun r => .ret (.ok (f r))) := throws_total

theorem legal_withLock {k : LockKey} {body : Sdk Snap α} (h : Lawfully core body) :
    Lawfully core (withLock k body) :=
  fun _ _ _ _ => Js.throws_proc_bind h fun _ hx _ _ e he => hx e he

/-! ## The stores -/

theorem legal_getByPair {owner peer : Id} : Lawfully core (PeerLinks.getByPair owner peer) := by
  refine Js.throws_bind legal_get fun link => ?_
  cases link with
  | none => exact Js.throws_pure
  | some l => exact legal_get

theorem legal_create {r : PeerLinkRecord} : Lawfully core (PeerLinks.create r) := by
  refine Js.throws_bind legal_get fun _ =>
    Js.throws_bind (Js.throws_ensure (legal_message _)) fun _ => ?_
  refine Js.throws_bind legal_get fun _ =>
    Js.throws_bind (Js.throws_ensure (legal_message _)) fun _ => ?_
  exact Js.throws_bind legal_set fun _ => Js.throws_bind legal_set fun _ => Js.throws_pure

theorem tame_update (h : Tame P) {r : PeerLinkRecord} {v : Nat} :
    Js.Throws (Answered core) P (PeerLinks.update r v) := by
  refine Js.throws_bind (tame_get h) fun _ =>
    Js.throws_bind (Js.throws_orThrow (h.message _)) fun _ => ?_
  refine Js.throws_bind (Js.throws_ensure (h.message _)) fun _ => ?_
  refine Js.throws_bind (Js.throws_ensure (h.message _)) fun _ => ?_
  refine Js.throws_bind (Js.throws_ensure (h.message _)) fun _ => ?_
  refine Js.throws_bind (Js.throws_ensure (h.message _)) fun _ => ?_
  exact Js.throws_bind (tame_set h) fun _ => Js.throws_bind (tame_set h) fun _ => Js.throws_pure

theorem legal_update {r : PeerLinkRecord} {v : Nat} : Lawfully core (PeerLinks.update r v) :=
  tame_update tame_legal

theorem legal_scan {pick : (k : Key) → Val Snap k → Option α} :
    ∀ {ks : List Key}, Lawfully core (scan pick ks)
  | [] => Js.throws_pure
  | _ :: _ => Js.throws_bind legal_get fun _ => Js.throws_bind legal_scan fun _ => Js.throws_pure

theorem legal_listLinks {owner : Id} : Lawfully core (PeerLinks.listByOwner core owner) :=
  Js.throws_bind legal_keys fun _ => Js.throws_bind legal_scan fun _ => Js.throws_pure

theorem legal_listSessions {owner link : Id} :
    Lawfully core (Sessions.listByPeerLink core owner link) :=
  Js.throws_bind legal_keys fun _ => Js.throws_bind legal_scan fun _ => Js.throws_pure

theorem legal_listAttempts {owner link : Id} :
    Lawfully core (HandshakeAttempts.listByPeerLinkId core owner link) :=
  Js.throws_bind legal_keys fun _ => Js.throws_bind legal_scan fun _ => Js.throws_pure

theorem tame_sessionByLink (h : Tame P) {owner link : Id} :
    Js.Throws (Answered core) P (Sessions.getByPeerLinkId owner link) := by
  refine Js.throws_bind (tame_get h) fun sid => ?_
  cases sid with
  | none => exact Js.throws_pure
  | some i => exact tame_get h

theorem legal_sessionByLink {owner link : Id} :
    Lawfully core (Sessions.getByPeerLinkId owner link) :=
  tame_sessionByLink tame_legal

theorem legal_byDevice {owner link device : Id} :
    Lawfully core (Sessions.getByPeerLinkAndDevice owner link device) := by
  refine Js.throws_bind legal_get fun sid => ?_
  cases sid with
  | none => exact Js.throws_pure
  | some i => exact legal_get

theorem tame_put (h : Tame P) {r : SessionRecord Snap} :
    Js.Throws (Answered core) P (Sessions.put r) := by
  refine Js.throws_bind (tame_get h) fun _ => Js.throws_bind (tame_set h) fun _ =>
    Js.throws_bind ?_ fun _ =>
    Js.throws_pure
  unfold Sessions.setIndex
  split <;> exact tame_set h

theorem legal_put {r : SessionRecord Snap} : Lawfully core (Sessions.put r) := tame_put tame_legal

theorem legal_dropIndex {r : SessionRecord Snap} {owner sid : Id} :
    Lawfully core (Sessions.dropIndex r owner sid) := by
  unfold Sessions.dropIndex
  split
  all_goals
    refine Js.throws_bind legal_get fun _ => ?_
    split
    · exact Js.throws_bind legal_delete fun _ => Js.throws_pure
    · exact Js.throws_pure

theorem legal_sessionDelete {owner sid : Id} : Lawfully core (Sessions.delete owner sid) := by
  refine Js.throws_bind legal_get fun _ => Js.throws_bind legal_delete fun _ => ?_
  split
  · exact Js.throws_pure
  · exact Js.throws_pure
  · exact Js.throws_bind legal_dropIndex fun _ => Js.throws_pure

theorem legal_attemptCreate {r : HandshakeAttemptRecord} :
    Lawfully core (HandshakeAttempts.create r) :=
  Js.throws_bind legal_get fun _ => Js.throws_bind (Js.throws_ensure (legal_message _)) fun _ =>
    Js.throws_bind legal_set fun _ => Js.throws_pure

theorem legal_attemptUpdate {r : HandshakeAttemptRecord} {v : Nat} :
    Lawfully core (HandshakeAttempts.update r v) :=
  Js.throws_bind legal_get fun _ => Js.throws_bind (Js.throws_orThrow (legal_message _)) fun _ =>
    Js.throws_bind (Js.throws_ensure (legal_message _)) fun _ =>
    Js.throws_bind (Js.throws_ensure (legal_message _)) fun _ => Js.throws_bind legal_set fun _ =>
      Js.throws_pure

theorem tame_readAll (h : Tame P) {owner : Id} :
    ∀ {ids : List Id}, Js.Throws (Answered core) P (Events.readAll owner ids)
  | [] => Js.throws_pure
  | _ :: _ =>
    Js.throws_bind (tame_get h) fun _ => Js.throws_bind (tame_readAll h) fun _ => Js.throws_pure

theorem tame_append (h : Tame P) {ev : EventRecord} :
    Js.Throws (Answered core) P (Events.append ev) := by
  refine Js.throws_bind (tame_get h) fun existing => ?_
  cases existing with
  | some e => exact Js.throws_bind (Js.throws_ensure (h.message _)) fun _ => Js.throws_pure
  | none =>
    exact Js.throws_bind (tame_set h) fun _ => Js.throws_bind (tame_get h) fun _ =>
      Js.throws_bind (tame_set h) fun _ => Js.throws_pure

theorem legal_inviteSave {r : InviteRecord} : Lawfully core (Invites.save r) :=
  Js.throws_bind legal_set fun _ => Js.throws_bind legal_set fun _ => Js.throws_pure

theorem legal_inviteGet {owner id : Id} : Lawfully core (Invites.get owner id) :=
  Js.throws_bind legal_get fun _ => Js.throws_pure

theorem legal_inviteByHash {owner hash : Id} : Lawfully core (Invites.getByHash owner hash) := by
  refine Js.throws_bind legal_get fun id => ?_
  cases id with
  | none => exact Js.throws_pure
  | some i => exact legal_inviteGet

/-! ## The service's helpers -/

theorem tame_buildSnapshot (h : Tame P) {r : PeerLinkRecord} :
    Js.Throws (Answered core) P (buildSnapshot r) :=
  Js.throws_bind (tame_sessionByLink h) fun _ => Js.throws_bind
    (Js.throws_bind (tame_get h) fun _ => Js.throws_bind (tame_readAll h) fun _ =>
    Js.throws_pure) fun _ => Js.throws_pure

theorem legal_buildSnapshot {r : PeerLinkRecord} : Lawfully core (buildSnapshot r) :=
  tame_buildSnapshot tame_legal

theorem tame_appendEvent (h : Tame P) {owner link : Id} {type : EventType} {summary : Option String}
    {details : List (String × Option String)} {n : Nat} :
    Js.Throws (Answered core) P (appendPeerLinkEvent owner link type summary details n) :=
  Js.throws_bind throws_total fun _ => Js.throws_bind throws_total fun _ => tame_append h

theorem legal_appendEvent {owner link : Id} {type : EventType} {summary : Option String}
    {details : List (String × Option String)} {n : Nat} :
    Lawfully core (appendPeerLinkEvent owner link type summary details n) :=
  tame_appendEvent tame_legal

/-- A step with the calling function's variables. -/
theorem tame_track {p : π} {x : Sdk Snap α} (h : Js.Throws (Answered core) P x) :
    Js.Throws (Answered core) (fun e : π × Err => P e.2) (track p x) := by
  refine Js.throws_proc_bind h fun y hy => ?_
  cases y with
  | ok a => exact fun _ he => by cases he
  | error e => exact fun _ he => by cases he; exact hy e rfl

theorem legal_orMigration {x : Sdk Snap α} {reason : String} (h : Lawfully core x) :
    Lawfully core (orMigration x reason) := by
  refine Js.throws_proc_bind h fun y hy => ?_
  cases y with
  | ok a => exact Js.throws_pure
  | error e =>
    dsimp only
    split
    · exact Js.throws_throw (hy e rfl)
    · exact Js.throws_throw (legal_coded (by decide))

theorem legal_persistDevice {owner peer link device : Id} {snapshot : Snap} :
    Lawfully core (persistDeviceSession owner peer link device snapshot) := by
  refine Js.throws_bind legal_total fun _ => Js.throws_bind legal_byDevice fun existing => ?_
  refine Js.throws_bind ?_ fun _ => Js.throws_bind legal_put fun _ => Js.throws_pure
  cases existing with
  | some r => exact Js.throws_pure
  | none => exact legal_total

end

/-! ## Account keys -/

section

variable {svc : Service Snap} (hc : NoRefusals svc.core)

include hc

theorem legal_validateLegacy {owner : Id} {r : AccountKeyRecord} {dh : KeyPair} {sig : Id} :
    Lawfully svc.core (validateLegacyRecord svc owner r dh sig) := by
  have hcoded : ∀ reason, Legal (migrationError reason) := fun _ => legal_coded (by decide)
  refine Js.throws_bind (Js.throws_orThrow (hcoded _)) fun _ =>
    Js.throws_bind (Js.throws_orThrow (hcoded _)) fun _ => ?_
  refine Js.throws_bind (Js.throws_ensure (hcoded _)) fun _ =>
    Js.throws_bind (Js.throws_orThrow hc.base64) fun _ => ?_
  refine Js.throws_bind (Js.throws_orThrow hc.base64) fun _ =>
    Js.throws_bind (Js.throws_ensure (hcoded _)) fun _ => ?_
  refine Js.throws_bind (Js.throws_ensure (hcoded _)) fun _ =>
    Js.throws_bind (Js.throws_orThrow hc.base64) fun _ => ?_
  refine Js.throws_bind (legal_core hc) fun _ =>
    Js.throws_bind (Js.throws_ensure (hcoded _)) fun _ => ?_
  refine Js.throws_bind (legal_core hc) fun _ =>
    Js.throws_bind (Js.throws_ensure (hcoded _)) fun _ => ?_
  refine legal_orMigration (Js.throws_bind (legal_core hc) fun _ => ?_)
  refine Js.throws_bind (legal_core hc) fun _ => Js.throws_bind (legal_core hc) fun _ =>
    Js.throws_ensure (hcoded _)

theorem legal_adoptLegacy {owner : Id} {r : AccountKeyRecord} {injected : Option KeyPair} :
    Lawfully svc.core (adoptLegacy svc owner r injected) := by
  unfold adoptLegacy
  split
  · split
    · exact Js.throws_pure
    · refine Js.throws_bind (Js.throws_ensure (legal_coded (by decide))) fun _ => ?_
      exact Js.throws_bind (legal_orMigration (legal_validateLegacy hc)) fun _ => legal_total
  · exact Js.throws_pure

theorem legal_createKeys {owner : Id} {stored : Option StoredAccountKeys} {r : AccountKeyRecord}
    {injected : Option KeyPair} : Lawfully svc.core (createKeys svc owner stored r injected) := by
  unfold createKeys
  dsimp only
  split
  all_goals
    refine Js.throws_bind (by first | exact Js.throws_pure | exact legal_core hc) fun signing => ?_
    split
    all_goals
      refine Js.throws_bind (by first | exact Js.throws_pure | exact legal_core hc) fun dh => ?_
      exact Js.throws_bind (legal_core hc) fun _ => Js.throws_bind legal_set fun _ => Js.throws_pure

theorem legal_loadAccountKeys {owner : Id} :
    Lawfully svc.core (loadAccountKeyRecord svc owner) := by
  refine Js.throws_bind legal_get fun stored => Js.throws_bind legal_total fun injected => ?_
  refine Js.throws_bind (legal_adoptLegacy hc) fun _ => Js.throws_bind legal_total fun effective =>
    ?_
  split
  · split
    · exact Js.throws_bind legal_set fun _ => Js.throws_pure
    · exact Js.throws_pure
  · exact legal_createKeys hc

theorem legal_requireBound {owner : Id} :
    Lawfully svc.core (requireBoundX3dhIdentity svc owner) := by
  have hcoded : ∀ message, Legal (reauthRequired message) := fun _ => legal_coded (by decide)
  refine Js.throws_bind (legal_loadAccountKeys hc) fun _ =>
    Js.throws_bind (legal_loadAccountKeys hc) fun _ => ?_
  refine Js.throws_bind (Js.throws_orThrow (hcoded _)) fun _ =>
    Js.throws_bind (Js.throws_ensure (hcoded _)) fun _ => ?_
  refine Js.throws_bind (Js.throws_ensure (hcoded _)) fun _ => Js.throws_bind legal_total fun _ =>
    ?_
  exact Js.throws_bind (Js.throws_ensure (hcoded _)) fun _ => Js.throws_pure

theorem legal_verifyBinding {owner : Id} {x : Option X3dhBinding} {chain : List Bytes} :
    Lawfully svc.core (verifyInviteX3dhBinding svc owner x chain) := by
  have hcoded : ∀ message, Legal (bindingInvalid message) := fun _ => legal_coded (by decide)
  refine Js.throws_bind (Js.throws_orThrow (hcoded _)) fun _ =>
    Js.throws_bind (Js.throws_orThrow (hcoded _)) fun _ => ?_
  refine Js.throws_bind (Js.throws_orThrow (hcoded _)) fun _ =>
    Js.throws_bind (Js.throws_orThrow (hcoded _)) fun _ => ?_
  refine Js.throws_bind (Js.throws_orThrow (hcoded _)) fun _ =>
    Js.throws_bind (Js.throws_ensure (hcoded _)) fun _ => ?_
  refine Js.throws_bind (Js.throws_ensure (hcoded _)) fun _ => Js.throws_bind legal_total fun _ =>
    ?_
  refine Js.throws_bind (Js.throws_ensure (hcoded _)) fun _ => Js.throws_bind ?_ fun _ => ?_
  · unfold bindingVerifyKey
    split
    · exact Js.throws_pure
    · split
      · exact Js.throws_pure
      · refine Js.throws_bind (Js.throws_ensure (hcoded _)) fun _ =>
          Js.throws_bind legal_total fun _ => ?_
        refine Js.throws_bind (legal_core hc) fun _ =>
          Js.throws_bind (Js.throws_ensure (hcoded _)) fun _ => ?_
        exact Js.throws_bind (Js.throws_ensure (hcoded _)) fun _ => Js.throws_pure
  · exact Js.throws_bind (legal_core hc) fun _ => Js.throws_ensure (hcoded _)

/-! ## Device sessions -/

theorem legal_encryptDevice {owner peer link device : Id} {b : Bytes} :
    Lawfully svc.core (encryptForDevice owner peer link device b) := by
  refine Js.throws_bind (Js.throws_ensure (legal_message _)) fun _ => legal_withLock ?_
  refine Js.throws_bind (Js.throws_bind legal_byDevice fun _ =>
    Js.throws_orThrow (legal_coded (by decide))) fun _ => ?_
  refine Js.throws_bind (legal_core hc) fun _ => Js.throws_bind legal_total fun _ => ?_
  exact Js.throws_bind legal_put fun _ => Js.throws_pure

theorem legal_tryDecrypt {r : SessionRecord Snap} {expected : Id} {b : Bytes} :
    Lawfully svc.core (tryDecrypt r expected b) := by
  refine Js.throws_bind (Js.throws_ensure (legal_message _)) fun _ =>
    Js.throws_bind (legal_core hc) fun _ => ?_
  dsimp only
  split
  · exact Js.throws_bind legal_total fun _ => Js.throws_bind legal_put fun _ => Js.throws_pure
  · exact Js.throws_pure

theorem legal_attemptDevice {owner link device : Id} {peer : Option Id} {b : Bytes}
    {require : Bool} :
    Lawfully svc.core (attemptDeviceDecrypt owner peer link device b require) := by
  refine legal_withLock (Js.throws_bind legal_byDevice fun found => ?_)
  cases found with
  | none =>
    dsimp only
    split
    · exact Js.throws_throw (legal_coded (by decide))
    · exact Js.throws_pure
  | some r => exact Js.throws_bind (legal_tryDecrypt hc) fun _ => Js.throws_pure

theorem legal_decryptDevice {owner link device : Id} {peer : Option Id} {b : Bytes} :
    Lawfully svc.core (decryptFromDevice owner peer link device b) :=
  Js.throws_bind (legal_attemptDevice hc) fun _ => Js.throws_orThrow (legal_coded (by decide))

theorem legal_trialLoop {owner link : Id} {peer : Option Id} {b : Bytes} :
    ∀ {rs : List (SessionRecord Snap)}, Lawfully svc.core (trialLoop owner peer link b rs)
  | [] => Js.throws_pure
  | r :: rs => by
    unfold trialLoop
    split
    · exact legal_trialLoop
    · refine Js.throws_bind (legal_attemptDevice hc) fun result => ?_
      cases result with
      | none => exact legal_trialLoop
      | some x => exact Js.throws_pure

theorem legal_trialDevices {owner link : Id} {peer : Option Id} {b : Bytes} :
    Lawfully svc.core (trialDecryptAcrossDevices svc owner peer link b) :=
  Js.throws_bind legal_listSessions fun _ => legal_trialLoop hc

theorem legal_initiateDevice {a : InitiatorArgs} :
    Lawfully svc.core (establishInitiatorDeviceSession svc a) :=
  Js.throws_bind (legal_core hc) fun _ => Js.throws_bind (legal_core hc) fun _ =>
    Js.throws_bind (legal_withLock (legal_persistDevice)) fun _ => Js.throws_pure

theorem legal_respondDevice {a : ResponderArgs} :
    Lawfully svc.core (establishResponderDeviceSession svc a) :=
  Js.throws_bind (legal_core hc) fun _ =>
    Js.throws_bind (Js.throws_orThrow (legal_coded (by decide))) fun _ =>
    Js.throws_bind (Js.throws_ensure (legal_coded (by decide))) fun _ =>
    Js.throws_bind (legal_withLock (legal_persistDevice)) fun _ => Js.throws_pure

/-! ## Invites -/

theorem legal_verifyInvite {a : AcceptArgs} : Lawfully svc.core (verifyInvite svc a) := by
  refine Js.throws_bind (Js.throws_ensure hc.base64) fun _ => ?_
  refine Js.throws_bind (Js.throws_ensure (legal_coded (by decide))) fun _ => ?_
  refine Js.throws_bind (Js.throws_orThrow (hc.requireId _)) fun inviter =>
    Js.throws_bind legal_total fun now => ?_
  have hdelegated :
      Lawfully svc.core (verifyDelegated svc a.envelope a.signatureB64 inviter now) := by
    unfold verifyDelegated
    split
    · split
      · refine Js.throws_bind (Js.throws_attempt fun x => ?_) fun signed => ?_
        · cases x <;> exact Js.throws_pure
        · split
          · exact Js.throws_bind (legal_core hc) fun _ => Js.throws_pure
          · exact Js.throws_pure
      · exact Js.throws_pure
    · exact Js.throws_pure
  dsimp only
  split
  all_goals
    refine Js.throws_bind (by first | exact legal_core hc | exact hdelegated) fun _ => ?_
    refine Js.throws_bind (Js.throws_ensure (legal_coded (by decide))) fun _ => ?_
    refine Js.throws_bind (Js.throws_ensure (legal_coded (by decide))) fun _ => ?_
    exact Js.throws_bind (legal_verifyBinding hc) fun _ => Js.throws_pure

omit hc in
theorem legal_join {owner id joiner : Id} {now : Option Nat} :
    Lawfully svc.core (authorizeInviteJoin owner id joiner now) := by
  refine legal_withLock (Js.throws_bind legal_inviteGet fun found => ?_)
  cases found with
  | none => exact Js.throws_pure
  | some fresh =>
    dsimp only
    split
    · exact Js.throws_pure
    split
    · exact Js.throws_pure
    split
    · exact Js.throws_pure
    split
    · exact Js.throws_pure
    · exact Js.throws_bind legal_inviteSave fun _ => Js.throws_pure

theorem legal_commitAccept {a : AcceptArgs} {inviter link : Id} {now : Nat}
    {existing : Option PeerLinkRecord} :
    Lawfully svc.core (commitAccept svc a inviter link now existing) := by
  refine Js.throws_bind (Js.throws_orThrow (legal_coded (by decide))) fun _ => ?_
  refine Js.throws_bind (Js.throws_orThrow (hc.requireId _)) fun _ => ?_
  split
  · exact legal_update
  · exact legal_create

omit hc in
theorem legal_backLink {found : Option InviteRecord} {link : Id} {now : Nat} :
    Lawfully svc.core (backLinkInvite found link now) := by
  cases found with
  | none => exact Js.throws_pure
  | some l =>
    refine Js.throws_bind legal_inviteGet fun fresh => ?_
    cases fresh with
    | none => exact Js.throws_pure
    | some f => exact Js.throws_bind legal_inviteSave fun _ => Js.throws_pure

/-! ## Messages and relationships -/

theorem legal_encrypt {owner peer : Id} {b : Bytes} :
    Lawfully svc.core (encryptDirectMessage owner peer b) := by
  have hcoded : ∀ message, Legal (threadNotReady message) := fun _ => legal_coded (by decide)
  refine Js.throws_bind (Js.throws_ensure (legal_message _)) fun _ =>
    Js.throws_bind legal_getByPair fun _ => ?_
  refine Js.throws_bind (Js.throws_orThrow (hcoded _)) fun _ =>
    Js.throws_bind legal_sessionByLink fun _ => ?_
  refine Js.throws_bind (Js.throws_orThrow (hcoded _)) fun _ =>
    Js.throws_bind (Js.throws_ensure (hcoded _)) fun _ => ?_
  refine Js.throws_bind (legal_core hc) fun _ => Js.throws_bind legal_total fun _ => ?_
  exact Js.throws_bind legal_put fun _ => Js.throws_pure

omit hc in
theorem legal_upsert {a : RelationshipArgs} : Lawfully svc.core (upsertPeerRelationship a) := by
  refine Js.throws_bind (Js.throws_orThrow (legal_message _)) fun _ => ?_
  refine Js.throws_bind (Js.throws_orThrow (legal_message _)) fun _ => ?_
  refine Js.throws_bind (Js.throws_orThrow (legal_message _)) fun _ => ?_
  refine Js.throws_bind (Js.throws_orThrow (legal_message _)) fun _ =>
    Js.throws_bind legal_getByPair fun existing => ?_
  cases existing with
  | some e => exact Js.throws_pure
  | none => exact Js.throws_bind legal_total fun _ => legal_create

omit hc in
theorem legal_expire {r : PeerLinkRecord} : Lawfully svc.core (expireHandshakeIfStale r) := by
  unfold expireHandshakeIfStale
  split
  · exact Js.throws_pure
  · refine Js.throws_bind legal_total fun at_ => ?_
    split
    · exact Js.throws_pure
    · refine Js.throws_bind legal_total fun _ => Js.throws_attempt fun x => ?_
      cases x with
      | ok u => exact Js.throws_pure
      | error e => exact Js.throws_bind legal_get fun _ => Js.throws_pure

omit hc in
theorem legal_getLink {owner link : Id} : Lawfully svc.core (getPeerLink owner link) := by
  refine Js.throws_bind legal_get fun found => ?_
  cases found with
  | none => exact Js.throws_pure
  | some r =>
    exact Js.throws_bind legal_expire fun _ => Js.throws_bind legal_buildSnapshot fun _ =>
      Js.throws_pure

omit hc in
theorem legal_snapshotRows : ∀ {rows : List PeerLinkRecord}, Lawfully svc.core (snapshotRows rows)
  | [] => Js.throws_pure
  | _ :: _ => Js.throws_bind legal_expire fun _ => Js.throws_bind legal_buildSnapshot fun _ =>
      Js.throws_bind legal_snapshotRows fun _ => Js.throws_pure

omit hc in
theorem legal_listPeerLinks {owner : Id} : Lawfully svc.core (listPeerLinks svc owner) :=
  Js.throws_bind legal_listLinks fun _ => Js.throws_bind legal_snapshotRows fun _ => Js.throws_pure

/-! ## The handshake -/

theorem legal_authenticate {p : HandshakePacket} : Lawfully svc.core (authenticate svc p) := by
  refine Js.throws_bind (Js.throws_orThrow (legal_coded (by decide))) fun _ =>
    Js.throws_bind (legal_core hc) fun _ => ?_
  refine Js.throws_bind (Js.throws_ensure (legal_coded (by decide))) fun _ => ?_
  refine Js.throws_bind (Js.throws_orThrow (hc.requireId _)) fun _ => ?_
  refine Js.throws_bind (Js.throws_orThrow (legal_coded (by decide))) fun _ => ?_
  refine Js.throws_bind (Js.throws_ensure (legal_coded (by decide))) fun _ => ?_
  refine Js.throws_bind (Js.throws_orThrow hc.base64) fun _ => ?_
  exact Js.throws_bind (legal_verifyBinding hc) fun _ => Js.throws_pure

theorem legal_establishAsResponder {owner : Id} {b : Bytes} {x : Authenticated} :
    Lawfully svc.core (establishAsResponder svc owner b x) :=
  Js.throws_bind (legal_requireBound hc) fun _ => Js.throws_bind (legal_core hc) fun _ =>
    Js.throws_pure

theorem legal_checkControl {owner : Id} {link : PeerLinkRecord} {key nonce : String}
    {env : SignedEnvelope} : Lawfully svc.core (checkControl owner link key env nonce) := by
  unfold checkControl
  split
  · refine Js.throws_bind (legal_core hc) fun verified => ?_
    split
    · refine Js.throws_bind legal_get fun stored => ?_
      cases stored with
      | none => exact Js.throws_pure
      | some n =>
        dsimp only
        split
        · exact Js.throws_bind legal_delete fun _ => Js.throws_pure
        · exact Js.throws_pure
    · exact Js.throws_pure
  · exact Js.throws_pure

/-- The confirmation of an ack hides why its commit failed. -/
theorem legal_ack {owner : Id} {b : Bytes} :
    Lawfully svc.core (handleIncomingHandshakeAck svc owner b) := by
  unfold handleIncomingHandshakeAck
  split
  · exact Js.throws_pure
  · refine Js.throws_bind legal_getByPair fun found => ?_
    cases found with
    | none => exact Js.throws_pure
    | some link =>
      refine Js.throws_bind (legal_checkControl hc) fun ok => ?_
      split
      · refine Js.throws_bind legal_total fun _ => Js.throws_bind legal_sessionByLink fun _ =>
          Js.throws_attempt fun x => ?_
        cases x with
        | ok commit => exact Js.throws_pure
        | error e =>
          refine Js.throws_bind legal_getByPair fun fresh => ?_
          cases fresh with
          | none => exact Js.throws_throw (legal_message _)
          | some f =>
            dsimp only
            split
            · exact Js.throws_bind legal_buildSnapshot fun _ => Js.throws_pure
            · exact Js.throws_throw (legal_message _)
      · exact Js.throws_pure

omit hc in
theorem legal_rejectAttempts {reason : String} {now : Nat} :
    ∀ {rows : List HandshakeAttemptRecord}, Lawfully svc.core (rejectAttempts reason now rows)
  | [] => Js.throws_pure
  | r :: rows => by
    unfold rejectAttempts
    split
    · exact legal_rejectAttempts
    · exact Js.throws_bind legal_attemptUpdate fun _ => legal_rejectAttempts

omit hc in
/-- A check that the table allows is passed. -/
theorem legal_check {x y : PeerLinkState} (h : checkTransition x y = true) :
    Lawfully svc.core (checkPeerLinkTransition svc x y) :=
  Js.throws_passed (by rw [h, Bool.true_or])

omit hc in
/-- A rollback starts from a link that still waits. -/
theorem legal_rollBack {owner : Id} {r : HandshakeReject} {link : PeerLinkRecord}
    (h : awaitsConfirm link = true) : Lawfully svc.core (rollBack svc owner r link) := by
  refine Js.throws_bind legal_total fun _ => Js.throws_bind legal_sessionByLink fun session => ?_
  refine Js.throws_bind ?_ fun _ => Js.throws_bind legal_delete fun _ =>
    Js.throws_bind legal_listAttempts fun _ => ?_
  · cases session with
    | none => exact Js.throws_pure
    | some r => exact Js.throws_bind legal_sessionDelete fun _ => Js.throws_pure
  refine Js.throws_bind legal_rejectAttempts fun _ => Js.throws_bind (legal_check ?_) fun _ => ?_
  · simp only [awaitsConfirm, Bool.or_eq_true, decide_eq_true_eq] at h
    rcases h with h | h <;> rw [h] <;> rfl
  · refine Js.throws_bind legal_update fun _ => Js.throws_bind legal_appendEvent fun _ => ?_
    exact Js.throws_bind legal_buildSnapshot fun _ => Js.throws_pure

omit hc in
theorem ok_checkControl {owner : Id} {link : PeerLinkRecord} {key nonce : String}
    {env : SignedEnvelope} :
    Js.Ok (fun ok => ok = true → awaitsConfirm link = true)
      (checkControl owner link key env nonce : Sdk Snap _) := by
  unfold checkControl
  split
  · rename_i h
    exact Proc.Returns.mono (fun _ _ _ _ _ => (Bool.and_eq_true_iff.mp h).1) (Js.ok_any)
  · exact Js.ok_pure nofun

theorem legal_reject {owner : Id} {b : Bytes} :
    Lawfully svc.core (handleHandshakeReject svc owner b) := by
  unfold handleHandshakeReject
  split
  · exact Js.throws_pure
  · refine Js.throws_bind legal_getByPair fun found => ?_
    cases found with
    | none => exact Js.throws_pure
    | some link =>
      refine Js.throws_ok_bind (legal_checkControl hc) ok_checkControl fun ok hok => ?_
      split
      · rename_i h
        exact legal_rollBack (hok h)
      · exact Js.throws_pure

end

end RezSdk.L3
