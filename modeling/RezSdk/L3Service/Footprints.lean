import RezSdk.L3Service.Calls
import RezSdk.L3Service.DeviceSets

/-!
# Footprints

Which classes of operations each helper of the service can ask, whatever the
answers are. A property that does not watch these classes is not affected by
the helper, so its proofs step over it with one lemma.
-/
namespace RezSdk.L3

open RezSdk.L1 RezSdk.L2

variable {Snap : Type}

inductive KeyKind
  | peerLink | pair | session | sessionByLink | sessionByDevice | attempt | event | eventIndex
  | identity | invitePreKey | ackNonce | postCap | invite | inviteByHash | deviceIdentity |
      devicePreKey | deviceSetFloor
deriving DecidableEq

def kindOf : Key → KeyKind
  | .peerLink .. => .peerLink
  | .pair .. => .pair
  | .session .. => .session
  | .sessionByLink .. => .sessionByLink
  | .sessionByDevice .. => .sessionByDevice
  | .attempt .. => .attempt
  | .event .. => .event
  | .eventIndex .. => .eventIndex
  | .identity _ => .identity
  | .invitePreKey .. => .invitePreKey
  | .ackNonce .. => .ackNonce
  | .postCap .. => .postCap
  | .invite .. => .invite
  | .inviteByHash .. => .inviteByHash
  | .deviceIdentity .. => .deviceIdentity
  | .devicePreKey .. => .devicePreKey
  | .deviceSetFloor .. => .deviceSetFloor

inductive OpClass
  | get (k : KeyKind) | set (k : KeyKind) | delete (k : KeyKind) | keys
  | clock | newId | lock | count | accountDh | codec | x3dh | crypto
deriving DecidableEq

def classOf : Op Snap → OpClass
  | .get k => .get (kindOf k)
  | .set k _ => .set (kindOf k)
  | .delete k => .delete (kindOf k)
  | .keys _ => .keys
  | .clock => .clock
  | .runtimeUuid => .newId
  | .stableId _ => .newId
  | .chain _ => .lock
  | .enter .. => .lock
  | .release .. => .lock
  | .countFailure _ => .count
  | .clearCounts _ => .count
  | .markSuccess .. => .count
  | .countMiss _ => .count
  | .accountDh => .accountDh
  | .adoptAccountDh _ => .accountDh
  | .core (.encryptForPeer ..) => .codec
  | .core (.decryptIncoming ..) => .codec
  | .core (.processAcceptedInvite _) => .x3dh
  | .core (.completeInviteHandshake _) => .x3dh
  | .core (.prepareInviteBinding _) => .x3dh
  | .core _ => .crypto

/-- A written record lies under its own ids. -/
def Filed : Op Snap → Prop
  | .set (.peerLink o i) r => r.localAccountId = o ∧ r.peerLinkId = i
  | .set (.session o i) r => r.localAccountId = o ∧ r.sessionId = i
  | .set (.invite o i) r => r.ownerAccountId = o ∧ r.inviteId = i
  | _ => True

/-- Every operation of `p` is of one of the classes `l`, and files what it
writes. -/
def Foot {α : Type} (l : List OpClass) (p : Proc (sdk Snap) α) : Prop :=
  p.All fun o => l.contains (classOf o) = true ∧ Filed o

variable {α β π : Type} {l l' : List OpClass}

theorem Foot.mono {p : Proc (sdk Snap) α} (h : Foot l p) (hl : l ⊆ l') : Foot l' p :=
  Proc.All.mono (fun _ ho => ⟨List.contains_iff_mem.mpr (hl (List.contains_iff_mem.mp ho.1)), ho.2⟩)
    h

theorem Foot.filed {p : Proc (sdk Snap) α} (h : Foot l p) : p.All Filed :=
  Proc.All.mono (fun _ ho => ho.2) h

/-! ## Stepping over a helper -/

/-- Outside the classes `w` the monitor looks at the filing of records only. -/
def Watches {A : Type} (M : Monitor (sdk Snap) A) (w : List OpClass) : Prop :=
  ∀ o, w.contains (classOf o) = false → Filed o → M.Quiet o

section

variable {A : Type} {M : Monitor (sdk Snap) A} {w : List OpClass} {a : A}
  {L : Proc.Exch (sdk Snap) → Prop}

theorem Watches.quiet (hM : Watches M w) {p : Proc (sdk Snap) α} (hp : Foot l p)
    (hl : l.all (fun c => !w.contains c) = true) : p.All M.Quiet :=
  Proc.All.mono (fun o ho => hM o (by
    have := List.all_eq_true.mp hl _ (List.contains_iff_mem.mp ho.1)
    simpa using this) ho.2) hp

theorem Watches.skip (hM : Watches M w) {Q : A → α → Prop} {p : Proc (sdk Snap) α} (hp : Foot l p)
    (hl : l.all (fun c => !w.contains c) = true) (hq : ∀ x, Q a x) : Obeys M L Q a p :=
  obeys_quiet (hM.quiet hp hl) hq

theorem Watches.skip_bind (hM : Watches M w) {ε : Type} {Q : A → Except ε β → Prop}
    {p : Js (sdk Snap) ε α} {f : α → Js (sdk Snap) ε β} (hp : Foot l p)
    (hl : l.all (fun c => !w.contains c) = true) (he : ∀ e, Q a (.error e))
    (hf : ∀ x, Obeys M L Q a (f x)) : Obeys M L Q a (p >>= f : Js (sdk Snap) ε β) :=
  obeys_quiet_bind (hM.quiet hp hl) he hf

end

/-- A step with the calling function's variables keeps what it keeps. -/
theorem obeys_track {A π β : Type} {M : Monitor (sdk Snap) A} {L : Proc.Exch (sdk Snap) → Prop}
    {a : A} {p : π} {x : Sdk Snap α} {f : α → Tracked Snap π β} {Q : A → Except (π × Err) β → Prop}
    (h : Obeys M L (fun a y => match y with
      | .ok v => Obeys M L Q a (f v)
      | .error e => Q a (.error (p, e))) a x) :
    Obeys M L Q a (track p x >>= f : Tracked Snap π β) := by
  refine obeys_js_bind (obeys_bind (h.mono fun a y hy => ?_))
  cases y <;> exact hy

theorem obeys_untrack {A π : Type} {M : Monitor (sdk Snap) A} {L : Proc.Exch (sdk Snap) → Prop}
    {a : A} {x : Tracked Snap π α} {Q : A → Except Err α → Prop}
    (h : Obeys M L (fun a y => match y with
      | .ok v => Q a (.ok v)
      | .error e => Q a (.error e.2)) a x) : Obeys M L Q a (untrack x) := by
  refine obeys_bind (h.mono fun a y hy => ?_)
  cases y <;> exact hy

/-! ## Combinators -/

theorem foot_bind {p : Sdk Snap α} {f : α → Sdk Snap β} (hp : Foot l p) (hf : ∀ a, Foot l (f a)) :
    Foot l (p >>= f : Sdk Snap β) := Js.all_bind hp hf

theorem foot_attempt {p : Sdk Snap α} {f : Except Err α → Sdk Snap β} (hp : Foot l p)
    (hf : ∀ x, Foot l (f x)) : Foot l (p.attempt f) := Js.all_attempt hp hf

theorem foot_tbind {p : Tracked Snap π α} {f : α → Tracked Snap π β} (hp : Foot l p)
    (hf : ∀ a, Foot l (f a)) : Foot l (p >>= f : Tracked Snap π β) := Js.all_bind hp hf

theorem foot_track {q : π} {p : Sdk Snap α} (hp : Foot l p) : Foot l (track q p) :=
  Proc.all_bind hp fun
    | .ok _ => trivial
    | .error _ => trivial

theorem foot_untrack {p : Tracked Snap π α} (hp : Foot l p) : Foot l (untrack p) :=
  Proc.all_bind hp fun
    | .ok _ => trivial
    | .error _ => trivial

theorem foot_pure {x : α} : Foot l (pure x : Sdk Snap α) := trivial
theorem foot_throw {e : Err} : Foot l (throw e : Sdk Snap α) := trivial
theorem foot_orThrow {x : Option α} {e : Err} : Foot l (Js.orThrow x e : Sdk Snap α) :=
  Js.all_orThrow _ x e
theorem foot_ensure {c : Bool} {e : Err} : Foot l (Js.ensure c e : Sdk Snap Unit) :=
  Js.all_ensure _ c e
theorem foot_get {k : Key} (h : l.contains (.get (kindOf k)) = true) :
    Foot l (kvGet k : Sdk Snap _) :=
  ⟨⟨h, trivial⟩, fun _ => trivial⟩
theorem foot_set {k : Key} {v : Val Snap k} (h : l.contains (.set (kindOf k)) = true)
    (hf : Filed (.set k v)) : Foot l (kvSet k v) :=
  ⟨⟨h, hf⟩, fun _ => trivial⟩
theorem foot_delete {k : Key} (h : l.contains (.delete (kindOf k)) = true) :
    Foot l (kvDelete k : Sdk Snap _) :=
  ⟨⟨h, trivial⟩, fun _ => trivial⟩
theorem foot_keys {p : Prefix} (h : l.contains .keys = true) : Foot l (kvKeys p : Sdk Snap _) :=
  ⟨⟨h, trivial⟩, fun _ => trivial⟩
theorem foot_clock (h : l.contains .clock = true) : Foot l (clock : Sdk Snap _) :=
  ⟨⟨h, trivial⟩, fun _ => trivial⟩
theorem foot_uuid (h : l.contains .newId = true) : Foot l (runtimeUuid : Sdk Snap _) :=
  ⟨⟨h, trivial⟩, fun _ => trivial⟩
theorem foot_stableId {kind : String} (h : l.contains .newId = true) :
    Foot l (stableId kind : Sdk Snap _) :=
  ⟨⟨h, trivial⟩, fun _ => trivial⟩
theorem foot_core {q : CoreCall Snap} (h : l.contains (classOf (.core q)) = true) :
    Foot l (callCore q) :=
  ⟨⟨h, trivial⟩, fun _ => trivial⟩
theorem foot_clearCounts {key : String} (h : l.contains .count = true) :
    Foot l (clearCounts key : Sdk Snap _) :=
  ⟨⟨h, trivial⟩, fun _ => trivial⟩
theorem foot_markSuccess {key : String} {n : Nat} (h : l.contains .count = true) :
    Foot l (markSuccess key n : Sdk Snap _) := ⟨⟨h, trivial⟩, fun _ => trivial⟩
theorem foot_countFailure {key : String} (h : l.contains .count = true) :
    Foot l (countFailure key : Sdk Snap _) := ⟨⟨h, trivial⟩, fun _ => trivial⟩
theorem foot_countMiss {key : String} (h : l.contains .count = true) :
    Foot l (countMiss key : Sdk Snap _) :=
  ⟨⟨h, trivial⟩, fun _ => trivial⟩
theorem foot_accountDh (h : l.contains .accountDh = true) : Foot l (accountDh : Sdk Snap _) :=
  ⟨⟨h, trivial⟩, fun _ => trivial⟩

/-! ## The stores -/

theorem foot_getByPair {owner peer : Id} :
    Foot [.get .pair, .get .peerLink] (PeerLinks.getByPair owner peer : Sdk Snap _) :=
  foot_bind (foot_get rfl) fun
    | none => foot_pure
    | some _ => foot_get rfl

theorem foot_linkById {owner link : Id} :
    Foot [.get .peerLink] (PeerLinks.getById owner link : Sdk Snap _) := foot_get rfl

theorem foot_linkCreate {r : PeerLinkRecord} :
    Foot [.get .peerLink, .get .pair, .set .peerLink, .set .pair]
      (PeerLinks.create r : Sdk Snap _) :=
  foot_bind (foot_get rfl) fun _ => foot_bind foot_ensure fun _ =>
    foot_bind (foot_get rfl) fun _ => foot_bind foot_ensure fun _ =>
    foot_bind (foot_set rfl ⟨rfl, rfl⟩) fun _ => foot_bind (foot_set rfl trivial) fun _ => foot_pure

theorem foot_linkUpdate {r : PeerLinkRecord} {v : Nat} :
    Foot [.get .peerLink, .set .peerLink, .set .pair] (PeerLinks.update r v : Sdk Snap _) :=
  foot_bind (foot_get rfl) fun _ => foot_bind foot_orThrow fun _ =>
    foot_bind foot_ensure fun _ => foot_bind foot_ensure fun _ => foot_bind foot_ensure fun _ =>
    foot_bind foot_ensure fun _ => foot_bind (foot_set rfl ⟨rfl, rfl⟩) fun _ =>
    foot_bind (foot_set rfl trivial) fun _ => foot_pure

theorem foot_sessionByLink {owner link : Id} :
    Foot [.get .sessionByLink, .get .session] (Sessions.getByPeerLinkId owner link : Sdk Snap _) :=
  foot_bind (foot_get rfl) fun
    | none => foot_pure
    | some _ => foot_get rfl

theorem foot_dropIndex {r : SessionRecord Snap} {owner sid : Id} :
    Foot
      [.get .sessionByLink, .get .sessionByDevice, .delete .sessionByLink, .delete .sessionByDevice]
      (Sessions.dropIndex r owner sid) := by
  unfold Sessions.dropIndex
  split
  all_goals
    refine foot_bind (foot_get rfl) fun indexed => ?_
    split
    · exact foot_bind (foot_delete rfl) fun _ => foot_pure
    · exact foot_pure

theorem foot_sessionDelete {owner sid : Id} :
    Foot [.get .session, .delete .session, .get .sessionByLink, .get .sessionByDevice,
        .delete .sessionByLink, .delete .sessionByDevice]
      (Sessions.delete owner sid : Sdk Snap _) := by
  refine foot_bind (foot_get rfl) fun existing => foot_bind (foot_delete rfl) fun removed => ?_
  split
  · exact foot_pure
  · exact foot_pure
  · exact foot_bind (foot_dropIndex.mono (by decide)) fun _ => foot_pure

theorem foot_append {ev : EventRecord} :
    Foot [.get .event, .set .event, .get .eventIndex, .set .eventIndex]
      (Events.append ev : Sdk Snap _) :=
  foot_bind (foot_get rfl) fun
    | some _ => foot_bind foot_ensure fun _ => foot_pure
    | none => foot_bind (foot_set rfl trivial) fun _ => foot_bind (foot_get rfl) fun _ =>
      foot_bind (foot_set rfl trivial) fun _ => foot_pure

theorem foot_readAll {owner : Id} :
    ∀ {ids : List Id}, Foot [.get .event] (Events.readAll owner ids : Sdk Snap _)
  | [] => foot_pure
  | _ :: _ => foot_bind (foot_get rfl) fun _ => foot_bind foot_readAll fun _ => foot_pure

theorem foot_listEvents {owner link : Id} {limit : Option Nat} {cursor : Option Id} :
    Foot [.get .eventIndex, .get .event]
      (Events.listByPeerLinkId owner link limit cursor : Sdk Snap _) :=
  foot_bind (foot_get rfl) fun _ => foot_bind (foot_readAll.mono (by decide)) fun _ => foot_pure

theorem foot_scan {γ : Type} {pick : (k : Key) → Val Snap k → Option γ}
    (hl : ∀ k, l.contains (.get k) = true) : ∀ {ks : List Key}, Foot l (scan pick ks)
  | [] => foot_pure
  | _ :: _ => foot_bind (foot_get (hl _)) fun _ => foot_bind (foot_scan hl) fun _ => foot_pure

theorem foot_attemptCreate {r : HandshakeAttemptRecord} :
    Foot [.get .attempt, .set .attempt] (HandshakeAttempts.create r : Sdk Snap _) :=
  foot_bind (foot_get rfl) fun _ => foot_bind foot_ensure fun _ =>
    foot_bind (foot_set rfl trivial) fun _ => foot_pure

theorem foot_attemptUpdate {r : HandshakeAttemptRecord} {v : Nat} :
    Foot [.get .attempt, .set .attempt] (HandshakeAttempts.update r v : Sdk Snap _) :=
  foot_bind (foot_get rfl) fun _ => foot_bind foot_orThrow fun _ =>
    foot_bind foot_ensure fun _ => foot_bind foot_ensure fun _ =>
    foot_bind (foot_set rfl trivial) fun _ => foot_pure

theorem foot_inviteGet {owner id : Id} : Foot [.get .invite] (Invites.get owner id : Sdk Snap _) :=
  foot_bind (foot_get rfl) fun _ => foot_pure

theorem foot_inviteByHash {owner hash : Id} :
    Foot [.get .inviteByHash, .get .invite] (Invites.getByHash owner hash : Sdk Snap _) :=
  foot_bind (foot_get rfl) fun
    | none => foot_pure
    | some _ => foot_inviteGet.mono (by decide)

/-! ## The service's helpers -/

theorem foot_buildSnapshot {r : PeerLinkRecord} :
    Foot [.get .sessionByLink, .get .session, .get .eventIndex, .get .event]
      (buildSnapshot r : Sdk Snap _) :=
  foot_bind (foot_sessionByLink.mono (by decide)) fun _ =>
    foot_bind (foot_listEvents.mono (by decide)) fun _ => foot_pure

theorem foot_appendEvent {owner link : Id} {type : EventType} {summary : Option String}
    {details : List (String × Option String)} {n : Nat} :
    Foot [.newId, .clock, .get .event, .set .event, .get .eventIndex, .set .eventIndex]
      (appendPeerLinkEvent owner link type summary details n : Sdk Snap _) :=
  foot_bind (foot_stableId rfl) fun _ => foot_bind (foot_clock rfl) fun _ =>
    foot_append.mono (by decide)

theorem foot_checkTransition {svc : Service Snap} {x y : PeerLinkState} :
    Foot l (checkPeerLinkTransition svc x y) := foot_ensure

/-- Steps 4 to 6 of a commit. -/
def commitLinkFoot : List OpClass :=
  [.get .peerLink, .set .peerLink, .set .pair, .newId, .clock, .get .event, .set .event,
    .get .eventIndex, .set .eventIndex, .count, .get .sessionByLink, .get .session]

theorem foot_commitLink {svc : Service Snap} {a : CommitArgs Snap} {now : Nat}
    {stored : Option (SessionRecord Snap)} {p : Progress Snap} :
    Foot commitLinkFoot (commitLink svc a now stored p) :=
  foot_tbind (foot_track foot_checkTransition) fun _ =>
    foot_tbind (foot_track (foot_linkUpdate.mono (by decide))) fun _ =>
    foot_tbind (foot_track (foot_appendEvent.mono (by decide))) fun _ =>
    foot_tbind (foot_track (foot_clearCounts rfl)) fun _ =>
    foot_tbind (foot_track (foot_markSuccess rfl)) fun _ =>
    foot_tbind (foot_track (foot_buildSnapshot.mono (by decide))) fun _ => trivial

theorem foot_storedRatchetMatches [DecidableEq Snap] {args : CommitArgs Snap} {p : Progress Snap} :
    Foot [.get .session] (storedRatchetMatches args p) := by
  unfold storedRatchetMatches
  split
  · exact foot_bind (foot_get rfl) fun _ => foot_pure
  · exact foot_pure

theorem foot_keepPlaintext {r : PeerLinkRecord} {e : Option CommitError} :
    Foot [.get .sessionByLink, .get .session, .get .eventIndex, .get .event]
      (keepPlaintext r e : Sdk Snap _) :=
  foot_bind foot_buildSnapshot fun _ => foot_pure

theorem foot_byDevice {owner link device : Id} : Foot [.get .sessionByDevice, .get .session]
    (Sessions.getByPeerLinkAndDevice owner link device : Sdk Snap _) :=
  foot_bind (foot_get rfl) fun
    | none => foot_pure
    | some _ => foot_get rfl

/-- Every class of reads. -/
def reads : List OpClass :=
  [.keys, .get .peerLink, .get .pair, .get .session, .get .sessionByLink, .get .sessionByDevice,
    .get .attempt, .get .event, .get .eventIndex, .get .identity, .get .invitePreKey,
      .get .ackNonce,
    .get .postCap, .get .invite, .get .inviteByHash, .get .deviceIdentity, .get .devicePreKey,
      .get .deviceSetFloor]

theorem foot_scanReads {γ : Type} {pick : (k : Key) → Val Snap k → Option γ} {ks : List Key} :
    Foot reads (scan pick ks) := foot_scan fun k => by cases k <;> rfl

theorem foot_listSessions {core : Core Snap} {owner link : Id} :
    Foot reads (Sessions.listByPeerLink core owner link) :=
  foot_bind (foot_keys rfl) fun _ => foot_bind foot_scanReads fun _ => foot_pure

theorem foot_listLinks {core : Core Snap} {owner : Id} :
    Foot reads (PeerLinks.listByOwner core owner) :=
  foot_bind (foot_keys rfl) fun _ => foot_bind foot_scanReads fun _ => foot_pure

theorem foot_listAttempts {core : Core Snap} {owner link : Id} :
    Foot reads (HandshakeAttempts.listByPeerLinkId core owner link) :=
  foot_bind (foot_keys rfl) fun _ => foot_bind foot_scanReads fun _ => foot_pure

theorem foot_recoveryCandidates {owner : Id} {now : Nat} :
    ∀ {rows : List PeerLinkRecord}, Foot [.count] (recoveryCandidates owner now rows : Sdk Snap _)
  | [] => foot_pure
  | _ :: _ =>
    foot_bind (foot_countMiss rfl) fun _ => foot_bind foot_recoveryCandidates fun _ => foot_pure

theorem foot_checkControl {owner : Id} {link : PeerLinkRecord} {key nonce : String}
    {env : SignedEnvelope} :
    Foot [.crypto, .get .ackNonce, .delete .ackNonce]
      (checkControl owner link key env nonce : Sdk Snap _) := by
  unfold checkControl
  split
  · refine foot_bind (foot_core rfl) fun verified => ?_
    split
    · refine foot_bind (foot_get rfl) fun
        | none => foot_pure
        | some n => ?_
      dsimp only
      split
      · exact foot_bind (foot_delete rfl) fun _ => foot_pure
      · exact foot_pure
    · exact foot_pure
  · exact foot_pure

/-! ## Account keys -/

theorem foot_orMigration {p : Sdk Snap α} {reason : String} (hp : Foot l p) :
    Foot l (orMigration p reason) := by
  refine foot_attempt hp fun x => ?_
  cases x with
  | ok a => exact foot_pure
  | error e =>
    dsimp only
    split <;> exact foot_throw

theorem foot_validateLegacy {svc : Service Snap} {owner : Id} {r : AccountKeyRecord} {dh : KeyPair}
    {sig : Id} : Foot [.crypto] (validateLegacyRecord svc owner r dh sig) :=
  foot_bind foot_orThrow fun _ => foot_bind foot_orThrow fun _ => foot_bind foot_ensure fun _ =>
    foot_bind foot_orThrow fun _ => foot_bind foot_orThrow fun _ => foot_bind foot_ensure fun _ =>
    foot_bind foot_ensure fun _ => foot_bind foot_orThrow fun _ =>
    foot_bind (foot_core rfl) fun _ => foot_bind foot_ensure fun _ =>
    foot_bind (foot_core rfl) fun _ => foot_bind foot_ensure fun _ =>
    foot_orMigration (foot_bind (foot_core rfl) fun _ => foot_bind (foot_core rfl) fun _ =>
      foot_bind (foot_core rfl) fun _ => foot_ensure)

theorem foot_adoptLegacy {svc : Service Snap} {owner : Id} {r : AccountKeyRecord}
    {injected : Option KeyPair} :
    Foot [.accountDh, .crypto] (adoptLegacy svc owner r injected) := by
  unfold adoptLegacy
  split
  · split
    · exact foot_pure
    · exact foot_bind foot_ensure fun _ =>
        foot_bind (foot_orMigration (foot_validateLegacy.mono (by decide))) fun _ =>
        ⟨⟨rfl, trivial⟩, fun _ => trivial⟩
  · exact foot_pure

theorem foot_createKeys {svc : Service Snap} {owner : Id} {stored : Option StoredAccountKeys}
    {r : AccountKeyRecord} {injected : Option KeyPair} :
    Foot [.crypto, .set .identity] (createKeys svc owner stored r injected) := by
  unfold createKeys
  dsimp only
  split
  all_goals
    refine foot_bind (by first | exact foot_pure | exact foot_core rfl) fun signing => ?_
    split
    all_goals
      refine foot_bind (by first | exact foot_pure | exact foot_core rfl) fun dh => ?_
      exact foot_bind (foot_core rfl) fun sig => foot_bind (foot_set rfl trivial) fun _ => foot_pure

def accountKeysFoot : List OpClass := [.get .identity, .set .identity, .accountDh, .crypto]

theorem foot_loadAccountKeys {svc : Service Snap} {owner : Id} :
    Foot accountKeysFoot (loadAccountKeyRecord svc owner) := by
  refine foot_bind (foot_get rfl) fun stored => ?_
  refine foot_bind (foot_accountDh rfl) fun injected => ?_
  refine foot_bind (foot_adoptLegacy.mono (by decide)) fun _ => ?_
  refine foot_bind (foot_accountDh rfl) fun effective => ?_
  split
  · split
    · exact foot_bind (foot_set rfl trivial) fun _ => foot_pure
    · exact foot_pure
  · exact foot_createKeys.mono (by decide)

theorem foot_requireBound {svc : Service Snap} {owner : Id} :
    Foot (.clock :: accountKeysFoot) (requireBoundX3dhIdentity svc owner) :=
  foot_bind (foot_loadAccountKeys.mono (by decide)) fun _ =>
    foot_bind (foot_loadAccountKeys.mono (by decide)) fun _ => foot_bind foot_orThrow fun _ =>
    foot_bind foot_ensure fun _ => foot_bind foot_ensure fun _ =>
    foot_bind (foot_clock rfl) fun _ => foot_bind foot_ensure fun _ => foot_pure

theorem foot_verifyBinding {svc : Service Snap} {owner : Id} {x : Option X3dhBinding}
    {chain : List Bytes} : Foot [.clock, .crypto] (verifyInviteX3dhBinding svc owner x chain) := by
  refine foot_bind foot_orThrow fun _ => foot_bind foot_orThrow fun _ =>
    foot_bind foot_orThrow fun _ =>
    foot_bind foot_orThrow fun _ => foot_bind foot_orThrow fun _ => foot_bind foot_ensure fun _ =>
    foot_bind foot_ensure fun _ => foot_bind (foot_clock rfl) fun _ =>
      foot_bind foot_ensure fun _ =>
    foot_bind ?_ fun _ => foot_bind (foot_core rfl) fun _ => foot_ensure
  unfold bindingVerifyKey
  split
  · exact foot_pure
  · split
    · exact foot_pure
    · exact foot_bind foot_ensure fun _ => foot_bind (foot_clock rfl) fun _ =>
        foot_bind (foot_core rfl) fun _ => foot_bind foot_ensure fun _ =>
        foot_bind foot_ensure fun _ => foot_pure

/-! ## The commit -/

theorem foot_put {r : SessionRecord Snap} :
    Foot [.get .session, .set .session, .set .sessionByLink, .set .sessionByDevice]
      (Sessions.put r) := by
  refine foot_bind (foot_get rfl) fun _ => foot_bind (foot_set rfl ⟨rfl, rfl⟩) fun _ =>
    foot_bind ?_ fun _ => foot_pure
  unfold Sessions.setIndex
  split <;> exact foot_set rfl trivial

theorem foot_commitSessionId {existing : Option (SessionRecord Snap)} :
    Foot [.newId] (commitSessionId existing) := by
  cases existing with
  | none => exact foot_stableId rfl
  | some r => exact foot_pure

def commitFoot : List OpClass :=
  commitLinkFoot ++ ([.set .session, .set .sessionByLink, .set .sessionByDevice] : List OpClass)

theorem foot_commitSession {svc : Service Snap} {a : CommitArgs Snap} :
    Foot commitFoot (commitSession svc a) := by
  refine foot_tbind (foot_track (foot_clock rfl)) fun c => ?_
  split
  · exact foot_commitLink.mono (by decide)
  · exact foot_tbind (foot_track (foot_commitSessionId.mono (by decide))) fun _ =>
      foot_tbind (foot_track (foot_put.mono (by decide))) fun _ => foot_commitLink.mono (by decide)

/-! ## Recovery -/

def putFoot : List OpClass :=
  [.get .session, .set .session, .set .sessionByLink, .set .sessionByDevice]

theorem foot_rewrite {input : SessionRecord Snap} : ∀ {n : Nat}, Foot putFoot (rewrite input n)
  | 0 => foot_pure
  | _ + 1 => foot_attempt foot_put fun
    | .ok _ => foot_pure
    | .error _ => foot_rewrite

theorem foot_confirm [DecidableEq Snap] {a : CommitArgs Snap} {p : Progress Snap} :
    Foot putFoot (confirmAdvancedRatchetDurable a p) := by
  unfold confirmAdvancedRatchetDurable
  split
  · exact foot_bind (foot_storedRatchetMatches.mono (by decide)) fun _ => foot_pure
  · split
    · exact foot_pure
    · refine foot_bind foot_rewrite fun wrote => ?_
      split
      · exact foot_bind (foot_storedRatchetMatches.mono (by decide)) fun _ => foot_pure
      · exact foot_pure

def recoveryFoot : List OpClass :=
  putFoot ++ ([.get .sessionByLink, .get .eventIndex, .get .event] : List OpClass)

theorem foot_recoverRetry [DecidableEq Snap] {a : CommitArgs Snap} {p rp : Progress Snap}
    {f : PeerLinkRecord} {e : Err} : Foot recoveryFoot (recoverRetry a p f rp e) := by
  unfold recoverRetry
  split
  · exact foot_bind (foot_confirm.mono (by decide)) fun _ => foot_bind foot_pure fun _ =>
      foot_bind foot_ensure fun _ => foot_keepPlaintext.mono (by decide)
  · exact foot_bind (foot_storedRatchetMatches.mono (by decide)) fun _ =>
      foot_bind foot_ensure fun _ =>
      foot_keepPlaintext.mono (by decide)

/-! ## Invites -/

theorem foot_verifyDelegated {svc : Service Snap} {e : Envelope} {sig inviter : Id} {now : Nat} :
    Foot [.crypto] (verifyDelegated svc e sig inviter now) := by
  unfold verifyDelegated
  split
  · split
    · refine foot_bind (foot_attempt (foot_core rfl) fun x => ?_) fun signed => ?_
      · cases x <;> exact foot_pure
      · split
        · exact foot_bind (foot_core rfl) fun _ => foot_pure
        · exact foot_pure
    · exact foot_pure
  · exact foot_pure

theorem foot_verifyInvite {svc : Service Snap} {a : AcceptArgs} :
    Foot [.clock, .crypto] (verifyInvite svc a) := by
  refine foot_bind foot_ensure fun _ => foot_bind foot_ensure fun _ =>
    foot_bind foot_orThrow fun inviter =>
    foot_bind (foot_clock rfl) fun now => ?_
  dsimp only
  split
  all_goals
    refine foot_bind (by first | exact foot_core rfl | exact foot_verifyDelegated.mono (by decide))
      fun _ => ?_
    exact foot_bind foot_ensure fun _ => foot_bind foot_ensure fun _ =>
      foot_bind foot_verifyBinding fun _ => foot_pure

theorem foot_commitAccept {svc : Service Snap} {a : AcceptArgs} {inviter link : Id} {now : Nat}
    {existing : Option PeerLinkRecord} :
    Foot [.get .peerLink, .get .pair, .set .peerLink, .set .pair]
      (commitAccept svc a inviter link now existing) := by
  refine foot_bind foot_orThrow fun _ => foot_bind foot_orThrow fun _ => ?_
  split
  · exact foot_linkUpdate.mono (by decide)
  · exact foot_linkCreate

theorem foot_inviteSave {r : InviteRecord} :
    Foot [.set .invite, .set .inviteByHash] (Invites.save r : Sdk Snap _) :=
  foot_bind (foot_set rfl ⟨rfl, rfl⟩) fun _ => foot_bind (foot_set rfl trivial) fun _ => foot_pure

def sendFoot : List OpClass :=
  accountKeysFoot ++ ([.newId, .set .ackNonce, .get .peerLink, .get .attempt, .set .attempt,
    .set .peerLink, .set .pair, .clock, .get .event, .set .event, .get .eventIndex,
    .set .eventIndex] : List OpClass)

theorem foot_trySend {svc : Service Snap} {a : AcceptArgs} {inviter sid : Id} {p : HandshakePacket}
    {now : Nat} {s : SendState} : Foot sendFoot (trySend svc a inviter sid p now s) := by
  refine foot_tbind (foot_track foot_orThrow) fun _ =>
    foot_tbind (foot_track (foot_core rfl)) fun _ =>
    foot_tbind (foot_track (foot_linkById.mono (by decide))) fun _ => ?_
  split
  · exact trivial
  · exact foot_tbind (foot_track (foot_attemptUpdate.mono (by decide))) fun _ =>
      foot_tbind (foot_track foot_checkTransition) fun _ =>
      foot_tbind (foot_track (foot_linkUpdate.mono (by decide))) fun _ =>
      foot_tbind (foot_track (foot_appendEvent.mono (by decide))) fun _ => trivial

theorem foot_sendFailed {svc : Service Snap} {a : AcceptArgs} {sid : Id} {now : Nat} {s : SendState}
    {e : Err} : Foot sendFoot (sendFailed svc a sid now s e) := by
  refine foot_bind (foot_linkById.mono (by decide)) fun _ => ?_
  split
  · exact foot_pure
  · refine foot_bind (foot_attempt (foot_attemptUpdate.mono (by decide)) fun x => ?_) fun _ =>
      foot_bind foot_checkTransition fun _ => foot_bind (foot_linkUpdate.mono (by decide)) fun _ =>
      foot_bind (foot_appendEvent.mono (by decide)) fun _ => foot_pure
    cases x <;> exact foot_pure

theorem foot_sendPhase {svc : Service Snap} {a : AcceptArgs} {inviter id key sid : Id}
    {x3dh : HandshakeData} {now : Nat} {s : SendState} :
    Foot sendFoot (sendPhase svc a inviter id x3dh key sid now s) :=
  foot_bind (foot_loadAccountKeys.mono (by decide)) fun _ => foot_bind foot_orThrow fun _ =>
    foot_bind (foot_uuid rfl) fun _ => foot_bind (foot_core rfl) fun _ =>
    foot_bind (foot_set rfl trivial) fun _ => Proc.all_bind foot_trySend fun
      | .ok _ => trivial
      | .error (_, _) => foot_sendFailed

theorem foot_acceptLinkId {existing : Option PeerLinkRecord} :
    Foot [.newId] (acceptLinkId existing : Sdk Snap _) := by
  cases existing with
  | none => exact foot_stableId rfl
  | some e => exact foot_pure

theorem foot_storePostCap {owner link : Id} {cap : Option Bytes} :
    Foot [.set .postCap] (storePostCap owner link cap : Sdk Snap _) := by
  cases cap with
  | none => exact foot_pure
  | some c => exact foot_set rfl trivial

theorem foot_priorSession {owner link : Id} {existing : Option PeerLinkRecord} :
    Foot [.get .sessionByLink, .get .session] (priorSession owner link existing : Sdk Snap _) := by
  cases existing with
  | none => exact foot_pure
  | some e => exact foot_sessionByLink

theorem foot_sendIfAsked {svc : Service Snap} {a : AcceptArgs} {inviter id key : Id}
    {x3dh : HandshakeData} {now : Nat} {s : SendState} {session : Option (SessionRecord Snap)} :
    Foot sendFoot (sendIfAsked svc a inviter id x3dh key now s session) := by
  cases session with
  | none => exact foot_pure
  | some r =>
    dsimp only [sendIfAsked]
    split
    · exact foot_sendPhase
    · exact foot_pure

theorem foot_acceptEstablish {svc : Service Snap} {a : AcceptArgs} {inviter id link : Id}
    {now : Nat} {existing : Option PeerLinkRecord} {r : PeerLinkRecord}
    {attempt : HandshakeAttemptRecord} :
    Foot (.x3dh :: commitFoot ++ sendFoot)
      (acceptEstablish svc a inviter id link now existing r attempt) :=
  foot_bind (foot_appendEvent.mono (by decide)) fun _ =>
    foot_bind (foot_requireBound.mono (by decide)) fun _ => foot_bind (foot_core rfl) fun _ =>
    foot_bind (foot_priorSession.mono (by decide)) fun _ =>
    foot_bind (foot_untrack (foot_commitSession.mono (by decide))) fun _ =>
    foot_bind (foot_sendIfAsked.mono (by decide)) fun _ =>
    foot_bind (foot_buildSnapshot.mono (by decide)) fun _ => foot_pure

/-! ## The handshake -/

theorem foot_authenticate {svc : Service Snap} {p : HandshakePacket} :
    Foot [.clock, .crypto] (authenticate svc p) :=
  foot_bind foot_orThrow fun _ => foot_bind (foot_core rfl) fun _ => foot_bind foot_ensure fun _ =>
    foot_bind foot_orThrow fun _ => foot_bind foot_orThrow fun _ => foot_bind foot_ensure fun _ =>
    foot_bind foot_orThrow fun _ => foot_bind foot_verifyBinding fun _ => foot_pure

theorem foot_responderLink {x : Authenticated} {owner : Id} {now : Nat}
    {existing : Option PeerLinkRecord} :
    Foot [.newId, .get .peerLink, .get .pair, .set .peerLink, .set .pair]
      (responderLink x owner now existing : Sdk Snap _) := by
  unfold responderLink
  split
  · exact foot_pure
  · exact foot_bind (foot_stableId rfl) fun _ => foot_linkCreate.mono (by decide)

theorem foot_establishAsResponder {svc : Service Snap} {owner : Id} {b : Bytes}
    {x : Authenticated} :
    Foot (.x3dh :: .clock :: accountKeysFoot) (establishAsResponder svc owner b x) :=
  foot_bind (foot_requireBound.mono (by decide)) fun _ => foot_bind (foot_core rfl) fun _ =>
    foot_pure

def establishFoot : List OpClass :=
  commitFoot ++ accountKeysFoot ++ ([.x3dh, .get .pair, .get .attempt, .set .attempt,
    .delete .invitePreKey] : List OpClass)

theorem foot_establishLink {svc : Service Snap} {owner : Id} {x : Authenticated} {b : Bytes}
    {exhausted : Bool} {name : String} {now : Nat} {existing : Option PeerLinkRecord} :
    Foot establishFoot (establishLink svc owner x b exhausted name now existing) := by
  refine foot_bind (foot_responderLink.mono (by decide)) fun _ =>
    foot_bind (foot_establishAsResponder.mono (by decide)) fun _ =>
    foot_bind (foot_sessionByLink.mono (by decide)) fun _ =>
    foot_bind (foot_untrack (foot_commitSession.mono (by decide))) fun _ =>
    foot_bind (foot_stableId rfl) fun _ => foot_bind (foot_attemptCreate.mono (by decide)) fun _ =>
      ?_
  split
  · exact foot_bind (foot_delete rfl) fun _ => foot_pure
  · exact foot_pure

/-! ## The reject -/

theorem foot_rejectAttempts {reason : String} {now : Nat} : ∀ {rows : List HandshakeAttemptRecord},
    Foot [.get .attempt, .set .attempt] (rejectAttempts reason now rows : Sdk Snap _)
  | [] => foot_pure
  | row :: rest => by
    unfold rejectAttempts
    split
    · exact foot_rejectAttempts
    · exact foot_bind foot_attemptUpdate fun _ => foot_rejectAttempts

theorem foot_dropSession {owner : Id} {session : Option (SessionRecord Snap)} :
    Foot [.get .session, .delete .session, .get .sessionByLink, .get .sessionByDevice,
      .delete .sessionByLink, .delete .sessionByDevice] (dropSession owner session) := by
  cases session with
  | none => exact foot_pure
  | some r => exact foot_bind foot_sessionDelete fun _ => foot_pure

/-! ## Device sessions -/

theorem foot_locked {k : LockKey} {body : Sdk Snap α} (hl : l.contains .lock = true)
    (h : Foot l body) : Foot l (withLock k body) :=
  ⟨⟨hl, trivial⟩,
  fun _ => ⟨⟨hl, trivial⟩, fun _ => Proc.all_bind h fun _ => ⟨⟨hl, trivial⟩, fun _ => trivial⟩⟩⟩

def persistFoot : List OpClass :=
  [.clock, .newId, .get .sessionByDevice, .get .session, .set .session, .set .sessionByLink,
  .set .sessionByDevice]

theorem foot_persist {owner peer link device : Id} {snapshot : Snap} :
    Foot persistFoot (persistDeviceSession owner peer link device snapshot) := by
  refine foot_bind (foot_clock rfl) fun _ =>
    foot_bind (foot_byDevice.mono (by decide)) fun existing =>
    foot_bind ?_ fun _ => foot_bind (foot_put.mono (by decide)) fun _ => foot_pure
  cases existing with
  | none => exact foot_uuid rfl
  | some r => exact foot_pure

/-! ## Device sets -/

theorem foot_ofExcept {x : Except Err α} : Foot l (Js.ofExcept x : Sdk Snap α) := trivial

theorem foot_requireDeviceSessions {svc : DeviceService Snap} :
    Foot l (requireDeviceSessions svc) := foot_ensure

def deviceIdentityFoot : List OpClass := [.get .deviceIdentity, .set .deviceIdentity, .crypto]

theorem foot_loadDeviceIdentity {svc : DeviceService Snap} :
    Foot deviceIdentityFoot (loadDeviceIdentity svc) := by
  refine foot_bind foot_requireDeviceSessions fun _ => foot_bind (foot_get rfl) fun stored => ?_
  split
  · exact foot_pure
  · exact foot_bind (foot_core rfl) fun _ => foot_bind (foot_set rfl trivial) fun _ => foot_pure

theorem foot_peerContext {owner peer : Id} :
    Foot [.get .pair, .get .peerLink] (requirePeerDeviceSetContext owner peer : Sdk Snap _) :=
  foot_bind foot_getByPair fun _ => foot_bind foot_orThrow fun _ => foot_bind foot_orThrow fun _ =>
    foot_bind foot_orThrow fun _ => foot_pure

theorem foot_derivePeerKey {core : Core Snap} {mine theirs : Id} :
    Foot [.crypto] (derivePeerScopedKey core mine theirs) :=
  foot_bind (foot_core rfl) fun _ => foot_bind foot_ensure fun _ =>
    foot_bind (foot_core rfl) fun _ =>
    foot_bind (foot_core rfl) fun _ => foot_pure

theorem foot_checkEnvelope {core : Core Snap} {a : OpenArgs} :
    Foot [.crypto] (checkEnvelope core a) := by
  refine foot_bind foot_ensure fun _ => foot_bind foot_ensure fun _ =>
    foot_bind foot_ensure fun _ =>
    foot_bind foot_ensure fun _ => foot_bind (foot_core rfl) fun outer => ?_
  cases outer with
  | ok signer => exact foot_pure
  | error reason => exact foot_throw

theorem foot_openPayload {core : Core Snap} {a : OpenArgs} : Foot [.crypto] (openPayload core a) :=
  foot_bind foot_derivePeerKey fun _ => foot_bind foot_ensure fun _ =>
    foot_bind foot_ofExcept fun _ =>
    foot_bind foot_orThrow fun _ => foot_bind foot_orThrow fun _ =>
    foot_bind (foot_bind foot_ensure fun _ => foot_core rfl) fun _ => foot_ofExcept

theorem foot_openDeviceSet {core : Core Snap} {a : OpenArgs} {signer : Id} {inner : SealedInner} :
    Foot [.crypto] (openDeviceSet core a signer inner) :=
  foot_bind foot_ofExcept fun _ => foot_bind foot_ensure fun _ => foot_bind (foot_core rfl) fun _ =>
    foot_bind foot_ensure fun _ => foot_bind foot_ensure fun _ => foot_bind foot_ensure fun _ =>
    foot_bind foot_ensure fun _ => foot_pure

theorem foot_openBundle {core : Core Snap} {a : OpenArgs} {set : DeviceSetRecord} {seen : List Id}
    {raw : Bytes} : Foot [.crypto] (openBundle core a set seen raw) :=
  foot_bind foot_ofExcept fun _ => foot_bind foot_ensure fun _ => foot_bind foot_orThrow fun _ =>
    foot_bind foot_ensure fun _ => foot_bind foot_ensure fun _ => foot_bind foot_ensure fun _ =>
    foot_bind foot_ensure fun _ => foot_bind foot_ensure fun _ => foot_bind (foot_core rfl) fun _ =>
    foot_bind foot_ensure fun _ => foot_pure

theorem foot_openBundles {core : Core Snap} {a : OpenArgs} {set : DeviceSetRecord} :
    ∀ {raws : List Bytes} {seen : List Id}, Foot [.crypto] (openBundles core a set seen raws)
  | [], _ => foot_pure
  | _ :: _, _ => foot_bind foot_openBundle fun _ => foot_bind foot_openBundles fun _ => foot_pure

theorem foot_openSealed {core : Core Snap} {a : OpenArgs} :
    Foot [.crypto] (openSealedDeviceSetRecord core a) :=
  foot_bind foot_checkEnvelope fun _ => foot_bind foot_openPayload fun _ =>
    foot_bind foot_openDeviceSet fun _ =>
    foot_bind foot_ensure fun _ => foot_bind foot_openBundles fun _ =>
      foot_bind foot_ensure fun _ => foot_pure

end RezSdk.L3
