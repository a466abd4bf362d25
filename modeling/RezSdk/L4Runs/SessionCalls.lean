import RezSdk.L4Runs.LinkPeers

/-!
# A session has one home

A session record lies under an id drawn for it, and it names the link and,
for a device session, the device it belongs to. No call moves it: whoever
writes a session has drawn its id or has found it under the index entry of
the same link and device. So in every run an index entry names a session of
its own link and device (`Homed.byLink`, `Homed.byDevice`), also while calls
overlap and after a failed write.

The ratchets are made for one peer: `Attributed` says what @rezprotocol/core
keeps of that, and `Homed.owned` that the stored ratchet of a session is one
for the peer its record names, which for a legacy session is the peer of its
link.
-/
namespace RezSdk.L4.SessionHomes

open RezSdk.L1 RezSdk.L2 RezSdk.L3
open RezSdk.L4.LinkPeers (HasPeer)

variable {Snap : Type}

/-- The peer of a ratchet: the one it was made for, which sealing and opening
do not change and which an opened packet is attributed to. -/
structure Attributed (core : Core Snap) (peerOf : Snap → Id) : Prop where
  sealed : ∀ b p m n pkt s, core.answer (.encryptForPeer b p m) n = .ok (pkt, s) →
    peerOf s = peerOf b
  kept : ∀ b pkt n o s, core.answer (.decryptIncoming b pkt) n = .ok (o, s) → peerOf s = peerOf b
  opened : ∀ b pkt n o s, core.answer (.decryptIncoming b pkt) n = .ok (o, s) → o.opened = true →
    o.peerId = some (peerOf b)
  initiated : ∀ i n h s, core.answer (.processAcceptedInvite i) n = .ok (h, s) → peerOf s = i.peerId
  responded : ∀ i n k s, core.answer (.completeInviteHandshake i) n = .ok (k, s) →
    peerOf s = i.peerId

/-- `made s p`: ratchet `s` is one for `p`. It stays so, and a session is made
for its peer. -/
structure Makes (core : Core Snap) (made : Snap → Id → Prop) : Prop where
  sealed : ∀ b p m n pkt s, core.answer (.encryptForPeer b p m) n = .ok (pkt, s) →
    ∀ q, made b q → made s q
  kept : ∀ b pkt n o s, core.answer (.decryptIncoming b pkt) n = .ok (o, s) →
    ∀ q, made b q → made s q
  initiated : ∀ i n h s, core.answer (.processAcceptedInvite i) n = .ok (h, s) → made s i.peerId
  responded : ∀ i n k s, core.answer (.completeInviteHandshake i) n = .ok (k, s) → made s i.peerId

/-- Ratchets of one peer. -/
abbrev Is (peerOf : Snap → Id) (s : Snap) (p : Id) : Prop := peerOf s = p

/-- Ratchets of whatever peer. -/
abbrev Whose (_ : Snap) (_ : Id) : Prop := True

theorem Attributed.makes {core : Core Snap} {peerOf : Snap → Id} (h : Attributed core peerOf) :
    Makes core (Is peerOf) where
  sealed b p m n pkt s ha _ hb := (h.sealed b p m n pkt s ha).trans hb
  kept b pkt n o s ha _ hb := (h.kept b pkt n o s ha).trans hb
  initiated := h.initiated
  responded := h.responded

theorem makes_whose {core : Core Snap} : Makes core Whose where
  sealed _ _ _ _ _ _ _ _ _ := trivial
  kept _ _ _ _ _ _ _ _ := trivial
  initiated _ _ _ _ _ := trivial
  responded _ _ _ _ _ := trivial

/-- The link a session belongs to, and the device of a device session. -/
abbrev Home := Id × Option Id

def home (r : SessionRecord Snap) : Home := (r.peerLinkId, r.peerDeviceId)

/-- The homes of the sessions, by owner and session id. -/
abbrev Homes := Id → Id → Option Home

/-- The ratchet is one for the record's peer, who is the peer of the link of a
legacy session. -/
structure Owned (made : Snap → Id → Prop) (kv : Store Snap) (o : Id) (r : SessionRecord Snap) :
    Prop where
  ratchet : made r.ratchetSnapshot r.peerAccountId
  link : r.peerDeviceId = none → HasPeer kv o r.peerLinkId r.peerAccountId

/-! ## What the calls do -/

/-- The id the call may store a new session under. -/
def drawnNext (a : Option Id) : Proc.Exch (sdk Snap) → Option Id
  | ⟨.stableId _, i⟩ => some i
  | ⟨.runtimeUuid, i⟩ => some i
  | ⟨.set (.session _ _) _, _⟩ => none
  | _ => a

section

variable (made : Snap → Id → Prop) (core : Core Snap) (kv : Store Snap) (H : Homes)

def monitor : Monitor (sdk Snap) (Option Id) where
  next := drawnNext
  may a
    | .set (.session o i) r => (a = some i ∨ H o i = some (home r)) ∧ Owned made kv o r
    | .set (.sessionByLink o l) i => H o i = some (l, none)
    | .set (.sessionByDevice o l d) i => H o i = some (l, some d)
    | _ => True

/-- What the calls find in the stores. -/
def Places : Proc.Exch (sdk Snap) → Prop
  | ⟨.get (.session o i), .ok (some r)⟩ => H o i = some (home r) ∧ Owned made kv o r
  | ⟨.get (.sessionByLink o l), .ok (some i)⟩ => H o i = some (l, none)
  | ⟨.get (.sessionByDevice o l d), .ok (some i)⟩ => H o i = some (l, some d)
  | ⟨.set (.session o i) r, _⟩ => H o i = some (home r)
  | ⟨.set (.peerLink o l) r, .ok ()⟩ => HasPeer kv o l r.peerAccountId
  | _ => True

structure Law (x : Proc.Exch (sdk Snap)) : Prop where
  lawful : Lawful core x
  keyed : Keyed x
  agrees : LinkPeers.Agrees kv x
  places : Places made kv H x

end

section

variable {α β ε π : Type} {made : Snap → Id → Prop} {core : Core Snap} {kv : Store Snap} {H : Homes}

/-- The program stores sessions at home, whatever id it has drawn. -/
abbrev Fine (made : Snap → Id → Prop) (core : Core Snap) (kv : Store Snap) (H : Homes)
    (p : Proc (sdk Snap) α) : Prop :=
  ∀ a : Option Id, Obeys (monitor made kv H) (Law made core kv H) (fun _ _ => True) a p

/-- The writes the monitor looks at. -/
def homeWrites : List OpClass := [.set .session, .set .sessionByLink, .set .sessionByDevice]

theorem may_of_class {o : Op Snap} {a : Option Id} (ho : homeWrites.contains (classOf o) = false) :
    (monitor made kv H).may a o := by
  unfold monitor
  dsimp only
  split
  · cases ho
  · cases ho
  · cases ho
  · trivial

theorem fine_ret {x : α} : Fine made core kv H (.ret x) := fun _ => trivial

theorem fine_bind {p : Proc (sdk Snap) α} {f : α → Proc (sdk Snap) β} (hp : Fine made core kv H p)
    (hf : ∀ x, Fine made core kv H (f x)) : Fine made core kv H (p.bind f) :=
  fun a => obeys_bind ((hp a).mono fun a' x _ => hf x a')

theorem fine_seq {p : Js (sdk Snap) ε α} {f : α → Js (sdk Snap) ε β} (hp : Fine made core kv H p)
    (hf : ∀ x, Fine made core kv H (f x)) : Fine made core kv H (p >>= f : Js (sdk Snap) ε β) := by
  refine fine_bind hp fun x => ?_
  cases x with
  | ok v => exact hf v
  | error e => exact fine_ret

theorem fine_foot {l : List OpClass} {p : Proc (sdk Snap) α} (hp : Foot l p)
    (hl : l.all (fun c => !homeWrites.contains c) = true) : Fine made core kv H p := by
  induction p with
  | ret x => exact fine_ret
  | ask o next ih =>
    intro a
    have hc := List.all_eq_true.mp hl _ (List.contains_iff_mem.mp hp.1.1)
    exact ⟨may_of_class (by simpa using hc), fun r _ => ih r (hp.2 r) _⟩

theorem fine_skip {l : List OpClass} {p : Js (sdk Snap) ε α} {f : α → Js (sdk Snap) ε β}
    (hp : Foot l p) (hl : l.all (fun c => !homeWrites.contains c) = true)
    (hf : ∀ x, Fine made core kv H (f x)) : Fine made core kv H (p >>= f : Js (sdk Snap) ε β) :=
  fine_seq (fine_foot hp hl) hf

theorem fine_untrack {p : Tracked Snap π α} (hp : Fine made core kv H p) :
    Fine made core kv H (untrack p) := by
  refine fine_bind hp fun x => ?_
  cases x <;> exact fine_ret

theorem fine_orThrow {x : Option α} {e : Err} {f : α → Sdk Snap β}
    (hf : ∀ v, x = some v → Fine made core kv H (f v)) :
    Fine made core kv H (Js.orThrow x e >>= f : Sdk Snap β) :=
  fun a => obeys_js_bind (obeys_orThrow (fun v hv => hf v hv a) fun _ => trivial)

theorem fine_core {q : CoreCall Snap} {f : q.Value → Sdk Snap β}
    (hf : ∀ n v, core.answer q n = .ok v → Fine made core kv H (f v)) :
    Fine made core kv H (callCore q >>= f : Sdk Snap β) := by
  refine fun a => obeys_js_bind ⟨trivial, fun x hx => ?_⟩
  obtain ⟨n, hn⟩ := hx.lawful
  cases x with
  | error e => trivial
  | ok v => exact hf n v hn.symm _

theorem fine_withLock {k : LockKey} {body : Sdk Snap α} (hb : Fine made core kv H body) :
    Fine made core kv H (withLock k body) := by
  refine fun a => ⟨trivial, fun _ _ => ⟨trivial, fun _ _ => fine_bind hb (fun x a' => ?_) _⟩⟩
  exact ⟨trivial, fun _ _ => trivial⟩

/-! ## The stores -/

/-- A session of this owner, link and device that a call has read. -/
structure Read (made : Snap → Id → Prop) (kv : Store Snap) (H : Homes) (o : Id)
    (l : Id) (d : Option Id) (r : SessionRecord Snap) : Prop where
  owner : r.localAccountId = o
  known : H o r.sessionId = some (home r)
  home : home r = (l, d)
  owned : Owned made kv o r

theorem fine_getByPair {owner peer : Id} {f : Option PeerLinkRecord → Sdk Snap β}
    (hsome : ∀ r, r.localAccountId = owner → r.peerAccountId = peer →
        HasPeer kv owner r.peerLinkId peer → Fine made core kv H (f (some r)))
    (hnone : Fine made core kv H (f none)) :
    Fine made core kv H (PeerLinks.getByPair owner peer >>= f : Sdk Snap β) := by
  refine fun a => obeys_js_bind (obeys_js_bind ⟨trivial, fun x hx => ?_⟩)
  match x with
  | .error e => trivial
  | .ok none => exact hnone a
  | .ok (some link) =>
    refine ⟨trivial, fun y hy => ?_⟩
    match y with
    | .error e => trivial
    | .ok none => exact hnone a
    | .ok (some r) =>
      have hpair : HasPeer kv owner link peer := hx.agrees
      have hread : HasPeer kv owner link r.peerAccountId := hy.agrees
      have hkey : r.localAccountId = owner ∧ r.peerLinkId = link := hy.keyed
      exact hsome r hkey.1 (hread.unique hpair) (hkey.2.symm ▸ hpair) a

theorem fine_getById {owner link : Id} {f : Option PeerLinkRecord → Sdk Snap β}
    (hsome : ∀ r, r.localAccountId = owner → r.peerLinkId = link →
        HasPeer kv owner link r.peerAccountId → Fine made core kv H (f (some r)))
    (hnone : Fine made core kv H (f none)) :
    Fine made core kv H (PeerLinks.getById owner link >>= f : Sdk Snap β) := by
  refine fun a => obeys_js_bind ⟨trivial, fun y hy => ?_⟩
  match y with
  | .error e => trivial
  | .ok none => exact hnone a
  | .ok (some r) =>
    have hkey : r.localAccountId = owner ∧ r.peerLinkId = link := hy.keyed
    exact hsome r hkey.1 hkey.2 hy.agrees a

theorem obeys_session {owner sid l : Id} {d : Option Id} {a : Option Id}
    {Q : Option Id → Except Err (Option (SessionRecord Snap)) → Prop}
    (hsid : H owner sid = some (l, d))
    (hsome : ∀ r, Read made kv H owner l d r → Q a (.ok (some r))) (hnone : Q a (.ok none))
    (herr : ∀ e, Q a (.error e)) :
    Obeys (monitor made kv H) (Law made core kv H) Q a (Sessions.getById owner sid) := by
  refine ⟨trivial, fun y hy => ?_⟩
  match y with
  | .error e => exact herr e
  | .ok none => exact hnone
  | .ok (some r) =>
    have hkey : r.localAccountId = owner ∧ r.sessionId = sid := hy.keyed
    have hplace : H owner sid = some (home r) ∧ Owned made kv owner r := hy.places
    refine hsome r ⟨hkey.1, hkey.2.symm ▸ hplace.1, ?_, hplace.2⟩
    rw [hsid, Option.some.injEq] at hplace
    exact hplace.1.symm

theorem obeys_sessionByLink {owner link : Id} {a : Option Id}
    {Q : Option Id → Except Err (Option (SessionRecord Snap)) → Prop}
    (hsome : ∀ r, Read made kv H owner link none r → Q a (.ok (some r))) (hnone : Q a (.ok none))
    (herr : ∀ e, Q a (.error e)) :
    Obeys (monitor made kv H) (Law made core kv H) Q a (Sessions.getByPeerLinkId owner link) := by
  refine obeys_js_bind ⟨trivial, fun x hx => ?_⟩
  match x with
  | .error e => exact herr e
  | .ok none => exact hnone
  | .ok (some sid) => exact obeys_session hx.places hsome hnone herr

theorem fine_sessionByLink {owner link : Id} {f : Option (SessionRecord Snap) → Sdk Snap β}
    (hsome : ∀ r, Read made kv H owner link none r → Fine made core kv H (f (some r)))
    (hnone : Fine made core kv H (f none)) :
    Fine made core kv H (Sessions.getByPeerLinkId owner link >>= f : Sdk Snap β) := fun a =>
  obeys_js_bind (obeys_sessionByLink (fun r hr => hsome r hr a) (hnone a) fun _ => trivial)

theorem fine_byDevice {owner link device : Id} {f : Option (SessionRecord Snap) → Sdk Snap β}
    (hsome : ∀ r, Read made kv H owner link (some device) r → Fine made core kv H (f (some r)))
    (hnone : Fine made core kv H (f none)) :
    Fine made core kv H (Sessions.getByPeerLinkAndDevice owner link device >>= f : Sdk Snap β) := by
  refine fun a => obeys_js_bind (obeys_js_bind ⟨trivial, fun x hx => ?_⟩)
  match x with
  | .error e => trivial
  | .ok none => exact hnone a
  | .ok (some sid) =>
    exact obeys_session hx.places (fun r hr => hsome r hr a) (hnone a) fun _ => trivial

/-- A session is stored under a drawn id, or at its home. -/
theorem obeys_put {r : SessionRecord Snap} {a : Option Id}
    (h : a = some r.sessionId ∨ H r.localAccountId r.sessionId = some (home r))
    (ho : Owned made kv r.localAccountId r) :
    Obeys (monitor made kv H) (Law made core kv H) (fun _ _ => True) a (Sessions.put r) := by
  refine obeys_js_bind ⟨trivial, fun x _ => ?_⟩
  cases x with
  | error e => trivial
  | ok existing =>
    refine obeys_js_bind ⟨⟨h, ho.ratchet, ho.link⟩, fun y hy => ?_⟩
    have hplace : H r.localAccountId r.sessionId = some (home r) := hy.places
    cases y with
    | error e => trivial
    | ok u =>
      unfold Sessions.setIndex
      unfold home at hplace
      cases hd : r.peerDeviceId with
      | none =>
        rw [hd] at hplace
        exact obeys_js_bind ⟨hplace, fun z _ => by cases z <;> trivial⟩
      | some device =>
        rw [hd] at hplace
        exact obeys_js_bind ⟨hplace, fun z _ => by cases z <;> trivial⟩

theorem fine_put {r : SessionRecord Snap} (h : H r.localAccountId r.sessionId = some (home r))
    (ho : Owned made kv r.localAccountId r) : Fine made core kv H (Sessions.put r) :=
  fun _ => obeys_put (.inr h) ho

/-! ## The commit -/

/-- The arguments of a commit whose session is at home. -/
structure Commits (made : Snap → Id → Prop) (kv : Store Snap) (H : Homes) (a : CommitArgs Snap) :
    Prop where
  link : HasPeer kv a.owner a.peerLinkRecord.peerLinkId a.peer
  session : ∀ r, a.existingSession = some r →
    Read made kv H a.owner a.peerLinkRecord.peerLinkId none r
  ratchet : ∀ s, a.ratchet = some s → made s a.peer

namespace Commits

variable {a : CommitArgs Snap}

theorem device (h : Commits made kv H a) : a.existingSession.bind (·.peerDeviceId) = none := by
  cases he : a.existingSession with
  | none => rfl
  | some r => exact congrArg Prod.snd (h.session r he).home

theorem home (h : Commits made kv H a) (s : Snap) (sid : Id) (now : Nat) :
    home (a.putInput s sid now) = (a.peerLinkRecord.peerLinkId, none) :=
  Prod.ext rfl h.device

theorem peer (h : Commits made kv H a) {s : Snap} (hs : a.snapshot = some s) : made s a.peer := by
  unfold CommitArgs.snapshot at hs
  cases hr : a.ratchet with
  | some s' =>
    rw [hr] at hs
    cases hs
    exact h.ratchet s hr
  | none =>
    rw [hr] at hs
    obtain ⟨r, he, rfl⟩ := Option.map_eq_some_iff.mp hs
    have hread := h.session r he
    -- the record's peer is the link's, and so is the commit's
    have hpeer := hread.owned.link (congrArg Prod.snd hread.home)
    rw [show r.peerLinkId = _ from congrArg Prod.fst hread.home] at hpeer
    exact hpeer.unique h.link ▸ hread.owned.ratchet

theorem owned (h : Commits made kv H a) {s : Snap} (hs : a.snapshot = some s) (sid : Id)
    (now : Nat) : Owned made kv a.owner (a.putInput s sid now) := ⟨h.peer hs, fun _ => h.link⟩

theorem known (h : Commits made kv H a) {r : SessionRecord Snap} (he : a.existingSession = some r)
    (s : Snap) (now : Nat) :
    H a.owner r.sessionId = some (SessionHomes.home (a.putInput s r.sessionId now)) := by
  rw [h.home, (h.session r he).known, (h.session r he).home]

end Commits

theorem fine_commitLink {svc : Service Snap} {a : CommitArgs Snap} {now : Nat}
    {stored : Option (SessionRecord Snap)} {p : Progress Snap} :
    Fine made core kv H (commitLink svc a now stored p) := fine_foot foot_commitLink rfl

theorem obeys_commitPut {svc : Service Snap} {a : CommitArgs Snap} (h : Commits made kv H a)
    {s : Snap} (hs : a.snapshot = some s) {sid : Id} {now : Nat} {d : Option Id}
    (hd : d = some sid ∨ H a.owner sid = some (home (a.putInput s sid now))) :
    Obeys (monitor made kv H) (Law made core kv H) (fun _ _ => True) d (do
      let stored ← track (.writing (a.putInput s sid now)) (Sessions.put (a.putInput s sid now))
      commitLink svc a now (some stored) (.written (a.putInput s sid now)) :
        Tracked Snap (Progress Snap) (CommitResult Snap)) := by
  refine obeys_js_bind (obeys_bind ((obeys_put hd (h.owned hs sid now)).mono fun d' x _ => ?_))
  cases x with
  | error e => trivial
  | ok stored => exact fine_commitLink d'

theorem fine_commitSession {svc : Service Snap} {a : CommitArgs Snap} (h : Commits made kv H a) :
    Fine made core kv H (commitSession svc a) := by
  refine fine_skip (l := [.clock]) (foot_track (foot_clock rfl)) rfl fun c => ?_
  split
  · exact fine_commitLink
  · rename_i s hs
    intro d
    cases he : a.existingSession with
    | some r => exact obeys_commitPut h hs (.inr (h.known he s _))
    | none => exact ⟨trivial, fun i _ => obeys_commitPut h hs (.inl rfl)⟩

theorem fine_rewrite {r : SessionRecord Snap} (h : H r.localAccountId r.sessionId = some (home r))
    (ho : Owned made kv r.localAccountId r) : ∀ {n : Nat}, Fine made core kv H (rewrite r n)
  | 0 => fine_ret
  | n + 1 => by
    refine fine_bind (fine_put h ho) fun x => ?_
    cases x with
    | ok v => exact fine_ret
    | error e => exact fine_rewrite h ho

/-- A commit that failed would have stored this. -/
def Pending (made : Snap → Id → Prop) (kv : Store Snap) (H : Homes) (p : Progress Snap) : Prop :=
  ∀ r, p.sessionPutInput = some r → H r.localAccountId r.sessionId = some (home r) ∧
    Owned made kv r.localAccountId r

theorem throws_track {L : Proc.Exch (sdk Snap) → Prop} {P : π × Err → Prop} {q : π} {x : Sdk Snap α}
    (h : ∀ e, P (q, e)) : Js.Throws L P (track q x) := by
  unfold track
  induction x with
  | ret y =>
    cases y with
    | ok v => exact fun _ he => by cases he
    | error e => exact fun _ he => by cases he; exact h e
  | ask o k ih => exact fun r _ => ih r

/-- What a failed commit was to store is what its arguments say. -/
theorem throws_commitSession {svc : Service Snap} {L : Proc.Exch (sdk Snap) → Prop}
    {a : CommitArgs Snap} :
    Js.Throws L (fun x : Progress Snap × Err =>
          ∀ r, x.1.sessionPutInput = some r →
            ∃ s sid now, a.snapshot = some s ∧ r = a.putInput s sid now ∧
              ∀ e, a.existingSession = some e → sid = e.sessionId) (commitSession svc a) := by
  have hlink : ∀ {now : Nat} {stored : Option (SessionRecord Snap)} {p : Progress Snap}
      {P : Progress Snap × Err → Prop},
      (∀ q e, q.sessionPutInput = p.sessionPutInput → P (q, e)) →
      Js.Throws L P (commitLink svc a now stored p) := by
    intro now stored p P hp
    refine Js.throws_bind (throws_track fun e => hp p e rfl) fun _ => ?_
    refine Js.throws_bind (throws_track fun e => hp p e rfl) fun next => ?_
    refine Js.throws_bind (throws_track fun e => hp _ e rfl) fun event => ?_
    refine Js.throws_bind (throws_track fun e => hp _ e rfl) fun _ => ?_
    refine Js.throws_bind (throws_track fun e => hp _ e rfl) fun _ => ?_
    exact Js.throws_bind (throws_track fun e => hp _ e rfl) fun snapshot => Js.throws_pure
  refine Js.throws_bind (throws_track fun e r hr => by cases hr) fun c => ?_
  split
  · exact hlink fun q e hq r hr => by rw [hq] at hr; cases hr
  · rename_i s hs
    have hput : ∀ sid, (∀ e, a.existingSession = some e → sid = e.sessionId) → Js.Throws L
        (fun x : Progress Snap × Err => ∀ r, x.1.sessionPutInput = some r →
          ∃ s sid now, a.snapshot = some s ∧ r = a.putInput s sid now ∧
            ∀ e, a.existingSession = some e → sid = e.sessionId) (do
        let stored ← track (.writing (a.putInput s sid (asPositiveInt a.atMs c)))
          (Sessions.put (a.putInput s sid (asPositiveInt a.atMs c)))
        commitLink svc a (asPositiveInt a.atMs c) (some stored)
          (.written (a.putInput s sid (asPositiveInt a.atMs c))) :
          Tracked Snap (Progress Snap) (CommitResult Snap)) := by
      intro sid hsid
      refine Js.throws_bind (throws_track fun e r hr => ?_) fun stored => hlink fun q e hq r hr =>
        ?_
      · exact ⟨s, sid, _, hs, (Option.some.inj hr).symm, hsid⟩
      · rw [hq] at hr
        exact ⟨s, sid, _, hs, (Option.some.inj hr).symm, hsid⟩
    cases he : a.existingSession with
    | some r =>
      rw [he] at hput
      exact hput r.sessionId fun e h => by cases h; rfl
    | none =>
      rw [he] at hput
      exact fun i _ => hput i fun e h => by cases h

section

variable [DecidableEq Snap]

theorem fine_confirm {a : CommitArgs Snap} {p : Progress Snap} (hp : Pending made kv H p) :
    Fine made core kv H (confirmAdvancedRatchetDurable a p) := by
  unfold confirmAdvancedRatchetDurable
  split
  · exact fine_skip foot_storedRatchetMatches rfl fun _ => fine_ret
  · split
    · exact fine_ret
    · rename_i input hin
      refine fine_seq (fine_rewrite (hp input hin).1 (hp input hin).2) fun wrote => ?_
      split
      · exact fine_skip foot_storedRatchetMatches rfl fun _ => fine_ret
      · exact fine_ret

theorem fine_recoverRetry {a : CommitArgs Snap} {p rp : Progress Snap} {f : PeerLinkRecord}
    {e : Err} (hp : Pending made kv H rp) : Fine made core kv H (recoverRetry a p f rp e) := by
  unfold recoverRetry
  split
  · exact fine_seq (fine_confirm hp) fun _ => fine_seq fine_ret fun _ =>
      fine_skip (l := []) foot_ensure rfl fun _ => fine_foot foot_keepPlaintext rfl
  · exact fine_skip foot_storedRatchetMatches rfl fun _ =>
      fine_skip (l := []) foot_ensure rfl fun _ =>
      fine_foot foot_keepPlaintext rfl

omit [DecidableEq Snap] in
theorem Commits.pending {a : CommitArgs Snap} {e : SessionRecord Snap} (h : Commits made kv H a)
    (he : a.existingSession = some e) {p : Progress Snap}
    (hp : ∀ r, p.sessionPutInput = some r →
        ∃ s sid now, a.snapshot = some s ∧ r = a.putInput s sid now ∧
          ∀ e, a.existingSession = some e → sid = e.sessionId) : Pending made kv H p := by
  intro r hr
  obtain ⟨s, sid, now, hs, rfl, hsid⟩ := hp r hr
  obtain rfl := hsid e he
  exact ⟨h.known he s now, h.owned hs _ now⟩

theorem fine_recoverLink {svc : Service Snap} {a : CommitArgs Snap} {p : Progress Snap} {e : Err}
    {r : SessionRecord Snap} (h : Commits made kv H a) (he : a.existingSession = some r)
    {f : PeerLinkRecord} (hf : f.peerLinkId = a.peerLinkRecord.peerLinkId) :
    Fine made core kv H (recoverLink svc a p e (some f)) := by
  have hcommits : Commits made kv H { a with peerLinkRecord := f } :=
    ⟨hf.symm ▸ h.link, fun r' hr' => hf.symm ▸ h.session r' hr', h.ratchet⟩
  by_cases hst : f.state = .sessionEstablished
  · rw [show recoverLink svc a p e (some f) = _ from if_pos hst]
    exact fine_foot foot_keepPlaintext rfl
  · rw [show recoverLink svc a p e (some f) = _ from if_neg hst]
    refine fun d => obeys_bind
      (((fine_commitSession hcommits d).and_throws throws_commitSession).mono fun d' x hx => ?_)
    cases x with
    | ok v => trivial
    | error pe => exact fine_recoverRetry (hcommits.pending he (hx.2 pe rfl)) d'

theorem fine_commitAfterDecrypt {svc : Service Snap} {a : CommitArgs Snap} {r : SessionRecord Snap}
    (h : Commits made kv H a) (he : a.existingSession = some r) :
    Fine made core kv H (commitSessionAfterDecrypt svc a) := by
  refine fun d =>
    obeys_bind (((fine_commitSession h d).and_throws throws_commitSession).mono fun d' x hx => ?_)
  cases x with
  | ok v => trivial
  | error pe =>
    refine fine_seq (fine_confirm (h.pending he (hx.2 pe rfl))) (fun dp => ?_) d'
    refine fine_skip (l := []) foot_ensure rfl fun _ => ?_
    exact fine_getById (fun f _ hf _ => fine_recoverLink h he hf) (fine_foot foot_keepPlaintext rfl)

/-! ## Messages -/

theorem fine_commitDecrypt {svc : Service Snap} {owner peer : Id} {link : PeerLinkRecord}
    {record : SessionRecord Snap} {opened : Opened} {s : Snap}
    (hlink : HasPeer kv owner link.peerLinkId peer)
    (hr : Read made kv H owner link.peerLinkId none record)
    (hs : ∀ p, made record.ratchetSnapshot p → made s p) :
    Fine made core kv H (commitDecrypt svc owner peer link record opened s) := by
  have hpeer : made s peer := by
    have hown := hr.owned.link (congrArg Prod.snd hr.home)
    rw [show record.peerLinkId = _ from congrArg Prod.fst hr.home] at hown
    exact hown.unique hlink ▸ hs _ hr.owned.ratchet
  unfold commitDecrypt
  split
  · refine fine_skip (l := [.clock]) (foot_clock rfl) rfl fun now => fine_seq ?_ fun _ => fine_ret
    refine fine_commitAfterDecrypt ⟨hlink, fun r' h => ?_, fun s' h => ?_⟩ rfl
    · cases h
      exact hr
    · cases h
      exact hpeer
  · refine fine_skip (l := [.clock]) (foot_clock rfl) rfl fun now =>
      fine_seq (fine_put (H := H) hr.known ?_) fun _ => ?_
    · refine ⟨hpeer, fun _ => ?_⟩
      rw [show record.peerLinkId = _ from congrArg Prod.fst hr.home]
      exact hlink
    · exact fine_skip foot_buildSnapshot rfl fun _ => fine_ret

variable {svc : Service Snap}

theorem fine_decrypt (hc : Makes core made) (owner peer : Id) (b : Bytes) :
    Fine made core kv H (decryptDirectMessage svc owner peer b) := by
  refine fine_skip (l := []) foot_ensure rfl fun _ =>
    fine_getByPair (fun link _ _ hlink => ?_) fine_ret
  refine fine_orThrow fun _ h => ?_
  cases h
  refine fine_sessionByLink (fun record hr => fine_orThrow fun _ h => ?_) fine_ret
  cases h
  refine fine_skip (l := []) foot_ensure rfl fun _ => fine_core fun n out hout => ?_
  refine fine_skip (l := []) foot_ensure rfl fun _ => ?_
  split
  · exact fine_skip (l := [.count]) (foot_countFailure rfl) rfl fun _ => fine_ret
  · exact fine_skip (l := [.count]) (foot_clearCounts rfl) rfl fun _ =>
      fine_commitDecrypt hlink hr (hc.kept _ _ _ _ _ hout)

omit [DecidableEq Snap] in
theorem fine_encrypt (hc : Makes core made) (owner peer : Id) (b : Bytes) :
    Fine made core kv H (encryptDirectMessage owner peer b) := by
  refine fine_skip (l := []) foot_ensure rfl fun _ =>
    fine_getByPair (fun link _ _ hlink => ?_) fine_ret
  refine fine_orThrow fun _ h => ?_
  cases h
  refine fine_sessionByLink (fun record hr => fine_orThrow fun _ h => ?_) fine_ret
  cases h
  refine fine_skip (l := []) foot_ensure rfl fun _ => fine_core fun n out hout => ?_
  refine fine_skip (l := [.clock]) (foot_clock rfl) rfl fun now =>
    fine_seq (fine_put hr.known ?_) fun _ => fine_ret
  have hown := hr.owned.link (congrArg Prod.snd hr.home)
  rw [show record.peerLinkId = _ from congrArg Prod.fst hr.home] at hown
  refine ⟨hown.unique hlink ▸ hc.sealed _ _ _ _ _ _ hout _ hr.owned.ratchet, fun _ => ?_⟩
  rw [show record.peerLinkId = _ from congrArg Prod.fst hr.home]
  exact hlink

omit [DecidableEq Snap] in
/-- A device session that is read is put back with its ratchet moved. -/
theorem fine_advance {owner link device : Id} {record : SessionRecord Snap} {s : Snap} {now : Nat}
    (hr : Read made kv H owner link (some device) record)
    (hs : ∀ p, made record.ratchetSnapshot p → made s p) :
    Fine made core kv H
      (Sessions.put { record with ratchetSnapshot := s, updatedAtMs := now }) := by
  refine fine_put ?_ ⟨hs _ hr.owned.ratchet, fun hd => ?_⟩
  · show H record.localAccountId record.sessionId = some (home record)
    rw [hr.owner]
    exact hr.known
  · have hdev : record.peerDeviceId = some device := congrArg Prod.snd hr.home
    rw [show record.peerDeviceId = none from hd] at hdev
    cases hdev

omit [DecidableEq Snap] in
theorem fine_attemptDevice (hc : Makes core made) {owner link device : Id} {peer : Option Id}
    {b : Bytes} {require : Bool} :
    Fine made core kv H (attemptDeviceDecrypt owner peer link device b require) := by
  refine fine_withLock (fine_byDevice (fun record hr => fine_seq ?_ fun _ => fine_ret) ?_)
  · refine fine_skip (l := []) foot_ensure rfl fun _ => fine_core fun n out hout => ?_
    dsimp only
    split
    · exact fine_skip (l := [.clock]) (foot_clock rfl) rfl fun now =>
        fine_seq (fine_advance hr (hc.kept _ _ _ _ _ hout)) fun _ => fine_ret
    · exact fine_ret
  · cases require <;> exact fine_ret

omit [DecidableEq Snap] in
theorem fine_trialLoop (hc : Makes core made) {owner link : Id} {peer : Option Id} {b : Bytes} :
    ∀ {rows : List (SessionRecord Snap)},
      Fine made core kv H (trialLoop owner peer link b rows) := by
  intro rows
  induction rows with
  | nil => exact fine_ret
  | cons record rest ih =>
    unfold trialLoop
    split
    · exact ih
    · refine fine_seq (fine_attemptDevice hc) fun result => ?_
      cases result with
      | none => exact ih
      | some x => exact fine_ret

omit [DecidableEq Snap] in
theorem fine_deviceHit {owner device : Id} {row : PeerLinkRecord} {plaintext : Bytes} :
    Fine made core kv H (deviceHit owner row plaintext device : Sdk Snap _) :=
  fine_skip (l := [.count]) (foot_clearCounts rfl) rfl fun _ =>
    fine_skip (l := [.clock]) (foot_clock rfl) rfl fun _ =>
    fine_skip (l := [.count]) (foot_markSuccess rfl) rfl fun _ =>
      fine_skip foot_buildSnapshot rfl fun _ => fine_ret

theorem fine_tryLegacy (hc : Makes core made) {owner : Id} {b : Bytes} {row : PeerLinkRecord}
    (hrow : HasPeer kv owner row.peerLinkId row.peerAccountId) :
    Fine made core kv H (tryLegacy svc owner b row) := by
  refine fine_sessionByLink (fun record hr => ?_) fine_ret
  dsimp only
  split
  · exact fine_ret
  · refine fine_core fun n out hout => ?_
    split
    · exact fine_ret
    · exact fine_skip (l := [.count]) (foot_clearCounts rfl) rfl fun _ =>
        fine_skip (l := [.clock]) (foot_clock rfl) rfl fun _ =>
        fine_skip (l := [.count]) (foot_markSuccess rfl) rfl fun _ =>
        fine_seq (fine_commitDecrypt hrow hr (hc.kept _ _ _ _ _ hout)) fun _ => fine_ret

theorem fine_anyPeerLoop (hc : Makes core made) {owner : Id} {b : Bytes}
    {rows : List PeerLinkRecord} :
    ∀ {candidates : List PeerLinkRecord},
      (∀ r ∈ rows, HasPeer kv owner r.peerLinkId r.peerAccountId) →
      Fine made core kv H (anyPeerLoop svc owner b rows candidates) := by
  induction rows with
  | nil =>
    exact fun _ => fine_skip (l := [.clock]) (foot_clock rfl) rfl fun _ =>
      fine_skip foot_recoveryCandidates rfl fun _ => fine_ret
  | cons row rows ih =>
    intro candidates hrows
    have hrest := fun r hr => hrows r (.tail _ hr)
    refine fine_seq ?_ fun outcome => ?_
    · unfold tryRow
      split
      · refine fine_seq (fine_skip foot_listSessions rfl fun _ => fine_trialLoop hc) fun hit => ?_
        cases hit with
        | none => exact fine_tryLegacy hc (hrows row (.head _))
        | some x => exact fine_deviceHit
      · exact fine_tryLegacy hc (hrows row (.head _))
    · cases outcome with
      | hit r => exact fine_ret
      | skip => exact ih hrest
      | miss => exact ih hrest

omit [DecidableEq Snap] in
/-- What a scan picks out satisfies what every answer to it does. -/
theorem obeys_scan {P : α → Prop} {pick : (k : Key) → Val Snap k → Option α}
    (hpick : ∀ k v x, Law made core kv H ⟨.get k, .ok (some v)⟩ → pick k v = some x → P x) :
    ∀ {ks : List Key} {a : Option Id}, Obeys (monitor made kv H) (Law made core kv H)
      (fun _ y => ∀ xs, y = .ok xs → ∀ x ∈ xs, P x) a (scan pick ks) := by
  intro ks
  induction ks with
  | nil =>
    rintro a xs ⟨⟩ x hx
    cases hx
  | cons k ks ih =>
    refine fun {a} => obeys_js_bind ⟨trivial, fun v hv => ?_⟩
    cases v with
    | error e => rintro xs ⟨⟩
    | ok v =>
      refine obeys_js_bind (ih.mono fun a' y hy => ?_)
      cases y with
      | error e => rintro xs ⟨⟩
      | ok rest =>
        rintro xs ⟨⟩ x hx
        split at hx
        · rename_i y hpicked
          rcases List.mem_cons.mp hx with rfl | hx
          · obtain ⟨v', rfl, hv'⟩ := Option.bind_eq_some_iff.mp hpicked
            exact hpick k v' x hv hv'
          · exact hy rest rfl x hx
        · exact hy rest rfl x hx

omit [DecidableEq Snap] in
theorem fine_listByOwner {owner : Id} {f : List PeerLinkRecord → Sdk Snap β}
    (hf : ∀ rows, (∀ r ∈ rows, HasPeer kv owner r.peerLinkId r.peerAccountId) →
        Fine made core kv H (f rows)) :
    Fine made core kv H (PeerLinks.listByOwner svc.core owner >>= f : Sdk Snap β) := by
  have hpick : ∀ k v r, Law made core kv H ⟨.get k, .ok (some v)⟩ →
      PeerLinks.ownedBy owner k v = some r →
      HasPeer kv owner r.peerLinkId r.peerAccountId := by
    intro k v r hv hr
    cases k with
    | peerLink o l =>
      simp only [PeerLinks.ownedBy] at hr
      split at hr
      · rename_i howner
        cases hr
        have hkey : r.localAccountId = o ∧ r.peerLinkId = l := hv.keyed
        have hpeer : HasPeer kv o l r.peerAccountId := hv.agrees
        rwa [← howner, hkey.1, hkey.2]
      · cases hr
    | _ => cases hr
  refine fun a => obeys_js_bind (obeys_js_bind ⟨trivial, fun ks _ => ?_⟩)
  cases ks with
  | error e => trivial
  | ok ks =>
    refine obeys_js_bind ((obeys_scan hpick).mono fun a' y hy => ?_)
    cases y with
    | error e => trivial
    | ok out =>
      exact hf _ (fun r hr => hy out rfl r ((List.perm_insertionSort _ _).mem_iff.mp hr)) a'

/-! ## Devices -/

omit [DecidableEq Snap] in
/-- A new device session lies under an id drawn for it, else under its device's. -/
theorem fine_persist {owner peer link device : Id} {s : Snap} (hs : made s peer) :
    Fine made core kv H (persistDeviceSession owner peer link device s) := by
  have hput : ∀ {a : Option Id} {sid : Id} (now created : Nat), a = some sid ∨
      H owner sid = some (link, some device) →
      Obeys (monitor made kv H) (Law made core kv H) (fun _ _ => True) a (do
        let stored ← Sessions.put
          { sessionId := sid, peerLinkId := link, localAccountId := owner, peerAccountId := peer,
            peerDeviceId := some device, status := .active, ratchetSnapshot :=
              s, createdAtMs := created,
            updatedAtMs := now, version := 0 }
        return stored.sessionId : Sdk Snap Id) := by
    intro a sid now created h
    refine obeys_js_bind ((obeys_put h ⟨hs, fun h => by cases h⟩).mono fun _ x _ => ?_)
    cases x <;> trivial
  refine fine_skip (l := [.clock]) (foot_clock rfl) rfl fun now => ?_
  refine fine_byDevice (fun record hr a => ?_) fun a => ?_
  · rw [show (reuseSessionId (some record) : Sdk Snap Id) = pure record.sessionId from rfl,
      Js.pure_bind]
    exact hput now _ (.inr (hr.home ▸ hr.known))
  · exact ⟨trivial, fun i _ => hput now _ (.inl rfl)⟩

omit [DecidableEq Snap] in
theorem fine_initiator (hc : Makes core made) {a : InitiatorArgs} :
    Fine made core kv H (establishInitiatorDeviceSession svc a) := by
  refine fine_skip (l := [.crypto]) (foot_core rfl) rfl fun _ => fine_core fun n out hout => ?_
  exact fine_seq (fine_withLock (fine_persist (hc.initiated _ _ _ _ hout))) fun _ => fine_ret

omit [DecidableEq Snap] in
theorem fine_responder (hc : Makes core made) {a : ResponderArgs} :
    Fine made core kv H (establishResponderDeviceSession svc a) := by
  refine fine_core fun n out hout => ?_
  refine fine_skip (l := []) foot_orThrow rfl fun _ => fine_skip (l := []) foot_ensure rfl fun _ =>
    ?_
  exact fine_seq (fine_withLock (fine_persist (hc.responded _ _ _ _ hout))) fun _ => fine_ret

omit [DecidableEq Snap] in
theorem fine_encryptDevice (hc : Makes core made) {owner peer link device : Id} {b : Bytes} :
    Fine made core kv H (encryptForDevice owner peer link device b) := by
  refine fine_skip (l := []) foot_ensure rfl fun _ => fine_withLock ?_
  unfold encryptLocked requireDeviceSession
  rw [Js.bind_assoc]
  refine fine_byDevice (fun record hr => fine_orThrow fun _ h => ?_)
    (fine_orThrow fun _ h => by cases h)
  cases h
  refine fine_core fun n out hout => fine_skip (l := [.clock]) (foot_clock rfl) rfl fun now => ?_
  exact fine_seq (fine_advance hr (hc.sealed _ _ _ _ _ _ hout)) fun _ => fine_ret

/-! ## Handshakes -/

/-- A function whose result is known something about. -/
abbrev FineTo (made : Snap → Id → Prop) (core : Core Snap) (kv : Store Snap)
    (H : Homes) (P : α → Prop) (p : Sdk Snap α) : Prop :=
  ∀ a, Obeys (monitor made kv H) (Law made core kv H) (fun _ x => ∀ v, x = .ok v → P v) a p

omit [DecidableEq Snap] in
theorem fine_to {P : α → Prop} {p : Sdk Snap α} {f : α → Sdk Snap β}
    (hp : FineTo made core kv H P p) (hf : ∀ v, P v → Fine made core kv H (f v)) :
    Fine made core kv H (p >>= f : Sdk Snap β) := by
  refine fun a => obeys_js_bind ((hp a).mono fun a' x hx => ?_)
  cases x with
  | error e => trivial
  | ok v => exact hf v (hx v rfl) a'

omit [DecidableEq Snap] in
theorem fineTo_write {r next : PeerLinkRecord} (hpeer : next.peerAccountId = r.peerAccountId)
    (hlink : next.peerLinkId = r.peerLinkId) :
    FineTo made core kv H (fun v => v.peerLinkId = r.peerLinkId ∧
      HasPeer kv r.localAccountId r.peerLinkId r.peerAccountId)
      (do
        kvSet (.peerLink r.localAccountId r.peerLinkId) next
        kvSet (.pair r.localAccountId r.peerAccountId) r.peerLinkId
        return next : Sdk Snap PeerLinkRecord) := by
  refine fun a => obeys_js_bind ⟨trivial, fun x hx => ?_⟩
  cases x with
  | error e => rintro v ⟨⟩
  | ok u =>
    have hplace : HasPeer kv r.localAccountId r.peerLinkId next.peerAccountId := hx.places
    refine obeys_js_bind ⟨trivial, fun y _ => ?_⟩
    cases y with
    | error e => rintro v ⟨⟩
    | ok u =>
      rintro v ⟨⟩
      exact ⟨hlink, hpeer ▸ hplace⟩

omit [DecidableEq Snap] in
theorem fineTo_skip {l : List OpClass} {P : β → Prop} {p : Sdk Snap α} {f : α → Sdk Snap β}
    (hp : Foot l p) (hl : l.all (fun c => !homeWrites.contains c) = true)
    (hf : ∀ x, FineTo made core kv H P (f x)) : FineTo made core kv H P (p >>= f : Sdk Snap β) := by
  refine fun a => obeys_js_bind ((fine_foot hp hl a).mono fun a' x _ => ?_)
  cases x with
  | error e => rintro v ⟨⟩
  | ok v => exact hf v a'

omit [DecidableEq Snap] in
theorem fineTo_create {r : PeerLinkRecord} :
    FineTo made core kv H (fun v =>
          v.peerLinkId = r.peerLinkId ∧ HasPeer kv r.localAccountId r.peerLinkId r.peerAccountId)
      (PeerLinks.create r) :=
  fineTo_skip (l := [.get .peerLink]) (foot_get rfl) rfl fun _ =>
    fineTo_skip (l := []) foot_ensure rfl fun _ =>
    fineTo_skip (l := [.get .pair]) (foot_get rfl) rfl fun _ =>
      fineTo_skip (l := []) foot_ensure rfl fun _ =>
    fineTo_write rfl rfl

omit [DecidableEq Snap] in
theorem fineTo_responderLink {x : Authenticated} {owner : Id} {now : Nat}
    {existing : Option PeerLinkRecord}
    (h : ∀ e, existing = some e → HasPeer kv owner e.peerLinkId x.peerAccountId) :
    FineTo made core kv H (fun v => HasPeer kv owner v.peerLinkId x.peerAccountId)
      (responderLink x owner now existing) := by
  cases existing with
  | some e =>
    rintro a v ⟨⟩
    exact h e rfl
  | none =>
    refine fineTo_skip (l := [.newId]) (foot_stableId rfl) rfl fun i a => ?_
    refine (fineTo_create a).mono fun _ y hy v hv => ?_
    rw [(hy v hv).1]
    exact (hy v hv).2

omit [DecidableEq Snap] in
theorem fineTo_responder (hc : Makes core made) {owner : Id} {b : Bytes} {x : Authenticated} :
    FineTo made core kv H (fun s => made s x.peerAccountId)
      (establishAsResponder svc owner b x) := by
  refine fineTo_skip foot_requireBound rfl fun identity a => obeys_js_bind ⟨trivial, fun y hy => ?_⟩
  obtain ⟨n, hn⟩ := hy.lawful
  cases y with
  | error e => rintro v ⟨⟩
  | ok out =>
    rintro v ⟨⟩
    exact hc.responded _ n _ _ hn.symm

omit [DecidableEq Snap] in
theorem fine_establishLink (hc : Makes core made) {owner : Id} {x : Authenticated} {b : Bytes}
    {ex : Bool} {name : String} {now : Nat} {existing : Option PeerLinkRecord}
    (h : ∀ e, existing = some e → HasPeer kv owner e.peerLinkId x.peerAccountId) :
    Fine made core kv H (establishLink svc owner x b ex name now existing) := by
  refine fine_to (fineTo_responderLink h) fun link hlink =>
    fine_to (fineTo_responder hc) fun s hs => ?_
  have hrest : ∀ existing, (∀ r, existing = some r → Read made kv H owner link.peerLinkId none r) →
      Fine made core kv H (untrack (commitSession svc
        { owner, peerLinkRecord := link, peer := x.peerAccountId, ratchet := some s,
          sessionStatus := .active, peerLinkState := .sessionEstablished,
          existingSession := existing, resetSessionCreatedAt := false,
          peerInboxId := some (link.peerInboxId <|> x.handshake.senderInboxId), eventType :=
            .handshakeReceived,
          eventSummary := "Handshake received and session established",
          eventDetails := [("inviteId", some x.inviteId.val)], atMs := now })) := fun existing hr =>
    fine_untrack (fine_commitSession ⟨hlink, hr, fun s' h => by cases h; exact hs⟩)
  have hdone : ∀ commit : CommitResult Snap, Fine made core kv H (do
      let attemptId ← stableId "hs"
      let _ ← HandshakeAttempts.create
        (responderAttempt attemptId commit.peerLinkRecord.peerLinkId owner
        x.inviteId (commit.sessionRecord.map (·.sessionId)) now)
      if ex then
        let _ ← kvDelete (.invitePreKey owner x.inviteId)
        return .accepted commit.snapshot commit.event x.handshake.ackNonce
          x.handshake.senderDisplayName name
      else
        return .accepted commit.snapshot commit.event x.handshake.ackNonce
          x.handshake.senderDisplayName name :
        Sdk Snap HandshakeOutcome) := by
    intro commit
    refine fine_skip (l := [.newId]) (foot_stableId rfl) rfl fun _ =>
      fine_skip foot_attemptCreate rfl fun _ => ?_
    split
    · exact fine_skip (l := [.delete .invitePreKey]) (foot_delete rfl) rfl fun _ => fine_ret
    · exact fine_ret
  refine fine_sessionByLink (fun r hr => fine_seq (hrest _ fun r' h => ?_) hdone)
    (fine_seq (hrest _ fun r' h => ?_) hdone)
  · cases h
    exact hr
  · cases h

omit [DecidableEq Snap] in
theorem fine_verdict {owner id peer : Id} {record : Option InviteRecord} :
    Fine made core kv H (inviteVerdict owner id peer record) := by
  cases record with
  | none => exact fine_ret
  | some _ =>
    refine fine_withLock (fine_skip foot_inviteGet rfl fun found => ?_)
    cases found with
    | none => exact fine_ret
    | some fresh =>
      refine fine_skip (l := [.clock]) (foot_clock rfl) rfl fun now => ?_
      split
      · exact fine_ret
      split
      · exact fine_ret
      split
      · exact fine_ret
      · exact fine_skip foot_inviteSave rfl fun _ => fine_ret

omit [DecidableEq Snap] in
theorem fine_handshake (hc : Makes core made) (owner : Id) (b : Bytes) :
    Fine made core kv H (handleIncomingHandshakePacket svc owner b) := by
  refine fine_skip (l := []) foot_ensure rfl fun _ => ?_
  split
  · exact fine_ret
  · exact fine_ret
  · refine fine_skip foot_authenticate rfl fun x => fine_skip foot_inviteGet rfl fun record =>
      fine_seq fine_verdict fun verdict => ?_
    cases verdict with
    | reject _ => exact fine_ret
    | proceed ex al =>
      refine fine_skip (l := [.get .invitePreKey]) (foot_get rfl) rfl fun _ =>
        fine_skip (l := []) foot_orThrow rfl
        fun _ => fine_skip (l := [.clock]) (foot_clock rfl) rfl fun _ => ?_
      refine fine_getByPair (fun e _ _ hpeer => ?_) (fine_establishLink hc fun e h => by cases h)
      dsimp only
      split
      · exact fine_skip foot_buildSnapshot rfl fun _ => fine_ret
      · exact fine_establishLink hc fun e' h => by cases h; exact hpeer

omit [DecidableEq Snap] in
theorem fineTo_update {r : PeerLinkRecord} {v : Nat} :
    FineTo made core kv H (fun v =>
          v.peerLinkId = r.peerLinkId ∧ HasPeer kv r.localAccountId r.peerLinkId r.peerAccountId)
      (PeerLinks.update r v) :=
  fineTo_skip (l := [.get .peerLink]) (foot_get rfl) rfl fun _ =>
    fineTo_skip (l := []) foot_orThrow rfl fun _ =>
    fineTo_skip (l := []) foot_ensure rfl fun _ => fineTo_skip (l := []) foot_ensure rfl fun _ =>
    fineTo_skip (l := []) foot_ensure rfl fun _ => fineTo_skip (l := []) foot_ensure rfl fun _ =>
    fineTo_write rfl rfl

omit [DecidableEq Snap] in
theorem fine_acceptEstablish (hc : Makes core made) {a : AcceptArgs} {inviter id link : Id}
    {now : Nat} {existing : Option PeerLinkRecord} {r : PeerLinkRecord}
    {attempt : HandshakeAttemptRecord} (hr : r.peerLinkId = link)
    (hlink : HasPeer kv a.acceptor link inviter) :
    Fine made core kv H (acceptEstablish svc a inviter id link now existing r attempt) := by
  subst hr
  refine fine_skip foot_appendEvent rfl fun _ => fine_skip foot_requireBound rfl fun identity => ?_
  refine fine_core fun n out hout => ?_
  have hprior : FineTo made core kv H (fun x => ∀ s, x = some s →
      Read made kv H a.acceptor r.peerLinkId none s)
      (priorSession a.acceptor r.peerLinkId existing) := by
    cases existing with
    | none =>
      rintro d v ⟨⟩ s h
      cases h
    | some e =>
      refine fun d => obeys_sessionByLink (fun s hs v h s' h' => ?_)
        (fun v h s' h' => ?_) fun e v h => by
          cases h
      · cases h
        cases h'
        exact hs
      · cases h
        cases h'
  refine fine_to hprior fun session hsession => ?_
  refine fine_seq (fine_untrack (fine_commitSession ⟨hlink, hsession, fun s h => ?_⟩)) fun _ =>
    fine_skip foot_sendIfAsked rfl fun _ => fine_skip foot_buildSnapshot rfl fun _ => fine_ret
  cases h
  exact hc.initiated _ _ _ _ hout

omit [DecidableEq Snap] in
theorem fine_acceptRest (hc : Makes core made) {a : AcceptArgs} {inviter link : Id} {now : Nat}
    {found : Option InviteRecord} {existing : Option PeerLinkRecord} {r : PeerLinkRecord}
    {id : Option Id} (hr : r.peerLinkId = link) (hlink : HasPeer kv a.acceptor link inviter) :
    Fine made core kv H (do
      storePostCap a.acceptor link a.envelope.postCap
      let attemptId ← stableId "hs"
      let inviteId ← Js.orThrow id (svc.core.requireIdError "inviteId")
      let attempt ← HandshakeAttempts.create (newAttempt a attemptId link inviteId now)
      backLinkInvite found link now
      acceptEstablish svc a inviter inviteId link now existing r attempt :
        Sdk Snap AcceptResult) := by
  have hback : Fine made core kv H (backLinkInvite found link now) := by
    cases found with
    | none => exact fine_ret
    | some l =>
      refine fine_skip foot_inviteGet rfl fun fresh => ?_
      cases fresh with
      | none => exact fine_ret
      | some f => exact fine_skip foot_inviteSave rfl fun _ => fine_ret
  exact fine_skip foot_storePostCap rfl fun _ =>
    fine_skip (l := [.newId]) (foot_stableId rfl) rfl fun _ =>
    fine_skip (l := []) foot_orThrow rfl fun _ => fine_skip foot_attemptCreate rfl fun _ =>
    fine_seq hback fun _ => fine_acceptEstablish hc hr hlink

omit [DecidableEq Snap] in
theorem fineTo_commitAccept {a : AcceptArgs} {inviter link : Id} {now : Nat}
    {existing : Option PeerLinkRecord}
    (h : existing.isSome = true → HasPeer kv a.acceptor link inviter) :
    FineTo made core kv H (fun v => v.peerLinkId = link ∧ HasPeer kv a.acceptor link inviter)
      (commitAccept svc a inviter link now existing) := by
  refine fineTo_skip (l := []) foot_orThrow rfl fun _ =>
    fineTo_skip (l := []) foot_orThrow rfl fun _ d => ?_
  cases existing with
  | some e => exact (fineTo_update d).mono fun _ x hx v hv => ⟨(hx v hv).1, h rfl⟩
  | none => exact (fineTo_create d).mono fun _ x hx v hv => ⟨(hx v hv).1, (hx v hv).2⟩

omit [DecidableEq Snap] in
theorem fine_acceptFresh (hc : Makes core made) {a : AcceptArgs} {inviter : Id} {now : Nat}
    {existing : Option PeerLinkRecord}
    (h : ∀ e, existing = some e → HasPeer kv a.acceptor e.peerLinkId inviter) :
    Fine made core kv H (acceptFresh svc a inviter now existing) := by
  refine fine_skip foot_inviteByHash rfl fun found => ?_
  have hlink : FineTo made core kv H (fun link => existing.isSome = true →
      HasPeer kv a.acceptor link inviter)
      (acceptLinkId existing) := by
    cases existing with
    | some e =>
      rintro d v ⟨⟩ _
      exact h e rfl
    | none => exact fun d => ⟨trivial, fun i _ v _ hn => by cases hn⟩
  exact fine_to hlink fun link hl => fine_to (fineTo_commitAccept hl) fun r hr =>
    fine_acceptRest hc hr.1 hr.2

omit [DecidableEq Snap] in
theorem fine_accept (hc : Makes core made) (a : AcceptArgs) :
    Fine made core kv H (acceptInvite svc a) := by
  refine fine_skip foot_verifyInvite rfl fun v => fine_getByPair (fun e _ _ hlink => ?_)
    (fine_acceptFresh hc fun e h => by cases h)
  dsimp only
  split
  · exact fine_acceptFresh hc fun e' h => by cases h; exact hlink
  · exact fine_skip foot_appendEvent rfl fun _ => fine_skip foot_buildSnapshot rfl fun _ => fine_ret

omit [DecidableEq Snap] in
theorem fine_ack (owner : Id) (b : Bytes) :
    Fine made core kv H (handleIncomingHandshakeAck svc owner b) := by
  unfold handleIncomingHandshakeAck
  split
  · exact fine_ret
  · rename_i ack _
    refine fine_getByPair (fun link _ _ hlink => ?_) fine_ret
    refine fine_skip foot_checkControl rfl fun ok => ?_
    split
    · refine fine_skip (l := [.clock]) (foot_clock rfl) rfl fun now => ?_
      refine fine_sessionByLink
        (fun r hr => fine_bind
        (fine_untrack (fine_commitSession ⟨hlink, fun r' h => ?_, fun s h => by cases h⟩)) ?_)
        (fine_bind (fine_untrack
        (fine_commitSession ⟨hlink, fun r' h => (by cases h), fun s h => by cases h⟩)) ?_)
      · cases h
        exact hr
      all_goals
        intro x
        cases x with
        | ok commit => exact fine_ret
        | error e =>
          refine fine_getByPair (fun f _ _ _ => ?_) fine_ret
          dsimp only
          split
          · exact fine_skip foot_buildSnapshot rfl fun _ => fine_ret
          · exact fine_ret
    · exact fine_ret

omit [DecidableEq Snap] in
theorem fine_expire {r : PeerLinkRecord} : Fine made core kv H (expireHandshakeIfStale r) := by
  unfold expireHandshakeIfStale
  split
  · exact fine_ret
  · refine fine_skip (l := [.clock]) (foot_clock rfl) rfl fun _ => ?_
    split
    · exact fine_ret
    · refine fine_skip (l := [.clock]) (foot_clock rfl) rfl fun _ => fine_bind
        (fine_skip foot_linkUpdate rfl fun _ => fine_skip foot_appendEvent rfl fun _ =>
        fine_ret) fun x => ?_
      cases x with
      | ok updated => exact fine_ret
      | error e => exact fine_skip foot_linkById rfl fun _ => fine_ret

omit [DecidableEq Snap] in
theorem fine_snapshotRows :
    ∀ {rows : List PeerLinkRecord}, Fine made core kv H (snapshotRows rows) := by
  intro rows
  induction rows with
  | nil => exact fine_ret
  | cons r rows ih =>
    exact fine_seq fine_expire fun _ => fine_skip foot_buildSnapshot rfl fun _ =>
      fine_seq ih fun _ => fine_ret

theorem fine_program (hc : Makes core made) (c : Call) : Fine made core kv H (program svc c) := by
  cases c with
  | encrypt owner peer m => exact fine_seq (fine_encrypt hc owner peer m) fun _ => fine_ret
  | decrypt owner peer b => exact fine_seq (fine_decrypt hc owner peer b) fun _ => fine_ret
  | decryptAny owner b =>
    refine fine_seq (fine_skip (l := []) foot_ensure rfl fun _ => ?_) fun _ => fine_ret
    exact fine_listByOwner fun rows hrows => fine_anyPeerLoop hc hrows
  | ack owner b => exact fine_seq (fine_ack owner b) fun _ => fine_ret
  | reject owner b =>
    refine fine_seq ?_ fun _ => fine_ret
    unfold handleHandshakeReject
    split
    · exact fine_ret
    · refine fine_getByPair (fun link _ _ _ => ?_) fine_ret
      refine fine_skip foot_checkControl rfl fun ok => ?_
      split
      · exact fine_skip (l := [.clock]) (foot_clock rfl) rfl fun _ =>
          fine_skip foot_sessionByLink rfl fun _ =>
          fine_skip foot_dropSession rfl fun _ =>
            fine_skip (l := [.delete .postCap]) (foot_delete rfl) rfl fun _ =>
          fine_skip foot_listAttempts rfl fun _ => fine_skip foot_rejectAttempts rfl fun _ =>
          fine_skip (l := []) foot_checkTransition rfl fun _ =>
            fine_skip foot_linkUpdate rfl fun _ =>
          fine_skip foot_appendEvent rfl fun _ => fine_skip foot_buildSnapshot rfl fun _ => fine_ret
      · exact fine_ret
  | accept a => exact fine_seq (fine_accept hc a) fun _ => fine_ret
  | handshake owner b => exact fine_seq (fine_handshake hc owner b) fun _ => fine_ret
  | join owner id joiner now =>
    refine fine_seq (fine_withLock (fine_skip foot_inviteGet rfl fun found => ?_)) fun _ => fine_ret
    cases found with
    | none => exact fine_ret
    | some fresh =>
      dsimp only
      split
      · exact fine_ret
      split
      · exact fine_ret
      split
      · exact fine_ret
      split
      · exact fine_ret
      · exact fine_skip foot_inviteSave rfl fun _ => fine_ret
  | encryptDevice owner peer link device b =>
    exact fine_seq (fine_encryptDevice hc) fun _ => fine_ret
  | decryptDevice owner peer link device b =>
    exact fine_seq (fine_seq (fine_attemptDevice hc) fun _ => fine_foot (l := []) foot_orThrow rfl)
      fun _ => fine_ret
  | trialDevices owner peer link b =>
    exact fine_seq (fine_skip foot_listSessions rfl fun _ => fine_trialLoop hc) fun _ => fine_ret
  | initiateDevice a => exact fine_seq (fine_initiator hc) fun _ => fine_ret
  | respondDevice a => exact fine_seq (fine_responder hc) fun _ => fine_ret
  | upsert a =>
    refine fine_seq (fine_skip (l := []) foot_orThrow rfl fun _ =>
      fine_skip (l := []) foot_orThrow rfl fun _ =>
      fine_skip (l := []) foot_orThrow rfl fun _ => fine_skip (l := []) foot_orThrow rfl fun _ =>
      fine_skip foot_getByPair rfl fun existing => ?_) fun _ => fine_ret
    cases existing with
    | some e => exact fine_ret
    | none =>
      exact fine_skip (l := [.clock]) (foot_clock rfl) rfl fun _ => fine_foot foot_linkCreate rfl
  | getLink owner link =>
    refine fine_seq (fine_skip foot_linkById rfl fun found => ?_) fun _ => fine_ret
    cases found with
    | none => exact fine_ret
    | some r =>
      exact fine_seq fine_expire fun _ => fine_skip foot_buildSnapshot rfl fun _ => fine_ret
  | listLinks owner =>
    exact fine_seq (fine_skip foot_listLinks rfl fun _ => fine_seq fine_snapshotRows fun _ =>
      fine_ret) fun _ => fine_ret

end

end

end RezSdk.L4.SessionHomes
