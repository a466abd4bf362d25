import RezSdk.L3Service.Counting
import RezSdk.L4Runs.CommitDurability
import RezSdk.L4Runs.Ratchet

/-!
# The legacy 1:1 ratchet under concurrent calls

`encryptDirectMessage`, `decryptDirectMessage`, `decryptDirectMessageAnyPeer`
and `handleIncomingHandshakeAck` load the session record, run the codec and
write the record back, with no lock around the three. A second call that
loads the record in between seals from the same snapshot
(`interleaved_encrypts`). A run is free of that exactly as long as every
session write finds the ratchet its call started from still stored, or the
one that same call has already written (`Uncontended`); then no snapshot is
sealed from twice and none is rolled back (`legacy_ratchet`).
-/
namespace RezSdk.L4.LegacyRatchet

open RezSdk.L1 RezSdk.L2 RezSdk.L3 RezSdk.Lineage RezSdk.L4.Ratchet

variable {Snap : Type}

/-! ## What each call does on its own -/

/-- A session write stores what the last codec call returned. -/
def Fits (core : Core Snap) (a : Seen Snap) (s : Snap) : Prop :=
  ∀ b s', a.codec = some (b, s') → s = s' ∧ Relation.ReflGen (Adv core) b s'

def monitor (core : Core Snap) : Monitor (sdk Snap) (Seen Snap) where
  next := watch
  may a
    | .set (.session ..) r => Fits core a r.ratchetSnapshot
    | .delete (.session ..) => False
    | _ => True

def watched : List OpClass := [.codec, .set .session, .delete .session]

theorem watches (core : Core Snap) : Watches (monitor core) watched := by
  intro o ho _ a
  cases o with
  | set k v => cases k <;> first | exact ⟨trivial, fun _ => rfl⟩ | cases ho
  | delete k => cases k <;> first | exact ⟨trivial, fun _ => rfl⟩ | cases ho
  | core q => cases q <;> first | exact ⟨trivial, fun _ => rfl⟩ | cases ho
  | _ => exact ⟨trivial, fun _ => rfl⟩

variable {svc : Service Snap} {a : Seen Snap} {α : Type}

theorem reflGen_opened {core : Core Snap} (hc : Codec core) {b s : Snap} {pkt : Bytes} {n : Nat}
    {o : Opened} (h : core.answer (.decryptIncoming b pkt) n = .ok (o, s)) :
    Relation.ReflGen (Adv core) b s := by
  cases ho : o.opened with
  | true => exact .single (.opened h ho)
  | false => rw [hc.still b pkt n o s h ho]

theorem obeys_put {core : Core Snap} {L : Proc.Exch (sdk Snap) → Prop}
    {Q : Seen Snap → Except Err (SessionRecord Snap) → Prop} {r : SessionRecord Snap}
    (hfit : Fits core a r.ratchetSnapshot)
    (hok : ∀ v, v.sessionId = r.sessionId → v.status = r.status →
      Q { a with puts := ((r.localAccountId, r.sessionId), a.base r.ratchetSnapshot,
        r.ratchetSnapshot) :: a.puts } (.ok v))
    (herr : ∀ a' e, a'.codec = a.codec → Q a' (.error e)) :
    Obeys (monitor core) L Q a (Sessions.put r) := by
  refine ⟨trivial, fun x _ => ?_⟩
  cases x with
  | error e => exact herr a e rfl
  | ok existing =>
    refine ⟨hfit, fun y _ => ?_⟩
    cases y with
    | error e => exact herr _ e rfl
    | ok u =>
      refine (watches core).skip_bind (l := [.set .sessionByDevice, .set .sessionByLink]) ?_ rfl
        (fun e => herr _ e rfl) fun _ => hok _ rfl rfl
      unfold Sessions.setIndex
      split
      · exact foot_set rfl trivial
      · exact foot_set rfl trivial

/-- The commit writes the given snapshot and makes no codec call. -/
theorem obeys_commitSession {L : Proc.Exch (sdk Snap) → Prop} {args : CommitArgs Snap}
    (hfit : ∀ s, args.snapshot = some s → Fits svc.core a s) :
    Obeys (monitor svc.core) L (fun a' _ => a'.codec = a.codec) a (commitSession svc args) := by
  unfold commitSession
  refine (watches _).skip_bind (foot_track (foot_clock (l := [.clock]) rfl)) rfl
    (fun _ => rfl) fun c => ?_
  cases hs : args.snapshot with
  | none => exact (watches _).skip foot_commitLink rfl fun _ => rfl
  | some s =>
    refine (watches _).skip_bind (l := [.newId]) (foot_track ?_) rfl (fun _ => rfl) fun sid => ?_
    · unfold commitSessionId
      split
      · exact foot_pure
      · exact foot_stableId rfl
    · refine obeys_track (obeys_put (hfit s hs) (fun v _ _ => ?_) fun a' e ha => ha)
      exact (watches _).skip foot_commitLink rfl fun _ => rfl

/-! ## The recovery -/

theorem obeys_rewrite {core : Core Snap} {L : Proc.Exch (sdk Snap) → Prop} {r : SessionRecord Snap}
    (hfit : Fits core a r.ratchetSnapshot) :
    ∀ {n : Nat} {a' : Seen Snap}, a'.codec = a.codec →
      Obeys (monitor core) L (fun a' _ => a'.codec = a.codec) a' (rewrite r n)
  | 0, _, h => h
  | n + 1, a', h => by
    have hfit' : Fits core a' r.ratchetSnapshot := by simpa only [Fits, h] using hfit
    refine obeys_attempt (obeys_put hfit' (fun v _ _ => h) fun a'' e h' => ?_)
    exact obeys_rewrite hfit (h'.trans h)

theorem obeys_confirm [DecidableEq Snap] {core : Core Snap} {L : Proc.Exch (sdk Snap) → Prop}
    {args : CommitArgs Snap} {p : Progress Snap}
    (hfit : ∀ r, p.sessionPutInput = some r → Fits core a r.ratchetSnapshot) :
    Obeys (monitor core) L (fun a' _ => a'.codec = a.codec) a
      (confirmAdvancedRatchetDurable args p) := by
  unfold confirmAdvancedRatchetDurable
  split
  · exact (watches core).skip_bind foot_storedRatchetMatches rfl (fun _ => rfl) fun _ => rfl
  · split
    · exact rfl
    · rename_i r hr
      refine obeys_js_bind ((obeys_rewrite (hfit r hr) rfl).mono fun a' x h => ?_)
      cases x with
      | error e => exact h
      | ok wrote =>
        cases wrote with
        | false => exact h
        | true =>
          exact (watches core).skip_bind foot_storedRatchetMatches rfl (fun _ => h) fun _ => h

theorem obeys_recoverRetry [DecidableEq Snap] {core : Core Snap} {L : Proc.Exch (sdk Snap) → Prop}
    {args : CommitArgs Snap} {p rp : Progress Snap} {f : PeerLinkRecord} {e : Err}
    (hfit : ∀ r, rp.sessionPutInput = some r → Fits core a r.ratchetSnapshot) :
    Obeys (monitor core) L (fun _ _ => True) a (recoverRetry args p f rp e) := by
  have hrest : ∀ {a' : Seen Snap} (durable : Bool), Obeys (monitor core) L (fun _ _ => True) a'
      ((do Js.ensure durable e; keepPlaintext f (some (.of (failedStage rp) e))) : Sdk Snap _) := by
    intro a' durable
    exact (watches core).skip_bind (l := []) foot_ensure rfl (fun _ => trivial) fun _ =>
      (watches core).skip foot_keepPlaintext rfl fun _ => trivial
  unfold recoverRetry
  split
  · refine obeys_js_bind ((obeys_confirm hfit).mono fun a' x _ => ?_)
    cases x with
    | error e => trivial
    | ok r => exact hrest r.1
  · exact (watches core).skip_bind foot_storedRatchetMatches rfl (fun _ => trivial) hrest

/-- The progress of a failed commit retains a put of the given snapshot. -/
theorem commitSession_keeps {args : CommitArgs Snap} {s : Snap} (hs : args.snapshot = some s)
    (τ : List (Proc.Exch (sdk Snap))) (x : Except (Progress Snap × Err) (CommitResult Snap))
    (h : Proc.Trace (commitSession svc args) τ x) :
    ∀ p e, x = .error (p, e) → ∀ r, p.sessionPutInput = some r → r.ratchetSnapshot = s := by
  rintro p e rfl
  exact (CommitDurability.commitSession_error hs h).snapshot

theorem obeys_commitAfterDecrypt [DecidableEq Snap] {L : Proc.Exch (sdk Snap) → Prop}
    {args : CommitArgs Snap} {s : Snap} (hr : args.ratchet = some s) (hfit : Fits svc.core a s) :
    Obeys (monitor svc.core) L (fun _ _ => True) a (commitSessionAfterDecrypt svc args) := by
  have hcommit : ∀ {a' : Seen Snap} (args' : CommitArgs Snap), args'.ratchet = some s →
      a'.codec = a.codec → Obeys (monitor svc.core) L (fun a'' x => a''.codec = a.codec ∧
        ∀ p e, x = .error (p, e) → ∀ r, p.sessionPutInput = some r → r.ratchetSnapshot = s) a'
        (commitSession svc args') := by
    intro a' args' hr' ha'
    have hs' := CommitDurability.CommitArgs.snapshot_eq hr'
    refine ((obeys_commitSession fun s' hs'' => ?_).and_result (commitSession_keeps hs')).mono
      fun _ _ h => ⟨h.1.trans ha', h.2⟩
    cases hs'.symm.trans hs''
    simpa only [Fits, ha'] using hfit
  have hof : ∀ {a' : Seen Snap} {p : Progress Snap}, a'.codec = a.codec →
      (∀ r, p.sessionPutInput = some r → r.ratchetSnapshot = s) →
      ∀ r, p.sessionPutInput = some r → Fits svc.core a' r.ratchetSnapshot := by
    intro a' p ha' hp r hr'
    rw [hp r hr']
    simpa only [Fits, ha'] using hfit
  refine obeys_bind ((hcommit args hr rfl).mono fun a₁ x h => ?_)
  cases x with
  | ok r => trivial
  | error pe =>
    obtain ⟨p, e⟩ := pe
    refine obeys_js_bind ((obeys_confirm (hof h.1 (h.2 p e rfl))).mono fun a₂ y h₂ => ?_)
    cases y with
    | error e => trivial
    | ok dp =>
      obtain ⟨durable, p'⟩ := dp
      refine (watches _).skip_bind (l := []) foot_ensure rfl (fun _ => trivial) fun _ => ?_
      refine (watches _).skip_bind foot_linkById rfl (fun _ => trivial) fun fresh => ?_
      cases fresh with
      | none => exact (watches _).skip foot_keepPlaintext rfl fun _ => trivial
      | some f =>
        by_cases hst : f.state = .sessionEstablished
        · simp only [recoverLink, hst]
          exact (watches _).skip foot_keepPlaintext rfl fun _ => trivial
        · simp only [recoverLink, hst]
          refine obeys_bind
            ((hcommit { args with peerLinkRecord := f } hr (h₂.trans h.1)).mono fun a₃ z h₃ => ?_)
          cases z with
          | ok r => trivial
          | error pe =>
            obtain ⟨rp, e'⟩ := pe
            exact obeys_recoverRetry (hof h₃.1 (h₃.2 rp e' rfl))

/-! ## The four calls -/

/-- A sealing call is the last codec call of its function. -/
theorem obeys_seal {core : Core Snap} {Q : Seen Snap → Except Err α → Prop} {b : Snap} {peer : Id}
    {m : Bytes} {f : Bytes × Snap → Sdk Snap α} (he : ∀ e, Q a (.error e))
    (hf : ∀ pkt s, Adv core b s →
        Obeys (monitor core) (Lawful core) Q { a with codec := some (b, s), seals := b :: a.seals }
          (f (pkt, s))) :
    Obeys (monitor core) (Lawful core) Q a
      (callCore (.encryptForPeer b peer m) >>= f : Sdk Snap α) := by
  refine obeys_js_bind ⟨trivial, fun x hx => ?_⟩
  obtain ⟨n, hn⟩ := hx
  cases x with
  | error e => exact he e
  | ok v => exact hf v.1 v.2 (.sealed hn.symm)

theorem obeys_open {core : Core Snap} (hc : Codec core) {Q : Seen Snap → Except Err α → Prop}
    {b : Snap} {pkt : Bytes} {f : Opened × Snap → Sdk Snap α} (he : ∀ e, Q a (.error e))
    (hf : ∀ o s, Relation.ReflGen (Adv core) b s →
        Obeys (monitor core) (Lawful core) Q { a with codec := some (b, s) } (f (o, s))) :
    Obeys (monitor core) (Lawful core) Q a
      (callCore (.decryptIncoming b pkt) >>= f : Sdk Snap α) := by
  refine obeys_js_bind ⟨trivial, fun x hx => ?_⟩
  obtain ⟨n, hn⟩ := hx
  cases x with
  | error e => exact he e
  | ok v => exact hf v.1 v.2 (reflGen_opened hc hn.symm)

theorem fits_codec {core : Core Snap} {b s : Snap} (h : Relation.ReflGen (Adv core) b s)
    (ha : a.codec = some (b, s)) : Fits core a s := by
  intro b' s' h'
  cases ha.symm.trans h'
  exact ⟨rfl, h⟩

theorem obeys_encrypt {core : Core Snap} (owner peer : Id) (m : Bytes) :
    Obeys (monitor core) (Lawful core)
      (fun a x => ∀ r, x = .ok r → Sealed core owner r.sessionId a) .start
      (encryptDirectMessage owner peer m) := by
  unfold encryptDirectMessage
  refine (watches core).skip_bind (l := []) foot_ensure rfl (fun _ _ h => by cases h) fun _ => ?_
  refine (watches core).skip_bind foot_getByPair rfl (fun _ _ h => by cases h) fun found => ?_
  refine (watches core).skip_bind (l := []) foot_orThrow rfl (fun _ _ h => by cases h) fun link =>
    ?_
  refine (watches core).skip_bind foot_sessionByLink rfl (fun _ _ h => by cases h) fun session => ?_
  refine (watches core).skip_bind (l := []) foot_orThrow rfl (fun _ _ h => by cases h) fun record =>
    ?_
  refine (watches core).skip_bind (l := []) foot_ensure rfl (fun _ _ h => by cases h) fun _ => ?_
  refine obeys_seal (fun _ _ h => by cases h) fun pkt s hadv => ?_
  refine (watches core).skip_bind (foot_clock (l := [.clock]) rfl) rfl
    (fun _ _ h => by cases h) fun now => ?_
  refine obeys_js_bind (obeys_put (fits_codec (.single hadv) rfl) (fun v hv _ => ?_)
    fun _ _ _ _ h => by cases h)
  rintro r h
  cases h
  exact ⟨_, s, rfl, rfl, hadv, by rw [hv]; exact .head _⟩

theorem obeys_commitDecrypt [DecidableEq Snap] {L : Proc.Exch (sdk Snap) → Prop} {owner peer : Id}
    {link : PeerLinkRecord} {record : SessionRecord Snap} {opened : Opened} {s : Snap}
    (hfit : Fits svc.core a s) :
    Obeys (monitor svc.core) L (fun _ _ => True) a
      (commitDecrypt svc owner peer link record opened s) := by
  unfold commitDecrypt
  split
  · refine (watches _).skip_bind (foot_clock (l := [.clock]) rfl) rfl (fun _ => trivial) fun now =>
      ?_
    refine obeys_js_bind ((obeys_commitAfterDecrypt (s := s) rfl hfit).mono fun a' x _ => ?_)
    cases x <;> trivial
  · refine (watches _).skip_bind (foot_clock (l := [.clock]) rfl) rfl (fun _ => trivial) fun now =>
      ?_
    refine obeys_js_bind (obeys_put hfit (fun v _ _ => ?_) fun _ _ _ => trivial)
    exact (watches _).skip_bind foot_buildSnapshot rfl (fun _ => trivial) fun _ => trivial

theorem obeys_decrypt [DecidableEq Snap] (hc : Codec svc.core) (owner peer : Id) (pkt : Bytes) :
    Obeys (monitor svc.core) (Lawful svc.core) (fun _ _ => True) a
      (decryptDirectMessage svc owner peer pkt) := by
  unfold decryptDirectMessage
  refine (watches _).skip_bind (l := []) foot_ensure rfl (fun _ => trivial) fun _ => ?_
  refine (watches _).skip_bind foot_getByPair rfl (fun _ => trivial) fun found => ?_
  refine (watches _).skip_bind (l := []) foot_orThrow rfl (fun _ => trivial) fun link => ?_
  refine (watches _).skip_bind foot_sessionByLink rfl (fun _ => trivial) fun session => ?_
  refine (watches _).skip_bind (l := []) foot_orThrow rfl (fun _ => trivial) fun record => ?_
  refine (watches _).skip_bind (l := []) foot_ensure rfl (fun _ => trivial) fun _ => ?_
  refine obeys_open hc (fun _ => trivial) fun opened s hrel => ?_
  refine (watches _).skip_bind (l := []) foot_ensure rfl (fun _ => trivial) fun _ => ?_
  split
  · exact (watches _).skip_bind (l := [.count]) (foot_countFailure rfl) rfl (fun _ => trivial)
      fun _ => trivial
  · exact (watches _).skip_bind (foot_clearCounts (l := [.count]) rfl) rfl
      (fun _ => trivial) fun _ =>
      obeys_commitDecrypt (fits_codec hrel rfl)

/-! ## Trial decryption -/

theorem obeys_withLock {core : Core Snap} {L : Proc.Exch (sdk Snap) → Prop} {k : LockKey}
    {body : Sdk Snap α} (h : Obeys (monitor core) L (fun _ _ => True) a body) :
    Obeys (monitor core) L (fun _ _ => True) a (withLock k body) :=
  ⟨trivial, fun _ _ => ⟨trivial, fun _ _ =>
    obeys_bind (h.mono fun _ _ _ => ⟨trivial, fun _ _ => trivial⟩)⟩⟩

theorem obeys_attemptDevice {core : Core Snap} (hc : Codec core) {owner link device : Id}
    {peer : Option Id} {pkt : Bytes} {require : Bool} :
    Obeys (monitor core) (Lawful core) (fun _ _ => True) a
      (attemptDeviceDecrypt owner peer link device pkt require) := by
  refine obeys_withLock ((watches core).skip_bind foot_byDevice rfl (fun _ => trivial) fun found =>
    ?_)
  cases found with
  | none => cases require <;> trivial
  | some record =>
    refine obeys_js_bind
      (Obeys.mono (Q := fun _ _ => True) (fun _ x _ => by cases x <;> trivial) ?_)
    refine (watches core).skip_bind (l := []) foot_ensure rfl (fun _ => trivial) fun _ => ?_
    refine obeys_open hc (fun _ => trivial) fun opened s hrel => ?_
    dsimp only
    split
    · refine (watches core).skip_bind (foot_clock (l := [.clock]) rfl) rfl
        (fun _ => trivial) fun now => ?_
      exact obeys_js_bind (obeys_put (fits_codec hrel rfl) (fun _ _ _ => trivial) fun _ _ _ =>
        trivial)
    · trivial

theorem obeys_trialLoop {core : Core Snap} (hc : Codec core) {owner link : Id} {peer : Option Id}
    {pkt : Bytes} : ∀ {rows : List (SessionRecord Snap)} {a : Seen Snap},
      Obeys (monitor core) (Lawful core) (fun _ _ => True) a (trialLoop owner peer link pkt rows)
  | [], _ => trivial
  | record :: rest, a => by
    unfold trialLoop
    split
    · exact obeys_trialLoop hc
    · refine obeys_js_bind ((obeys_attemptDevice hc).mono fun a' x _ => ?_)
      match x with
      | .error _ => trivial
      | .ok none => exact obeys_trialLoop hc
      | .ok (some _) => trivial

theorem obeys_tryLegacy [DecidableEq Snap] (hc : Codec svc.core) {owner : Id} {pkt : Bytes}
    {row : PeerLinkRecord} :
    Obeys (monitor svc.core) (Lawful svc.core) (fun _ _ => True) a
      (tryLegacy svc owner pkt row) := by
  refine (watches _).skip_bind foot_sessionByLink rfl (fun _ => trivial) fun session => ?_
  cases session with
  | none => trivial
  | some record =>
    dsimp only
    split
    · trivial
    · refine obeys_open hc (fun _ => trivial) fun opened s hrel => ?_
      dsimp only
      split
      · trivial
      · refine (watches _).skip_bind (foot_clearCounts (l := [.count]) rfl) rfl
          (fun _ => trivial) fun _ => ?_
        refine (watches _).skip_bind (foot_clock (l := [.clock]) rfl) rfl
          (fun _ => trivial) fun now => ?_
        refine (watches _).skip_bind (foot_markSuccess (l := [.count]) rfl) rfl
          (fun _ => trivial) fun _ => ?_
        refine obeys_js_bind ((obeys_commitDecrypt (fits_codec hrel rfl)).mono fun _ x _ => ?_)
        cases x <;> trivial

theorem obeys_tryRow [DecidableEq Snap] (hc : Codec svc.core) {owner : Id} {pkt : Bytes}
    {row : PeerLinkRecord} :
    Obeys (monitor svc.core) (Lawful svc.core) (fun _ _ => True) a (tryRow svc owner pkt row) := by
  unfold tryRow
  split
  · refine obeys_js_bind (Obeys.mono (Q := fun _ _ => True) (fun a' x _ => ?_)
      ((watches _).skip_bind foot_listSessions rfl (fun _ => trivial) fun _ => obeys_trialLoop hc))
    match x with
    | .error _ => trivial
    | .ok none => exact obeys_tryLegacy hc
    | .ok (some hit) =>
      refine (watches _).skip (l := [.count, .clock, .get .sessionByLink, .get .session,
        .get .eventIndex, .get .event]) ?_ rfl fun _ => trivial
      exact foot_bind (foot_clearCounts rfl) fun _ => foot_bind (foot_clock rfl) fun _ =>
        foot_bind (foot_markSuccess rfl) fun _ =>
        foot_bind (foot_buildSnapshot.mono (by decide)) fun _ => foot_pure
  · exact obeys_tryLegacy hc

theorem obeys_anyPeerLoop [DecidableEq Snap] (hc : Codec svc.core) {owner : Id} {pkt : Bytes} :
    ∀ {rows candidates : List PeerLinkRecord} {a : Seen Snap},
      Obeys (monitor svc.core) (Lawful svc.core) (fun _ _ => True) a
        (anyPeerLoop svc owner pkt rows candidates)
  | [], _, _ =>
    (watches _).skip_bind (foot_clock (l := [.clock]) rfl) rfl (fun _ => trivial) fun _ =>
      (watches _).skip_bind foot_recoveryCandidates rfl (fun _ => trivial) fun _ => trivial
  | row :: rows, candidates, a => by
    refine obeys_js_bind ((obeys_tryRow hc).mono fun a' x _ => ?_)
    match x with
    | .error _ => trivial
    | .ok (.hit _) => trivial
    | .ok .skip => exact obeys_anyPeerLoop hc
    | .ok .miss => exact obeys_anyPeerLoop hc

theorem obeys_decryptAny [DecidableEq Snap] (hc : Codec svc.core) (owner : Id) (pkt : Bytes) :
    Obeys (monitor svc.core) (Lawful svc.core) (fun _ _ => True) a
      (decryptDirectMessageAnyPeer svc owner pkt) :=
  (watches _).skip_bind (l := []) foot_ensure rfl (fun _ => trivial) fun _ =>
    (watches _).skip_bind foot_listLinks rfl (fun _ => trivial) fun _ => obeys_anyPeerLoop hc

/-! ## The ack -/

/-- The ack passes a loaded snapshot on: it makes no codec call. -/
theorem obeys_ack {L : Proc.Exch (sdk Snap) → Prop} (owner : Id) (b : Bytes) :
    Obeys (monitor svc.core) L (fun _ _ => True) .start
      (handleIncomingHandshakeAck svc owner b) := by
  unfold handleIncomingHandshakeAck
  split
  · trivial
  · rename_i ack _
    refine (watches _).skip_bind foot_getByPair rfl (fun _ => trivial) fun
      | none => trivial
      | some link => ?_
    refine (watches _).skip_bind foot_checkControl rfl (fun _ => trivial) fun
      | false => trivial
      | true => ?_
    refine (watches _).skip_bind (foot_clock (l := [.clock]) rfl) rfl (fun _ => trivial) fun now =>
      ?_
    refine (watches _).skip_bind foot_sessionByLink rfl (fun _ => trivial) fun session => ?_
    refine obeys_attempt (obeys_untrack ((obeys_commitSession fun s _ => ?_).mono fun a' x _ => ?_))
    · intro b s' h; cases h
    · match x with
      | .ok _ => trivial
      | .error (_, _) =>
        refine (watches _).skip_bind foot_getByPair rfl (fun _ => trivial) fun
          | none => trivial
          | some f => ?_
        dsimp only
        split
        · exact (watches _).skip_bind foot_buildSnapshot rfl (fun _ => trivial) fun _ => trivial
        · trivial

/-! ## Runs -/

def isLegacy : Call → Bool
  | .encrypt .. => true
  | .decrypt .. => true
  | .decryptAny .. => true
  | .ack .. => true
  | _ => false

/-- The ratchet the write's call started from is still stored, or the one the
call has itself stored before. -/
def Uncontended (s : State Snap) (cell : Id × Id) (w : Write Snap) : Prop :=
  stored s.mem.kv cell = some w.base ∨ stored s.mem.kv cell = some w.snap ∧ w ∈ writes cell s.log

/-- Any number of the four calls, over any store. -/
def legacy : Rules Snap where
  init _ := True
  may _ c := isLegacy c = true
  ok _ _ := True

/-- The same, with every landing session write uncontended. -/
def uncontended : Rules Snap where
  init _ := True
  may _ c := isLegacy c = true
  ok s e := ∀ cell snap, landed e = some (cell, snap) →
    Uncontended s cell (writeOf s.log e.tid snap)

/-- The calls of the two packets returned for one session sealed from
different snapshots. -/
def NoReuse (s : State Snap) : Prop :=
  ∀ t₁ t₂ owner peer₁ peer₂ m₁ m₂ r₁ r₂, t₁ ≠ t₂ →
    outcome s t₁ = some (.encrypt owner peer₁ m₁, .ok (.encrypted r₁)) →
    outcome s t₂ = some (.encrypt owner peer₂ m₂, .ok (.encrypted r₂)) →
    r₁.sessionId = r₂.sessionId →
    ∀ b ∈ (seen t₁ s.log).seals, b ∉ (seen t₂ s.log).seals

/-- What a finished call leaves behind. -/
def Post (core : Core Snap) : Call → Seen Snap → Except Err Reply → Prop
  | .encrypt owner .., a, x => ∀ r, x = .ok (.encrypted r) → Sealed core owner r.sessionId a
  | _, _, _ => True

theorem obeys_reply {A ρ : Type} {M : Monitor (sdk Snap) A} {L : Proc.Exch (sdk Snap) → Prop}
    {a : A} {p : Sdk Snap ρ} {f : ρ → Reply} (h : Obeys M L (fun _ _ => True) a p) :
    Obeys M L (fun _ _ => True) a (do let r ← p; return f r : Sdk Snap Reply) :=
  obeys_js_bind (h.mono fun _ x _ => by cases x <;> trivial)

theorem mon_monitor (core : Core Snap) (t : Nat) (log : List (Ev Snap)) :
    Pool.mon (monitor core) .start t log = seen t log :=
  Pool.mon_map (M := monitor core) (N := ⟨watch, fun _ _ => True⟩) id (fun _ _ => rfl) .start t log

theorem noDelete_of_may {core : Core Snap} {o : Op Snap} (h : (monitor core).may a o) :
    NoDelete o := by
  cases o with
  | delete k => cases k <;> exact h
  | _ => trivial

theorem fits_of_may {core : Core Snap} {e : Ev Snap} {cell : Id × Id} {snap : Snap}
    (h : (monitor core).may a e.op) (hl : landed e = some (cell, snap)) : Fits core a snap := by
  unfold landed at hl
  split at hl
  · split at hl
    · cases hl; exact h
    · cases hl
  · cases hl

theorem Fits.step {core : Core Snap} {snap : Snap} (h : Fits core a snap) :
    Relation.ReflGen (Adv core) (a.base snap) snap := by
  unfold Seen.base
  split
  · rename_i b s' hb
    obtain ⟨rfl, hrel⟩ := h b s' hb
    exact hrel
  · exact .refl

variable [DecidableEq Snap]

theorem obeys_program (hc : Codec svc.core) {c : Call} (h : isLegacy c = true) :
    Obeys (monitor svc.core) (Lawful svc.core) (Post svc.core c) .start (program svc c) := by
  cases c with
  | encrypt owner peer m =>
    refine obeys_js_bind ((obeys_encrypt owner peer m).mono fun a x hx => ?_)
    cases x with
    | error e => exact fun r h => by cases h
    | ok v => exact fun r h => by cases h; exact hx v rfl
  | decrypt owner peer b => exact obeys_reply (obeys_decrypt hc owner peer b)
  | decryptAny owner b => exact obeys_reply (obeys_decryptAny hc owner b)
  | ack owner b => exact obeys_reply (obeys_ack owner b)
  | _ => cases h

structure Inv (svc : Service Snap) (s : State Snap) : Prop where
  conforms :
    System.Conforms (monitor svc.core) (Lawful svc.core) (fun _ => .start) (Post svc.core) s
  ratchet : Ratchet.Inv svc.core s.mem.kv s.log

theorem inv_fires {s s' : State Snap} {e : Ev Snap} {c : Call}
    {k : (sdk Snap).Ans e.op → Proc (sdk Snap) (Except Err Reply)} (h : Inv svc s)
    (hf : Pool.Fires (system svc) s e c k s') (hok : uncontended.ok s e) : Inv svc s' := by
  have hmay := h.conforms.may hf
  rw [mon_monitor] at hmay
  refine ⟨System.conforms_fires h.conforms hf (lawful_fires hf),
    h.ratchet.fires hf (noDelete_of_may hmay) fun cell snap hl x₀ hist hcur => ?_⟩
  rcases hok cell snap hl with hbase | ⟨hsnap, hmem⟩
  · exact .advance hist (hcur.trans hbase) (fits_of_may hmay hl).step
  · exact .again hist (hcur.trans hsnap) hmem

theorem inv_inductive (hc : Codec svc.core) :
    ((system svc).lts uncontended).Inductive (Inv svc) :=
  System.inductive_of
    (fun m _ => ⟨System.conforms_init m, inv_init svc.core m.kv⟩)
    (fun _ _ h hc' => ⟨System.conforms_spawn h.conforms (obeys_program hc hc'), h.ratchet⟩)
    (fun _ _ _ _ _ h hf hok => inv_fires h hf hok)

/-- **No reuse, no rollback**, in every run whose session writes are
uncontended. -/
theorem legacy_ratchet (svc : Service Snap) (hc : Codec svc.core) (s : State Snap)
    (hr : ((system svc).lts uncontended).Reachable s) : NoReuse s ∧ NoRollback svc.core s.log := by
  have h := (inv_inductive hc).reachable s hr
  refine ⟨?_, h.ratchet.noRollback hc⟩
  intro t₁ t₂ owner peer₁ peer₂ m₁ m₂ r₁ r₂ hne h₁ h₂ hsid b hb₁ hb₂
  have hp₁ := h.conforms.result (outcome_some.mp h₁) r₁ rfl
  have hp₂ := h.conforms.result (outcome_some.mp h₂) r₂ rfl
  rw [mon_monitor] at hp₁ hp₂
  obtain ⟨b₁, s₁, -, hs₁, ha₁, hput₁⟩ := hp₁
  obtain ⟨b₂, s₂, -, hs₂, ha₂, hput₂⟩ := hp₂
  rw [hs₁, List.mem_singleton] at hb₁
  rw [hs₂, List.mem_singleton] at hb₂
  subst hb₁ hb₂
  rw [← hsid] at hput₂
  exact hne (h.ratchet.noReuse hc hput₁ hput₂ ha₁ ha₂)

/-! ## Concrete runs -/

instance {s : State Snap} {cell : Id × Id} {w : Write Snap} : Decidable (Uncontended s cell w) :=
  inferInstanceAs (Decidable (_ ∨ _ ∧ _))

def uncontendedJudge : System.Judge (uncontended : Rules Snap) where
  may _ c := isLegacy c
  ok s e :=
    match landed e with
    | some (cell, snap) => decide (Uncontended s cell (writeOf s.log e.tid snap))
    | none => true
  may_iff _ _ h := h
  ok_iff s e h cell snap hl := by
    rw [hl] at h
    exact of_decide_eq_true h

def legacyJudge : System.Judge (legacy : Rules Snap) where
  may _ c := isLegacy c
  ok _ _ := true
  may_iff _ _ h := h
  ok_iff _ _ _ := trivial

/-- Calls 0 and 1 are encrypts of one session that returned, and they sealed
from a common snapshot (`shared`) or from none. -/
def bothSealed (shared : Bool) (s : State Snap) : Bool :=
  match outcome s 0, outcome s 1 with
  | some (.encrypt o₁ _ _, .ok (.encrypted r₁)), some (.encrypt o₂ _ _, .ok (.encrypted r₂)) =>
    o₁ = o₂ && r₁.sessionId = r₂.sessionId &&
      (seen 0 s.log).seals.any (· ∈ (seen 1 s.log).seals) = shared
  | _, _ => false

theorem not_noReuse {s : State Snap} (h : bothSealed true s = true) : ¬ NoReuse s := by
  intro hno
  unfold bothSealed at h
  split at h
  · rename_i o₁ p₁ m₁ r₁ o₂ p₂ m₂ r₂ h₁ h₂
    simp only [decide_eq_true_eq, Bool.and_eq_true, List.any_eq_true] at h
    obtain ⟨⟨rfl, hsid⟩, b, hb₁, hb₂⟩ := h
    exact hno 0 1 o₁ p₁ p₂ m₁ m₂ r₁ r₂ (by decide) h₁ h₂ hsid b hb₁ hb₂
  · cases h

/-- An established link whose session is at snapshot 1. -/
def established : Mem Nat := .ofStore (Counting.linked .sessionEstablished .active) []

/-- Reads the link and the session and seals; then writes the session. -/
def loadAndSeal (t : Nat) : List (Label Fate Call) :=
  [.run t .ok, .run t .ok, .run t .ok, .run t .ok, .run t (.rand 0)]

def store (t : Nat) : List (Label Fate Call) :=
  [.run t (.time 5), .run t .ok, .run t .ok, .run t .ok]

def twoEncrypts : List (Label Fate Call) :=
  [.call (.encrypt Counting.a Counting.b [1]), .call (.encrypt Counting.a Counting.b [2])]

/-- Two encrypts that both load snapshot 1 before either writes: both return,
and both packets were sealed from snapshot 1. -/
theorem interleaved_encrypts :
    ∃ s, ((system Counting.svc).lts legacy).Reachable s ∧ ¬ NoReuse s := by
  obtain ⟨s, hr, hs⟩ := System.reachable_of_exec (S := system Counting.svc) legacyJudge
    (twoEncrypts ++ loadAndSeal 0 ++ loadAndSeal 1 ++ store 0 ++ store 1) (m := established)
    (P := bothSealed true) trivial (by decide)
  exact ⟨s, hr, not_noReuse hs⟩

/-- One after the other they are uncontended. -/
theorem legacy_ratchet_sequential :
    ∃ s, ((system Counting.svc).lts uncontended).Reachable s ∧ bothSealed false s = true ∧
      NoReuse s ∧ NoRollback Counting.svc.core s.log := by
  obtain ⟨s, hr, hs⟩ := System.reachable_of_exec (S := system Counting.svc) uncontendedJudge
    (twoEncrypts ++ loadAndSeal 0 ++ store 0 ++ loadAndSeal 1 ++ store 1) (m := established)
    (P := bothSealed false) trivial (by decide)
  exact ⟨s, hr, hs, legacy_ratchet Counting.svc Counting.codec s hr⟩

end RezSdk.L4.LegacyRatchet
