import RezSdk.L3Service.Alone
import RezSdk.L4Runs.SessionHomes

/-!
# Trial decryption touches only the session that matched

`decryptDirectMessageAnyPeer`, run on its own over a store as the calls leave
it: the trials of the links and devices before the match write nothing, and
the writes after it go to the session that opened the packet, to its own
index entry (which names it already), to its link and to the events. So every
other session and every index entry is as it was, and after a total miss the
whole store is.
-/
namespace RezSdk.L4.TrialFrame

open RezSdk.L1 RezSdk.L2 RezSdk.L3
open RezSdk.L4.LinkPeers (HasPeer Rows)
open RezSdk.L4.SessionHomes

variable {Snap : Type}

/-- Of the sessions and their indexes only the session `sid` of `owner` has
changed, if any: its ratchet is `s` then. -/
structure Advanced (owner sid : Id) (s : Snap) (kv kv' : Store Snap) : Prop where
  others : ∀ o i, ¬ (o = owner ∧ i = sid) → kv'.lookup (.session o i) = kv.lookup (.session o i)
  byLink : ∀ o l, kv'.lookup (.sessionByLink o l) = kv.lookup (.sessionByLink o l)
  byDevice : ∀ o l d, kv'.lookup (.sessionByDevice o l d) = kv.lookup (.sessionByDevice o l d)
  own : kv'.lookup (.session owner sid) = kv.lookup (.session owner sid) ∨
    ∃ r, kv'.lookup (.session owner sid) = some r ∧ r.ratchetSnapshot = s

/-- The stored session `sid` opened the packet for its own peer. -/
def Opens (core : Core Snap) (pkt : Bytes) (owner sid : Id) (kv : Store Snap) (s : Snap) : Prop :=
  ∃ r n opened, kv.lookup (.session owner sid) = some r ∧
    core.answer (.decryptIncoming r.ratchetSnapshot pkt) n = .ok (opened, s) ∧
    opened.encrypted = true ∧ opened.peerId = some r.peerAccountId

/-! ## The writes after a match -/

/-- Of the sessions and indexes the operation writes the session `sid` only,
with ratchet `s`, and its index entry. -/
def Writes (owner sid : Id) (h : Home) (s : Snap) : Op Snap → Prop
  | .set (.session o i) r => (o = owner ∧ i = sid) ∧ r.ratchetSnapshot = s
  | .set (.sessionByLink o l) i => (o = owner ∧ i = sid) ∧ h = (l, none)
  | .set (.sessionByDevice o l d) i => (o = owner ∧ i = sid) ∧ h = (l, some d)
  | .delete (.session ..) => False
  | .delete (.sessionByLink ..) => False
  | .delete (.sessionByDevice ..) => False
  | _ => True

/-- The index entry of home `h` names `sid`. -/
structure Indexed (kv : Store Snap) (owner sid : Id) (h : Home) : Prop where
  link : ∀ l, h = (l, none) → kv.lookup (.sessionByLink owner l) = some sid
  device : ∀ l d, h = (l, some d) → kv.lookup (.sessionByDevice owner l d) = some sid

section

variable {core : Core Snap} {t : Nat} {g : Key → Fate → Bool} {owner sid : Id}
  {h : Home} {s : Snap} {kv : Store Snap}
  {α β π : Type}

theorem Advanced.refl : Advanced owner sid s kv kv :=
  ⟨fun _ _ _ => rfl, fun _ _ => rfl, fun _ _ _ => rfl, .inl rfl⟩

theorem Advanced.step {m m' : Mem Snap} {o : Op Snap} {f : Fate} {r : o.Ans}
    (hidx : Indexed kv owner sid h) (ho : Writes owner sid h s o)
    (ha : act core t m o f = some (r, m')) (hm : Advanced owner sid s kv m.kv) :
    Advanced owner sid s kv m'.kv := by
  rw [act_kv ha]
  refine ⟨fun o' i hne => ?_, fun o' l => ?_, fun o' l d => ?_, ?_⟩
  · rcases effect_cases m.kv o f (.session o' i) with hk | ⟨v, rfl, -, -⟩ | ⟨rfl, -, -⟩
    · exact hk.trans (hm.others o' i hne)
    · exact absurd ho.1 hne
    · exact ho.elim
  · rcases effect_cases m.kv o f (.sessionByLink o' l) with hk | ⟨v, rfl, -, hk⟩ | ⟨rfl, -, -⟩
    · exact hk.trans (hm.byLink o' l)
    · obtain ⟨⟨rfl, rfl⟩, hh⟩ := ho
      exact hk.trans (hidx.link l hh).symm
    · exact ho.elim
  · rcases effect_cases m.kv o f (.sessionByDevice o' l d) with hk | ⟨v, rfl, -, hk⟩ | ⟨rfl, -, -⟩
    · exact hk.trans (hm.byDevice o' l d)
    · obtain ⟨⟨rfl, rfl⟩, hh⟩ := ho
      exact hk.trans (hidx.device l d hh).symm
    · exact ho.elim
  · rcases effect_cases m.kv o f (.session owner sid) with hk | ⟨v, rfl, -, hk⟩ | ⟨rfl, -, -⟩
    · rcases hm.own with hown | ⟨r', hr', hs⟩
      · exact .inl (hk.trans hown)
      · exact .inr ⟨r', hk.trans hr', hs⟩
    · exact .inr ⟨v, hk, ho.2⟩
    · exact ho.elim

/-- The operations `Writes` looks at. -/
def watched : List OpClass :=
  [.set .session, .set .sessionByLink, .set .sessionByDevice, .delete .session,
  .delete .sessionByLink,
    .delete .sessionByDevice]

theorem writes_foot {l : List OpClass} {p : Proc (sdk Snap) α} (hp : Foot l p)
    (hl : l.all (fun c => !watched.contains c) = true) : p.All (Writes owner sid h s) := by
  refine Proc.All.mono (fun o ho => ?_) hp
  have hc := List.all_eq_true.mp hl _ (List.contains_iff_mem.mp ho.1)
  have hno : watched.contains (classOf o) = false := by simpa using hc
  unfold Writes
  split
  · cases hno
  · cases hno
  · cases hno
  · cases hno
  · cases hno
  · cases hno
  · trivial

theorem writes_put {r : SessionRecord Snap} (ho : r.localAccountId = owner) (hi : r.sessionId = sid)
    (hh : home r = h) (hs : r.ratchetSnapshot = s) :
    Proc.All (Writes owner sid h s) (Sessions.put r) := by
  refine Js.all_bind ⟨trivial, fun _ => trivial⟩ fun existing =>
    Js.all_bind ⟨⟨⟨ho, hi⟩, hs⟩, fun _ => trivial⟩ fun _ => ?_
  refine Js.all_bind ?_ fun _ => trivial
  unfold Sessions.setIndex
  unfold home at hh
  cases hd : r.peerDeviceId with
  | none =>
    rw [hd] at hh
    exact ⟨⟨⟨ho, hi⟩, hh.symm⟩, fun _ => trivial⟩
  | some d =>
    rw [hd] at hh
    exact ⟨⟨⟨ho, hi⟩, hh.symm⟩, fun _ => trivial⟩

theorem writes_track {q : π} {p : Sdk Snap α} (hp : Proc.All (Writes owner sid h s) p) :
    Proc.All (Writes owner sid h s) (track q p) := Proc.all_bind hp fun x => by cases x <;> trivial

/-- The arguments of a commit of this session. -/
structure Targets (owner sid : Id) (h : Home) (s : Snap) (a : CommitArgs Snap) : Prop where
  owner : a.owner = owner
  session : ∃ r, a.existingSession = some r ∧ r.sessionId = sid ∧ r.peerDeviceId = h.2
  link : a.peerLinkRecord.peerLinkId = h.1
  ratchet : a.ratchet = some s

theorem Targets.put {a : CommitArgs Snap} (ha : Targets owner sid h s a) {s' : Snap}
    (hs : a.snapshot = some s') (now : Nat) :
    Proc.All (Writes owner sid h s) (Sessions.put (a.putInput s' sid now)) := by
  obtain ⟨r, hr, hid, hdev⟩ := ha.session
  rw [CommitArgs.snapshot, ha.ratchet] at hs
  refine writes_put ha.owner rfl (Prod.ext ha.link ?_) (Option.some.inj hs).symm
  show a.existingSession.bind (·.peerDeviceId) = h.2
  rw [hr]
  exact hdev

theorem writes_commitSession {svc : Service Snap} {a : CommitArgs Snap}
    (ha : Targets owner sid h s a) : Proc.All (Writes owner sid h s) (commitSession svc a) := by
  have hlink : ∀ {now : Nat} {stored : Option (SessionRecord Snap)} {p : Progress Snap},
      Proc.All (Writes owner sid h s) (commitLink svc a now stored p) :=
        writes_foot foot_commitLink rfl
  refine Js.all_bind (writes_track ⟨trivial, fun _ => trivial⟩) fun c => ?_
  split
  · exact hlink
  · rename_i s' hs
    obtain ⟨r, hr, rfl, -⟩ := ha.session
    rw [hr]
    change Proc.All _ (track (.writing (a.putInput s' r.sessionId (asPositiveInt a.atMs c)))
      (Sessions.put (a.putInput s' r.sessionId (asPositiveInt a.atMs c))) >>= fun stored =>
        commitLink svc a (asPositiveInt a.atMs c) (some stored)
          (.written (a.putInput s' r.sessionId (asPositiveInt a.atMs c))) : Tracked Snap _ _)
    exact Js.all_bind (writes_track (ha.put hs _)) fun _ => hlink

theorem writes_rewrite {r : SessionRecord Snap}
    (hr : Proc.All (Writes owner sid h s) (Sessions.put r)) :
    ∀ {n : Nat}, Proc.All (Writes owner sid h s) (rewrite r n) := by
  intro n
  induction n with
  | zero => trivial
  | succ n ih =>
    refine Js.all_attempt hr fun x => ?_
    cases x with
    | ok v => trivial
    | error e => exact ih

/-! ## The commit after a match -/

/-- The match has changed its session only, and links lie under their ids. -/
structure Kept (owner sid : Id) (s : Snap) (kv kv' : Store Snap) : Prop where
  advanced : Advanced owner sid s kv kv'
  filed : FiledStore kv'

theorem after_kept {p : Proc (sdk Snap) α} (hidx : Indexed kv owner sid h)
    (hp : p.All (Writes owner sid h s)) (hf : p.All Filed) {w : World Snap}
    (hw : Kept owner sid s kv w.1.kv) :
    After (alone core t g) (fun _ w' => Kept owner sid s kv w'.1.kv) p w := by
  have hboth : p.All fun o => Writes owner sid h s o ∧ Filed o := by
    clear hidx hw
    induction p with
    | ret x => trivial
    | ask o k ih => exact ⟨⟨hp.1, hf.1⟩, fun r => ih r (hp.2 r) (hf.2 r)⟩
  refine after_keeps (J := fun w' : World Snap => Kept owner sid s kv w'.1.kv) hboth
    (fun w₁ o f r w₂ ho ha hj => ?_) hw
  obtain ⟨ha, -⟩ := observe_some.mp ha
  exact ⟨hj.advanced.step hidx ho.1 ha, act_kv ha ▸ hj.filed.effect ho.2 f⟩

section

variable [DecidableEq Snap] {svc : Service Snap} {a : CommitArgs Snap}

theorem writes_confirm {p : Progress Snap}
    (hp : ∀ r, p.sessionPutInput = some r → Proc.All (Writes owner sid h s) (Sessions.put r)) :
    Proc.All (Writes owner sid h s) (confirmAdvancedRatchetDurable a p) := by
  unfold confirmAdvancedRatchetDurable
  split
  · exact Js.all_bind (writes_foot foot_storedRatchetMatches rfl) fun _ => trivial
  · split
    · trivial
    · rename_i input hin
      refine Js.all_bind (writes_rewrite (hp input hin)) fun wrote => ?_
      split
      · exact Js.all_bind (writes_foot foot_storedRatchetMatches rfl) fun _ => trivial
      · trivial

theorem writes_recoverRetry {p rp : Progress Snap} {f : PeerLinkRecord} {e : Err}
    (hp : ∀ r, rp.sessionPutInput = some r → Proc.All (Writes owner sid h s) (Sessions.put r)) :
    Proc.All (Writes owner sid h s) (recoverRetry a p f rp e) := by
  unfold recoverRetry
  split
  · exact Js.all_bind (writes_confirm hp) fun _ => Js.all_bind trivial fun _ =>
      Js.all_bind (writes_foot (l := []) foot_ensure rfl) fun _ =>
        writes_foot foot_keepPlaintext rfl
  · exact Js.all_bind (writes_foot foot_storedRatchetMatches rfl) fun _ =>
      Js.all_bind (writes_foot (l := []) foot_ensure rfl) fun _ =>
        writes_foot foot_keepPlaintext rfl

omit [DecidableEq Snap] in
/-- What a failed commit was to store is a write of the session. -/
theorem Targets.pending (ha : Targets owner sid h s a) {p : Progress Snap}
    (hp : ∀ r, p.sessionPutInput = some r →
        ∃ s' i now, a.snapshot = some s' ∧ r = a.putInput s' i now ∧
          ∀ e, a.existingSession = some e → i = e.sessionId) :
    ∀ r, p.sessionPutInput = some r → Proc.All (Writes owner sid h s) (Sessions.put r) := by
  intro r hr
  obtain ⟨s', i, now, hs, rfl, hi⟩ := hp r hr
  obtain ⟨e, he, hid, -⟩ := ha.session
  obtain rfl := (hi e he).trans hid
  exact ha.put hs now

theorem after_commitAfterDecrypt (hidx : Indexed kv owner sid h) (ha : Targets owner sid h s a)
    {w : World Snap} (hw : Kept owner sid s kv w.1.kv) :
    After (alone core t g) (fun _ w' => Kept owner sid s kv w'.1.kv)
      (commitSessionAfterDecrypt svc a) w := by
  have hcommit : ∀ {a' : CommitArgs Snap} {w : World Snap}, Targets owner sid h s a' →
      Kept owner sid s kv w.1.kv →
      After (alone core t g) (fun x w' => Kept owner sid s kv w'.1.kv ∧ ∀ pe, x = .error pe → ∀ r,
        pe.1.sessionPutInput = some r →
          Proc.All (Writes owner sid h s) (Sessions.put r)) (commitSession svc a') w := by
    intro a' w ha' hw
    refine ((after_kept hidx (writes_commitSession ha') filed_blocks.commitSession hw).and
      (after_throws (L := fun _ => True) (fun _ _ _ _ _ _ => trivial)
      throws_commitSession)).mono fun x w' hx => ?_
    exact ⟨hx.1, fun pe he => ha'.pending (hx.2 pe he)⟩
  refine after_bind ((hcommit ha hw).mono fun x w₁ hx => ?_)
  cases x with
  | ok r => exact hx.1
  | error pe =>
    refine after_js_bind
      ((after_kept hidx (writes_confirm (hx.2 pe rfl)) filed_blocks.confirm hx.1).mono
      fun y w₂ h₂ => ?_)
    cases y with
    | error e => exact h₂
    | ok dp =>
      refine after_js_bind (after_ensure (fun _ => ?_) fun _ => h₂)
      obtain ⟨m₂, b₂⟩ := w₂
      refine after_js_bind (after_get ?_ fun _ => h₂)
      -- the link that is read again lies under its own id
      cases hf : m₂.kv.lookup (.peerLink a.owner a.peerLinkRecord.peerLinkId) with
      | none =>
        exact after_kept hidx (writes_foot foot_keepPlaintext rfl) filed_blocks.keepPlaintext h₂
      | some f =>
        have hid := (h₂.filed.links _ _ _ hf).2
        by_cases hst : f.state = .sessionEstablished
        · rw [Then, show recoverLink svc a dp.2 pe.2 (some f) = _ from if_pos hst]
          exact after_kept hidx (writes_foot foot_keepPlaintext rfl) filed_blocks.keepPlaintext h₂
        · rw [Then, show recoverLink svc a dp.2 pe.2 (some f) = _ from if_neg hst]
          have hfresh : Targets owner sid h s { a with peerLinkRecord := f } :=
            ⟨ha.owner, ha.session, hid.trans ha.link, ha.ratchet⟩
          refine after_bind ((hcommit hfresh h₂).mono fun z w₃ hz => ?_)
          cases z with
          | ok r => exact hz.1
          | error rp =>
            exact after_kept hidx (writes_recoverRetry (hz.2 rp rfl)) filed_blocks.recoverRetry hz.1

/-! ## Its errors -/

/-- An error without further fields. -/
def Plain (e : Err) : Prop := e.info = .none

omit [DecidableEq Snap] in
theorem tame_plain : Tame Plain := ⟨fun _ => rfl, fun _ => rfl⟩

omit [DecidableEq Snap] in
theorem plain_commitSession :
    Js.Throws (Answered core) (fun e : Progress Snap × Err => Plain e.2) (commitSession svc a) := by
  have hlink : ∀ {now : Nat} {stored : Option (SessionRecord Snap)} {p : Progress Snap},
      Js.Throws (Answered core) (fun e : Progress Snap × Err => Plain e.2)
        (commitLink svc a now stored p) := by
    intro now stored p
    refine Js.throws_bind (tame_track (Js.throws_ensure rfl)) fun _ => ?_
    refine Js.throws_bind (tame_track (tame_update tame_plain)) fun _ => ?_
    refine Js.throws_bind (tame_track (tame_appendEvent tame_plain)) fun _ => ?_
    refine Js.throws_bind (tame_track throws_total) fun _ =>
      Js.throws_bind (tame_track throws_total) fun _ => ?_
    exact Js.throws_bind (tame_track (tame_buildSnapshot tame_plain)) fun _ => Js.throws_pure
  refine Js.throws_bind (tame_track throws_total) fun c => ?_
  split
  · exact hlink
  · refine Js.throws_bind (tame_track ?_) fun sid =>
      Js.throws_bind (tame_track (tame_put tame_plain)) fun _ => hlink
    cases a.existingSession with
    | some r => exact Js.throws_pure
    | none => exact throws_total

theorem plain_matches {p : Progress Snap} :
    Js.Throws (Answered core) Plain (storedRatchetMatches a p) := by
  unfold storedRatchetMatches
  split
  · exact Js.throws_bind (tame_get tame_plain) fun _ => Js.throws_pure
  · exact Js.throws_pure

omit [DecidableEq Snap] in
theorem plain_rewrite {input : SessionRecord Snap} :
    ∀ {n : Nat}, Js.Throws (Answered core) Plain (rewrite input n)
  | 0 => Js.throws_pure
  | n + 1 => by
    refine Js.throws_attempt fun x => ?_
    cases x with
    | ok v => exact Js.throws_pure
    | error e => exact plain_rewrite

theorem plain_confirm {p : Progress Snap} :
    Js.Throws (Answered core) Plain (confirmAdvancedRatchetDurable a p) := by
  unfold confirmAdvancedRatchetDurable
  split
  · exact Js.throws_bind plain_matches fun _ => Js.throws_pure
  · split
    · exact Js.throws_pure
    · refine Js.throws_bind plain_rewrite fun wrote => ?_
      cases wrote with
      | false => exact Js.throws_pure
      | true => exact Js.throws_bind plain_matches fun _ => Js.throws_pure

omit [DecidableEq Snap] in
theorem plain_keepPlaintext {r : PeerLinkRecord} {e : Option CommitError} :
    Js.Throws (Answered core) Plain (keepPlaintext r e : Sdk Snap (CommitResult Snap)) :=
  Js.throws_bind (tame_buildSnapshot tame_plain) fun _ => Js.throws_pure

theorem plain_recoverLink {p : Progress Snap} {e : Err} :
    ∀ fresh, Js.Throws (Answered core) Plain (recoverLink svc a p e fresh) := by
  intro fresh
  cases fresh with
  | none => exact plain_keepPlaintext
  | some f =>
    by_cases hst : f.state = .sessionEstablished
    · rw [show recoverLink svc a p e (some f) = _ from if_pos hst]
      exact plain_keepPlaintext
    · rw [show recoverLink svc a p e (some f) = _ from if_neg hst]
      refine Js.throws_proc_bind plain_commitSession fun x hx => ?_
      cases x with
      | ok r => exact Js.throws_pure
      | error rp =>
        obtain ⟨rp, e'⟩ := rp
        have he' : Plain e' := hx _ rfl
        show Js.Throws (Answered core) Plain (recoverRetry a p f rp e')
        unfold recoverRetry
        split
        · exact Js.throws_bind plain_confirm fun _ => Js.throws_bind Js.throws_pure fun _ =>
            Js.throws_bind (Js.throws_ensure he') fun _ => plain_keepPlaintext
        · exact Js.throws_bind plain_matches fun _ =>
            Js.throws_bind (Js.throws_ensure he') fun _ => plain_keepPlaintext

theorem plain_commitAfterDecrypt :
    Js.Throws (Answered core) Plain (commitSessionAfterDecrypt svc a) := by
  refine Js.throws_proc_bind plain_commitSession fun x hx => ?_
  cases x with
  | ok r => exact Js.throws_pure
  | error pe =>
    have he : Plain pe.2 := hx _ rfl
    exact Js.throws_bind plain_confirm fun _ => Js.throws_bind (Js.throws_ensure he) fun _ =>
      Js.throws_bind (tame_get tame_plain) plain_recoverLink

/-! ## One match -/

/-- How the trials can end: nothing is touched, or a session that opened the
packet is the only one that changed, and the call did not report a miss. -/
inductive Ends (core : Core Snap) (pkt : Bytes) (owner : Id) (kv kv' : Store Snap) {α : Type} :
    Except Err α → Prop
  | missed {x : Except Err α} : kv' = kv → Ends core pkt owner kv kv' x
  | matched {x : Except Err α} (sid : Id) (s : Snap) : Opens core pkt owner sid kv s →
      Advanced owner sid s kv kv' →
      (∀ e, x = .error e → Plain e) → Ends core pkt owner kv kv' x

omit [DecidableEq Snap] in
theorem Ends.error {pkt : Bytes} {kv kv' : Store Snap} {e : Err}
    (h : Ends core pkt owner kv kv' (.error e : Except Err α)) :
    Ends core pkt owner kv kv' (.error e : Except Err β) := by
  generalize hx : (.error e : Except Err α) = x at h
  cases h with
  | missed h => exact .missed h
  | matched sid s ho ha he =>
    exact .matched sid s ho ha fun e' h => he e' (by cases h; exact hx.symm)

omit [DecidableEq Snap] in
theorem Ends.ok {pkt : Bytes} {kv kv' : Store Snap} {x : Except Err α}
    (h : Ends core pkt owner kv kv' x) (v : β) : Ends core pkt owner kv kv' (.ok v) := by
  cases h with
  | missed h => exact .missed h
  | matched sid s ho ha he => exact .matched sid s ho ha fun e' h => by cases h

omit [DecidableEq Snap] in
theorem Ends.failed {pkt : Bytes} {kv kv' : Store Snap} {x : Except Err α}
    (h : Ends core pkt owner kv kv' x) {e : Err} (he : Plain e) :
    Ends core pkt owner kv kv' (.error e : Except Err β) := by
  cases h with
  | missed h => exact .missed h
  | matched sid s ho ha _ => exact .matched sid s ho ha fun e' h => by cases h; exact he

theorem after_commitDecrypt {link : PeerLinkRecord} {peer : Id} {record : SessionRecord Snap}
    {opened : Opened} {w : World Snap}
    (hidx : Indexed kv owner record.sessionId (link.peerLinkId, none))
    (hhome : home record = (link.peerLinkId, none)) (hw : Kept owner record.sessionId s kv w.1.kv) :
    After (alone core t g)
      (fun x w' => Advanced owner record.sessionId s kv w'.1.kv ∧ ∀ e, x = .error e → Plain e)
      (commitDecrypt svc owner peer link record opened s) w := by
  have hdev : record.peerDeviceId = none := congrArg Prod.snd hhome
  refine After.and ?_ (after_throws (fun _ _ _ _ _ ha => act_answered (observe_some.mp ha).1) ?_)
  · refine After.mono (fun x w' hk => Kept.advanced hk) ?_
    unfold commitDecrypt
    split
    · obtain ⟨m, b⟩ := w
      refine after_js_bind (after_clock fun now => after_js_bind ((after_commitAfterDecrypt hidx
        ⟨rfl, ⟨record, rfl, rfl, hdev⟩, rfl, rfl⟩ hw).mono fun x w' hx => ?_))
      cases x <;> exact hx
    · refine after_kept hidx ?_ ?_ hw
      · refine Js.all_bind ⟨trivial, fun _ => trivial⟩ fun now =>
          Js.all_bind (writes_put rfl rfl hhome rfl) fun _ => ?_
        exact Js.all_bind (writes_foot foot_buildSnapshot rfl) fun _ => trivial
      · exact Js.all_bind ⟨trivial, fun _ => trivial⟩ fun now => Js.all_bind foot_put.filed fun _ =>
          Js.all_bind foot_buildSnapshot.filed fun _ => trivial
  · unfold commitDecrypt
    split
    · exact Js.throws_bind throws_total fun _ => Js.throws_bind plain_commitAfterDecrypt fun _ =>
        Js.throws_pure
    · exact Js.throws_bind throws_total fun _ => Js.throws_bind (tame_put tame_plain) fun _ =>
        Js.throws_bind (tame_buildSnapshot tame_plain) fun _ => Js.throws_pure

omit [DecidableEq Snap] in
/-- A program that only reads leaves the store as it is. -/
theorem after_reads {l : List OpClass} {p : Proc (sdk Snap) α} (hp : Foot l p) (hl : written l = [])
    {w : World Snap} : After (alone core t g) (fun _ w' => w'.1.kv = w.1.kv) p w := by
  refine after_keeps (J := fun w' : World Snap => w'.1.kv = w.1.kv) hp
    (fun w₁ o f r w₂ ho ha hj => ?_) rfl
  obtain ⟨ha, -⟩ := observe_some.mp ha
  rw [act_kv ha]
  cases o with
  | set k v =>
    have hmem := mem_written (k := k) ho.1 (.inl ⟨v, rfl⟩)
    rw [hl] at hmem
    cases hmem
  | delete k =>
    have hmem := mem_written (k := k) ho.1 (.inr rfl)
    rw [hl] at hmem
    cases hmem
  | _ => exact hj

end

/-- What the trials start from: a store the calls leave, and the codec's
attribution. -/
structure Start (core : Core Snap) (peerOf : Snap → Id) (H : Homes) (m : Mem Snap) : Prop where
  codec : Attributed core peerOf
  filed : FiledStore m.kv
  placed : Placed (Is peerOf) H m

section

variable [DecidableEq Snap] {svc : Service Snap} {peerOf : Snap → Id} {H : Homes}
  {m₀ : Mem Snap} {pkt : Bytes}

omit [DecidableEq Snap] in
theorem Start.kept (h₀ : Start core peerOf H m₀) {w : World Snap} (hw : w.1.kv = m₀.kv) :
    Kept owner sid s m₀.kv w.1.kv := by
  rw [hw]
  exact ⟨.refl, h₀.filed⟩

omit [DecidableEq Snap] in
/-- The session an index entry names is at home and opens packets of its own
peer. -/
theorem Start.opens (h₀ : Start core peerOf H m₀) {record : SessionRecord Snap}
    (hr : m₀.kv.lookup (.session owner sid) = some record) {n : Nat} {opened : Opened}
    (ha : core.answer (.decryptIncoming record.ratchetSnapshot pkt) n = .ok (opened, s))
    (ho : opened.opened = true) : Opens core pkt owner record.sessionId m₀.kv s := by
  have hid := (h₀.filed.sessions owner sid record hr).2
  refine ⟨record, n, opened, hid ▸ hr, ha, ?_, ?_⟩
  · rw [Opened.opened, Bool.and_eq_true] at ho
    exact ho.1
  · rw [h₀.codec.opened _ _ _ _ _ ha ho, (h₀.placed.session owner sid record hr).2.ratchet]

/-- One device session: it opens the packet and is put back, or nothing is
touched. -/
def Tried (core : Core Snap) (pkt : Bytes) (owner : Id) (kv : Store Snap)
    (x : Except Err (Option α)) (w : World Snap) : Prop :=
  Ends core pkt owner kv w.1.kv x ∧ (x = .ok none → w.1.kv = kv)

omit [DecidableEq Snap] in
theorem Tried.missed {kv : Store Snap} {x : Except Err (Option α)} {w : World Snap}
    (h : w.1.kv = kv) : Tried core pkt owner kv x w := ⟨.missed h, fun _ => h⟩

omit [DecidableEq Snap] in
theorem after_attemptDevice (h₀ : Start core peerOf H m₀) {link device : Id} {peer : Option Id}
    {w : World Snap} (hw : w.1.kv = m₀.kv) :
    After (alone core t g) (Tried core pkt owner m₀.kv)
      (attemptDeviceDecrypt owner peer link device pkt false) w := by
  obtain ⟨m, b⟩ := w
  refine after_withLock fun locks =>
    After.mono (Q := Tried core pkt owner m₀.kv) (fun x w h locks' => h) ?_
  generalize hm : ({ m with locks } : Mem Snap) = m₁
  have hkv : m₁.kv = m₀.kv := hm ▸ hw
  refine after_js_bind (after_js_bind (after_get ?_ fun _ => .missed hkv))
  rw [hkv]
  cases hi : m₀.kv.lookup (.sessionByDevice owner link device) with
  | none => exact .missed hkv
  | some sid =>
    refine after_get ?_ fun _ => .missed hkv
    rw [hkv]
    cases hr : m₀.kv.lookup (.session owner sid) with
    | none => exact .missed hkv
    | some record =>
      have hkey := h₀.filed.sessions owner sid record hr
      have hhome : home record = (link, some device) := by
        have hat := (h₀.placed.session owner sid record hr).1
        rw [h₀.placed.byDevice owner link device sid hi, Option.some.injEq] at hat
        exact hat.symm
      have hidx : Indexed m₀.kv owner record.sessionId (link, some device) := by
        refine ⟨fun l h => (by cases h), fun l d h => ?_⟩
        cases h
        rw [hkey.2]
        exact hi
      refine after_js_bind (after_js_bind (after_ensure (fun _ => ?_) fun _ => .missed hkv))
      refine after_js_bind (after_core fun n => ?_)
      cases ha : core.answer (.decryptIncoming record.ratchetSnapshot pkt) n with
      | error e => exact .missed hkv
      | ok out =>
        obtain ⟨opened, s⟩ := out
        dsimp only [Then]
        split
        · rename_i hfrom
          have hopen : opened.opened = true := by
            simp only [isFrom, Bool.and_eq_true, decide_eq_true_eq] at hfrom
            rw [Opened.opened, hfrom.1.1, hfrom.2]
            rfl
          have hopens := h₀.opens hr ha hopen
          refine after_js_bind (after_clock fun now => after_js_bind ?_)
          have hwrites : Proc.All (Writes owner record.sessionId (link, some device) s)
              (Sessions.put { record with ratchetSnapshot := s, updatedAtMs := now }) :=
            writes_put hkey.1 rfl hhome rfl
          refine ((after_kept hidx hwrites foot_put.filed (h₀.kept hkv)).and (after_throws
            (fun _ _ _ _ _ ha => act_answered (observe_some.mp ha).1)
            (tame_put tame_plain))).mono fun x w hx => ?_
          cases x with
          | error e =>
            exact ⟨.matched _ s hopens hx.1.advanced fun e' h => hx.2 e' (by cases h; rfl),
              fun h => by cases h⟩
          | ok v =>
            exact ⟨.matched _ s hopens hx.1.advanced fun e h => (by cases h), fun h => by cases h⟩
        · exact .missed hkv

omit [DecidableEq Snap] in
theorem after_trialLoop (h₀ : Start core peerOf H m₀) {link : Id} {peer : Option Id}
    {rows : List (SessionRecord Snap)} :
    ∀ {w : World Snap}, w.1.kv = m₀.kv →
      After (alone core t g) (Tried core pkt owner m₀.kv) (trialLoop owner peer link pkt rows)
        w := by
  induction rows with
  | nil => exact fun hw => .missed hw
  | cons record rest ih =>
    intro w hw
    unfold trialLoop
    split
    · exact ih hw
    · refine after_js_bind ((after_attemptDevice h₀ hw).mono fun x w₁ hx => ?_)
      match x with
      | .error e => exact ⟨hx.1.error, fun h => by cases h⟩
      | .ok none => exact ih (hx.2 rfl)
      | .ok (some r) => exact ⟨hx.1.ok _, fun h => by cases h⟩

theorem after_tryLegacy (h₀ : Start core peerOf H m₀) {row : PeerLinkRecord} {w : World Snap}
    (hw : w.1.kv = m₀.kv) :
    After (alone core t g) (fun x w' =>
          Ends core pkt owner m₀.kv w'.1.kv x ∧ ((x = .ok .skip ∨ x = .ok .miss) → w'.1.kv = m₀.kv))
      (tryLegacy svc owner pkt row) w := by
  have hmissed : ∀ {x : Except Err RowOutcome} {w : World Snap}, w.1.kv = m₀.kv →
      Ends core pkt owner m₀.kv w.1.kv x ∧ ((x = .ok .skip ∨ x = .ok .miss) → w.1.kv = m₀.kv) :=
    fun h => ⟨.missed h, fun _ => h⟩
  obtain ⟨m, b⟩ := w
  refine after_js_bind (after_js_bind (after_get ?_ fun _ => hmissed hw))
  rw [show m.kv = m₀.kv from hw]
  cases hi : m₀.kv.lookup (.sessionByLink owner row.peerLinkId) with
  | none => exact hmissed hw
  | some sid =>
    refine after_get ?_ fun _ => hmissed hw
    rw [show m.kv = m₀.kv from hw]
    cases hr : m₀.kv.lookup (.session owner sid) with
    | none => exact hmissed hw
    | some record =>
      have hkey := h₀.filed.sessions owner sid record hr
      have hhome : home record = (row.peerLinkId, none) := by
        have hat := (h₀.placed.session owner sid record hr).1
        rw [h₀.placed.byLink owner row.peerLinkId sid hi, Option.some.injEq] at hat
        exact hat.symm
      have hidx : Indexed m₀.kv owner record.sessionId (row.peerLinkId, none) := by
        refine ⟨fun l h => ?_, fun l d h => by cases h⟩
        cases h
        rw [hkey.2]
        exact hi
      dsimp only [Then]
      split
      · exact hmissed hw
      · refine after_js_bind (after_core fun n => ?_)
        cases ha : core.answer (.decryptIncoming record.ratchetSnapshot pkt) n with
        | error e => exact hmissed hw
        | ok out =>
          obtain ⟨opened, s⟩ := out
          dsimp only [Then]
          split
          · exact hmissed hw
          · rename_i hno
            have hopen : opened.opened = true := by
              cases ho : opened.opened with
              | true => rfl
              | false => exact absurd (by rw [ho]; rfl) hno
            have hopens := h₀.opens hr ha hopen
            refine after_js_bind
              ((after_reads (l := [.count]) (foot_clearCounts rfl) rfl).mono fun x w₁ h₁ => ?_)
            cases x with
            | error e => exact hmissed (h₁.trans hw)
            | ok u =>
              obtain ⟨m₁, b₁⟩ := w₁
              refine after_js_bind (after_clock fun now =>
                after_js_bind ((after_reads (l := [.count])
                (foot_markSuccess rfl) rfl).mono fun x w₂ h₂ => ?_))
              have hw₂ : w₂.1.kv = m₀.kv := h₂.trans (h₁.trans hw)
              cases x with
              | error e => exact hmissed hw₂
              | ok u =>
                refine after_js_bind
                  ((after_commitDecrypt hidx hhome (h₀.kept hw₂)).mono fun y w₃ h₃ => ?_)
                cases y with
                | error e =>
                  refine ⟨.matched _ s hopens h₃.1 fun e' h => h₃.2 e' (by cases h; rfl),
                    fun h => ?_⟩
                  rcases h with h | h <;> cases h
                | ok r =>
                  exact ⟨.matched _ s hopens h₃.1 fun e h => (by cases h),
                    fun h => by rcases h with h | h <;> cases h⟩

theorem after_tryRow (h₀ : Start svc.core peerOf H m₀) {row : PeerLinkRecord} {w : World Snap}
    (hw : w.1.kv = m₀.kv) :
    After (alone svc.core t g) (fun x w' =>
          Ends svc.core pkt owner m₀.kv w'.1.kv x ∧
          ((x = .ok .skip ∨ x = .ok .miss) → w'.1.kv = m₀.kv)) (tryRow svc owner pkt row) w := by
  unfold tryRow
  split
  · refine after_js_bind
      (after_js_bind ((after_reads foot_listSessions rfl).mono fun x w₁ h₁ => ?_))
    cases x with
    | error e => exact ⟨.missed (h₁.trans hw), fun h => by rcases h with h | h <;> cases h⟩
    | ok sessions =>
      refine (after_trialLoop h₀ (h₁.trans hw)).mono fun y w₂ h₂ => ?_
      match y with
      | .error e => exact ⟨h₂.1.error, fun h => by rcases h with h | h <;> cases h⟩
      | .ok none => exact after_tryLegacy h₀ (h₂.2 rfl)
      | .ok (some hit) =>
        -- what follows the match only reads
        have hno : ∀ {x : Except Err RowOutcome}, (∀ o, x = .ok o → ∃ r, o = .hit r) →
            ¬ (x = .ok .skip ∨ x = .ok .miss) := by
          rintro x hx (h | h)
          · obtain ⟨r, hr⟩ := hx _ h
            cases hr
          · obtain ⟨r, hr⟩ := hx _ h
            cases hr
        have hfoot : Foot [.clock, .count, .get .sessionByLink, .get .session,
            .get .eventIndex, .get .event]
            (deviceHit owner row hit.2.1 hit.1 : Sdk Snap _) :=
          foot_bind (foot_clearCounts rfl) fun _ => foot_bind (foot_clock rfl) fun _ =>
            foot_bind (foot_markSuccess rfl) fun _ =>
              foot_bind (foot_buildSnapshot.mono (by decide)) fun _ => foot_pure
        have hplain :
            Js.Throws (Answered svc.core) Plain (deviceHit owner row hit.2.1 hit.1 : Sdk Snap _) :=
          Js.throws_bind throws_total fun _ => Js.throws_bind throws_total fun _ =>
            Js.throws_bind throws_total fun _ =>
            Js.throws_bind (tame_buildSnapshot tame_plain) fun _ => Js.throws_pure
        have hhit :
            Js.Ok (fun o => ∃ r, o = .hit r) (deviceHit owner row hit.2.1 hit.1 : Sdk Snap _) :=
          Js.ok_skip fun _ => Js.ok_skip fun _ => Js.ok_skip fun _ => Js.ok_skip fun _ =>
            Js.ok_pure ⟨_, rfl⟩
        refine (((after_reads hfoot rfl).and
          (after_throws (fun _ _ _ _ _ ha => act_answered (observe_some.mp ha).1)
          hplain)).and_returns hhit).mono fun z w₃ h₃ => ⟨?_, fun h => absurd h (hno h₃.2)⟩
        rw [h₃.1.1]
        cases z with
        | error e => exact h₂.1.failed (h₃.1.2 e rfl)
        | ok o => exact h₂.1.ok o
  · exact after_tryLegacy h₀ hw

theorem after_anyPeerLoop (h₀ : Start svc.core peerOf H m₀) {rows : List PeerLinkRecord} :
    ∀ {candidates : List PeerLinkRecord} {w : World Snap}, w.1.kv = m₀.kv →
      After (alone svc.core t g) (fun x w' => Ends svc.core pkt owner m₀.kv w'.1.kv x)
        (anyPeerLoop svc owner pkt rows candidates) w := by
  induction rows with
  | nil =>
    intro candidates w hw
    have hfoot : Foot [.clock, .count] (do
        let nowMs ← clock
        let cs ← recoveryCandidates owner nowMs candidates
        throw { message := "No peer link could decrypt packet", code := some "THREAD_NOT_READY",
                info := .recoveryCandidates cs } : Sdk Snap DecryptResult) :=
      foot_bind (foot_clock rfl) fun _ =>
        foot_bind (foot_recoveryCandidates.mono (by decide)) fun _ => foot_throw
    exact (after_reads hfoot rfl).mono fun x w' h => .missed (h.trans hw)
  | cons row rows ih =>
    intro candidates w hw
    refine after_js_bind ((after_tryRow h₀ hw).mono fun x w₁ h₁ => ?_)
    match x with
    | .error e => exact h₁.1.error
    | .ok (.hit r) => exact h₁.1.ok r
    | .ok .skip => exact ih (h₁.2 (.inl rfl))
    | .ok .miss => exact ih (h₁.2 (.inr rfl))

theorem after_decryptAny (h₀ : Start svc.core peerOf H m₀) {b : Bool} :
    After (alone svc.core t g) (fun x w' => Ends svc.core pkt owner m₀.kv w'.1.kv x)
      (decryptDirectMessageAnyPeer svc owner pkt) (m₀, b) := by
  refine after_js_bind (after_ensure (fun _ => ?_) fun _ => .missed rfl)
  refine after_js_bind ((after_reads foot_listLinks rfl).mono fun x w₁ h₁ => ?_)
  cases x with
  | error e => exact .missed h₁
  | ok rows => exact after_anyPeerLoop h₀ h₁

end

/-! ## The frame -/

/-- **Trial decryption touches only the session that matched.** Every other
session record and every index entry is as it was, and after the error of a
total miss the whole store is. -/
theorem trial_touches_match [DecidableEq Snap] (svc : Service Snap) (peerOf : Snap → Id)
    (hc : Attributed svc.core peerOf) (rows : Rows) (st : State Snap)
    (hr : ((system svc).lts (anyCalls peerOf rows)).Reachable st) (t : Nat) (owner : Id)
    (pkt : Bytes) (fs : List Fate) (τ : List (Proc.Exch (sdk Snap))) (x : Except Err DecryptResult)
    (m : Mem Snap)
    (hrun :
        (system svc).solo t st.mem (decryptDirectMessageAnyPeer svc owner pkt) fs =
          some (τ, x, m)) :
    (m.kv = st.mem.kv ∨
      ∃ sid s, Opens svc.core pkt owner sid st.mem.kv s ∧ Advanced owner sid s st.mem.kv m.kv) ∧
    (∀ e cs, x = .error e → e.info = .recoveryCandidates cs → m.kv = st.mem.kv) := by
  have hinv := (inv_inductive hc.makes rows).reachable st hr
  obtain ⟨H, ha⟩ := hinv.homes
  have h₀ : Start svc.core peerOf H st.mem := ⟨hc, hinv.filed.store, ha.placed⟩
  have hafter : After (alone svc.core t fun _ _ => false)
      (fun x w' => Ends svc.core pkt owner st.mem.kv w'.1.kv x)
      (decryptDirectMessageAnyPeer svc owner pkt) (st.mem, false) := after_decryptAny h₀
  have hends := After.solo_observed (S := system svc) hafter hrun
  cases hends with
  | missed h => exact ⟨.inl h, fun _ _ _ _ => h⟩
  | matched sid s ho ha he =>
    refine ⟨.inr ⟨sid, s, ho, ha⟩, fun e cs hx hi => ?_⟩
    have hplain := he e hx
    rw [Plain, hi] at hplain
    cases hplain

namespace Example

open Counting

def start : Mem (Id × Nat) := .ofStore peerLinked [a, b, c, d]

abbrev trial : Sdk (Id × Nat) DecryptResult := decryptDirectMessageAnyPeer peerSvc a [1]

abbrev trialRun :
    Option (List (Proc.Exch (sdk (Id × Nat))) × Except Err DecryptResult × Mem (Id × Nat)) :=
  (system peerSvc).solo 0 start trial ((system peerSvc).fates peerSmooth 0 0 start trial)

/-- Session `d` had ratchet 1, and has ratchet 2 now. -/
theorem moved : ∃ τ x m, trialRun = some (τ, x, m) ∧
    (m.kv.lookup (.session a d)).map (·.ratchetSnapshot) = some (b, 2) := by
  obtain ⟨⟨τ, x, m⟩, hrun, hmoved⟩ := (Option.any_eq_true _ _).mp (show (trialRun.any fun y =>
    (y.2.2.kv.lookup (.session a d)).map (·.ratchetSnapshot) = some (b,
    2)) = true by decide +kernel)
  exact ⟨τ, x, m, hrun, of_decide_eq_true hmoved⟩

theorem start_reachable :
    ((system peerSvc).lts (anyCalls Prod.fst fun _ _ => none)).Reachable ⟨start, [], []⟩ := by
  have hhomed : Homed (Is Prod.fst) start := by
    refine ⟨fun o i => if o = a ∧ i = d then some (c, none) else none,
      placed_of_atHome (by decide) fun o i k h => ?_⟩
    split at h
    · rename_i heq
      rw [heq.2]
      decide
    · cases h
  exact ⟨_, [], ⟨⟨LinkPeers.init_of_wellKept (by decide) nofun, hhomed⟩, rfl, rfl⟩, .nil _⟩

end Example

open Example Counting in
/-- Session `d` opens the packet `[1]`, and its ratchet is the one that moves. -/
theorem trial_touches_match_linked :
    ∃ τ x m s, trialRun = some (τ, x, m) ∧
      (m.kv.lookup (.session a d)).map (·.ratchetSnapshot) = some (b, 2) ∧
      Opens peerCore [1] a d peerLinked s ∧ Advanced a d s peerLinked m.kv := by
  obtain ⟨τ, x, m, hrun, hmoved⟩ := moved
  have hold : (peerLinked.lookup (.session a d)).map (·.ratchetSnapshot) = some (b, 1) := by decide
  have hframe := (trial_touches_match peerSvc Prod.fst attributed_peerCore
      (fun _ _ => none) _ start_reachable 0 a [1] _ τ x m
    hrun).1
  rcases hframe with hkept | ⟨sid, s, hopens, hadvanced⟩
  · rw [hkept] at hmoved
    cases hold.symm.trans hmoved
  · by_cases hsid : sid = d
    · subst hsid
      exact ⟨τ, x, m, s, hrun, hmoved, hopens, hadvanced⟩
    · rw [hadvanced.others a d fun h => hsid h.2.symm] at hmoved
      cases hold.symm.trans hmoved

end

end RezSdk.L4.TrialFrame
