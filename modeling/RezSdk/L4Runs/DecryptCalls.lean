import RezSdk.L3Service.Footprints
import RezSdk.L4Runs.CommitDurability

/-!
# What a decrypt leaves behind when it throws

A monitor of the session writes of one decrypt call: nothing written yet
(`clean`), the advanced ratchet written and every read-back of it in
agreement (`wrote`), a read-back that found something else (`clashed`), or a
session write that was reported failed. Once the ratchet is written, the call
throws on a failed read only: every other failure goes through the recovery,
which rewrites, reads back and keeps the plaintext.

* `obeys_commitDecrypt`: the commit and its recovery.
* `obeys_decrypt`, `obeys_decryptAny`: the two decrypt functions.
-/
namespace RezSdk.L4.DecryptLoss

open RezSdk.L1 RezSdk.L2 RezSdk.L3

variable {Snap : Type}

inductive Mark (Snap : Type)
  /-- not a decrypt -/
  | unwatched
  | clean
  /-- `stuck` when the last operation was a read that failed -/
  | wrote (cell : Id × Id) (snap : Snap) (stuck : Bool)
  | clashed (cell : Id × Id)
  | failed
deriving DecidableEq

/-- A session write that was reported failed: of the record or of its index. -/
def failedWrite : Proc.Exch (sdk Snap) → Bool
  | ⟨.set (.session ..) _, .error _⟩ => true
  | ⟨.set (.sessionByLink ..) _, .error _⟩ => true
  | ⟨.set (.sessionByDevice ..) _, .error _⟩ => true
  | _ => false

def failedRead : Proc.Exch (sdk Snap) → Bool
  | ⟨.get _, .error _⟩ => true
  | ⟨.keys _, .error _⟩ => true
  | _ => false

/-- A read of the record that does not find the snapshot. -/
def mismatch [DecidableEq Snap] (cell : Id × Id) (snap : Snap) : Proc.Exch (sdk Snap) → Bool
  | ⟨.get (.session o i), .ok v⟩ => (o, i) = cell && !decide (v.map (·.ratchetSnapshot) = some snap)
  | _ => false

/-- The session write of a call that has written none yet. -/
def firstWrite : Proc.Exch (sdk Snap) → Mark Snap
  | ⟨.set (.session o i) r, .ok _⟩ => .wrote (o, i) r.ratchetSnapshot false
  | _ => .clean

def Mark.next [DecidableEq Snap] (m : Mark Snap) (x : Proc.Exch (sdk Snap)) : Mark Snap :=
  match m with
  | .unwatched => .unwatched
  | .clean => if failedWrite x then .failed else firstWrite x
  | .wrote cell snap _ =>
    if failedWrite x then .failed
    else if mismatch cell snap x then .clashed cell
    else .wrote cell snap (failedRead x)
  | .clashed cell => if failedWrite x then .failed else .clashed cell
  | .failed => .failed

theorem firstWrite_cases (x : Proc.Exch (sdk Snap)) :
    firstWrite x = .clean ∨
    ∃ o i r u, x = ⟨.set (.session o i) r, .ok u⟩ ∧
      firstWrite x = .wrote (o, i) r.ratchetSnapshot false := by
  unfold firstWrite
  split
  · exact .inr ⟨_, _, _, _, rfl, rfl⟩
  · exact .inl rfl

theorem mark_failed [DecidableEq Snap] {m : Mark Snap} {x : Proc.Exch (sdk Snap)}
    (h : m.next x = .failed) : m = .failed ∨ failedWrite x = true := by
  cases hx : failedWrite x with
  | true => exact .inr rfl
  | false =>
    cases m with
    | failed => exact .inl rfl
    | clean =>
      simp only [Mark.next, hx, Bool.false_eq_true, if_false] at h
      rcases firstWrite_cases x with h' | ⟨_, _, _, _, _, h'⟩ <;> (rw [h'] at h; cases h)
    | wrote c s b =>
      simp only [Mark.next, hx, Bool.false_eq_true, if_false] at h
      split at h <;> cases h
    | _ => simp [Mark.next, hx] at h

theorem mark_stuck [DecidableEq Snap] {m : Mark Snap} {x : Proc.Exch (sdk Snap)} {cell : Id × Id}
    {snap : Snap} (h : m.next x = .wrote cell snap true) :
    failedRead x = true ∧ ∃ b, m = .wrote cell snap b := by
  cases m with
  | clean =>
    simp only [Mark.next] at h
    split at h
    · cases h
    · rcases firstWrite_cases x with h' | ⟨_, _, _, _, _, h'⟩ <;> (rw [h'] at h; cases h)
  | wrote c s b =>
    simp only [Mark.next] at h
    split at h
    · cases h
    · split at h
      · cases h
      · injection h with hc hs hr
        subst hc hs
        exact ⟨hr, b, rfl⟩
  | clashed c =>
    simp only [Mark.next] at h
    split at h <;> cases h
  | _ => cases h

/-- A decrypt writes one session record, always with the same snapshot, and
deletes none. -/
def Mark.may : Mark Snap → Op Snap → Prop
  | .clean, .delete (.session ..) => False
  | .wrote .., .delete (.session ..) => False
  | .clashed _, .delete (.session ..) => False
  | .wrote cell snap _, .set (.session o i) r => (o, i) = cell ∧ r.ratchetSnapshot = snap
  | .clashed cell, .set (.session o i) _ => (o, i) = cell
  | _, _ => True

def monitor [DecidableEq Snap] : Monitor (sdk Snap) (Mark Snap) := ⟨Mark.next, Mark.may⟩

/-- Everything written so far is snapshot `snap` of record `cell`. -/
def Near (cell : Id × Id) (snap : Snap) : Mark Snap → Prop
  | .unwatched => False
  | .clean => True
  | .wrote c s _ => c = cell ∧ s = snap
  | .clashed c => c = cell
  | .failed => True

/-- The call may throw: it has no unharmed write behind it, or its last read
failed. -/
def Excused : Mark Snap → Prop
  | .wrote _ _ stuck => stuck = true
  | _ => True

def Unwritten : Mark Snap → Prop
  | .wrote .. => False
  | _ => True

theorem Unwritten.excused {m : Mark Snap} (h : Unwritten m) : Excused m := by
  cases m with
  | wrote => exact h.elim
  | _ => trivial

/-! ## Stepping over operations -/

/-- The classes of session writes. -/
def sessionWrites : List OpClass :=
  [.set .session, .set .sessionByLink, .set .sessionByDevice, .delete .session]

variable [DecidableEq Snap] {L : Proc.Exch (sdk Snap) → Prop} {α β : Type} {l : List OpClass}
  {cell : Id × Id} {snap : Snap} {m : Mark Snap}

omit [DecidableEq Snap] in
theorem not_failedWrite {o : Op Snap} (h : sessionWrites.contains (classOf o) = false) (r : o.Ans) :
    failedWrite ⟨o, r⟩ = false := by
  cases o with
  | set k v => cases k <;> first | rfl | cases h
  | _ => rfl

omit [DecidableEq Snap] in
theorem may_of_class {o : Op Snap} (h : sessionWrites.contains (classOf o) = false)
    (m : Mark Snap) : m.may o := by
  cases o with
  | set k v => cases k <;> cases m <;> trivial
  | delete k => cases k <;> cases m <;> trivial
  | _ => cases m <;> trivial

omit [DecidableEq Snap] in
theorem firstWrite_of_class {o : Op Snap} (h : sessionWrites.contains (classOf o) = false)
    (r : o.Ans) : firstWrite ⟨o, r⟩ = .clean := by
  cases o with
  | set k v => cases k <;> first | rfl | cases h
  | _ => rfl

theorem near_of_class {o : Op Snap} (h : sessionWrites.contains (classOf o) = false) (r : o.Ans)
    (hm : Near cell snap m) : Near cell snap (m.next ⟨o, r⟩) := by
  cases m with
  | wrote c s b =>
    simp only [Mark.next, not_failedWrite h, Bool.false_eq_true, if_false]
    split
    · exact hm.1
    · exact hm
  | _ => simpa [Mark.next, not_failedWrite h, firstWrite_of_class h] using hm

theorem unwritten_of_class {o : Op Snap} (h : sessionWrites.contains (classOf o) = false)
    (r : o.Ans) (hm : Unwritten m) : Unwritten (m.next ⟨o, r⟩) := by
  cases m with
  | wrote c s b => exact hm.elim
  | _ => simpa [Mark.next, not_failedWrite h, firstWrite_of_class h] using hm

theorem obeys_step {Q : Mark Snap → α → Prop} {o : Op Snap} {next : o.Ans → Proc (sdk Snap) α}
    (h : sessionWrites.contains (classOf o) = false) (hm : Near cell snap m)
    (hq : ∀ m' r, Near cell snap m' → Obeys monitor L Q m' (next r)) :
    Obeys monitor L Q m (.ask o next) :=
  ⟨may_of_class h m, fun r _ => hq _ r (near_of_class h r hm)⟩

/-- A program that writes no session. -/
theorem obeys_apart {p : Proc (sdk Snap) α} (hp : Foot l p)
    (hl : l.all (fun c => !sessionWrites.contains c) = true) :
    ∀ {m : Mark Snap}, Near cell snap m →
      Obeys monitor L (fun m' _ => Near cell snap m' ∧ (Unwritten m → Unwritten m')) m p := by
  induction p with
  | ret x => exact fun h => ⟨h, id⟩
  | ask o next ih =>
    intro m h
    have hc : sessionWrites.contains (classOf o) = false := by
      simpa using List.all_eq_true.mp hl _ (List.contains_iff_mem.mp hp.1.1)
    refine ⟨may_of_class hc m, fun r _ => ?_⟩
    exact (ih r (hp.2 r) (near_of_class hc r h)).mono fun m' x ⟨h₁, h₂⟩ =>
      ⟨h₁, fun hu => h₂ (unwritten_of_class hc r hu)⟩

/-- The same before anything is written. -/
theorem obeys_clean {Q : Mark Snap → α → Prop} {p : Proc (sdk Snap) α} (hp : Foot l p)
    (hl : l.all (fun c => !sessionWrites.contains c) = true) (hq : ∀ x, Q .clean x) :
    Obeys monitor L Q .clean p := by
  refine obeys_still (Proc.All.mono (fun o ho => ?_) hp) hq
  have hc : sessionWrites.contains (classOf o) = false := by
    simpa using List.all_eq_true.mp hl _ (List.contains_iff_mem.mp ho.1)
  refine ⟨may_of_class hc .clean, fun r => ?_⟩
  simp only [monitor, Mark.next, not_failedWrite hc, firstWrite_of_class hc,
    Bool.false_eq_true, if_false]

theorem obeys_clean_bind {ε : Type} {Q : Mark Snap → Except ε β → Prop} {p : Js (sdk Snap) ε α}
    {f : α → Js (sdk Snap) ε β} (hp : Foot l p)
    (hl : l.all (fun c => !sessionWrites.contains c) = true) (he : ∀ e, Q .clean (.error e))
    (hf : ∀ x, Obeys monitor L Q .clean (f x)) :
    Obeys monitor L Q .clean (p >>= f : Js (sdk Snap) ε β) :=
  obeys_js_bind (obeys_clean hp hl fun
    | .ok x => hf x
    | .error e => he e)

/-! ## Reads -/

/-- A step that throws on a failed read only. -/
def Thrown (cell : Id × Id) (snap : Snap) {ε : Type} (m : Mark Snap) : Except ε α → Prop
  | .ok _ => Near cell snap m
  | .error _ => Near cell snap m ∧ Excused m

theorem obeys_get {k : Key} (hm : Near cell snap m) :
    Obeys monitor L (fun m' x => Thrown cell snap m' x) m (kvGet k : Sdk Snap _) := by
  refine ⟨may_of_class (by cases k <;> rfl) m, fun r _ => ?_⟩
  have hn := near_of_class (o := .get k) (by cases k <;> rfl) r hm
  cases r with
  | ok v => exact hn
  | error e =>
    refine ⟨hn, ?_⟩
    cases m with
    | wrote c s b => cases k <;> rfl
    | _ => trivial

theorem obeys_thrown_bind {p : Sdk Snap α} {f : α → Sdk Snap β}
    (hp : Obeys monitor L (fun m' x => Thrown cell snap m' x) m p)
    (hf :
        ∀ m' x, Near cell snap m' → Obeys monitor L (fun m' x => Thrown cell snap m' x) m' (f x)) :
    Obeys monitor L (fun m' x => Thrown cell snap m' x) m (p >>= f : Sdk Snap β) :=
  obeys_js_bind (hp.mono fun m' x hx => by
    cases x with
    | ok v => exact hf m' v hx
    | error e => exact hx)

theorem obeys_readAll {owner : Id} : ∀ {ids : List Id} {m : Mark Snap}, Near cell snap m →
    Obeys monitor L (fun m' x => Thrown cell snap m' x) m (Events.readAll owner ids : Sdk Snap _)
  | [], _, h => h
  | _ :: _, _, h => obeys_thrown_bind (obeys_get h) fun _ _ h =>
      obeys_thrown_bind (obeys_readAll h) fun _ _ h => h

theorem obeys_buildSnapshot {r : PeerLinkRecord} (hm : Near cell snap m) :
    Obeys monitor L (fun m' x => Thrown cell snap m' x) m (buildSnapshot r : Sdk Snap _) := by
  refine obeys_thrown_bind (obeys_thrown_bind (obeys_get hm) fun m' sid h => ?_) fun m' _ h => ?_
  · cases sid with
    | none => exact h
    | some sid => exact obeys_get h
  · exact obeys_thrown_bind (obeys_thrown_bind (obeys_get h) fun _ _ h =>
      obeys_thrown_bind (obeys_readAll h) fun _ _ h => h) fun _ _ h => h

theorem obeys_keepPlaintext {r : PeerLinkRecord} {e : Option CommitError} (hm : Near cell snap m) :
    Obeys monitor L (fun m' x => Thrown cell snap m' x) m (keepPlaintext r e : Sdk Snap _) :=
  obeys_thrown_bind (obeys_buildSnapshot hm) fun _ _ h => h

/-! ## Writes -/

/-- A write that is reported failed leaves the mark at `failed`. -/
def Reported (cell : Id × Id) (snap : Snap) (m : Mark Snap) : Except Err α → Prop
  | .ok _ => Near cell snap m
  | .error _ => m = .failed

theorem obeys_setRecord {r : SessionRecord Snap} (hs : r.ratchetSnapshot = snap)
    (hm : Near cell snap m) :
    Obeys monitor L (fun m' x => Reported cell snap m' x) m (kvSet (.session cell.1 cell.2) r) := by
  refine ⟨?_, fun x _ => ?_⟩
  · cases m with
    | wrote c s b => exact ⟨hm.1.symm, hs.trans hm.2.symm⟩
    | clashed c => exact hm.symm
    | _ => trivial
  · cases m with
    | unwatched => exact hm.elim
    | clean =>
      cases x with
      | error e => rfl
      | ok u => exact ⟨rfl, hs⟩
    | _ =>
      cases x with
      | error e => rfl
      | ok u => exact hm

theorem obeys_setIndex {r : SessionRecord Snap} (hm : Near cell snap m) :
    Obeys monitor L (fun m' x => Reported cell snap m' x) m (Sessions.setIndex r) := by
  unfold Sessions.setIndex
  split
  all_goals
    refine ⟨by cases m <;> trivial, fun x _ => ?_⟩
    cases m with
    | unwatched => exact hm.elim
    | _ =>
      cases x with
      | error e => rfl
      | ok u => exact hm

/-- The put of the advanced snapshot. -/
theorem obeys_put {r : SessionRecord Snap} (hc : (r.localAccountId, r.sessionId) = cell)
    (hs : r.ratchetSnapshot = snap) (hm : Near cell snap m) :
    Obeys monitor L
      (fun m' x => Near cell snap m' ∧ (∀ e, x = .error e → Unwritten m → Unwritten m')) m
      (Sessions.put r) := by
  subst hc
  refine obeys_js_bind
    ((obeys_apart (l := [.get .session]) (foot_get rfl) rfl hm).mono fun m₁ x hx => ?_)
  obtain ⟨hn, hu⟩ := hx
  cases x with
  | error e => exact ⟨hn, fun _ _ => hu⟩
  | ok existing =>
    refine obeys_js_bind
      ((obeys_setRecord (r := Sessions.putVersion existing r) hs hn).mono fun m₂ y hy => ?_)
    cases y with
    | error e => cases hy; exact ⟨trivial, fun _ _ _ => trivial⟩
    | ok u =>
      refine obeys_js_bind ((obeys_setIndex hy).mono fun m₃ z hz => ?_)
      cases z with
      | error e => cases hz; exact ⟨trivial, fun _ _ _ => trivial⟩
      | ok v => exact ⟨hz, fun e h => by cases h⟩

/-! ## The commit -/

/-- The commit of snapshot `snap` to the record `cell`. -/
structure Commits (cell : Id × Id) (snap : Snap) (a : CommitArgs Snap) : Prop where
  ratchet : a.ratchet = some snap
  session : a.existingSession.map (fun r => (a.owner, r.sessionId)) = some cell

/-- What the progress retains is that write. -/
def Retains (cell : Id × Id) (snap : Snap) (p : Progress Snap) : Prop :=
  ∃ r, p.sessionPutInput = some r ∧ (r.localAccountId, r.sessionId) = cell ∧
  r.ratchetSnapshot = snap

/-- A failed commit: the retained write, and nothing is written before it has
returned. -/
def Failed (cell : Id × Id) (snap : Snap) (m m' : Mark Snap) : Except (Progress Snap × Err) α → Prop
  | .ok _ => True
  | .error (p, _) => Retains cell snap p ∧ (p.sessionPersisted = false → Unwritten m → Unwritten m')

theorem obeys_commitLink {svc : Service Snap} {a : CommitArgs Snap} {now : Nat} {m₀ : Mark Snap}
    {stored : Option (SessionRecord Snap)} {p : Progress Snap} (hp : Retains cell snap p)
    (hpers : p.sessionPersisted = true) (hm : Near cell snap m) :
    Obeys monitor L (fun m' x => Near cell snap m' ∧ Failed cell snap m₀ m' x) m
      (commitLink svc a now stored p) := by
  refine ((obeys_apart foot_commitLink rfl hm).and_result (P := fun x => ∀ q e, x = .error (q, e) →
    q.sessionPersisted = p.sessionPersisted ∧ q.sessionPutInput = p.sessionPutInput) ?_).mono ?_
  · rintro τ x ht q e rfl
    exact CommitDurability.commitLink_error ht
  · rintro m' x ⟨⟨hn, -⟩, hx⟩
    refine ⟨hn, ?_⟩
    match x with
    | .ok _ => trivial
    | .error (q, e) =>
      obtain ⟨hq, hi⟩ := hx q e rfl
      refine ⟨?_, fun h => ?_⟩
      · obtain ⟨r, hr, hcell, hsnap⟩ := hp
        exact ⟨r, hi.trans hr, hcell, hsnap⟩
      · rw [hq, hpers] at h; cases h

theorem obeys_commitSession {svc : Service Snap} {a : CommitArgs Snap} (ha : Commits cell snap a)
    (hm : Near cell snap m) :
    Obeys monitor L (fun m' x => Near cell snap m' ∧ Failed cell snap m m' x) m
      (commitSession svc a) := by
  obtain ⟨record, hrec, hcell⟩ := Option.map_eq_some_iff.mp ha.session
  have hs : a.snapshot = some snap := CommitDurability.CommitArgs.snapshot_eq ha.ratchet
  unfold commitSession
  refine obeys_track ((obeys_apart (l := [.clock]) (foot_clock rfl) rfl hm).and_result
    (P := fun x => ∃ n, x = .ok n) (fun τ x ht => ?_) |>.mono ?_)
  · obtain ⟨r, τ', -, h⟩ := Proc.trace_ask.mp ht
    exact ⟨r, (Proc.trace_ret.mp h).2⟩
  rintro m₁ x ⟨⟨hn₁, hu₁⟩, now, rfl⟩
  simp only [hs, hrec]
  refine obeys_track (p := Progress.start) ?_
  refine obeys_track ((obeys_put (r := a.putInput snap record.sessionId _) hcell rfl hn₁).mono
    fun m₂ y hy => ?_)
  cases y with
  | error e => exact ⟨hy.1, ⟨_, rfl, hcell, rfl⟩, fun _ hu => hy.2 e rfl (hu₁ hu)⟩
  | ok stored => exact obeys_commitLink ⟨_, rfl, hcell, rfl⟩ rfl hy.1

/-! ## The recovery -/

/-- The read-back: when it does not agree, nothing unharmed is written. -/
def ReadBack (cell : Id × Id) (snap : Snap) (m : Mark Snap) : Except Err Bool → Prop
  | .ok same => Near cell snap m ∧ (same = false → Unwritten m)
  | .error _ => Near cell snap m ∧ Excused m

theorem obeys_storedRatchetMatches {a : CommitArgs Snap} {p : Progress Snap}
    (ha : Commits cell snap a) (hp : Retains cell snap p) (hm : Near cell snap m) :
    Obeys monitor L (fun m' x => ReadBack cell snap m' x) m (storedRatchetMatches a p) := by
  obtain ⟨record, hrec, hcell⟩ := Option.map_eq_some_iff.mp ha.session
  obtain ⟨r, hr, hrcell, -⟩ := hp
  have hsid : (p.sessionPutInput <|> a.existingSession).map (·.sessionId) = some cell.2 := by
    rw [hr, ← hrcell]; rfl
  have howner : a.owner = cell.1 := by rw [← hcell]
  simp only [storedRatchetMatches, ha.ratchet, hsid, howner]
  refine ⟨may_of_class rfl m, fun x _ => ?_⟩
  have hn := near_of_class (o := .get (.session cell.1 cell.2)) rfl x hm
  cases x with
  | error e =>
    refine ⟨hn, ?_⟩
    cases m with
    | wrote c s b => rfl
    | _ => trivial
  | ok v =>
    refine ⟨hn, fun hfalse => ?_⟩
    cases m with
    | wrote c s b =>
      obtain ⟨rfl, rfl⟩ := hm
      have hmis : mismatch c s ⟨.get (.session c.1 c.2), .ok v⟩ = true := by
        cases v with
        | none => simp [mismatch]
        | some stored => simpa [mismatch] using hfalse
      simp only [monitor, Mark.next, hmis, if_true]
      trivial
    | _ => trivial

/-- The rewrites: none of them returned, or one did. -/
theorem obeys_rewrite {r : SessionRecord Snap} (hc : (r.localAccountId, r.sessionId) = cell)
    (hs : r.ratchetSnapshot = snap) :
    ∀ {n : Nat} {m : Mark Snap}, Near cell snap m → Unwritten m →
      Obeys monitor L
        (fun m' x => Near cell snap m' ∧ ∃ wrote, x = .ok wrote ∧ (wrote = false → Unwritten m')) m
        (rewrite r n)
  | 0, _, hm, hu => ⟨hm, false, rfl, fun _ => hu⟩
  | n + 1, _, hm, hu => by
    refine obeys_attempt ((obeys_put hc hs hm).mono fun m' x hx => ?_)
    cases x with
    | ok _ => exact ⟨hx.1, true, rfl, fun h => by cases h⟩
    | error e => exact obeys_rewrite hc hs hx.1 (hx.2 e rfl hu)

/-- The confirmation: a `false` means that nothing unharmed is written. -/
def Confirms (cell : Id × Id) (snap : Snap) (m : Mark Snap) :
    Except Err (Bool × Progress Snap) → Prop
  | .ok (durable, p) => Near cell snap m ∧ Retains cell snap p ∧ (durable = false → Unwritten m)
  | .error _ => Near cell snap m ∧ Excused m

theorem obeys_confirm {a : CommitArgs Snap} {p : Progress Snap} (ha : Commits cell snap a)
    (hp : Retains cell snap p) (hm : Near cell snap m)
    (hu : p.sessionPersisted = false → Unwritten m) :
    Obeys monitor L (fun m' x => Confirms cell snap m' x) m
      (confirmAdvancedRatchetDurable a p) := by
  obtain ⟨r, hr, hc, hs⟩ := id hp
  unfold confirmAdvancedRatchetDurable
  split
  · refine obeys_js_bind ((obeys_storedRatchetMatches ha hp hm).mono fun m' x hx => ?_)
    cases x with
    | error e => exact hx
    | ok same => exact ⟨hx.1, hp, hx.2⟩
  · rename_i hpers
    simp only [hr]
    refine obeys_js_bind ((obeys_rewrite hc hs hm (hu (by simpa using hpers))).mono ?_)
    rintro m' x ⟨hn, wrote, rfl, hw⟩
    cases wrote with
    | false => exact ⟨hn, hp, hw⟩
    | true =>
      refine obeys_js_bind ((obeys_storedRatchetMatches ha hp hn).mono fun m'' y hy => ?_)
      cases y with
      | error e => exact hy
      | ok same => exact ⟨hy.1, ⟨r, rfl, hc, hs⟩, hy.2⟩

theorem obeys_recoverRetry {a : CommitArgs Snap} {p rp : Progress Snap} {f : PeerLinkRecord}
    {e : Err} (ha : Commits cell snap a) (hp : Retains cell snap p) (hrp : Retains cell snap rp)
    (hm : Near cell snap m) :
    Obeys monitor L (fun m' x => Thrown cell snap m' x) m (recoverRetry a p f rp e) := by
  have hkeep : ∀ {m : Mark Snap} {same : Bool}, Near cell snap m → (same = false → Unwritten m) →
      Obeys monitor L (fun m' x => Thrown cell snap m' x) m (do
        Js.ensure same e
        keepPlaintext f (some (.of (failedStage rp) e)) : Sdk Snap (CommitResult Snap)) := by
    intro m same hm hu
    exact obeys_js_bind (obeys_ensure (fun _ => obeys_keepPlaintext hm) fun h =>
      ⟨hm, (hu h).excused⟩)
  unfold recoverRetry
  split
  · rename_i hpers
    refine obeys_js_bind ((obeys_confirm ha hrp hm fun h => ?_).mono fun m' x hx => ?_)
    · rw [hpers] at h; cases h
    · match x with
      | .error _ => exact hx
      | .ok (durable, q) => exact hkeep hx.1 hx.2.2
  · refine obeys_js_bind ((obeys_storedRatchetMatches ha hp hm).mono fun m' x hx => ?_)
    cases x with
    | error _ => exact hx
    | ok same => exact hkeep hx.1 hx.2

theorem obeys_recoverLink {svc : Service Snap} {a : CommitArgs Snap} {p : Progress Snap} {e : Err}
    (ha : Commits cell snap a) (hp : Retains cell snap p) (hm : Near cell snap m) :
    ∀ fresh, Obeys monitor L (fun m' x => Thrown cell snap m' x) m (recoverLink svc a p e fresh)
  | none => obeys_keepPlaintext hm
  | some f => by
    by_cases hest : f.state = .sessionEstablished
    · simp only [recoverLink, hest]
      exact obeys_keepPlaintext hm
    · simp only [recoverLink, hest]
      refine obeys_bind ((obeys_commitSession (a := { a with peerLinkRecord := f })
        ⟨ha.ratchet, ha.session⟩ hm).mono ?_)
      rintro m' x ⟨hn, hx⟩
      match x with
      | .ok r => exact hn
      | .error (rp, e') => exact obeys_recoverRetry ha hp hx.1 hn

theorem obeys_recover {svc : Service Snap} {a : CommitArgs Snap} {p : Progress Snap} {e : Err}
    (ha : Commits cell snap a) (hp : Retains cell snap p) (hm : Near cell snap m)
    (hu : p.sessionPersisted = false → Unwritten m) :
    Obeys monitor L (fun m' x => Thrown cell snap m' x) m
      (recoverCommitAfterDecrypt svc a p e) := by
  refine obeys_js_bind ((obeys_confirm ha hp hm hu).mono fun m' x hx => ?_)
  match x with
  | .error _ => exact hx
  | .ok (durable, q) =>
    refine obeys_js_bind (obeys_ensure (fun _ => ?_) fun h => ⟨hx.1, (hx.2.2 h).excused⟩)
    exact obeys_thrown_bind (obeys_get hx.1) fun _ fresh h => obeys_recoverLink ha hx.2.1 h fresh

theorem obeys_commitAfterDecrypt {svc : Service Snap} {a : CommitArgs Snap}
    (ha : Commits cell snap a) (hm : Near cell snap m) (hu : Unwritten m) :
    Obeys monitor L (fun m' x => Thrown cell snap m' x) m (commitSessionAfterDecrypt svc a) := by
  refine obeys_bind ((obeys_commitSession ha hm).mono ?_)
  rintro m' x ⟨hn, hx⟩
  match x with
  | .ok r => exact hn
  | .error (p, e) => exact obeys_recover ha hx.1 hn fun h => hx.2 h hu

/-! ## The decrypt functions -/

/-- **The commit of a decrypt** throws after an unharmed write only when its
last read failed. -/
theorem obeys_commitDecrypt {svc : Service Snap} {owner peer : Id} {link : PeerLinkRecord}
    {record : SessionRecord Snap} {opened : Opened} :
    Obeys monitor L (fun m' x => Thrown (owner, record.sessionId) snap m' x) .clean
      (commitDecrypt svc owner peer link record opened snap) := by
  unfold commitDecrypt
  split
  · refine obeys_clean_bind (l := [.clock]) (foot_clock rfl) rfl
      (fun _ => ⟨trivial, trivial⟩) fun now => ?_
    refine obeys_thrown_bind (obeys_commitAfterDecrypt ⟨rfl, rfl⟩ trivial trivial) fun _ _ h => h
  · refine obeys_clean_bind (l := [.clock]) (foot_clock rfl) rfl
      (fun _ => ⟨trivial, trivial⟩) fun now => ?_
    refine obeys_js_bind ((obeys_put (m := .clean) (show _ = (owner, record.sessionId) from rfl)
      (show _ = snap from rfl) trivial).mono fun m' x hx => ?_)
    cases x with
    | error e => exact ⟨hx.1, (hx.2 e rfl trivial).excused⟩
    | ok _ => exact obeys_thrown_bind (obeys_buildSnapshot hx.1) fun _ _ h => h

/-- What a call that throws leaves behind. -/
def Throws (m : Mark Snap) : Except Err α → Prop
  | .ok _ => True
  | .error _ => Excused m

theorem obeys_decrypt {svc : Service Snap} (owner peer : Id) (pkt : Bytes) :
    Obeys monitor L (fun m x => Throws m x) .clean (decryptDirectMessage svc owner peer pkt) := by
  refine obeys_clean_bind (l := []) foot_ensure rfl (fun _ => trivial) fun _ => ?_
  refine obeys_clean_bind foot_getByPair rfl (fun _ => trivial) fun found => ?_
  refine obeys_clean_bind (l := []) foot_orThrow rfl (fun _ => trivial) fun link => ?_
  refine obeys_clean_bind foot_sessionByLink rfl (fun _ => trivial) fun session => ?_
  refine obeys_clean_bind (l := []) foot_orThrow rfl (fun _ => trivial) fun record => ?_
  refine obeys_clean_bind (l := []) foot_ensure rfl (fun _ => trivial) fun _ => ?_
  refine obeys_clean_bind (l := [.codec]) (foot_core rfl) rfl (fun _ => trivial) fun out => ?_
  obtain ⟨opened, advanced⟩ := out
  refine obeys_clean_bind (l := []) foot_ensure rfl (fun _ => trivial) fun _ => ?_
  split
  · exact obeys_clean_bind (l := [.count]) (foot_countFailure rfl) rfl (fun _ => trivial) fun _ =>
      trivial
  · refine obeys_clean_bind (l := [.count]) (foot_clearCounts rfl) rfl (fun _ => trivial) fun _ =>
      ?_
    refine obeys_commitDecrypt.mono fun m x hx => ?_
    cases x with
    | ok r => trivial
    | error e => exact hx.2

/-! ## Trial decryption -/

/-- One trial: a hit has written its session, and everything else has
written nothing. -/
def Attempt (m : Mark Snap) : Except Err (Option α) → Prop
  | .ok (some _) => ∃ cell snap, Near cell snap m
  | .ok none => m = .clean
  | .error _ => Unwritten m

theorem attempt_of_class {o : Op Snap} (h : sessionWrites.contains (classOf o) = false) (r : o.Ans)
    {x : Except Err (Option α)} (hm : Attempt m x) : Attempt (m.next ⟨o, r⟩) x := by
  match x with
  | .ok (some _) =>
    obtain ⟨cell, snap, hn⟩ := hm
    exact ⟨cell, snap, near_of_class h r hn⟩
  | .ok none =>
    cases hm
    simp only [Attempt, Mark.next, not_failedWrite h, firstWrite_of_class h,
      Bool.false_eq_true, if_false]
  | .error _ => exact unwritten_of_class h r hm

theorem obeys_withLock {k : LockKey} {body : Sdk Snap (Option α)}
    (h : Obeys monitor L (fun m x => Attempt m x) .clean body) :
    Obeys monitor L (fun m x => Attempt m x) .clean (withLock k body) := by
  refine ⟨trivial, fun _ _ => ⟨trivial, fun _ _ => obeys_bind (h.mono fun m x hx => ?_)⟩⟩
  exact ⟨may_of_class rfl m, fun r _ => attempt_of_class (o := .release k _) rfl r hx⟩

theorem obeys_attemptDevice {owner link device : Id} {peer : Option Id} {pkt : Bytes}
    {require : Bool} :
    Obeys monitor L (fun m x => Attempt m x) .clean
      (attemptDeviceDecrypt owner peer link device pkt require : Sdk Snap _) := by
  refine obeys_withLock (obeys_clean_bind foot_byDevice rfl (fun _ => trivial) fun found => ?_)
  cases found with
  | none => cases require <;> trivial
  | some record =>
    refine obeys_js_bind (Obeys.mono (Q := fun m x => Attempt m x) ?_ ?_)
    · intro m x hx
      match x with
      | .error _ => exact hx
      | .ok none => exact hx
      | .ok (some _) => exact hx
    · refine obeys_clean_bind (l := []) foot_ensure rfl (fun _ => trivial) fun _ => ?_
      refine obeys_clean_bind (l := [.codec]) (foot_core rfl) rfl (fun _ => trivial) fun out => ?_
      obtain ⟨opened, advanced⟩ := out
      dsimp only
      split
      · refine obeys_clean_bind (l := [.clock]) (foot_clock rfl) rfl (fun _ => trivial) fun now =>
          ?_
        refine obeys_js_bind ((obeys_put (m := .clean) rfl rfl trivial).mono fun m x hx => ?_)
        cases x with
        | error e => exact hx.2 e rfl trivial
        | ok _ => exact ⟨_, _, hx.1⟩
      · rfl

theorem obeys_trialLoop {owner link : Id} {peer : Option Id} {pkt : Bytes} :
    ∀ {rows : List (SessionRecord Snap)},
      Obeys monitor L (fun m x => Attempt m x) .clean (trialLoop owner peer link pkt rows)
  | [] => rfl
  | record :: rest => by
    unfold trialLoop
    split
    · exact obeys_trialLoop
    · refine obeys_js_bind (obeys_attemptDevice.mono fun m x hx => ?_)
      match x with
      | .error _ => exact hx
      | .ok none => cases hx; exact obeys_trialLoop
      | .ok (some _) => exact hx

/-- One link of the loop. -/
def Row (m : Mark Snap) : Except Err RowOutcome → Prop
  | .ok (.hit _) => True
  | .ok _ => m = .clean
  | .error _ => Excused m

theorem obeys_deviceHit {owner device : Id} {row : PeerLinkRecord} {plaintext : Bytes}
    (hm : Near cell snap m) :
    Obeys monitor L (fun m x => Row m x) m (deviceHit owner row plaintext device : Sdk Snap _) := by
  refine obeys_step rfl hm fun m₁ _ h₁ => obeys_step rfl h₁ fun m₂ _ h₂ =>
    obeys_step rfl h₂ fun m₃ _ h₃ => ?_
  refine obeys_js_bind ((obeys_buildSnapshot h₃).mono fun m' x hx => ?_)
  cases x with
  | error e => exact hx.2
  | ok _ => trivial

theorem obeys_tryLegacy {svc : Service Snap} {owner : Id} {pkt : Bytes} {row : PeerLinkRecord} :
    Obeys monitor L (fun m x => Row m x) .clean (tryLegacy svc owner pkt row) := by
  refine obeys_clean_bind foot_sessionByLink rfl (fun _ => trivial) fun session => ?_
  cases session with
  | none => rfl
  | some record =>
    dsimp only
    split
    · rfl
    · refine obeys_clean_bind (l := [.codec]) (foot_core rfl) rfl (fun _ => trivial) fun out => ?_
      obtain ⟨opened, advanced⟩ := out
      dsimp only
      split
      · rfl
      · refine obeys_clean_bind (l := [.count]) (foot_clearCounts rfl) rfl
          (fun _ => trivial) fun _ => ?_
        refine obeys_clean_bind (l := [.clock]) (foot_clock rfl) rfl (fun _ => trivial) fun now =>
          ?_
        refine obeys_clean_bind (l := [.count]) (foot_markSuccess rfl) rfl
          (fun _ => trivial) fun _ => ?_
        refine obeys_js_bind (obeys_commitDecrypt.mono fun m x hx => ?_)
        cases x with
        | error e => exact hx.2
        | ok r => trivial

theorem obeys_tryRow {svc : Service Snap} {owner : Id} {pkt : Bytes} {row : PeerLinkRecord} :
    Obeys monitor L (fun m x => Row m x) .clean (tryRow svc owner pkt row) := by
  unfold tryRow
  split
  · refine obeys_js_bind (Obeys.mono (Q := fun m x => Attempt m x) (fun m x hx => ?_)
      (obeys_clean_bind foot_listSessions rfl (fun _ => trivial) fun _ => obeys_trialLoop))
    match x with
    | .error _ => exact hx.excused
    | .ok none => cases hx; exact obeys_tryLegacy
    | .ok (some (device, plaintext, _)) =>
      obtain ⟨cell, snap, hn⟩ := hx
      exact obeys_deviceHit hn
  · exact obeys_tryLegacy

theorem obeys_anyPeerLoop {svc : Service Snap} {owner : Id} {pkt : Bytes} :
    ∀ {rows candidates : List PeerLinkRecord},
      Obeys monitor L (fun m x => Throws m x) .clean (anyPeerLoop svc owner pkt rows candidates)
  | [], _ => obeys_clean_bind (l := [.clock]) (foot_clock rfl) rfl (fun _ => trivial) fun _ =>
      obeys_clean_bind foot_recoveryCandidates rfl (fun _ => trivial) fun _ => trivial
  | row :: rows, candidates => by
    refine obeys_js_bind (obeys_tryRow.mono fun m x hx => ?_)
    match x with
    | .error _ => exact hx
    | .ok (.hit _) => trivial
    | .ok .skip => cases hx; exact obeys_anyPeerLoop
    | .ok .miss => cases hx; exact obeys_anyPeerLoop

theorem obeys_decryptAny {svc : Service Snap} (owner : Id) (pkt : Bytes) :
    Obeys monitor L (fun m x => Throws m x) .clean (decryptDirectMessageAnyPeer svc owner pkt) :=
  obeys_clean_bind (l := []) foot_ensure rfl (fun _ => trivial) fun _ =>
    obeys_clean_bind foot_listLinks rfl (fun _ => trivial) fun _ => obeys_anyPeerLoop

end RezSdk.L4.DecryptLoss
