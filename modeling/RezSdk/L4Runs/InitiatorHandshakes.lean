import RezSdk.L4Runs.SetFloor

/-!
# The handshakes of new device sessions

`ingestPeerDeviceSet` stores a session with one device after the other and
returns their handshakes at the end; a later call skips the devices that have
a session. A failure in between leaves a session whose handshake nobody will
ever deliver (`session_orphaned`).

When no operation of a call fails any more once it has stored a session, every
session it stores is in the list it returns, and in no other call's
(`sessions_handed_out`). That a session is new, and not put in the place of
another one, rests on the lock of (owner, peer): between the first look at a
device and the write, nobody else stores a session with it (`LookOk`).
-/
namespace RezSdk.L4.InitiatorHandshakes

open RezSdk.L1 RezSdk.L2 RezSdk.L3 RezSdk.L4.SetFloor

variable {Snap : Type}

/-! ## The property -/

/-- The session record an event has stored. -/
def created (e : Event (sdk Snap) Fate) : Option (Id × Id × SessionRecord Snap) :=
  match e.op with
  | .set (.session o i) r => if e.fate.lands then some (o, i, r) else none
  | _ => none

/-- The handshake and the snapshot of a key exchange. -/
def agreement : Proc.Exch (sdk Snap) → Option (HandshakeData × Snap)
  | ⟨.core (.processAcceptedInvite _), .ok x⟩ => some x
  | _ => none

/-- Call `t` has returned the handshake of session `i`. -/
def Returns (s : IngestState Snap) (t : Nat) (i : Id) : Prop :=
  ∃ c r, Accepted s t c r ∧ ∃ x ∈ r.established, x.sessionId = i

/-- Every session that was stored by a call that has ended was handed out: by
that call, with the handshake it was agreed with, and by no other call. -/
def HandedOut (s : IngestState Snap) : Prop :=
  ∀ e ∈ s.log, ∀ o i r, created e = some (o, i, r) → ∀ c x, s.threads[e.tid]? = some ⟨c, .ret x⟩ →
    (∃ y, x = .ok y ∧ ∃ h ∈ y.established, h.sessionId = i ∧ r.peerDeviceId = some h.peerDeviceId ∧
      ∃ e' ∈ s.log, e'.tid = e.tid ∧
      agreement e'.exch = some (h.handshakeData, r.ratchetSnapshot)) ∧
    ∀ t, Returns s t i → t = e.tid

/-! ## The runs -/

/-- The link the service uses for (owner, peer). -/
def linkOf (kv : Store Snap) (owner peer : Id) : Option Id :=
  (kv.lookup (.pair owner peer) : Option Id).bind fun i =>
    (kv.lookup (.peerLink owner i) : Option PeerLinkRecord).map (·.peerLinkId)

structure WellFormed (m : Mem Snap) : Prop where
  locks : m.locks = PromiseLock.empty
  /-- a link belongs to one peer -/
  apart : ∀ o p p' l, linkOf m.kv o p = some l → linkOf m.kv o p' = some l → p = p'
  /-- the session ids of the store are in use -/
  indexes : ∀ o l d i, m.kv.lookup (.sessionByDevice o l d) = some i → i ∈ m.used

/-- The store or the crypto provider reports an error. -/
def fails : Proc.Exch (sdk Snap) → Bool
  | ⟨.get _, .error _⟩ => true
  | ⟨.set .., .error _⟩ => true
  | ⟨.core _, .error _⟩ => true
  | _ => false

/-- Once a call has stored a session, none of its operations fails. -/
def Unbroken (s : IngestState Snap) (e : Event (sdk Snap) Fate) : Prop :=
  (∃ e' ∈ e :: s.log, e'.tid = e.tid ∧ (created e').isSome = true) → fails e.exch = false

def anyRuns : IngestRules Snap where
  init := WellFormed
  may _ _ := True
  ok _ _ := True

def unbroken : IngestRules Snap where
  init := WellFormed
  may _ _ := True
  ok := Unbroken

/-! ## One call -/

/-- A session a call has stored. -/
structure Made (Snap : Type) where
  device : Id
  handshake : HandshakeData
  sid : Id
  snapshot : Snap

def Made.entry (m : Made Snap) : Established := ⟨m.device, m.handshake, m.sid⟩

/-- What a call has found out about a device of its link. -/
inductive Look
  | unknown
  /-- the index names a session -/
  | indexed (device sid : Id)
  /-- there is no session: the index is empty, or names no record -/
  | vacant (device : Id) (found : Option Id)

def lookOf (device : Id) : Option Id → Look
  | none => .vacant device none
  | some i => .indexed device i

structure Seen (Snap : Type) where
  owner : Id
  peer : Id
  stands : Stands
  look : Look
  agreed : Option (HandshakeData × Snap)
  drawn : Option Id
  made : List (Made Snap)
  /-- something has happened that the claim's runs do not contain -/
  off : Bool

def Seen.start (c : IngestArgs) : Seen Snap :=
  ⟨c.owner, c.peer, .out, .unknown, none, none, [], false⟩

def Seen.Inside (w : Seen Snap) : Prop :=
  ∃ pid, w.stands.claims = .held (ingestLock w.owner w.peer) pid

/-- The index of a device is read. -/
def Look.index (look : Look) (device : Id) (found : Option Id) : Look :=
  match look with
  | .vacant d f => if d = device then .vacant d f else lookOf device found
  | _ => lookOf device found

/-- A record is read. -/
def Look.record (look : Look) (i : Id) (present : Bool) : Look :=
  match look with
  | .indexed d i' => if i' = i then (if present then .unknown else .vacant d (some i)) else look
  | _ => look

/-- A device that had no session has one. -/
def Look.torn (look : Look) : Proc.Exch (sdk Snap) → Bool
  | ⟨.get (.sessionByDevice _ _ d), .ok found⟩ =>
    match look with
    | .vacant d' f => d' = d && f ≠ found
    | _ => false
  | ⟨.get (.session _ i), .ok r⟩ =>
    match look with
    | .vacant _ f => f = some i && r.isSome
    | _ => false
  | _ => false

def newMade (agreed : Option (HandshakeData × Snap)) (i : Id) (r : SessionRecord Snap) :
    List (Made Snap) :=
  match agreed, r.peerDeviceId with
  | some (h, _), some d => [⟨d, h, i, r.ratchetSnapshot⟩]
  | _, _ => []

def Seen.step (w : Seen Snap) : Proc.Exch (sdk Snap) → Seen Snap
  | ⟨.get (.sessionByDevice _ _ d), .ok found⟩ => { w with look := w.look.index d found }
  | ⟨.get (.session _ i), .ok r⟩ => { w with look := w.look.record i r.isSome }
  | ⟨.set (.session _ i) r, .ok _⟩ =>
    { w with look := .unknown, drawn := none, made := newMade w.agreed i r ++ w.made }
  | ⟨.set (.session ..) _, .error _⟩ => { w with look := .unknown, drawn := none }
  | ⟨.runtimeUuid, i⟩ => { w with drawn := some i }
  | ⟨.core (.processAcceptedInvite _), .ok x⟩ => { w with agreed := some x }
  | ⟨.enter k _ _, _⟩ => if k.1 = .inviteClaims then { w with look := .unknown } else w
  | _ => w

def Seen.next (w : Seen Snap) (x : Proc.Exch (sdk Snap)) : Seen Snap :=
  { w.step x with
    stands := w.stands.next x
    off := w.off || w.look.torn x || (fails x && !w.made.isEmpty) }

/-- What a call may do to links and sessions, if the links are those of
`kv`. -/
def mayStore (kv : Store Snap) (w : Seen Snap) : Op Snap → Prop
  | .get (.sessionByDevice o l _) => (o = w.owner ∧ linkOf kv w.owner w.peer = some l) ∧ w.Inside
  | .get (.session o _) => (o = w.owner ∧ ∃ l, linkOf kv w.owner w.peer = some l) ∧ w.Inside
  | .set (.session o i) r => o = w.owner ∧ w.Inside ∧ w.drawn = some i ∧
      ∃ d h, r.peerDeviceId = some d ∧ w.agreed = some (h, r.ratchetSnapshot)
  | .set (.sessionByDevice o l _) i =>
    (o = w.owner ∧ linkOf kv w.owner w.peer = some l) ∧ w.Inside ∧
      w.look = .unknown ∧ ∃ m ∈ w.made, m.sid = i
  | .set (.pair ..) _ => False
  | .set (.peerLink ..) _ => False
  | .delete (.pair ..) => False
  | .delete (.peerLink ..) => False
  | .delete (.session ..) => False
  | .delete (.sessionByDevice ..) => False
  | _ => True

def monitor (kv : Store Snap) : Monitor (sdk Snap) (Seen Snap) where
  next := Seen.next
  may w o := w.off = true ∨ (w.stands.may o ∧ mayStore kv w o)

/-- The links are those of `kv`. -/
def LinksFrom (kv : Store Snap) : Proc.Exch (sdk Snap) → Prop
  | ⟨.get (.pair o p), .ok v⟩ => v = kv.lookup (.pair o p)
  | ⟨.get (.peerLink o l), .ok v⟩ => v = kv.lookup (.peerLink o l)
  | _ => True

/-- A call returns what it has made; if it throws, it has made nothing. -/
def HandsOut (w : Seen Snap) : Except Err Ingested → Prop
  | .ok y => y.established = (w.made.map Made.entry).reverse
  | .error _ => w.made = []

def Post (_ : IngestArgs) (w : Seen Snap) (x : Except Err Ingested) : Prop :=
  w.off = true ∨ HandsOut w x

variable {svc : DeviceService Snap} {kv : Store Snap} {α : Type}

/-- Off the rails everything goes. -/
theorem obeys_off {L : Proc.Exch (sdk Snap) → Prop} {Q : Seen Snap → α → Prop}
    (hq : ∀ w x, w.off = true → Q w x) {p : Proc (sdk Snap) α} :
    ∀ {w : Seen Snap}, w.off = true → Obeys (monitor kv) L Q w p := by
  induction p with
  | ret x => exact fun hw => hq _ x hw
  | ask o k ih =>
    intro w hw
    refine ⟨.inl hw, fun r _ => ih r ?_⟩
    change (w.off || _ || _) = true
    rw [hw, Bool.true_or, Bool.true_or]

def watched : List OpClass :=
  [.lock, .x3dh, .newId, .get .sessionByDevice, .get .session, .set .session,
  .set .sessionByDevice, .set .pair, .set .peerLink, .delete .pair, .delete .peerLink,
    .delete .session,
  .delete .sessionByDevice]

theorem mayStore_other {w : Seen Snap} {o : Op Snap} (h : watched.contains (classOf o) = false) :
    w.stands.may o ∧ mayStore kv w o := by
  have hlock : classOf o ≠ .lock := by
    intro heq
    rw [heq] at h
    cases h
  refine ⟨Stands.may_other hlock, ?_⟩
  cases o with
  | get k => cases k <;> trivial
  | set k v => cases k <;> trivial
  | delete k => cases k <;> trivial
  | _ => trivial

/-- An operation that is not watched only shows whether it has failed. -/
theorem next_other {w : Seen Snap} {o : Op Snap} (h : watched.contains (classOf o) = false)
    (r : o.Ans) :
    w.next ⟨o, r⟩ =
      { w with off := w.off || (fails (⟨o, r⟩ : Proc.Exch (sdk Snap)) && !w.made.isEmpty) } := by
  have hlock : classOf o ≠ .lock := by
    intro heq
    rw [heq] at h
    cases h
  have hstep : w.step ⟨o, r⟩ = w ∧ w.look.torn (⟨o, r⟩ : Proc.Exch (sdk Snap)) = false := by
    cases o with
    | get k => cases k <;> first | exact ⟨rfl, rfl⟩ | cases h
    | set k v => cases k <;> first | exact ⟨rfl, rfl⟩ | cases h
    | core q => cases q <;> first | exact ⟨rfl, rfl⟩ | cases h
    | enter k prev pid => cases h
    | runtimeUuid => cases h
    | _ => exact ⟨rfl, rfl⟩
  unfold Seen.next
  rw [hstep.1, hstep.2, Stands.next_other hlock, Bool.or_false]

/-- No operation fails. -/
def NoFailure (x : Proc.Exch (sdk Snap)) : Prop := fails x = false

section

variable {l : List OpClass} {L : Proc.Exch (sdk Snap) → Prop} {w : Seen Snap}

theorem other_of_foot (hl : l.all (fun c => !watched.contains c) = true) {o : Op Snap}
    (ho : l.contains (classOf o) = true) : watched.contains (classOf o) = false := by
  have := List.all_eq_true.mp hl _ (List.contains_iff_mem.mp ho)
  simpa using this

theorem next_early {o : Op Snap} (hother : watched.contains (classOf o) = false)
    (hmade : w.made = []) (r : o.Ans) : w.next ⟨o, r⟩ = w := by
  rw [next_other hother, List.isEmpty_iff.mpr hmade, Bool.not_true, Bool.and_false, Bool.or_false]

/-- A helper before anything is made. -/
theorem obeys_early {Q : Seen Snap → α → Prop} {p : Proc (sdk Snap) α} (hp : Foot l p)
    (hl : l.all (fun c => !watched.contains c) = true) (hmade : w.made = []) (hq : ∀ x, Q w x) :
    Obeys (monitor kv) L Q w p := by
  refine obeys_still (Proc.All.mono (fun o ho => ?_) hp) hq
  have hother := other_of_foot hl ho.1
  exact ⟨.inr (mayStore_other hother), next_early hother hmade⟩

/-- A helper that throws only when an operation fails. -/
theorem obeys_late {Q : Seen Snap → Except Err α → Prop}
    (hl : l.all (fun c => !watched.contains c) = true) (hoff : ∀ w x, w.off = true → Q w x)
    (hok : ∀ v, Q w (.ok v)) :
    ∀ {p : Proc (sdk Snap) (Except Err α)}, Foot l p → Js.Throws NoFailure (fun _ => False) p →
      w.made ≠ [] → Obeys (monitor kv) L Q w p
  | .ret (.ok v), _, _, _ => hok v
  | .ret (.error e), _, ht, _ => (ht e rfl).elim
  | .ask o k, hp, ht, hmade => by
    have hother := other_of_foot hl hp.1.1
    refine ⟨.inr (mayStore_other hother), fun r _ => ?_⟩
    change Obeys (monitor kv) L Q (w.next ⟨o, r⟩) (k r)
    rw [next_other hother]
    cases hfails : fails (⟨o, r⟩ : Proc.Exch (sdk Snap)) with
    | false =>
      rw [Bool.false_and, Bool.or_false]
      exact obeys_late hl hoff hok (hp.2 r) (ht r hfails) hmade
    | true =>
      refine obeys_off hoff ?_
      rw [Bool.true_and, List.isEmpty_eq_false_iff.mpr hmade]
      exact Bool.or_true _

/-- At any time. -/
theorem obeys_helper {Q : Seen Snap → Except Err α → Prop} {p : Proc (sdk Snap) (Except Err α)}
    (hp : Foot l p) (hl : l.all (fun c => !watched.contains c) = true)
    (ht : Js.Throws NoFailure (fun _ => False) p) (hoff : ∀ w x, w.off = true → Q w x)
    (hok : ∀ v, Q w (.ok v)) (herror : w.made = [] → ∀ e, Q w (.error e)) :
    Obeys (monitor kv) L Q w p := by
  by_cases hmade : w.made = []
  · refine obeys_early hp hl hmade fun x => ?_
    cases x with
    | ok v => exact hok v
    | error e => exact herror hmade e
  · exact obeys_late hl hoff hok hp ht hmade

end

theorem throws_get {k : Key} : Js.Throws NoFailure (fun _ => False) (kvGet k : Sdk Snap _) := by
  intro r hr e he
  have he : r = .error e := he
  subst he
  cases hr

theorem throws_set {k : Key} {v : Val Snap k} :
    Js.Throws NoFailure (fun _ => False) (kvSet k v) := by
  intro r hr e he
  have he : r = .error e := he
  subst he
  cases hr

theorem throws_core {q : CoreCall Snap} : Js.Throws NoFailure (fun _ => False) (callCore q) := by
  intro r hr e he
  have he : r = .error e := he
  subst he
  cases hr

theorem throws_identity (hdevice : svc.hasDeviceSessions = true) :
    Js.Throws NoFailure (fun _ => False) (loadDeviceIdentity svc) := by
  refine Js.throws_bind (Js.throws_passed hdevice) fun _ => Js.throws_bind throws_get fun stored =>
    ?_
  split
  · exact Js.throws_pure
  · exact Js.throws_bind throws_core fun _ => Js.throws_bind throws_set fun _ => Js.throws_pure

/-! ## One device -/

/-- The call is inside its lock, and no device's. -/
structure At (c : IngestArgs) (pid : Nat) (devices : Phase) (w : Seen Snap) : Prop where
  owner : w.owner = c.owner
  peer : w.peer = c.peer
  stands : w.stands = ⟨.held (ingestLock c.owner c.peer) pid, devices⟩

theorem At.inside {c : IngestArgs} {pid : Nat} {devices : Phase} {w : Seen Snap}
    (h : At c pid devices w) : w.Inside := by
  refine ⟨pid, ?_⟩
  rw [h.owner, h.peer, h.stands]

section

variable {c : IngestArgs} {pid : Nat} {devices : Phase} {w : Seen Snap} {link device : Id}

theorem goes_off {β : Type} {Q : Seen Snap → Except Err β → Prop} {L : Proc.Exch (sdk Snap) → Prop}
    {f : α → Sdk Snap β} (hoff : ∀ w x, w.off = true → Q w x) :
    ∀ (w : Seen Snap) (x : Except Err α), w.off = true → Goes (monitor kv) L Q f w x := by
  intro w x hw
  cases x with
  | error e => exact hoff w _ hw
  | ok v => exact obeys_off hoff hw

/-- A failure takes the call off its rails, unless it has made nothing. -/
theorem failed {Q : Seen Snap → Except Err α → Prop} (hoff : ∀ w x, w.off = true → Q w x)
    {x : Proc.Exch (sdk Snap)} {e : Err} (hx : fails x = true)
    (herror : w.made = [] → Q (w.next x) (.error e)) : Q (w.next x) (.error e) := by
  by_cases hmade : w.made = []
  · exact herror hmade
  · refine hoff _ _ ?_
    change (w.off || w.look.torn x || (fails x && !w.made.isEmpty)) = true
    rw [hx, List.isEmpty_eq_false_iff.mpr hmade]
    exact Bool.or_true _

theorem next_index {o l : Id} {found : Option Id} :
    w.next ⟨.get (.sessionByDevice o l device), .ok found⟩ =
      { w with
        look := w.look.index device found
        off := w.off || w.look.torn
          (⟨.get (.sessionByDevice o l device), .ok found⟩ : Proc.Exch (sdk Snap)) } := by
  simp only [Seen.next, fails, Bool.false_and, Bool.or_false]
  rfl

theorem next_record {o i : Id} {r : Option (SessionRecord Snap)} :
    w.next ⟨.get (.session o i), .ok r⟩ = { w with
      look := w.look.record i r.isSome
      off := w.off || w.look.torn (⟨.get (.session o i), .ok r⟩ : Proc.Exch (sdk Snap)) } := by
  simp only [Seen.next, fails, Bool.false_and, Bool.or_false]
  rfl

theorem index_cases (look : Look) (o l device : Id) (found : Option Id) :
    look.torn (⟨.get (.sessionByDevice o l device), .ok found⟩ : Proc.Exch (sdk Snap)) = true ∨
      (look.torn (⟨.get (.sessionByDevice o l device), .ok found⟩ : Proc.Exch (sdk Snap)) = false ∧
        (look.index device found = .vacant device found ∨
          ((∀ f, look ≠ .vacant device f) ∧ look.index device found = lookOf device found))) := by
  cases look with
  | vacant d f =>
    by_cases hd : d = device
    · subst hd
      by_cases hf : f = found
      · subst hf
        refine .inr ⟨?_, .inl ?_⟩
        · simp [Look.torn]
        · simp [Look.index]
      · refine .inl ?_
        simp [Look.torn, hf]
    · refine .inr ⟨by simp [Look.torn, hd], .inr ⟨fun f' h => hd ?_, by simp [Look.index, hd]⟩⟩
      cases h
      rfl
  | _ => exact .inr ⟨rfl, .inr ⟨fun _ => nofun, rfl⟩⟩

theorem next_unread {k : Key} {e : Err} (hmade : w.made = []) : w.next ⟨.get k, .error e⟩ = w := by
  have hstep : w.step ⟨.get k, .error e⟩ = w ∧
      w.look.torn (⟨.get k, .error e⟩ : Proc.Exch (sdk Snap)) = false := by
    cases k <;> exact ⟨rfl, rfl⟩
  unfold Seen.next
  rw [hstep.1, hstep.2, List.isEmpty_iff.mpr hmade, Bool.not_true, Bool.and_false,
    Bool.or_false, Bool.or_false]
  rfl

/-- A read that fails. -/
theorem unread {Q : Seen Snap → Except Err α → Prop} (hoff : ∀ w x, w.off = true → Q w x) {k : Key}
    {e : Err} (herror : w.made = [] → Q w (.error e)) :
    Q (w.next ⟨.get k, .error e⟩) (.error e) := by
  refine failed hoff rfl fun hmade => ?_
  rw [next_unread hmade]
  exact herror hmade

theorem torn_off {x : Proc.Exch (sdk Snap)} (h : w.look.torn x = true) : (w.next x).off = true := by
  change (w.off || w.look.torn x || _) = true
  rw [h, Bool.or_true, Bool.true_or]

/-- A look at a device: a session where there was none is off the rails. -/
theorem obeys_look {Q : Seen Snap → Except Err (Option (SessionRecord Snap)) → Prop}
    (hat : At c pid devices w) (hlink : linkOf kv c.owner c.peer = some link)
    (hoff : ∀ w x, w.off = true → Q w x)
    (hsome : (∀ f, w.look ≠ .vacant device f) → ∀ look r, Q { w with look } (.ok (some r)))
    (hnone : ∀ f, Q { w with look := .vacant device f } (.ok none))
    (herror : w.made = [] → ∀ look e, Q { w with look } (.error e)) :
    Obeys (monitor kv) (LinksFrom kv) Q w
      (Sessions.getByPeerLinkAndDevice c.owner link device) := by
  have hpair : c.owner = w.owner ∧ linkOf kv w.owner w.peer = some link := by
    rw [hat.owner, hat.peer]
    exact ⟨rfl, hlink⟩
  refine obeys_js_bind ⟨.inr ⟨trivial, hpair, hat.inside⟩, fun found _ => ?_⟩
  match found with
  | .error e =>
    change Q (w.next _) (.error e)
    exact unread hoff fun hmade => herror hmade w.look e
  | .ok found =>
    rcases @index_cases Snap w.look c.owner link device found with htorn | ⟨hkept, hlook⟩
    · exact obeys_off hoff (torn_off htorn)
    · dsimp only [Obeys, Goes]
      change Obeys (monitor kv) (LinksFrom kv) Q (w.next _) _
      rw [next_index, hkept, Bool.or_false]
      cases found with
      | none =>
        have hvacant : w.look.index device none = .vacant device none := by
          rcases hlook with hlook | ⟨-, hlook⟩ <;> exact hlook
        rw [hvacant]
        exact hnone none
      | some i =>
        refine ⟨.inr ⟨trivial, ⟨hpair.1, link, hpair.2⟩, hat.inside⟩, fun record _ => ?_⟩
        change Q (Seen.next _ _) record
        match record with
        | .error e => exact unread hoff fun hmade => herror hmade _ e
        | .ok record =>
          rw [next_record]
          rcases hlook with hlook | ⟨hfirst, hlook⟩
          · -- the index names what it named before
            rw [hlook]
            cases record with
            | none => simpa [Look.record, Look.torn] using hnone (some i)
            | some r => exact hoff _ _ (by simp [Look.torn])
          · rw [hlook]
            cases record with
            | none => simpa [Look.record, Look.torn, lookOf] using hnone (some i)
            | some r => simpa [Look.record, Look.torn, lookOf] using hsome hfirst .unknown r

/-- The call with one more session. -/
def Seen.with (w : Seen Snap) (device : Id) (handshake : HandshakeData) (sid : Id)
    (snapshot : Snap) : Seen Snap :=
  { w with
    look := .unknown
    drawn := none
    made := ⟨device, handshake, sid, snapshot⟩ :: w.made }

theorem next_saved {o i : Id} {r : SessionRecord Snap} {handshake : HandshakeData}
    (hagreed : w.agreed = some (handshake, r.ratchetSnapshot))
    (hdevice : r.peerDeviceId = some device) :
    w.next ⟨.set (.session o i) r, .ok ()⟩ = w.with device handshake i r.ratchetSnapshot := by
  simp only [Seen.next, Seen.step, Seen.with, Look.torn, fails, newMade, hagreed,
    hdevice, Bool.false_and, Bool.or_false]
  rfl

theorem next_unsaved {o i : Id} {record : SessionRecord Snap} {e : Err} (hmade : w.made = []) :
    w.next ⟨.set (.session o i) record, .error e⟩ = { w with look := .unknown, drawn := none } := by
  simp only [Seen.next, Seen.step, Look.torn, hmade, List.isEmpty_nil, Bool.not_true,
    Bool.and_false, Bool.or_false]
  rfl

theorem next_indexed {o l d i : Id} : w.next ⟨.set (.sessionByDevice o l d) i, .ok ()⟩ = w := by
  simp only [Seen.next, Seen.step, Look.torn, fails, Bool.false_and, Bool.or_false]
  rfl

/-- The write of the session, and of its index. -/
theorem obeys_put {Q : Seen Snap → Except Err (SessionRecord Snap) → Prop}
    (hat : At c pid devices w) (hlink : linkOf kv c.owner c.peer = some link)
    (hoff : ∀ w x, w.off = true → Q w x) {f : Option Id} {handshake : HandshakeData}
    {record : SessionRecord Snap} (howner : record.localAccountId = c.owner)
    (hrecord : record.peerLinkId = link) (hdevice : record.peerDeviceId = some device)
    (hlook : w.look = .vacant device f)
    (hagreed : w.agreed = some (handshake, record.ratchetSnapshot))
    (hdrawn : w.drawn = some record.sessionId)
    (hok : ∀ existing,
        Q (w.with device handshake record.sessionId record.ratchetSnapshot)
          (.ok (Sessions.putVersion existing record)))
    (herror : w.made = [] → ∀ look drawn e, Q { w with look, drawn } (.error e)) :
    Obeys (monitor kv) (LinksFrom kv) Q w (Sessions.put record) := by
  have hpair : record.localAccountId = w.owner ∧
      linkOf kv w.owner w.peer = some record.peerLinkId := by
    rw [howner, hrecord, hat.owner, hat.peer]
    exact ⟨rfl, hlink⟩
  refine obeys_js_bind ⟨.inr ⟨trivial, ⟨hpair.1, _, hpair.2⟩, hat.inside⟩, fun existing _ => ?_⟩
  match existing with
  | .error e =>
    change Q (w.next _) (.error e)
    exact unread hoff fun hmade => herror hmade w.look w.drawn e
  | .ok existing =>
    dsimp only [Goes]
    change Obeys (monitor kv) (LinksFrom kv) Q (w.next _) _
    cases htorn :
      w.look.torn (⟨.get (.session record.localAccountId record.sessionId), .ok existing⟩ :
      Proc.Exch (sdk Snap)) with
    | true => exact obeys_off hoff (torn_off htorn)
    | false =>
      have hnext : w.next ⟨.get (.session record.localAccountId record.sessionId),
          .ok existing⟩ = w := by
        rw [next_record, htorn, Bool.or_false, hlook]
        change { w with look := .vacant device f } = w
        rw [← hlook]
      rw [hnext]
      refine obeys_js_bind ⟨.inr ⟨trivial, hpair.1, hat.inside, hdrawn, device, handshake,
        hdevice, hagreed⟩, fun stored _ => ?_⟩
      match stored with
      | .error e =>
        change Q (w.next _) (.error e)
        refine failed hoff rfl fun hmade => ?_
        rw [next_unsaved hmade]
        exact herror hmade _ _ e
      | .ok () =>
        dsimp only [Goes]
        change Obeys (monitor kv) (LinksFrom kv) Q (w.next _) _
        rw [next_saved (r := Sessions.putVersion existing record) hagreed hdevice]
        refine obeys_js_bind ?_
        rw [Sessions.setIndex, hdevice]
        refine ⟨.inr ⟨trivial, hpair, hat.inside, rfl, _, .head _, rfl⟩, fun indexed _ => ?_⟩
        match indexed with
        | .error e =>
          change Q (Seen.next _ _) (.error e)
          exact failed hoff rfl fun hmade => by cases hmade
        | .ok () =>
          change Q (Seen.next _ _) _
          rw [next_indexed]
          exact hok existing

theorem next_drawn {i : Id} : w.next ⟨.runtimeUuid, i⟩ = { w with drawn := some i } := by
  simp only [Seen.next, Seen.step, Look.torn, fails, Bool.false_and, Bool.or_false]
  rfl

theorem obeys_persist {Q : Seen Snap → Except Err Id → Prop} (hat : At c pid devices w)
    (hlink : linkOf kv c.owner c.peer = some link) (hoff : ∀ w x, w.off = true → Q w x)
    {f : Option Id} {handshake : HandshakeData} {snapshot : Snap}
    (hlook : w.look = .vacant device f) (hagreed : w.agreed = some (handshake, snapshot))
    (hok : ∀ i, Q (w.with device handshake i snapshot) (.ok i))
    (herror : w.made = [] → ∀ look drawn e, Q { w with look, drawn } (.error e)) :
    Obeys (monitor kv) (LinksFrom kv) Q w
      (persistDeviceSession c.owner c.peer link device snapshot) := by
  refine obeys_js_bind ⟨.inr ⟨trivial, trivial⟩, fun now _ => ?_⟩
  change Obeys (monitor kv) (LinksFrom kv) Q (w.next ⟨.clock, now⟩) _
  have hclock : w.next ⟨.clock, now⟩ = w := by
    rw [next_other rfl]
    simp [fails]
  rw [hclock]
  refine obeys_js_bind
    (obeys_look hat hlink (goes_off hoff) (fun hne => absurd hlook (hne f)) (fun f' => ?_)
    fun hmade look e => herror hmade look w.drawn e)
  refine obeys_js_bind ⟨.inr ⟨trivial, trivial⟩, fun i _ => ?_⟩
  change Obeys (monitor kv) (LinksFrom kv) Q (Seen.next _ ⟨.runtimeUuid, i⟩) _
  rw [next_drawn]
  exact obeys_js_bind (obeys_put (w := { w with look := .vacant device f', drawn := some i })
    ⟨hat.owner, hat.peer, hat.stands⟩ hlink (goes_off hoff) rfl rfl rfl rfl hagreed rfl
    (fun existing => hok i)
    fun hmade look drawn e => herror hmade look drawn e)

theorem next_agreed {q : InitiatorInput} {x : HandshakeData × Snap} :
    w.next ⟨.core (.processAcceptedInvite q), .ok x⟩ = { w with agreed := some x } := by
  simp only [Seen.next, Seen.step, Look.torn, fails, Bool.false_and, Bool.or_false]
  rfl

/-- Inside the lock of a device. -/
theorem obeys_deviceLock {Q : Seen Snap → Except Err α → Prop} (hat : At c pid .out w)
    {key : String} (hoff : ∀ w x, w.off = true → Q w x) {body : Sdk Snap α}
    (hbody : ∀ pid', Obeys (monitor kv) (LinksFrom kv)
      (fun w' x => w'.off = true ∨
        At c pid (.held (.deviceSessions, key) pid') w' ∧
        Q { w' with stands := ⟨.held (ingestLock c.owner c.peer) pid, .out⟩ } x)
      { w with stands :=
          ⟨.held (ingestLock c.owner c.peer) pid, .held (.deviceSessions, key) pid'⟩ }
      body) :
    Obeys (monitor kv) (LinksFrom kv) Q w (withLock (.deviceSessions, key) body) := by
  obtain ⟨owner, peer, stands, look, agreed, drawn, made, off⟩ := w
  obtain ⟨ho, hp, hstands⟩ := hat
  dsimp only at ho hp hstands hbody
  subst ho
  subst hp
  subst hstands
  cases off with
  | true => exact obeys_off hoff rfl
  | false =>
    refine ⟨.inr ⟨rfl, trivial⟩, fun ticket _ => ⟨.inr ⟨rfl, trivial⟩, fun _ _ => obeys_bind ?_⟩⟩
    refine (hbody ticket.2).mono fun w x hx => ?_
    rcases hx with hw | ⟨hat, hq⟩
    · refine ⟨.inl hw, fun _ _ => hoff _ x ?_⟩
      change (w.off || _ || _) = true
      rw [hw, Bool.true_or, Bool.true_or]
    · obtain ⟨owner', peer', stands', look', agreed', drawn', made', off'⟩ := w
      obtain ⟨ho, hp, hstands⟩ := hat
      dsimp only at ho hp hstands hq
      subst ho
      subst hp
      subst hstands
      refine ⟨.inr ⟨rfl, trivial⟩, fun _ _ => ?_⟩
      cases off' with
      | true => exact hoff _ x rfl
      | false => exact hq

/-- A session with one device. -/
theorem obeys_establish {Q : Seen Snap → Except Err (HandshakeData × Id) → Prop}
    (hat : At c pid .out w) (hdevice : svc.hasDeviceSessions = true)
    (hlink : linkOf kv c.owner c.peer = some link) (hoff : ∀ w x, w.off = true → Q w x)
    {f : Option Id} (hlook : w.look = .vacant device f) {bundle : Bytes}
    (hok : ∀ w' x snapshot, At c pid .out w' → w'.made = ⟨device, x.1, x.2, snapshot⟩ :: w.made →
        Q w' (.ok x)) (herror : ∀ w' e, At c pid .out w' → w'.made = [] → Q w' (.error e)) :
    Obeys (monitor kv) (LinksFrom kv) Q w
      (establishInitiatorSession svc c.owner c.peer link device bundle) := by
  refine obeys_js_bind (obeys_ensure (fun _ => ?_) fun h => by rw [hdevice] at h; cases h)
  refine obeys_js_bind (obeys_helper foot_loadDeviceIdentity (by decide) (throws_identity hdevice)
    (goes_off hoff) (fun keys => ?_)
    fun hmade e => herror w e hat hmade)
  refine obeys_js_bind (obeys_helper (foot_core (l := [.crypto]) rfl) (by decide) throws_core
    (goes_off hoff) (fun signature => ?_)
    fun hmade e => herror w e hat hmade)
  refine obeys_js_bind ⟨.inr ⟨trivial, trivial⟩, fun agreed _ => ?_⟩
  match agreed with
  | .error e =>
    change Q (w.next _) (.error e)
    refine failed hoff rfl fun hmade => ?_
    refine herror _ e ?_ ?_
    · exact ⟨hat.owner, hat.peer, hat.stands⟩
    · exact hmade
  | .ok (handshake, snapshot) =>
    dsimp only [Goes]
    change Obeys (monitor kv) (LinksFrom kv) Q (w.next _) _
    rw [next_agreed]
    refine obeys_js_bind (obeys_deviceLock (w := { w with agreed := some (handshake, snapshot) })
      ⟨hat.owner, hat.peer, hat.stands⟩ (goes_off hoff) fun pid' => ?_)
    refine obeys_persist (w := ⟨w.owner, w.peer, ⟨_, .held _ pid'⟩, w.look,
      some (handshake, snapshot), w.drawn, w.made, w.off⟩)
      ⟨hat.owner, hat.peer, rfl⟩ hlink (fun w x hw => .inl hw) hlook rfl (fun i => .inr ?_)
      fun hmade look drawn e => .inr ?_
    · refine ⟨⟨hat.owner, hat.peer, rfl⟩, ?_⟩
      exact hok _ (handshake, i) snapshot ⟨hat.owner, hat.peer, rfl⟩ rfl
    · exact ⟨⟨hat.owner, hat.peer, rfl⟩, herror _ e ⟨hat.owner, hat.peer, rfl⟩ hmade⟩

/-- All of them: what is established is what was made. -/
theorem obeys_devices (hdevice : svc.hasDeviceSessions = true)
    (hlink : linkOf kv c.owner c.peer = some link) :
    ∀ {bundles : List PrekeyBundle} {w : Seen Snap}
        {Q : Seen Snap → Except Err (List Established × List Id) → Prop}, At c pid .out w →
      (∀ w x, w.off = true → Q w x) →
      (∀ w' x, At c pid .out w' →
          (w'.made.map Made.entry).reverse = (w.made.map Made.entry).reverse ++ x.1 →
          Q w' (.ok x)) →
      (∀ w' e, At c pid .out w' → w'.made = [] → Q w' (.error e)) →
      Obeys (monitor kv) (LinksFrom kv) Q w (establishDevices svc c.owner c.peer link bundles)
  | [], w, _, hat, _, hok, _ => hok w ([], []) hat (List.append_nil _).symm
  | bundle :: rest, w, Q, hat, hoff, hok, herror => by
    refine obeys_js_bind (obeys_look hat hlink (goes_off hoff) (fun _ look r => ?_) (fun f => ?_)
      fun hmade look e => herror _ e ⟨hat.owner, hat.peer, hat.stands⟩ hmade)
    · refine obeys_js_bind (obeys_devices hdevice hlink (w := { w with look }) ⟨hat.owner,
        hat.peer, hat.stands⟩
        (goes_off hoff) (fun w' x hat' hmade => ?_) herror)
      exact hok w' _ hat' hmade
    · refine obeys_js_bind (obeys_establish (w := { w with look := .vacant bundle.deviceId f })
        ⟨hat.owner, hat.peer, hat.stands⟩ hdevice hlink (goes_off hoff) rfl
        (fun w' x snapshot hat' hnew => ?_) herror)
      refine obeys_js_bind
        (obeys_devices hdevice hlink hat' (goes_off hoff) (fun w₂ y hat₂ hmade => ?_) herror)
      refine hok w₂ _ hat₂ ?_
      rw [hmade, hnew, List.map_cons, List.reverse_cons, List.append_assoc]
      rfl

/-! ## One call -/

/-- The link a call works on is the one of the store. -/
theorem obeys_context {Q : Seen Snap → Except Err PeerContext → Prop} {owner peer : Id}
    (hmade : w.made = [])
    (hok : ∀ context, linkOf kv owner peer = some context.peerLinkId → Q w (.ok context))
    (herror : ∀ e, Q w (.error e)) :
    Obeys (monitor kv) (LinksFrom kv) Q w (requirePeerDeviceSetContext owner peer) := by
  refine obeys_js_bind (obeys_js_bind ⟨.inr ⟨trivial, trivial⟩, fun found hfound => ?_⟩)
  change Goes _ _ _ _ (w.next _) found
  rw [next_early rfl hmade]
  match found with
  | .error e => exact herror e
  | .ok none => exact herror _
  | .ok (some i) =>
    refine ⟨.inr ⟨trivial, trivial⟩, fun record hrecord => ?_⟩
    change Goes _ _ _ _ (w.next _) record
    rw [next_early rfl hmade]
    match record with
    | .error e => exact herror e
    | .ok none => exact herror _
    | .ok (some record) =>
      refine obeys_js_bind (obeys_orThrow (fun link hlink => ?_) nofun)
      cases hlink
      refine obeys_js_bind (obeys_orThrow (fun dh _ => ?_) fun _ => herror _)
      refine obeys_js_bind (obeys_orThrow (fun account _ => ?_) fun _ => herror _)
      refine hok ⟨record.peerLinkId, dh, account⟩ ?_
      have hpair : (kv.lookup (.pair owner peer) : Option Id) = some i := hfound.symm
      have hlink : (kv.lookup (.peerLink owner i) : Option PeerLinkRecord) = some record :=
        hrecord.symm
      unfold linkOf
      rw [hpair, Option.bind_some, hlink]
      rfl

theorem obeys_locked (hdevice : svc.hasDeviceSessions = true)
    (hlink : linkOf kv c.owner c.peer = some link) {set : DeviceSetRecord}
    {bundles : List PrekeyBundle} (hat : At c pid .out w) (hmade : w.made = [])
    {Q : Seen Snap → Except Err Ingested → Prop} (hoff : ∀ w x, w.off = true → Q w x)
    (hok :
        ∀ w' y, At c pid .out w' → y.established = (w'.made.map Made.entry).reverse → Q w' (.ok y))
    (herror : ∀ w' e, At c pid .out w' → w'.made = [] → Q w' (.error e)) :
    Obeys (monitor kv) (LinksFrom kv) Q w (ingestLocked svc c link set bundles) := by
  have hfailed : ∀ e, Q w (.error e) := fun e => herror w e hat hmade
  refine obeys_js_bind
    (obeys_early (foot_bind (foot_get (l := [.get .deviceSetFloor]) rfl) fun _ => foot_pure)
    (by decide) hmade fun floor => ?_)
  cases floor with
  | error e => exact hfailed e
  | ok floor =>
    refine obeys_js_bind (obeys_ensure (fun _ => ?_) fun _ => hfailed _)
    refine obeys_js_bind (obeys_ensure (fun _ => ?_) fun _ => hfailed _)
    refine obeys_js_bind
      (obeys_devices hdevice hlink hat (goes_off hoff) (fun w' x hat' hnew => ?_) herror)
    have hfloor : Foot [.set .deviceSetFloor] (advanceFloor c.owner c.peer floor set.revision
        (deviceSetAuthorityBinding svc.core set) : Sdk Snap Unit) ∧ Js.Throws NoFailure (fun _ =>
        False)
          (advanceFloor c.owner c.peer floor set.revision
          (deviceSetAuthorityBinding svc.core set) : Sdk Snap Unit) := by
      unfold advanceFloor
      split
      · exact ⟨foot_set rfl trivial, throws_set⟩
      · exact ⟨foot_pure, Js.throws_pure⟩
    refine obeys_js_bind (obeys_helper hfloor.1 (by decide) hfloor.2 (goes_off hoff) (fun _ => ?_)
      fun hmade' e => herror w' e hat' hmade')
    refine hok w' _ hat' ?_
    rw [hnew, hmade]
    rfl

theorem released (hat : At c pid .out w) :
    w.stands.may (Op.release (ingestLock c.owner c.peer) pid : Op Snap) := by
  change w.stands.claims = _
  rw [hat.stands]

end

theorem obeys_run (c : IngestArgs) :
    Obeys (monitor kv) (LinksFrom kv) (Post c) (.start c) (ingestPeerDeviceSet svc c) := by
  have herror : ∀ e, Post c (Seen.start c : Seen Snap) (.error e) := fun _ => .inr rfl
  have hoff : ∀ (w : Seen Snap) x, w.off = true → Post c w x := fun _ _ hw => .inl hw
  refine obeys_js_bind (obeys_ensure (fun hdevice => ?_) fun _ => .inr rfl)
  refine obeys_js_bind (obeys_early (foot_clock (l := [.clock]) rfl) (by decide) rfl fun now => ?_)
  cases now with
  | error e => exact herror e
  | ok now =>
    refine obeys_js_bind (obeys_context rfl (fun context hlink => ?_) herror)
    refine obeys_js_bind (obeys_early foot_requireBound (by decide) rfl fun identity => ?_)
    cases identity with
    | error e => exact herror e
    | ok identity =>
      refine obeys_js_bind (obeys_early foot_openSealed (by decide) rfl fun opened => ?_)
      cases opened with
      | error e => exact herror e
      | ok opened =>
        -- the lock around the devices and the floor
        refine ⟨.inr ⟨rfl, trivial⟩,
          fun ticket _ => ⟨.inr ⟨rfl, trivial⟩, fun _ _ => obeys_bind ?_⟩⟩
        refine obeys_locked hdevice hlink (⟨rfl, rfl, rfl⟩ : At c ticket.2 .out _) rfl ?_ ?_ ?_
        · intro w x hw
          exact obeys_off hoff hw
        · intro w y hat hmade
          exact ⟨.inr ⟨released hat, trivial⟩, fun _ _ => .inr hmade⟩
        · intro w e hat hmade
          exact ⟨.inr ⟨released hat, trivial⟩, fun _ _ => .inr hmade⟩

/-! ## What a call remembers -/

theorem mem_newMade {agreed : Option (HandshakeData × Snap)} {i : Id} {r : SessionRecord Snap}
    {m : Made Snap} (h : m ∈ newMade agreed i r) :
    m.sid = i ∧ r.peerDeviceId = some m.device ∧ m.snapshot = r.ratchetSnapshot ∧
    ∃ snapshot, agreed = some (m.handshake, snapshot) := by
  unfold newMade at h
  split at h
  · rename_i hdevice
    cases List.mem_singleton.mp h
    exact ⟨rfl, hdevice, rfl, _, rfl⟩
  · cases h

section

variable {w : Seen Snap} {x : Proc.Exch (sdk Snap)}

/-- The exchanges that change what a call has agreed, drawn or made. -/
theorem step_cases (w : Seen Snap) (x : Proc.Exch (sdk Snap)) :
    ((w.next x).agreed = w.agreed ∧ (w.next x).drawn = w.drawn ∧ (w.next x).made = w.made ∧
      ∀ o i r a, x ≠ ⟨.set (.session o i) r, a⟩) ∨
    (∃ o i r, x = ⟨.set (.session o i) r, .ok ()⟩) ∨
    (∃ o i r e, x = ⟨.set (.session o i) r, .error e⟩) ∨ (∃ i, x = ⟨.runtimeUuid, i⟩) ∨
    ∃ q y, x = ⟨.core (.processAcceptedInvite q), .ok y⟩ := by
  obtain ⟨o, r⟩ := x
  cases o with
  | get k => cases k <;> cases r <;> exact .inl ⟨rfl, rfl, rfl, fun _ _ _ _ => nofun⟩
  | set k v =>
    cases k with
    | session o i =>
      match r with
      | .ok () => exact .inr (.inl ⟨o, i, v, rfl⟩)
      | .error e => exact .inr (.inr (.inl ⟨o, i, v, e, rfl⟩))
    | _ => exact .inl ⟨rfl, rfl, rfl, fun _ _ _ _ => nofun⟩
  | enter k prev pid =>
    refine .inl ?_
    unfold Seen.next Seen.step
    dsimp only
    split <;> exact ⟨rfl, rfl, rfl, fun _ _ _ _ => nofun⟩
  | core q =>
    cases q with
    | processAcceptedInvite q =>
      cases r with
      | ok y => exact .inr (.inr (.inr (.inr ⟨q, y, rfl⟩)))
      | error e => exact .inl ⟨rfl, rfl, rfl, fun _ _ _ _ => nofun⟩
    | _ => exact .inl ⟨rfl, rfl, rfl, fun _ _ _ _ => nofun⟩
  | runtimeUuid => exact .inr (.inr (.inr (.inl ⟨r, rfl⟩)))
  | _ => exact .inl ⟨rfl, rfl, rfl, fun _ _ _ _ => nofun⟩

theorem next_ids (w : Seen Snap) (x : Proc.Exch (sdk Snap)) :
    (w.next x).owner = w.owner ∧ (w.next x).peer = w.peer := by
  unfold Seen.next Seen.step
  split <;> first
    | exact ⟨rfl, rfl⟩
    | (split <;> exact ⟨rfl, rfl⟩)

theorem look_enter {key : LockKey} {prev : Option Nat} {pid : Nat} {r : Unit} :
    (w.next ⟨.enter key prev pid, r⟩).look =
      if key.1 = .inviteClaims then .unknown else w.look := by
  unfold Seen.next Seen.step
  dsimp only
  split <;> rfl

theorem stands_enter {key : LockKey} {prev : Option Nat} {pid : Nat} {r : Unit} :
    (w.next ⟨.enter key prev pid, r⟩).stands.claims =
      if key.1 = .inviteClaims then .held key pid else w.stands.claims :=
  rfl

theorem made_cases {m : Made Snap} (h : m ∈ (w.next x).made) :
    m ∈ w.made ∨ ∃ o i r, x = ⟨.set (.session o i) r, .ok ()⟩ ∧ m ∈ newMade w.agreed i r := by
  obtain ⟨-, -, heq, -⟩ | ⟨o, i, r, rfl⟩ | ⟨o, i, r, e, rfl⟩ | ⟨i, rfl⟩ | ⟨q, y, rfl⟩ :=
    step_cases w x
  · rw [heq] at h
    exact .inl h
  · rcases List.mem_append.mp h with h | h
    · exact .inr ⟨o, i, r, rfl, h⟩
    · exact .inl h
  · exact .inl h
  · exact .inl h
  · exact .inl h

theorem made_kept {m : Made Snap} (h : m ∈ w.made) : m ∈ (w.next x).made := by
  obtain ⟨-, -, heq, -⟩ | ⟨o, i, r, rfl⟩ | ⟨o, i, r, e, rfl⟩ | ⟨i, rfl⟩ | ⟨q, y, rfl⟩ :=
    step_cases w x
  · rw [heq]
    exact h
  · exact List.mem_append_right _ h
  · exact h
  · exact h
  · exact h

theorem drawn_cases {i : Id} (h : (w.next x).drawn = some i) :
    (w.drawn = some i ∧ ∀ o i r a, x ≠ ⟨.set (.session o i) r, a⟩) ∨ x = ⟨.runtimeUuid, i⟩ := by
  obtain ⟨-, heq, -, hne⟩ | ⟨o, i, r, rfl⟩ | ⟨o, i, r, e, rfl⟩ | ⟨i, rfl⟩ | ⟨q, y, rfl⟩ :=
    step_cases w x
  · rw [heq] at h
    exact .inl ⟨h, hne⟩
  · cases h
  · cases h
  · cases h
    exact .inr rfl
  · exact .inl ⟨h, fun _ _ _ _ => nofun⟩

theorem agreed_cases {y : HandshakeData × Snap} (h : (w.next x).agreed = some y) :
    w.agreed = some y ∨ agreement x = some y := by
  obtain ⟨heq, -⟩ | ⟨o, i, r, rfl⟩ | ⟨o, i, r, e, rfl⟩ | ⟨i, rfl⟩ | ⟨q, y, rfl⟩ := step_cases w x
  · rw [heq] at h
    exact .inl h
  · exact .inl h
  · exact .inl h
  · exact .inl h
  · exact .inr h

end

/-! ## All of them -/

def view (kv : Store Snap) (s : IngestState Snap) (t : Nat) : Option (Seen Snap) :=
  System.view (monitor kv) Seen.start s t

/-- What was found out about a device of `link` holds of the store. -/
def Look.Holds (store : Store Snap) (owner link : Id) : Look → Prop
  | .unknown => True
  | .indexed d i => store.lookup (.sessionByDevice owner link d) = some i
  | .vacant d f => store.lookup (.sessionByDevice owner link d) = f ∧
      ∀ i, f = some i → store.lookup (.session owner i) = none

def LookOk (kv store : Store Snap) (w : Seen Snap) : Prop :=
  ∀ l, linkOf kv w.owner w.peer = some l → w.look.Holds store w.owner l

section

variable {look : Look} {store store' : Store Snap} {o l : Id}

/-- It depends on the sessions only. -/
theorem Look.Holds.kept (h : look.Holds store o l)
    (hindex : ∀ d, store'.lookup (.sessionByDevice o l d) = store.lookup (.sessionByDevice o l d))
    (hsession : ∀ d i, store.lookup (.sessionByDevice o l d) = some i →
      store'.lookup (.session o i) = store.lookup (.session o i)) : look.Holds store' o l := by
  cases look with
  | unknown => trivial
  | indexed d i => exact (hindex d).trans h
  | vacant d f =>
    refine ⟨(hindex d).trans h.1, fun i hi => ?_⟩
    rw [hsession d i (h.1.trans hi)]
    exact h.2 i hi

/-- A look at a device's index. -/
theorem Look.Holds.index (h : look.Holds store o l) {d : Id} {found : Option Id}
    (hfound : store.lookup (.sessionByDevice o l d) = found) :
    (look.index d found).Holds store o l := by
  have hfresh : (lookOf d found).Holds store o l := by
    cases found with
    | none => exact ⟨hfound, fun _ => nofun⟩
    | some i => exact hfound
  cases look with
  | vacant d' f =>
    unfold Look.index
    dsimp only
    split
    · exact h
    · exact hfresh
  | _ => exact hfresh

/-- A look at a record. -/
theorem Look.Holds.record (h : look.Holds store o l) {i : Id} {r : Option (SessionRecord Snap)}
    (hr : store.lookup (.session o i) = r) : (look.record i r.isSome).Holds store o l := by
  cases look with
  | indexed d i' =>
    unfold Look.record
    dsimp only
    split
    · rename_i heq
      subst heq
      cases r with
      | none =>
        refine ⟨h, fun i hi => ?_⟩
        cases hi
        exact hr
      | some r => trivial
    · exact h
  | _ => exact h

/-- Nothing that holds is torn. -/
theorem Look.Holds.untorn (h : look.Holds store o l) {x : Proc.Exch (sdk Snap)}
    (hindex : ∀ o' l' d found, x = ⟨.get (.sessionByDevice o' l' d), .ok found⟩ →
      store.lookup (.sessionByDevice o l d) = found)
    (hrecord : ∀ o' i r, x = ⟨.get (.session o' i), .ok r⟩ → store.lookup (.session o i) = r) :
    look.torn x = false := by
  cases look with
  | vacant d f =>
    unfold Look.torn
    split
    · rename_i d' found
      have hfound := hindex _ _ _ _ rfl
      by_cases hd : d = d'
      · subst hd
        simp [h.1.symm.trans hfound]
      · simp [hd]
    · rename_i i r
      have hr := hrecord _ _ _ rfl
      by_cases hf : f = some i
      · rw [h.2 i hf] at hr
        subst hr
        simp
      · simp [hf]
    · rfl
  | _ =>
    unfold Look.torn
    split <;> rfl

end

/-- `i` is call `t`'s, and no session has it yet. -/
structure Reserved (kv : Store Snap) (s : IngestState Snap) (t : Nat) (i : Id) : Prop where
  used : i ∈ s.mem.used
  index : ∀ o l d, s.mem.kv.lookup (.sessionByDevice o l d) ≠ some i
  made : ∀ t' w m, view kv s t' = some w → m ∈ w.made → m.sid ≠ i
  sole : ∀ t' w, view kv s t' = some w → w.drawn = some i → t' = t

structure Inv (kv : Store Snap) (s : IngestState Snap) : Prop where
  conforms : System.Conforms (monitor kv) (LinksFrom kv) Seen.start Post s
  locked : Locked s.mem s.log
  pairs : ∀ o p, s.mem.kv.lookup (.pair o p) = kv.lookup (.pair o p)
  links : ∀ o l, s.mem.kv.lookup (.peerLink o l) = kv.lookup (.peerLink o l)
  on : ∀ t w, view kv s t = some w → w.off = false
  look : ∀ t w, view kv s t = some w → w.Inside → LookOk kv s.mem.kv w
  indexes : ∀ o l d i, s.mem.kv.lookup (.sessionByDevice o l d) = some i → i ∈ s.mem.used
  drawn : ∀ t w i, view kv s t = some w → w.drawn = some i → Reserved kv s t i
  agreed : ∀ t w x, view kv s t = some w → w.agreed = some x → ∃ e ∈ s.log, e.tid = t ∧
    agreement e.exch = some x
  made : ∀ t w m, view kv s t = some w → m ∈ w.made → m.sid ∈ s.mem.used ∧
    (∃ e ∈ s.log, e.tid = t ∧ (created e).isSome = true) ∧
    ∃ e ∈ s.log, e.tid = t ∧ agreement e.exch = some (m.handshake, m.snapshot)
  sole : ∀ t t' w w' m m', view kv s t = some w → view kv s t' = some w' → m ∈ w.made →
    m' ∈ w'.made → m.sid = m'.sid → t = t'
  created : ∀ e ∈ s.log, ∀ o i r, created e = some (o, i, r) → ∃ w m, view kv s e.tid = some w ∧
    m ∈ w.made ∧
    m.sid = i ∧ r.peerDeviceId = some m.device ∧ r.ratchetSnapshot = m.snapshot

theorem view_stands {s : IngestState Snap} {t : Nat} {w : Seen Snap} (h : view kv s t = some w) :
    w.stands = stands t s.log := by
  unfold view System.view at h
  obtain ⟨th, -, rfl⟩ := Option.map_eq_some_iff.mp h
  exact mon_stands (M := monitor kv) Seen.stands (fun _ _ => rfl) rfl t s.log

namespace Inv

variable {s s' : IngestState Snap} {e : Event (sdk Snap) Fate} {c : IngestArgs}
  {k : (sdk Snap).Ans e.op → Proc (sdk Snap) (Except Err Ingested)}

theorem self (h : Inv kv s) (hf : Pool.Fires (ingests svc) s e c k s') :
    ∃ w, view kv s e.tid = some w ∧ w.stands.may e.op ∧ mayStore kv w e.op ∧
      view kv s' e.tid = some (w.next e.exch) := by
  have hv : view kv s e.tid = some _ := System.view_fired hf
  have hmay := h.conforms.may hf
  rcases hmay with hoff | hmay
  · rw [h.on _ _ hv] at hoff
    cases hoff
  · exact ⟨_, hv, hmay.1, hmay.2, System.view_self hf⟩

/-- Where a call stands after an event. -/
theorem view_cases (h : Inv kv s) (hf : Pool.Fires (ingests svc) s e c k s') {t : Nat}
    {w : Seen Snap} (hv : view kv s' t = some w) :
    view kv s t = some w ∧ e.tid ≠ t ∨
    e.tid = t ∧ ∃ w₀, view kv s t = some w₀ ∧ w = w₀.next e.exch := by
  obtain ⟨w₀, hv₀, -, -, hv'⟩ := h.self hf
  obtain ⟨rfl, rfl⟩ | ⟨ht, hv⟩ := System.view_cases hf hv' hv
  · exact .inr ⟨rfl, w₀, hv₀, rfl⟩
  · exact .inl ⟨hv, ht⟩

theorem lawful (h : Inv kv s) (hf : Pool.Fires (ingests svc) s e c k s') : LinksFrom kv e.exch := by
  obtain ⟨t, op, ans, fate⟩ := e
  cases op with
  | get key =>
    cases key with
    | pair o p =>
      match ans with
      | .error _ => trivial
      | .ok v => exact (act_get_ok hf.act).symm.trans (h.pairs o p)
    | peerLink o l =>
      match ans with
      | .error _ => trivial
      | .ok v => exact (act_get_ok hf.act).symm.trans (h.links o l)
    | _ => trivial
  | _ => trivial

/-- Only one call is inside the lock of (owner, peer). -/
theorem alone (h : Inv kv s) {t t' : Nat} {w w' : Seen Snap} (hv : view kv s t = some w)
    (hv' : view kv s t' = some w') (hin : w.Inside) (hin' : w'.Inside) (ho : w.owner = w'.owner)
    (hp : w.peer = w'.peer) : t = t' := by
  obtain ⟨pid, hheld⟩ := hin
  obtain ⟨pid', hheld'⟩ := hin'
  have hclaims :
      (stands t s.log).inTable .inviteClaims = .held (ingestLock w'.owner w'.peer) pid := by
    rw [← view_stands hv, ← ho, ← hp]
    exact hheld
  have hclaims' :
      (stands t' s.log).inTable .inviteClaims = .held (ingestLock w'.owner w'.peer) pid' := by
    rw [← view_stands hv']
    exact hheld'
  exact h.locked.exclusive hclaims hclaims'

theorem pair_kept (h : Inv kv s) (hf : Pool.Fires (ingests svc) s e c k s') (o p : Id) :
    s'.mem.kv.lookup (.pair o p) = kv.lookup (.pair o p) := by
  rw [← h.pairs o p]
  refine lookup_kept (S := ingests svc) rfl hf ?_
  by_contra halt
  obtain ⟨w, -, -, hmay, -⟩ := h.self hf
  obtain ⟨-, ⟨v, hop⟩ | hop⟩ := alters_cases (Bool.not_eq_false _ ▸ halt)
  · rw [hop] at hmay
    exact hmay
  · rw [hop] at hmay
    exact hmay

theorem link_kept (h : Inv kv s) (hf : Pool.Fires (ingests svc) s e c k s') (o l : Id) :
    s'.mem.kv.lookup (.peerLink o l) = kv.lookup (.peerLink o l) := by
  rw [← h.links o l]
  refine lookup_kept (S := ingests svc) rfl hf ?_
  by_contra halt
  obtain ⟨w, -, -, hmay, -⟩ := h.self hf
  obtain ⟨-, ⟨v, hop⟩ | hop⟩ := alters_cases (Bool.not_eq_false _ ▸ halt)
  · rw [hop] at hmay
    exact hmay
  · rw [hop] at hmay
    exact hmay

/-- What an event can do to a session record: nothing, or its call stores a new
one. -/
theorem session_cases (h : Inv kv s) (hf : Pool.Fires (ingests svc) s e c k s') (o i : Id) :
    s'.mem.kv.lookup (.session o i) = s.mem.kv.lookup (.session o i) ∨
      ∃ w, view kv s e.tid = some w ∧ w.drawn = some i ∧ ∃ r, e.op = .set (.session o i) r := by
  cases halt : alters (.session o i) e.op e.fate with
  | false => exact .inl (lookup_kept (S := ingests svc) rfl hf halt)
  | true =>
    obtain ⟨w, hv, -, hmay, -⟩ := h.self hf
    obtain ⟨-, ⟨r, hop⟩ | hop⟩ := alters_cases halt
    · rw [hop] at hmay
      obtain ⟨-, -, hdrawn, -⟩ := hmay
      exact .inr ⟨w, hv, hdrawn, r, hop⟩
    · rw [hop] at hmay
      exact hmay.elim

/-- What an event can do to the index of a device: nothing, or its call, inside
the lock, names a session it has made. -/
theorem index_change (h : Inv kv s) (hf : Pool.Fires (ingests svc) s e c k s') (o l d : Id) :
    s'.mem.kv.lookup (.sessionByDevice o l d) = s.mem.kv.lookup (.sessionByDevice o l d) ∨
    ∃ w, view kv s e.tid = some w ∧ (o = w.owner ∧ linkOf kv w.owner w.peer = some l) ∧ w.Inside ∧
      w.look = .unknown ∧
      ∃ m ∈ w.made, s'.mem.kv.lookup (.sessionByDevice o l d) = some m.sid ∧
        e.op = .set (.sessionByDevice o l d) m.sid := by
  cases halt : alters (.sessionByDevice o l d) e.op e.fate with
  | false => exact .inl (lookup_kept (S := ingests svc) rfl hf halt)
  | true =>
    obtain ⟨w, hv, -, hmay, -⟩ := h.self hf
    obtain ⟨hl, ⟨i, hop⟩ | hop⟩ := alters_cases halt
    · have hlook := lookup_set (S := ingests svc) rfl hf hop hl
      rw [hop] at hmay
      obtain ⟨hpair, hin, hunknown, m, hm, rfl⟩ := hmay
      exact .inr ⟨w, hv, hpair, hin, hunknown, m, hm, hlook, hop⟩
    · rw [hop] at hmay
      exact hmay.elim

/-- Nobody else disturbs what a call inside the lock has found out. -/
theorem look_other (h : Inv kv s)
    (hapart : ∀ o p p' l, linkOf kv o p = some l → linkOf kv o p' = some l → p = p')
    (hf : Pool.Fires (ingests svc) s e c k s') {t : Nat} (ht : e.tid ≠ t) {w : Seen Snap}
    (hv : view kv s t = some w) (hin : w.Inside) : LookOk kv s'.mem.kv w := by
  intro l hl
  refine (h.look t w hv hin l hl).kept (fun d => ?_) fun d i hi => ?_
  · obtain heq | ⟨w', hv', ⟨ho, hl'⟩, hin', -⟩ := h.index_change hf w.owner l d
    · exact heq
    · rw [← ho] at hl'
      exact absurd (h.alone hv' hv hin' hin ho.symm (hapart _ _ _ _ hl' hl)) ht
  · obtain heq | ⟨w', hv', hdrawn, -⟩ := h.session_cases hf w.owner i
    · exact heq
    · -- a new session has an id no index names
      exact absurd hi ((h.drawn _ _ _ hv' hdrawn).index _ _ _)

theorem look_self (h : Inv kv s) (hf : Pool.Fires (ingests svc) s e c k s') {w : Seen Snap}
    (hv : view kv s e.tid = some w) (hmay : mayStore kv w e.op) (hin : (w.next e.exch).Inside) :
    LookOk kv s'.mem.kv (w.next e.exch) := by
  have hstore : (∀ o i, alters (.session o i) e.op e.fate = false) →
      (∀ o l d, alters (.sessionByDevice o l d) e.op e.fate = false) → w.Inside →
      LookOk kv s'.mem.kv w := by
    intro hsession hindex hin l hl
    refine (h.look e.tid w hv hin l hl).kept (fun d => ?_) fun d i _ => ?_
    · exact lookup_kept (S := ingests svc) rfl hf (hindex ..)
    · exact lookup_kept (S := ingests svc) rfl hf (hsession ..)
  obtain ⟨t, op, ans, fate⟩ := e
  cases op with
  | get key =>
    have hkept := hstore (fun _ _ => rfl) (fun _ _ _ => rfl)
    cases key with
    | sessionByDevice o l d =>
      obtain ⟨⟨rfl, hl⟩, hin⟩ := hmay
      match ans with
      | .error e => exact hkept hin
      | .ok found =>
        intro l' hl'
        cases hl.symm.trans hl'
        refine (hkept hin l hl).index ?_
        rw [lookup_kept (S := ingests svc) rfl hf rfl]
        exact act_get_ok hf.act
    | session o i =>
      obtain ⟨⟨rfl, -⟩, hin⟩ := hmay
      match ans with
      | .error e => exact hkept hin
      | .ok r =>
        intro l hl
        refine (hkept hin l hl).record ?_
        rw [lookup_kept (S := ingests svc) rfl hf rfl]
        exact act_get_ok hf.act
    | _ => exact hkept hin
  | set key v =>
    cases key with
    | session o i =>
      intro l hl
      match ans with
      | .error e => trivial
      | .ok () => trivial
    | sessionByDevice o l d =>
      obtain ⟨-, -, hlook, -⟩ := hmay
      intro l hl
      change w.look.Holds _ _ _
      rw [hlook]
      trivial
    | _ => exact hstore (fun _ _ => by simp [alters]) (fun _ _ _ => by simp [alters]) hin
  | delete key =>
    cases key with
    | session o i => exact hmay.elim
    | sessionByDevice o l d => exact hmay.elim
    | _ => exact hstore (fun _ _ => by simp [alters]) (fun _ _ _ => by simp [alters]) hin
  | chain key =>
    refine hstore (fun _ _ => rfl) (fun _ _ _ => rfl) ?_
    obtain ⟨pid, hheld⟩ := hin
    change (if key.1 = .inviteClaims then _ else w.stands.claims) = _ at hheld
    split at hheld
    · cases hheld
    · exact ⟨pid, hheld⟩
  | enter key prev pid =>
    dsimp only [Event.exch] at hin ⊢
    by_cases hkey : key.1 = .inviteClaims
    · intro l _
      rw [look_enter, if_pos hkey]
      trivial
    · obtain ⟨pid', hheld⟩ := hin
      rw [stands_enter, if_neg hkey] at hheld
      have hids := next_ids w (⟨.enter key prev pid, ans⟩ : Proc.Exch (sdk Snap))
      have hold := hstore (fun _ _ => rfl) (fun _ _ _ => rfl) ⟨pid', hids.1 ▸ hids.2 ▸ hheld⟩
      intro l hl
      rw [look_enter, if_neg hkey, hids.1]
      exact hold l (hids.1 ▸ hids.2 ▸ hl)
  | release key pid =>
    refine hstore (fun _ _ => rfl) (fun _ _ _ => rfl) ?_
    obtain ⟨pid, hheld⟩ := hin
    change (if key.1 = .inviteClaims then _ else w.stands.claims) = _ at hheld
    split at hheld
    · cases hheld
    · exact ⟨pid, hheld⟩
  | core q => cases q <;> cases ans <;> exact hstore (fun _ _ => rfl) (fun _ _ _ => rfl) hin
  | _ => exact hstore (fun _ _ => rfl) (fun _ _ _ => rfl) hin

theorem untorn (h : Inv kv s) (hf : Pool.Fires (ingests svc) s e c k s') {w : Seen Snap}
    (hv : view kv s e.tid = some w) (hmay : mayStore kv w e.op) : w.look.torn e.exch = false := by
  obtain ⟨t, op, ans, fate⟩ := e
  cases op with
  | get key =>
    cases key with
    | sessionByDevice o l d =>
      obtain ⟨⟨rfl, hl⟩, hin⟩ := hmay
      refine (h.look _ w hv hin l hl).untorn ?_ fun _ _ _ => nofun
      rintro o' l' d' found ⟨⟩
      exact act_get_ok hf.act
    | session o i =>
      obtain ⟨⟨rfl, l, hl⟩, hin⟩ := hmay
      refine (h.look _ w hv hin l hl).untorn (fun _ _ _ _ => nofun) ?_
      rintro o' i' r ⟨⟩
      exact act_get_ok hf.act
    | _ => rfl
  | _ => rfl

/-- Where nothing fails after a session is stored, a call stays on its rails. -/
theorem on_self (h : Inv kv s) (hf : Pool.Fires (ingests svc) s e c k s') (hok : Unbroken s e)
    {w : Seen Snap} (hv : view kv s e.tid = some w) (hmay : mayStore kv w e.op) :
    (w.next e.exch).off = false := by
  have hfails : (fails e.exch && !w.made.isEmpty) = false := by
    cases hmade : w.made with
    | nil => exact Bool.and_false _
    | cons m made =>
      obtain ⟨-, ⟨e', he', ht, hcreated⟩, -⟩ := h.made _ w m hv (by rw [hmade]; exact .head _)
      rw [hok ⟨e', .tail _ he', ht, hcreated⟩]
      rfl
  change (w.off || w.look.torn e.exch || (fails e.exch && !w.made.isEmpty)) = false
  rw [h.on _ w hv, h.untorn hf hv hmay, hfails]
  rfl

/-- A session that is stored is remembered. -/
theorem created_self (hok : Unbroken s e) {w : Seen Snap} (hmay : mayStore kv w e.op) {o i : Id}
    {r : SessionRecord Snap} (hcreated : InitiatorHandshakes.created e = some (o, i, r)) :
    ∃ m ∈ (w.next e.exch).made, m.sid = i ∧ r.peerDeviceId = some m.device ∧
      r.ratchetSnapshot = m.snapshot := by
  have hfine : fails e.exch = false := hok ⟨e, .head _, rfl, by rw [hcreated]; rfl⟩
  obtain ⟨t, op, ans, fate⟩ := e
  cases op with
  | set key v =>
    cases key with
    | session o' i' =>
      obtain ⟨-, -, -, d, handshake, hdevice, hagreed⟩ := hmay
      match ans with
      | .error e => cases hfine
      | .ok () =>
        unfold InitiatorHandshakes.created at hcreated
        dsimp only at hcreated
        split at hcreated
        · cases hcreated
          dsimp only [Event.exch]
          rw [next_saved hagreed hdevice]
          exact ⟨_, .head _, rfl, hdevice, rfl⟩
        · cases hcreated
    | _ => cases hcreated
  | _ => cases hcreated

theorem used_mono (hf : Pool.Fires (ingests svc) s e c k s') : s.mem.used ⊆ s'.mem.used :=
  act_used hf.act

/-- What an event can add to what a call has made: the session it has an id
for. -/
theorem made_fires (h : Inv kv s) (hf : Pool.Fires (ingests svc) s e c k s') {t : Nat}
    {w : Seen Snap} {m : Made Snap} (hv : view kv s' t = some w) (hm : m ∈ w.made) :
    (∃ w₀, view kv s t = some w₀ ∧ m ∈ w₀.made) ∨
    e.tid = t ∧ (InitiatorHandshakes.created e).isSome = true ∧
    ∃ w₀, view kv s t = some w₀ ∧ w₀.drawn = some m.sid ∧
      w₀.agreed = some (m.handshake, m.snapshot) ∧ w = w₀.next e.exch ∧
      ∃ o r, e.op = .set (.session o m.sid) r := by
  rcases h.view_cases hf hv with ⟨hv₀, -⟩ | ⟨rfl, w₀, hv₀, rfl⟩
  · exact .inl ⟨w, hv₀, hm⟩
  · rcases made_cases hm with hm | ⟨o, i, r, hx, hnew⟩
    · exact .inl ⟨w₀, hv₀, hm⟩
    · obtain ⟨w₁, hv₁, -, hmay, -⟩ := h.self hf
      cases hv₀.symm.trans hv₁
      obtain ⟨rfl, -, hsnapshot, snapshot, hagreed⟩ := mem_newMade hnew
      obtain ⟨t, op, ans, fate⟩ := e
      cases hx
      obtain ⟨-, -, hdrawn, d, handshake, -, hagreed'⟩ := hmay
      rw [hagreed', Option.some.injEq, Prod.mk.injEq] at hagreed
      refine .inr ⟨rfl, ?_, w₀, hv₀, hdrawn, ?_, rfl, o, r, rfl⟩
      · have hlands : fate.lands = true := act_set_ok hf.act
        simp only [InitiatorHandshakes.created, hlands, if_true, Option.isSome_some]
      · rw [hagreed', ← hagreed.1, hsnapshot]

theorem fresh (hf : Pool.Fires (ingests svc) s e c k s') {i : Id}
    (hx : e.exch = ⟨.runtimeUuid, i⟩) : i ∉ s.mem.used ∧ i ∈ s'.mem.used := by
  obtain ⟨t, op, ans, fate⟩ := e
  cases hx
  exact act_uuid hf.act

/-- A reservation stands until its call stores the session. -/
theorem reserved_kept (h : Inv kv s) (hf : Pool.Fires (ingests svc) s e c k s') {t : Nat} {i : Id}
    (hres : Reserved kv s t i) (hother : e.tid = t → ∀ o r, e.op ≠ .set (.session o i) r) :
    Reserved kv s' t i where
  used := used_mono hf hres.used
  index o l d heq := by
    obtain hkept | ⟨w', hv', -, -, -, m, hm, hnew, -⟩ := h.index_change hf o l d
    · exact hres.index o l d (hkept.symm.trans heq)
    · exact hres.made _ w' m hv' hm (Option.some.inj (hnew.symm.trans heq))
  made t' w m hv hm heq := by
    rcases h.made_fires hf hv hm with ⟨w₀, hv₀, hm⟩ | ⟨ht, -, w₀, hv₀, hdrawn, -, -, o, r, hop⟩
    · exact hres.made t' w₀ m hv₀ hm heq
    · rw [heq] at hdrawn hop
      exact hother (ht.trans (hres.sole t' w₀ hv₀ hdrawn)) o r hop
  sole t' w hv hdrawn := by
    rcases h.view_cases hf hv with ⟨hv₀, -⟩ | ⟨rfl, w₀, hv₀, rfl⟩
    · exact hres.sole t' w hv₀ hdrawn
    · rcases drawn_cases hdrawn with ⟨hdrawn, -⟩ | hx
      · exact hres.sole _ w₀ hv₀ hdrawn
      · exact absurd hres.used (fresh hf hx).1

/-- A new id is nobody's. -/
theorem reserved_new (h : Inv kv s) (hf : Pool.Fires (ingests svc) s e c k s') {i : Id}
    (hx : e.exch = ⟨.runtimeUuid, i⟩) : Reserved kv s' e.tid i where
  used := (fresh hf hx).2
  index o l d heq := by
    refine (fresh hf hx).1 ?_
    obtain hkept | ⟨w', hv', -, -, -, m, hm, hnew, -⟩ := h.index_change hf o l d
    · exact h.indexes o l d i (hkept.symm.trans heq)
    · rw [← Option.some.inj (hnew.symm.trans heq)]
      exact (h.made _ w' m hv' hm).1
  made t' w m hv hm heq := by
    refine (fresh hf hx).1 ?_
    rw [← heq]
    rcases h.made_fires hf hv hm with ⟨w₀, hv₀, hm⟩ | ⟨-, -, w₀, hv₀, hdrawn, -⟩
    · exact (h.made t' w₀ m hv₀ hm).1
    · exact (h.drawn t' w₀ _ hv₀ hdrawn).used
  sole t' w hv hdrawn := by
    rcases h.view_cases hf hv with ⟨hv₀, -⟩ | ⟨rfl, -⟩
    · exact absurd (h.drawn t' w i hv₀ hdrawn).used (fresh hf hx).1
    · rfl

theorem reserved_fires (h : Inv kv s) (hf : Pool.Fires (ingests svc) s e c k s') {t : Nat}
    {w : Seen Snap} {i : Id} (hv : view kv s' t = some w) (hdrawn : w.drawn = some i) :
    Reserved kv s' t i := by
  rcases h.view_cases hf hv with ⟨hv₀, ht⟩ | ⟨rfl, w₀, hv₀, rfl⟩
  · exact h.reserved_kept hf (h.drawn t w i hv₀ hdrawn) fun heq => absurd heq ht
  · rcases drawn_cases hdrawn with ⟨hdrawn, hother⟩ | hx
    · refine h.reserved_kept hf (h.drawn _ w₀ i hv₀ hdrawn) fun _ o r hop => ?_
      obtain ⟨t, op, ans, fate⟩ := e
      dsimp only at hop
      subst hop
      exact hother o i r ans rfl
    · exact h.reserved_new hf hx

theorem sole_fires (h : Inv kv s) (hf : Pool.Fires (ingests svc) s e c k s') {t t' : Nat}
    {w w' : Seen Snap} {m m' : Made Snap} (hv : view kv s' t = some w)
    (hv' : view kv s' t' = some w') (hm : m ∈ w.made) (hm' : m' ∈ w'.made) (hsid : m.sid = m'.sid) :
    t = t' := by
  rcases h.made_fires hf hv hm with ⟨w₀, hv₀, hm₀⟩ | ⟨ht, -, w₀, hv₀, hdrawn, -⟩
  · rcases h.made_fires hf hv' hm' with ⟨w₁, hv₁, hm₁⟩ | ⟨-, -, w₁, hv₁, hdrawn, -⟩
    · exact h.sole t t' w₀ w₁ m m' hv₀ hv₁ hm₀ hm₁ hsid
    · exact absurd hsid ((h.drawn t' w₁ _ hv₁ hdrawn).made t w₀ m hv₀ hm₀)
  · rcases h.made_fires hf hv' hm' with ⟨w₁, hv₁, hm₁⟩ | ⟨ht', -⟩
    · exact absurd hsid.symm ((h.drawn t w₀ _ hv₀ hdrawn).made t' w₁ m' hv₁ hm₁)
    · exact ht.symm.trans ht'

theorem fires (h : Inv kv s)
    (hapart : ∀ o p p' l, linkOf kv o p = some l → linkOf kv o p' = some l → p = p')
    (hf : Pool.Fires (ingests svc) s e c k s') (hok : Unbroken s e) : Inv kv s' where
  conforms := System.conforms_fires h.conforms hf (h.lawful hf)
  locked := by
    obtain ⟨w, hv, hstands, -, -⟩ := h.self hf
    refine h.locked.fires (S := ingests svc) rfl hf ?_
    rw [← view_stands hv]
    exact hstands
  pairs := h.pair_kept hf
  links := h.link_kept hf
  on t w hv := by
    rcases h.view_cases hf hv with ⟨hv₀, -⟩ | ⟨rfl, w₀, hv₀, rfl⟩
    · exact h.on t w hv₀
    · obtain ⟨w₁, hv₁, -, hmay, -⟩ := h.self hf
      cases hv₀.symm.trans hv₁
      exact h.on_self hf hok hv₀ hmay
  look t w hv hin := by
    rcases h.view_cases hf hv with ⟨hv₀, ht⟩ | ⟨rfl, w₀, hv₀, rfl⟩
    · exact h.look_other hapart hf ht hv₀ hin
    · obtain ⟨w₁, hv₁, -, hmay, -⟩ := h.self hf
      cases hv₀.symm.trans hv₁
      exact h.look_self hf hv₀ hmay hin
  indexes o l d i hi := by
    refine used_mono hf ?_
    obtain hkept | ⟨w', hv', -, -, -, m, hm, hnew, -⟩ := h.index_change hf o l d
    · exact h.indexes o l d i (hkept.symm.trans hi)
    · rw [← Option.some.inj (hnew.symm.trans hi)]
      exact (h.made _ w' m hv' hm).1
  drawn t w i hv hdrawn := h.reserved_fires hf hv hdrawn
  agreed t w x hv hx := by
    rw [hf.log]
    have hold : ∀ w₀, view kv s t = some w₀ → w₀.agreed = some x →
        ∃ e' ∈ e :: s.log, e'.tid = t ∧ agreement e'.exch = some x := by
      intro w₀ hv₀ hx₀
      obtain ⟨e', he', hx'⟩ := h.agreed t w₀ x hv₀ hx₀
      exact ⟨e', .tail _ he', hx'⟩
    rcases h.view_cases hf hv with ⟨hv₀, -⟩ | ⟨rfl, w₀, hv₀, rfl⟩
    · exact hold w hv₀ hx
    · rcases agreed_cases hx with hx | hx
      · exact hold w₀ hv₀ hx
      · exact ⟨e, .head _, rfl, hx⟩
  made t w m hv hm := by
    rw [hf.log]
    rcases h.made_fires hf hv hm with ⟨w₀, hv₀, hm₀⟩ | ⟨ht, hcreated, w₀, hv₀, hdrawn, hagreed, -⟩
    · obtain ⟨hused, ⟨e₁, he₁, h₁⟩, e₂, he₂, h₂⟩ := h.made t w₀ m hv₀ hm₀
      exact ⟨used_mono hf hused, ⟨e₁, .tail _ he₁, h₁⟩, e₂, .tail _ he₂, h₂⟩
    · obtain ⟨e₂, he₂, h₂⟩ := h.agreed t w₀ _ hv₀ hagreed
      exact ⟨used_mono hf (h.drawn t w₀ _ hv₀ hdrawn).used, ⟨e, .head _, ht, hcreated⟩,
        e₂, .tail _ he₂, h₂⟩
  sole t t' w w' m m' hv hv' hm hm' hsid := h.sole_fires hf hv hv' hm hm' hsid
  created e' he' o i r hcreated := by
    rw [hf.log] at he'
    obtain ⟨w₁, hv₁, -, hmay, hv₁'⟩ := h.self hf
    rcases List.mem_cons.mp he' with rfl | he'
    · obtain ⟨m, hm, hfacts⟩ := created_self hok hmay hcreated
      exact ⟨_, m, hv₁', hm, hfacts⟩
    · obtain ⟨w, m, hv, hm, hfacts⟩ := h.created e' he' o i r hcreated
      by_cases ht : e.tid = e'.tid
      · rw [← ht] at hv ⊢
        cases hv.symm.trans hv₁
        exact ⟨_, m, hv₁', made_kept hm, hfacts⟩
      · exact ⟨w, m, (System.view_other hf ht).trans hv, hm, hfacts⟩

/-- A call that starts knows nothing. -/
theorem view_spawned (h : Inv kv s) {t : Nat} {w : Seen Snap}
    (hv : view kv (s.spawn (ingests svc) c) t = some w) :
    w = Seen.start c ∨ view kv s t = some w := by
  rcases h.conforms.view_spawned hv with ⟨-, hw⟩ | hv
  · exact .inl hw
  · exact .inr hv

theorem spawn (h : Inv kv s) (c : IngestArgs) : Inv kv (s.spawn (ingests svc) c) where
  conforms := System.conforms_spawn h.conforms (obeys_run c)
  locked := h.locked
  pairs := h.pairs
  links := h.links
  on t w hv := by
    rcases h.view_spawned hv with rfl | hv
    · rfl
    · exact h.on t w hv
  look t w hv hin := by
    rcases h.view_spawned hv with rfl | hv
    · exact fun _ _ => trivial
    · exact h.look t w hv hin
  indexes := h.indexes
  drawn t w i hv hdrawn := by
    rcases h.view_spawned hv with rfl | hv
    · cases hdrawn
    · have hres := h.drawn t w i hv hdrawn
      refine ⟨hres.used, hres.index, fun t' w' m hv' hm => ?_, fun t' w' hv' hdrawn' => ?_⟩
      · rcases h.view_spawned hv' with rfl | hv'
        · cases hm
        · exact hres.made t' w' m hv' hm
      · rcases h.view_spawned hv' with rfl | hv'
        · cases hdrawn'
        · exact hres.sole t' w' hv' hdrawn'
  agreed t w x hv hx := by
    rcases h.view_spawned hv with rfl | hv
    · cases hx
    · exact h.agreed t w x hv hx
  made t w m hv hm := by
    rcases h.view_spawned hv with rfl | hv
    · cases hm
    · exact h.made t w m hv hm
  sole t t' w w' m m' hv hv' hm hm' hsid := by
    rcases h.view_spawned hv with rfl | hv
    · cases hm
    · rcases h.view_spawned hv' with rfl | hv'
      · cases hm'
      · exact h.sole t t' w w' m m' hv hv' hm hm' hsid
  created e he o i r hcreated := by
    obtain ⟨w, m, hv, hm, hfacts⟩ := h.created e he o i r hcreated
    exact ⟨w, m, h.conforms.view_kept hv, hm, hfacts⟩

end Inv

theorem inv_init {m : Mem Snap} (h : WellFormed m) : Inv m.kv (⟨m, [], []⟩ : IngestState Snap) where
  conforms := System.conforms_init m
  locked := locked_init h.locks
  pairs _ _ := rfl
  links _ _ := rfl
  on t w hv := by
    rw [view, System.view_init] at hv
    cases hv
  look t w hv := by
    rw [view, System.view_init] at hv
    cases hv
  indexes := h.indexes
  drawn t w i hv := by
    rw [view, System.view_init] at hv
    cases hv
  agreed t w x hv := by
    rw [view, System.view_init] at hv
    cases hv
  made t w m hv := by
    rw [view, System.view_init] at hv
    cases hv
  sole t t' w w' m m' hv := by
    rw [view, System.view_init] at hv
    cases hv
  created e he := absurd he List.not_mem_nil

theorem inv_inductive : ((ingests svc).lts unbroken).Inductive fun s => ∃ kv : Store Snap,
    (∀ o p p' l, linkOf kv o p = some l → linkOf kv o p' = some l → p = p') ∧ Inv kv s := by
  refine System.inductive_of (fun m hm => ⟨m.kv, hm.apart, inv_init hm⟩) ?_ ?_
  · rintro s c ⟨kv, hapart, h⟩ -
    exact ⟨kv, hapart, h.spawn c⟩
  · rintro s e c k s' ⟨kv, hapart, h⟩ hf hok
    exact ⟨kv, hapart, h.fires hapart hf hok⟩

/-! ## The result -/

namespace Inv

variable {s : IngestState Snap}

/-- A call that has ended has handed out what it has made. -/
theorem returned (h : Inv kv s) {t : Nat} {c : IngestArgs} {x : Except Err Ingested}
    (hth : s.threads[t]? = some ⟨c, .ret x⟩) : ∃ w, view kv s t = some w ∧ HandsOut w x := by
  have hv : view kv s t = some _ := System.view_thread hth
  refine ⟨_, hv, ?_⟩
  rcases h.conforms.result hth with hoff | hpost
  · rw [h.on _ _ hv] at hoff
    cases hoff
  · exact hpost

theorem returns_made (h : Inv kv s) {t : Nat} {i : Id} (hr : Returns s t i) :
    ∃ w m, view kv s t = some w ∧ m ∈ w.made ∧ m.sid = i := by
  obtain ⟨c, r, hth, x, hx, rfl⟩ := hr
  obtain ⟨w, hv, hest⟩ := h.returned hth
  rw [show r.established = _ from hest, List.mem_reverse, List.mem_map] at hx
  obtain ⟨m, hm, rfl⟩ := hx
  exact ⟨w, m, hv, hm, rfl⟩

theorem handedOut (h : Inv kv s) : HandedOut s := by
  intro e he o i r hcreated c x hth
  obtain ⟨w, m, hv, hm, rfl, hdevice, hsnapshot⟩ := h.created e he o i r hcreated
  refine ⟨?_, fun t ht => ?_⟩
  · obtain ⟨w', hv', hend⟩ := h.returned hth
    cases hv.symm.trans hv'
    cases x with
    | error e =>
      rw [show w.made = [] from hend] at hm
      cases hm
    | ok y =>
      obtain ⟨-, -, e', he', ht', hagreement⟩ := h.made _ w m hv hm
      refine ⟨y, rfl, m.entry, ?_, rfl, hdevice, e', he', ht', ?_⟩
      · rw [show y.established = _ from hend, List.mem_reverse]
        exact List.mem_map_of_mem hm
      · rw [hsnapshot]
        exact hagreement
  · obtain ⟨w', m', hv', hm', hsid⟩ := h.returns_made ht
    exact h.sole t e.tid w' w m' m hv' hv hm' hm hsid

end Inv

/-- **No orphaned session**, in the runs in which no operation fails any more
once its call has stored a session. -/
theorem sessions_handed_out (svc : DeviceService Snap) (s : IngestState Snap)
    (hr : ((ingests svc).lts unbroken).Reachable s) : HandedOut s := by
  obtain ⟨kv, -, h⟩ := inv_inductive.reachable s hr
  exact h.handedOut

namespace Example

open Counting SetFloor.Example

def judge : System.Judge (anyRuns : IngestRules Nat) where
  may _ _ := true
  ok _ _ := true
  may_iff _ _ _ := trivial
  ok_iff _ _ _ := trivial

def unbrokenJudge : System.Judge (unbroken : IngestRules Nat) where
  may _ _ := true
  ok s e := !(e :: s.log).any (fun e' => e'.tid = e.tid && (created e').isSome) || !fails e.exch
  may_iff _ _ _ := trivial
  ok_iff s e h := by
    rintro ⟨e', he', ht, hcreated⟩
    have hany : (e :: s.log).any (fun e' => e'.tid = e.tid && (created e').isSome) = true := by
      refine List.any_eq_true.mpr ⟨e', he', ?_⟩
      rw [decide_eq_true ht, hcreated]
      rfl
    rw [hany] at h
    simpa using h

theorem peered_links {o p l : Id} (h : linkOf peered o p = some l) : p = b := by
  by_contra hne
  have hkey : Key.pair o p ≠ .pair a b := fun heq => hne (Key.pair.inj heq).2
  have hnone : (peered.lookup (.pair o p) : Option Id) = none := by
    unfold peered
    rw [AList.lookup_insert_ne (show Key.pair o p ≠ .peerLink a c from nofun),
      AList.lookup_insert_ne hkey,
      AList.lookup_insert_ne (show Key.pair o p ≠ .identity a from nofun), AList.lookup_empty]
  unfold linkOf at h
  rw [hnone] at h
  cases h

theorem peered_wellFormed : WellFormed (.ofStore peered [] : Mem Nat) where
  locks := rfl
  apart o p p' l h h' := (peered_links h).trans (peered_links h').symm
  indexes o l d i h := by
    have hnone : (peered.lookup (.sessionByDevice o l d) : Option Id) = none := by
      unfold peered
      rw [AList.lookup_insert_ne (show Key.sessionByDevice o l d ≠ .peerLink a c from nofun),
        AList.lookup_insert_ne (show Key.sessionByDevice o l d ≠ .pair a b from nofun),
        AList.lookup_insert_ne (show Key.sessionByDevice o l d ≠ .identity a from nofun),
          AList.lookup_empty]
    cases hnone.symm.trans h

/-- Call `t` has stored a session. -/
def stored (s : IngestState Nat) (t : Nat) : Bool :=
  s.log.any fun e => e.tid = t && (created e).isSome

theorem stored_event {s : IngestState Nat} {t : Nat} (h : stored s t = true) :
    ∃ e ∈ s.log, e.tid = t ∧ ∃ o i r, created e = some (o, i, r) := by
  obtain ⟨e, he, hboth⟩ := List.any_eq_true.mp h
  rw [Bool.and_eq_true, decide_eq_true_iff] at hboth
  obtain ⟨⟨o, i, r⟩, hcreated⟩ := Option.isSome_iff_exists.mp hboth.2
  exact ⟨e, he, hboth.1, o, i, r, hcreated⟩

/-- Call `t` has thrown. -/
def threw (s : IngestState Nat) (t : Nat) : Bool :=
  match s.threads[t]? with
  | some ⟨_, .ret (.error _)⟩ => true
  | _ => false

theorem threw_thread {s : IngestState Nat} {t : Nat} (h : threw s t = true) :
    ∃ c e, s.threads[t]? = some ⟨c, .ret (.error e)⟩ := by
  unfold threw at h
  split at h
  · exact ⟨_, _, ‹_›⟩
  · cases h

end Example

open Example Counting SetFloor.Example in
/-- The session is stored, and then the floor cannot be saved. -/
theorem session_orphaned : ∃ s, ((ingests tablet).lts anyRuns).Reachable s ∧ ¬ HandedOut s := by
  obtain ⟨s, hr, hs⟩ := System.reachable_of_play (S := ingests tablet) Example.judge smooth
    [.call args, .go 0 35, .run 0 (.fail fault), .go 0 1] (m := .ofStore peered [])
    (P := fun s => stored s 0 && threw s 0) peered_wellFormed (by decide +kernel)
  refine ⟨s, hr, fun hout => ?_⟩
  rw [Bool.and_eq_true] at hs
  obtain ⟨e, he, ht, o, i, r, hcreated⟩ := stored_event hs.1
  obtain ⟨c, err, hth⟩ := threw_thread hs.2
  rw [← ht] at hth
  obtain ⟨⟨y, hy, -⟩, -⟩ := hout e he o i r hcreated c _ hth
  cases hy

open Example Counting SetFloor.Example in
/-- A call that nothing disturbs. -/
theorem sessions_handed_out_once :
    ∃ s, ((ingests tablet).lts unbroken).Reachable s ∧ stored s 0 = true ∧ HandedOut s := by
  obtain ⟨s, hr, hs⟩ :=
    System.reachable_of_play (S := ingests tablet) unbrokenJudge smooth [.call args, .go 0 37]
    (m := .ofStore peered []) (P := fun s => stored s 0) peered_wellFormed (by decide +kernel)
  exact ⟨s, hr, hs, sessions_handed_out tablet s hr⟩

end RezSdk.L4.InitiatorHandshakes
