import RezSdk.L4Runs.Mutex
import RezSdk.L4Runs.Ratchet

/-!
# What one per-device call does

The calls of `DevicePeerSessions` against a monitor that follows the lock
phase, the ratchet steps, and the `Site`: what the call has learnt, inside
its lock, about the record of its device. A session write is only made under
the lock of its device, of the record the call has read there (with what the
codec made of that record's snapshot, or with the snapshot of a new
establishment), or of a record under a new id.
-/
namespace RezSdk.L4.DeviceRatchet

open RezSdk.L1 RezSdk.L2 RezSdk.L3 RezSdk.L4.Ratchet

variable {Snap : Type}

inductive Site (Snap : Type)
  | unknown
  /-- the device's index entry has been read -/
  | indexed (o l d : Id) (found : Option Id)
  /-- the device's session is this record -/
  | known (o l d i : Id) (r : SessionRecord Snap)
  /-- a new session id has been drawn for the device -/
  | fresh (o l d i : Id)

structure Dev (Snap : Type) where
  seen : Seen Snap
  phase : Phase
  site : Site Snap
  /-- the snapshot of an X3DH establishment that is not written yet -/
  x3dh : Option Snap

def Dev.start : Dev Snap := ⟨.start, .out, .unknown, none⟩

def Inside (p : Phase) (o l d : Id) : Prop := ∃ pid, p = .held (deviceLock o l d) pid

instance (p : Phase) (o l d : Id) : Decidable (Inside p o l d) :=
  match p with
  | .held k pid =>
    if h : k = deviceLock o l d then .isTrue ⟨pid, by rw [h]⟩
    else .isFalse fun ⟨_, hk⟩ => h (by cases hk; rfl)
  | .out => .isFalse fun ⟨_, h⟩ => by cases h
  | .queued .. => .isFalse fun ⟨_, h⟩ => by cases h

def Site.read (site : Site Snap) (o i : Id) (r : SessionRecord Snap) : Site Snap :=
  match site with
  | .indexed o' l d (some i') => if o' = o ∧ i' = i then .known o l d i r else site
  | _ => site

def Site.draw (site : Site Snap) (i : Id) : Site Snap :=
  match site with
  | .indexed o l d _ => .fresh o l d i
  | _ => site

def Site.wrote (site : Site Snap) (o i : Id) (r : SessionRecord Snap) : Site Snap :=
  match site with
  | .known o' l d i' _ => if o' = o ∧ i' = i then .known o l d i r else .unknown
  | .fresh o' l d i' => if o' = o ∧ i' = i then .known o l d i r else .unknown
  | _ => .unknown

def siteNext (p : Phase) (site : Site Snap) : Proc.Exch (sdk Snap) → Site Snap
  | ⟨.get (.sessionByDevice o l d), .ok found⟩ =>
    if Inside p o l d then .indexed o l d found else site
  | ⟨.get (.session o i), .ok (some r)⟩ => site.read o i r
  | ⟨.runtimeUuid, i⟩ => site.draw i
  | ⟨.set (.session o i) r, .ok _⟩ => site.wrote o i r
  | ⟨.set (.session ..) _, .error _⟩ => .unknown
  | ⟨.release .., _⟩ => .unknown
  | _ => site

/-- The snapshot an X3DH establishment returned. -/
def established : Proc.Exch (sdk Snap) → Option Snap
  | ⟨.core (.processAcceptedInvite _), .ok (_, s)⟩ => some s
  | ⟨.core (.completeInviteHandshake _), .ok (_, s)⟩ => some s
  | _ => none

def x3dhNext (x : Option Snap) (e : Proc.Exch (sdk Snap)) : Option Snap :=
  match e with
  | ⟨.set (.session ..) _, _⟩ => none
  | e => (established e).or x

/-- The record keeps the ids of the one it replaces. -/
structure SameIds (r₀ r : SessionRecord Snap) : Prop where
  link : r.peerLinkId = r₀.peerLinkId
  device : r.peerDeviceId = r₀.peerDeviceId

structure IdsOf (l d : Id) (r : SessionRecord Snap) : Prop where
  link : r.peerLinkId = l
  device : r.peerDeviceId = some d

/-- What a session write is: a step of the codec from the record's snapshot,
or the snapshot of an establishment over the record or under a new id. -/
inductive Writes (core : Core Snap) (a : Dev Snap) (o i : Id) (r : SessionRecord Snap) : Prop
  | advance {l d : Id} {r₀ : SessionRecord Snap} : a.site = .known o l d i r₀ → SameIds r₀ r →
      a.seen.codec = some (r₀.ratchetSnapshot, r.ratchetSnapshot) →
      Relation.ReflGen (Adv core) r₀.ratchetSnapshot r.ratchetSnapshot → Writes core a o i r
  | replace {l d : Id} {r₀ : SessionRecord Snap} : a.site = .known o l d i r₀ → IdsOf l d r →
      a.seen.codec = none → a.x3dh = some r.ratchetSnapshot → Writes core a o i r
  | create {l d : Id} : a.site = .fresh o l d i → IdsOf l d r →
      a.seen.codec = none → a.x3dh = some r.ratchetSnapshot → Writes core a o i r

def monitor (core : Core Snap) : Monitor (sdk Snap) (Dev Snap) where
  next a x := ⟨watch a.seen x, lockNext a.phase x, siteNext a.phase a.site x, x3dhNext a.x3dh x⟩
  may a
    | .set (.session o i) r => Writes core a o i r ∧ r.localAccountId = o ∧ r.sessionId = i
    | .set (.sessionByDevice o l d) i =>
      ∃ l' d' r, a.site = .known o l' d' i r ∧ r.peerLinkId = l ∧ r.peerDeviceId = some d
    | .delete (.session ..) => False
    | .delete (.sessionByDevice ..) => False
    | o => lockMay a.phase o

/-- A stored session record lies under its own ids. -/
def Keyed : Proc.Exch (sdk Snap) → Prop
  | ⟨.get (.session o i), .ok (some r)⟩ => r.localAccountId = o ∧ r.sessionId = i
  | _ => True

def Law (core : Core Snap) (x : Proc.Exch (sdk Snap)) : Prop := Lawful core x ∧ Keyed x

variable {core : Core Snap} {α : Type} {a : Dev Snap}

/-! ## The store operations under the lock -/

theorem next_index {o l d : Id} {found : Option Id} (hin : Inside a.phase o l d) :
    (monitor core).next a ⟨.get (.sessionByDevice o l d), .ok found⟩ =
      { a with site := .indexed o l d found } := by
  simp only [monitor, siteNext, if_pos hin]
  rfl

theorem next_read {o l d i : Id} {r : SessionRecord Snap} :
    (monitor core).next { a with site := .indexed o l d (some i) }
      ⟨.get (.session o i), .ok (some r)⟩ =
      { a with site := .known o l d i r } := by
  simp only [monitor, siteNext, Site.read, and_self, if_true]
  rfl

theorem obeys_byDevice {o l d : Id} {Q : Dev Snap → Except Err (Option (SessionRecord Snap)) → Prop}
    (hin : Inside a.phase o l d)
    (hsome : ∀ i r, r.localAccountId = o → r.sessionId = i →
      Q { a with site := .known o l d i r } (.ok (some r)))
    (hnone : ∀ found, Q { a with site := .indexed o l d found } (.ok none))
    (herr : ∀ site e, Q { a with site := site } (.error e)) :
    Obeys (monitor core) (Law core) Q a (Sessions.getByPeerLinkAndDevice o l d) := by
  refine obeys_js_bind ⟨trivial, fun x _ => ?_⟩
  match x with
  | .error e => exact herr a.site e
  | .ok none =>
    rw [next_index hin]
    exact hnone none
  | .ok (some i) =>
    rw [next_index hin]
    refine ⟨trivial, fun y hy => ?_⟩
    match y with
    | .error e => exact herr _ e
    | .ok none => exact hnone (some i)
    | .ok (some r) =>
      rw [next_read]
      exact hsome i r hy.2.1 hy.2.2

theorem obeys_setIndex {o l d i : Id} {r : SessionRecord Snap}
    {Q : Dev Snap → Except Err Unit → Prop} (hs : a.site = .known o l d i r)
    {r' : SessionRecord Snap} (ho : r'.localAccountId = o) (hi : r'.sessionId = i)
    (hid : SameIds r r') (hq : ∀ x, Q a x) :
    Obeys (monitor core) (Law core) Q a (Sessions.setIndex r') := by
  unfold Sessions.setIndex
  split
  · rename_i device hd
    subst ho hi
    exact ⟨⟨l, d, r, hs, hid.link.symm, hid.device.symm.trans hd⟩, fun x _ => hq x⟩
  · exact ⟨trivial, fun x _ => hq x⟩

theorem site_wrote {o i : Id} {r : SessionRecord Snap} (h : Writes core a o i r) :
    ∃ l d, a.site.wrote o i r = .known o l d i r := by
  cases h with
  | @advance l d _ hs | @replace l d _ hs | @create l d hs =>
    rw [hs]
    exact ⟨l, d, by simp only [Site.wrote, and_self, if_true]⟩

theorem obeys_put {r : SessionRecord Snap} {Q : Dev Snap → Except Err (SessionRecord Snap) → Prop}
    (hw : ∀ v, Writes core a r.localAccountId r.sessionId { r with version := v })
    (hok : ∀ a' v, a'.phase = a.phase → v.sessionId = r.sessionId →
      a'.seen = { a.seen with puts := ((r.localAccountId, r.sessionId),
        a.seen.base r.ratchetSnapshot, r.ratchetSnapshot) :: a.seen.puts } → Q a' (.ok v))
    (herr : ∀ a' e, a'.phase = a.phase → Q a' (.error e)) :
    Obeys (monitor core) (Law core) Q a (Sessions.put r) := by
  -- the read of the existing record may change the site only when nothing is known yet
  have hread : ∀ x : Except Err (Option (SessionRecord Snap)),
      siteNext a.phase a.site ⟨.get (.session r.localAccountId r.sessionId), x⟩ = a.site := by
    intro x
    match x with
    | .error _ => rfl
    | .ok none => rfl
    | .ok (some r') =>
      cases hw 0 with
      | advance hs | replace hs | create hs => simp only [siteNext, hs, Site.read]
  refine ⟨trivial, fun x _ => ?_⟩
  have hself : (monitor core).next a ⟨.get (.session r.localAccountId r.sessionId), x⟩ = a := by
    simp only [monitor, hread]
    rfl
  rw [hself]
  match x with
  | .error e => exact herr a e rfl
  | .ok existing =>
    refine ⟨⟨hw _, rfl, rfl⟩, fun y _ => ?_⟩
    match y with
    | .error e => exact herr _ e rfl
    | .ok u =>
      obtain ⟨l, d, hsite⟩ := site_wrote (hw (Sessions.putVersion existing r).version)
      refine obeys_js_bind (obeys_setIndex (r := Sessions.putVersion existing r) hsite rfl rfl
        ⟨rfl, rfl⟩ fun z => ?_)
      match z with
      | .error e => exact herr _ e rfl
      | .ok _ => exact hok _ _ rfl rfl rfl

theorem obeys_withLock {k : LockKey} {body : Sdk Snap α} {Q : Dev Snap → Except Err α → Prop}
    (ha : a.phase = .out)
    (h : ∀ pid, Obeys (monitor core) (Law core) (fun a' x => a'.phase = .held k pid ∧
      Q { a' with phase := .out, site := .unknown } x) { a with phase := .held k pid } body) :
    Obeys (monitor core) (Law core) Q a (withLock k body) :=
  ⟨ha, fun ticket _ => ⟨rfl, fun _ _ => obeys_bind ((h ticket.2).mono fun _ _ hx =>
    ⟨hx.1, fun _ _ => hx.2⟩)⟩⟩

/-! ## The calls -/

def watched : List OpClass :=
  [.codec, .x3dh, .get .session, .get .sessionByDevice, .set .session, .set .sessionByDevice,
    .delete .session, .delete .sessionByDevice, .newId, .lock]

theorem watches (core : Core Snap) : Watches (monitor core) watched := by
  intro o ho _ a
  cases o with
  | get k => cases k <;> first | exact ⟨trivial, fun _ => rfl⟩ | cases ho
  | set k v => cases k <;> first | exact ⟨trivial, fun _ => rfl⟩ | cases ho
  | delete k => cases k <;> first | exact ⟨trivial, fun _ => rfl⟩ | cases ho
  | core q => cases q <;> first | exact ⟨trivial, fun _ => rfl⟩ | cases ho
  | chain _ | enter _ _ _ | release _ _ | runtimeUuid | stableId _ => cases ho
  | _ => exact ⟨trivial, fun _ => rfl⟩

theorem obeys_seal {Q : Dev Snap → Except Err α → Prop} {b : Snap} {peer : Id}
    {m : Bytes} {f : Bytes × Snap → Sdk Snap α} (he : ∀ e, Q a (.error e))
    (hf : ∀ pkt s, Adv core b s →
        Obeys (monitor core) (Law core) Q
          { a with seen := { a.seen with codec := some (b, s), seals := b :: a.seen.seals } }
          (f (pkt, s))) :
    Obeys (monitor core) (Law core) Q a
      (callCore (.encryptForPeer b peer m) >>= f : Sdk Snap α) := by
  refine obeys_js_bind ⟨trivial, fun x hx => ?_⟩
  obtain ⟨n, hn⟩ := hx.1
  cases x with
  | error e => exact he e
  | ok v => exact hf v.1 v.2 (.sealed hn.symm)

theorem obeys_open {Q : Dev Snap → Except Err α → Prop} {b : Snap} {pkt : Bytes}
    {f : Opened × Snap → Sdk Snap α} (he : ∀ e, Q a (.error e))
    (hf : ∀ o s, (o.opened = true → Adv core b s) → Obeys (monitor core) (Law core) Q
      { a with seen := { a.seen with codec := some (b, s) } } (f (o, s))) :
    Obeys (monitor core) (Law core) Q a (callCore (.decryptIncoming b pkt) >>= f : Sdk Snap α) := by
  refine obeys_js_bind ⟨trivial, fun x hx => ?_⟩
  obtain ⟨n, hn⟩ := hx.1
  cases x with
  | error e => exact he e
  | ok v => exact hf v.1 v.2 fun ho => .opened hn.symm ho

/-- Sealing under the lock: the packet's snapshot is stored. -/
theorem obeys_encryptLocked {o l d peer : Id} {m : Bytes} {pid : Nat}
    (ha : a.phase = .held (deviceLock o l d) pid) (hs : a.seen = .start) :
    Obeys (monitor core) (Law core)
      (fun a' x => a'.phase = a.phase ∧ ∀ r, x = .ok r → Sealed core o r.2 a'.seen) a
      (encryptLocked o peer l d m) := by
  refine obeys_js_bind (obeys_js_bind (obeys_byDevice ⟨pid, ha⟩ ?_
    (fun _ => ⟨rfl, fun _ h => by cases h⟩) fun _ _ => ⟨rfl, fun _ h => by cases h⟩))
  intro i record ho hi
  refine obeys_seal (fun _ => ⟨rfl, fun _ h => by cases h⟩) fun pkt s hadv => ?_
  refine (watches core).skip_bind (foot_clock (l := [.clock]) rfl) rfl
    (fun _ => ⟨rfl, fun _ h => by cases h⟩) fun now => ?_
  subst ho hi
  refine obeys_js_bind (obeys_put (fun v => .advance rfl ⟨rfl, rfl⟩ rfl (.single hadv)) ?_
    fun a' _ hp => ⟨hp, fun _ h => by cases h⟩)
  intro a' v hp _ hseen
  refine ⟨hp, fun r h => ?_⟩
  cases h
  rw [hseen]
  exact ⟨_, s, rfl, by rw [hs]; rfl, hadv, .head _⟩

theorem obeys_encrypt {o peer l d : Id} {m : Bytes} :
    Obeys (monitor core) (Law core) (fun a x => ∀ r, x = .ok r → Sealed core o r.2 a.seen) .start
      (encryptForDevice o peer l d m) := by
  refine (watches core).skip_bind (l := []) foot_ensure rfl (fun _ _ h => by cases h) fun _ => ?_
  exact obeys_withLock rfl fun pid => (obeys_encryptLocked rfl rfl).mono fun a' x hx => hx

theorem opened_of_isFrom {expected : Id} {r : Opened} (h : isFrom expected r = true) :
    r.opened = true := by
  simp only [isFrom, Bool.and_eq_true, decide_eq_true_eq] at h
  simp only [Opened.opened, h.1.1, h.2, Option.isSome_some, Bool.and_self]

/-- Opening under the lock. -/
theorem obeys_decryptLocked {o l d : Id} {peer : Option Id} {pkt : Bytes} {require : Bool}
    {pid : Nat} (ha : a.phase = .held (deviceLock o l d) pid) :
    Obeys (monitor core) (Law core)
      (fun a' x => a'.phase = a.phase ∧ ∀ r, x = .ok (some r) → Kept core o r.2 a'.seen) a
      (decryptLocked o peer l d pkt require) := by
  refine obeys_js_bind (obeys_byDevice ⟨pid, ha⟩ ?_ (fun _ => ?_) fun _ _ =>
    ⟨rfl, fun _ h => by cases h⟩)
  · intro i record ho hi
    refine obeys_js_bind
      (obeys_js_bind (obeys_ensure (fun _ => ?_) fun _ => ⟨rfl, fun _ h => by cases h⟩))
    refine obeys_open (fun _ => ⟨rfl, fun _ h => by cases h⟩) fun opened s hadv => ?_
    dsimp only
    split
    · rename_i hfrom
      have hadv := hadv (opened_of_isFrom hfrom)
      refine (watches core).skip_bind (foot_clock (l := [.clock]) rfl) rfl
        (fun _ => ⟨rfl, fun _ h => by cases h⟩) fun now => ?_
      subst ho hi
      refine obeys_js_bind (obeys_put (fun v => .advance rfl ⟨rfl, rfl⟩ rfl (.single hadv)) ?_
        fun a' _ hp => ⟨hp, fun _ h => by cases h⟩)
      intro a' v hp _ hseen
      refine ⟨hp, fun r h => ?_⟩
      cases h
      rw [hseen]
      exact ⟨_, s, rfl, hadv, .head _⟩
    · exact ⟨rfl, fun _ h => by cases h⟩
  · cases require <;> exact ⟨rfl, fun _ h => by cases h⟩

theorem obeys_attempt {o l d : Id} {peer : Option Id} {pkt : Bytes} {require : Bool}
    (ha : a.phase = .out) :
    Obeys (monitor core) (Law core) (fun a' x =>
          a'.phase = .out ∧ a'.site = .unknown ∧ ∀ r, x = .ok (some r) → Kept core o r.2 a'.seen) a
      (attemptDeviceDecrypt o peer l d pkt require) :=
  obeys_withLock ha fun _ => (obeys_decryptLocked rfl).mono fun _ _ hx => ⟨hx.1, rfl, rfl, hx.2⟩

theorem obeys_decrypt {o l d : Id} {peer : Option Id} {pkt : Bytes} :
    Obeys (monitor core) (Law core) (fun a x => ∀ r, x = .ok r → Kept core o r.2 a.seen) .start
      (decryptFromDevice o peer l d pkt) := by
  refine obeys_js_bind ((obeys_attempt rfl).mono fun a x hx => ?_)
  match x with
  | .error e => exact fun _ h => by cases h
  | .ok none => exact fun _ h => by cases h
  | .ok (some r) => exact fun r' h => by cases h; exact hx.2.2 r rfl

theorem obeys_trialLoop {o l : Id} {peer : Option Id} {pkt : Bytes} :
    ∀ {rows : List (SessionRecord Snap)} {a : Dev Snap}, a.phase = .out →
      Obeys (monitor core) (Law core) (fun a x => ∀ r, x = .ok (some r) → Kept core o r.2.2 a.seen)
        a (trialLoop o peer l pkt rows)
  | [], _, _ => fun _ h => by cases h
  | record :: rest, a, ha => by
    unfold trialLoop
    split
    · exact obeys_trialLoop ha
    · refine obeys_js_bind ((obeys_attempt ha).mono fun a' x hx => ?_)
      match x with
      | .error e => exact fun _ h => by cases h
      | .ok none => exact obeys_trialLoop hx.1
      | .ok (some r) => exact fun r' h => by cases h; exact hx.2.2 r rfl

/-- Reads outside any lock teach the call nothing. -/
theorem obeys_reads {p : Proc (sdk Snap) α} {Q : Dev Snap → α → Prop} (hp : Foot reads p)
    (ha : a.phase = .out) (hs : a.site = .unknown) (hq : ∀ x, Q a x) :
    Obeys (monitor core) (Law core) Q a p := by
  refine obeys_still (Proc.All.mono (fun o ho => ?_) hp) hq
  have hget : ∀ (k : Key) (r : (Op.get k : Op Snap).Ans), siteNext a.phase a.site ⟨.get k,
      r⟩ = a.site := by
    intro k r
    rw [ha, hs]
    cases k with
    | session o i =>
      match r with
      | .error _ => rfl
      | .ok none => rfl
      | .ok (some _) => rfl
    | sessionByDevice o l d =>
      match r with
      | .error _ => rfl
      | .ok _ =>
        have hout : ¬ Inside .out o l d := by rintro ⟨_, h⟩; cases h
        simp only [siteNext, if_neg hout]
    | _ => rfl
  cases o with
  | get k =>
    refine ⟨trivial, fun r => ?_⟩
    simp only [monitor, hget]
    rfl
  | keys p => exact ⟨trivial, fun _ => rfl⟩
  | core q => cases q <;> cases ho.1
  | _ => cases ho.1

theorem obeys_trial {svc : Service Snap} {o l : Id} {peer : Option Id} {pkt : Bytes} :
    Obeys (monitor core) (Law core)
      (fun a x => ∀ r, x = .ok (some r) → Kept core o r.2.2 a.seen) .start
      (trialDecryptAcrossDevices svc o peer l pkt) := by
  refine obeys_js_bind (obeys_reads foot_listSessions rfl rfl fun x => ?_)
  cases x with
  | error e => exact fun _ h => by cases h
  | ok rows => exact obeys_trialLoop rfl

/-! ## Establishment -/

/-- Writing the snapshot of an establishment under the lock. -/
theorem obeys_persist {o l d peer : Id} {s : Snap} {pid : Nat}
    (ha : a.phase = .held (deviceLock o l d) pid) (hc : a.seen.codec = none)
    (hx : a.x3dh = some s) :
    Obeys (monitor core) (Law core) (fun a' _ => a'.phase = a.phase) a
      (persistDeviceSession o peer l d s) := by
  refine (watches core).skip_bind (foot_clock (l := [.clock]) rfl) rfl (fun _ => rfl) fun now => ?_
  refine obeys_js_bind
    (obeys_byDevice ⟨pid, ha⟩ (fun i record ho hi => ?_) (fun found => ?_) fun _ _ => rfl)
  · subst hi
    refine obeys_js_bind (show Goes _ _ _ _ _ (.ok record.sessionId) from ?_)
    exact obeys_js_bind (obeys_put (fun v => .replace rfl ⟨rfl, rfl⟩ hc hx) (fun _ _ hp _ _ => hp)
      fun _ _ hp => hp)
  · refine obeys_js_bind ⟨trivial, fun i _ => ?_⟩
    exact obeys_js_bind (obeys_put (fun v => .create rfl ⟨rfl, rfl⟩ hc hx) (fun _ _ hp _ _ => hp)
      fun _ _ hp => hp)

theorem obeys_establish {o l d peer : Id} {s : Snap} {f : Id → Sdk Snap α}
    (ha : a.phase = .out) (hc : a.seen.codec = none) (hx : a.x3dh = some s)
    (hf : ∀ a' i, Obeys (monitor core) (Law core) (fun _ _ => True) a' (f i)) :
    Obeys (monitor core) (Law core) (fun _ _ => True) a
      (withLock (deviceLock o l d) (persistDeviceSession o peer l d s) >>= f : Sdk Snap α) := by
  refine obeys_js_bind (obeys_withLock ha fun pid =>
    (obeys_persist (a := { a with phase := .held (deviceLock o l d) pid }) rfl hc hx).mono
      fun a' x h => ⟨h, ?_⟩)
  cases x with
  | error e => trivial
  | ok i => exact hf _ i

theorem obeys_initiate {svc : Service Snap} {args : InitiatorArgs} :
    Obeys (monitor core) (Law core) (fun _ _ => True) .start
      (establishInitiatorDeviceSession svc args) := by
  refine (watches core).skip_bind (foot_core (l := [.crypto]) rfl) rfl (fun _ => trivial) fun sig =>
    ?_
  refine obeys_js_bind ⟨trivial, fun x _ => ?_⟩
  cases x with
  | error e => trivial
  | ok v => exact obeys_establish rfl rfl rfl fun _ _ => trivial

theorem obeys_respond {svc : Service Snap} {args : ResponderArgs} :
    Obeys (monitor core) (Law core) (fun _ _ => True) .start
      (establishResponderDeviceSession svc args) := by
  refine obeys_js_bind ⟨trivial, fun x _ => ?_⟩
  cases x with
  | error e => trivial
  | ok v =>
    refine (watches core).skip_bind (l := []) foot_orThrow rfl (fun _ => trivial) fun key => ?_
    refine (watches core).skip_bind (l := []) foot_ensure rfl (fun _ => trivial) fun _ => ?_
    exact obeys_establish rfl rfl rfl fun _ _ => trivial

end RezSdk.L4.DeviceRatchet
