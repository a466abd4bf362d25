import RezSdk.L4Runs.DeviceRatchet

/-!
# One session record for each device

`#persistDeviceSession` looks the device's session up through its index and
stores the new ratchet under the id it finds, or under a new id. The record
and the index are two writes of `sessions.put`. When the first one lands and
the second one does not, the record stays behind unnamed, and the next
establishment draws another id (`two_records`).

The lock of the device keeps everything else out, so this is the only way: as
long as a new record's index entry is written with it, no device ever has two
records (`one_record`).
-/
namespace RezSdk.L4.DeviceRecords

open RezSdk.L1 RezSdk.L2 RezSdk.L3 RezSdk.L4.DeviceRatchet

variable {Snap : Type}

/-- Two session records of one owner, link and device are the same. -/
def OneRecord (kv : Store Snap) : Prop :=
  ∀ o i i' r r' d, kv.lookup (.session o i) = some r → kv.lookup (.session o i') = some r' →
    r.peerLinkId = r'.peerLinkId → r.peerDeviceId = some d → r'.peerDeviceId = some d → i = i'

/-- Every session record of a device is the one its index names. -/
def Named (kv : Store Snap) : Prop :=
  ∀ o l d i r, kv.lookup (.session o i) = some r → IdsOf l d r →
  kv.lookup (.sessionByDevice o l d) = some i

/-! ## The runs -/

def Start (m : Mem Snap) : Prop :=
  m.locks = PromiseLock.empty ∧ WellIndexed m.kv ∧ Used m ∧ Named m.kv

/-- Any number of the five calls, with any storage faults. -/
def anyFaults : Rules Snap where
  init := Start
  may _ c := isDevice c = true
  ok _ _ := True

/-- A record that is stored under a new id is not reported as failed once it
has landed, and the index entry of a session it does not name yet is written
without a failure. -/
def Indexing (s : State Snap) (e : Ev Snap) : Prop :=
  match e.op with
  | .set (.session o i) _ => s.mem.kv.lookup (.session o i) = none → ∀ f, e.fate ≠ .landFail f
  | .set (.sessionByDevice o l d) i =>
    s.mem.kv.lookup (.sessionByDevice o l d) = some i ∨ ∀ f, e.fate ≠ .fail f
  | _ => True

def indexing : Rules Snap where
  init := Start
  may _ c := isDevice c = true
  ok := Indexing

/-! ## One call -/

inductive Mark
  | idle
  /-- the device's session was looked up and there is none -/
  | missed
  /-- a new record is stored and its index entry is not written yet -/
  | owed
deriving DecidableEq

def mark (a : Dev Snap) (b : Mark) : Proc.Exch (sdk Snap) → Mark
  | ⟨.get (.sessionByDevice o l d), .ok found⟩ =>
    if Inside a.phase o l d then if found.isNone then .missed else .idle else b
  | ⟨.get (.session o i), .ok none⟩ =>
    match a.site with
    | .indexed o' _ _ (some i') => if o' = o ∧ i' = i then .missed else b
    | _ => b
  | ⟨.set (.session ..) _, .ok _⟩ =>
    match a.site with
    | .fresh .. => .owed
    | _ => .idle
  | ⟨.set (.session ..) _, .error _⟩ => .idle
  | ⟨.set (.sessionByDevice ..) _, _⟩ => .idle
  | _ => b

/-- A new id is only drawn when the lookup has found nothing, and a new record
is followed by its index entry. -/
def marks (core : Core Snap) : Monitor (sdk Snap) (Dev Snap × Mark) where
  next a x := ((monitor core).next a.1 x, mark a.1 a.2 x)
  may a op :=
    match a.2, op with
    | .owed, op => ∃ o l d i r, op = .set (.sessionByDevice o l d) i ∧ a.1.site = .known o l d i r
    | .missed, _ => True
    | .idle, .runtimeUuid => False
    | .idle, _ => True

variable {core : Core Snap} {α : Type}

/-- What sealing and opening use. They draw no id. -/
def traffic : List OpClass := .codec :: .clock :: .lock :: .set .session :: .set .sessionByLink ::
  .set .sessionByDevice :: L3.reads

theorem foot_withLock {k : LockKey} {body : Sdk Snap α} (h : Foot traffic body) :
    Foot traffic (withLock k body) :=
  ⟨⟨rfl, trivial⟩,
  fun _ => ⟨⟨rfl, trivial⟩, fun _ => Proc.all_bind h fun _ => ⟨⟨rfl, trivial⟩, fun _ => trivial⟩⟩⟩

theorem foot_encrypt {o peer l d : Id} {m : Bytes} :
    Foot traffic (encryptForDevice o peer l d m : Sdk Snap _) := by
  refine foot_bind foot_ensure fun _ => foot_withLock ?_
  refine foot_bind (foot_bind (foot_byDevice.mono (by decide)) fun _ => foot_orThrow) fun record =>
    ?_
  refine foot_bind (foot_core rfl) fun sealed => foot_bind (foot_clock rfl) fun now => ?_
  exact foot_bind (foot_put.mono (by decide)) fun _ => foot_pure

theorem foot_attemptDecrypt {o l d : Id} {peer : Option Id} {pkt : Bytes} {require : Bool} :
    Foot traffic (attemptDeviceDecrypt o peer l d pkt require : Sdk Snap _) := by
  refine foot_withLock (foot_bind (foot_byDevice.mono (by decide)) fun found => ?_)
  cases found with
  | none => cases require <;> first | exact foot_throw | exact foot_pure
  | some record =>
    refine foot_bind (foot_bind foot_ensure fun _ => foot_bind (foot_core rfl) fun opened =>
      ?_) fun _ => foot_pure
    dsimp only
    split
    · exact foot_bind (foot_clock rfl) fun _ => foot_bind (foot_put.mono (by decide)) fun _ =>
        foot_pure
    · exact foot_pure

theorem foot_trialLoop {o l : Id} {peer : Option Id} {pkt : Bytes} :
    ∀ {rows : List (SessionRecord Snap)}, Foot traffic (trialLoop o peer l pkt rows)
  | [] => foot_pure
  | record :: rest => by
    unfold trialLoop
    split
    · exact foot_trialLoop
    · refine foot_bind foot_attemptDecrypt fun result => ?_
      cases result with
      | none => exact foot_trialLoop
      | some r => exact foot_pure

/-- No id is drawn and no index entry is owed. -/
def Calm (a : Dev Snap × Mark) : Prop := a.2 ≠ .owed ∧ ∀ o l d i, a.1.site ≠ .fresh o l d i

/-- Only a write over a drawn id makes an index entry owed. -/
theorem mark_owed {a : Dev Snap} {b : Mark} {x : Proc.Exch (sdk Snap)} (h : mark a b x = .owed) :
    b = .owed ∨
    ∃ o i r o' l d i', x = ⟨.set (.session o i) r, .ok ()⟩ ∧ a.site = .fresh o' l d i' := by
  unfold mark at h
  split at h
  · split at h
    · split at h <;> cases h
    · exact .inl h
  · split at h
    · split at h
      · cases h
      · exact .inl h
    · exact .inl h
  · split at h
    · rename_i hsite
      exact .inr ⟨_, _, _, _, _, _, _, rfl, hsite⟩
    · cases h
  · cases h
  · cases h
  · exact .inl h

theorem calm_next {a : Dev Snap × Mark} {op : Op Snap} {r : op.Ans} (h : Calm a)
    (hop : classOf op ≠ .newId) : Calm ((marks core).next a ⟨op, r⟩) := by
  refine ⟨fun howed => ?_, fun o l d i hfresh => ?_⟩
  · rcases mark_owed howed with hb | ⟨_, _, _, _, _, _, _, -, hsite⟩
    · exact h.1 hb
    · exact h.2 _ _ _ _ hsite
  · rcases siteNext_fresh (show siteNext a.1.phase a.1.site ⟨op,
      r⟩ = .fresh o l d i from hfresh) with hsite | hx
    · exact h.2 o l d i hsite
    · cases hx
      exact hop rfl

theorem may_calm {a : Dev Snap × Mark} {op : Op Snap} (h : Calm a) (hop : classOf op ≠ .newId) :
    (marks core).may a op := by
  obtain ⟨dev, m⟩ := a
  cases m with
  | owed => exact absurd rfl h.1
  | missed => trivial
  | idle =>
    cases op with
    | runtimeUuid => exact absurd rfl hop
    | _ => trivial

theorem obeys_calm {p : Proc (sdk Snap) α} {l : List OpClass} (hl : l.contains .newId = false) :
    ∀ {a : Dev Snap × Mark}, Foot l p → Calm a →
      Obeys (marks core) (fun _ => True) (fun a _ => Calm a) a p := by
  induction p with
  | ret x => exact fun _ h => h
  | ask op k ih =>
    intro a hp h
    have hop : classOf op ≠ .newId := by
      intro heq
      have hin := hp.1.1
      rw [heq, hl] at hin
      cases hin
    exact ⟨may_calm h hop, fun r _ => ih r (hp.2 r) (calm_next h hop)⟩

section

variable {dev : Dev Snap} {b : Mark} {o l d i : Id}

theorem next_eq {x : Proc.Exch (sdk Snap)} {dev' : Dev Snap} {b' : Mark}
    (hdev : (monitor core).next dev x = dev') (hmark : mark dev b x = b') :
    (marks core).next (dev, b) x = (dev', b') := by
  rw [← hdev, ← hmark]
  rfl

theorem next_missed (hin : Inside dev.phase o l d) :
    (marks core).next (dev, b) ⟨.get (.sessionByDevice o l d), .ok none⟩ =
      ({ dev with site := .indexed o l d none }, .missed) := by
  refine next_eq (next_index hin) ?_
  change (if Inside dev.phase o l d then Mark.missed else b) = _
  rw [if_pos hin]

theorem next_named (hin : Inside dev.phase o l d) :
    (marks core).next (dev, b) ⟨.get (.sessionByDevice o l d), .ok (some i)⟩ =
      ({ dev with site := .indexed o l d (some i) }, .idle) := by
  refine next_eq (next_index hin) ?_
  change (if Inside dev.phase o l d then Mark.idle else b) = _
  rw [if_pos hin]

theorem next_gone :
    (marks core).next ({ dev with site := .indexed o l d (some i) }, b)
      ⟨.get (.session o i), .ok none⟩ =
      ({ dev with site := .indexed o l d (some i) }, .missed) := by
  refine next_eq rfl ?_
  change (if o = o ∧ i = i then Mark.missed else b) = _
  rw [if_pos ⟨rfl, rfl⟩]

/-- A record under a drawn id is stored with its index entry. -/
theorem obeys_create {r : SessionRecord Snap}
    (hsite : dev.site = .fresh r.localAccountId l d r.sessionId) (hl : r.peerLinkId = l)
    (hd : r.peerDeviceId = some d) :
    Obeys (marks core) (fun _ => True) (fun a _ => a.2 ≠ .owed) (dev, .missed)
      (Sessions.put r) := by
  have hself : ∀ x, (marks core).next (dev, .missed) ⟨.get (.session r.localAccountId r.sessionId),
      x⟩ =
      (dev, .missed) := by
    intro x
    have hread : siteNext dev.phase dev.site ⟨.get (.session r.localAccountId r.sessionId),
        x⟩ = dev.site := by
      rcases x with e | _ | found
      · rfl
      · rfl
      · simp only [siteNext, hsite, Site.read]
    refine next_eq ?_ ?_
    · simp only [monitor, hread]
      rfl
    · rcases x with e | _ | found
      · rfl
      · simp only [mark, hsite]
      · rfl
  refine obeys_js_bind ⟨trivial, fun existing _ => ?_⟩
  rw [hself]
  rcases existing with e | existing
  · exact fun h => by cases h
  · refine obeys_js_bind ⟨trivial, fun written _ => ?_⟩
    rcases written with e | u
    · exact fun h => by cases h
    · have howed : (marks core).next (dev, .missed)
          ⟨.set (.session r.localAccountId r.sessionId) (Sessions.putVersion existing r), .ok ()⟩ =
          ((monitor core).next dev
            ⟨.set (.session r.localAccountId r.sessionId) (Sessions.putVersion existing r), .ok ()⟩,
            .owed) := by
        refine next_eq rfl ?_
        simp only [mark, hsite]
      have hknown : ((monitor core).next dev
          ⟨.set (.session r.localAccountId r.sessionId) (Sessions.putVersion existing r),
          .ok ()⟩).site =
          .known r.localAccountId l d r.sessionId (Sessions.putVersion existing r) := by
        change dev.site.wrote _ _ _ = _
        simp only [hsite, Site.wrote, and_self, if_true]
      rw [howed]
      have hindex :
          Sessions.setIndex r = kvSet (.sessionByDevice r.localAccountId l d) r.sessionId := by
        unfold Sessions.setIndex
        rw [hd, ← hl]
      rw [hindex]
      refine obeys_js_bind ⟨⟨_, _, _, _, _, rfl, hknown⟩, fun last _ => ?_⟩
      rcases last with e | u
      · exact fun h => by cases h
      · exact fun h => by cases h

theorem obeys_persist {peer : Id} {snap : Snap} {pid : Nat}
    (ha : dev.phase = .held (deviceLock o l d) pid) (hcalm : Calm (dev, b)) :
    Obeys (marks core) (fun _ => True) (fun a _ => a.2 ≠ .owed) (dev, b)
      (persistDeviceSession o peer l d snap) := by
  have hin : Inside dev.phase o l d := ⟨pid, ha⟩
  refine obeys_js_bind ⟨may_calm hcalm nofun, fun now _ => ?_⟩
  refine obeys_js_bind (obeys_js_bind ⟨may_calm hcalm nofun, fun found _ => ?_⟩)
  match found with
  | .error e => exact hcalm.1
  | .ok none =>
    change Goes _ _ _ _ ((marks core).next (dev, b) _) _
    rw [next_missed hin]
    exact obeys_js_bind ⟨trivial,
      fun i _ => obeys_js_bind ((obeys_create rfl rfl rfl).mono fun a x hx => by
      cases x <;> exact hx)⟩
  | .ok (some i) =>
    change Obeys _ _ _ ((marks core).next (dev, b) _) _
    rw [next_named hin]
    refine ⟨trivial, fun stored _ => ?_⟩
    match stored with
    | .error e => exact nofun
    | .ok none =>
      rw [next_gone]
      exact obeys_js_bind ⟨trivial,
        fun i _ => obeys_js_bind ((obeys_create rfl rfl rfl).mono fun a x hx => by
        cases x <;> exact hx)⟩
    | .ok (some r) =>
      have hcalm' : Calm ((marks core).next ({ dev with site := .indexed o l d (some i) }, .idle)
          ⟨.get (.session o i), .ok (some r)⟩) := calm_next ⟨nofun, nofun⟩ nofun
      refine obeys_js_bind (show Goes _ _ _ _ _ (.ok r.sessionId) from ?_)
      refine obeys_js_bind ((obeys_calm rfl foot_put hcalm').mono fun a x hx => ?_)
      cases x <;> exact hx.1

/-- Leaving the lock forgets what was drawn inside. -/
theorem calm_release {a : Dev Snap × Mark} {k : LockKey} {pid : Nat} (h : a.2 ≠ .owed) :
    Calm ((marks core).next a ⟨.release k pid, ()⟩) :=
  ⟨h, nofun⟩

theorem may_release {a : Dev Snap × Mark} {k : LockKey} {pid : Nat} (h : a.2 ≠ .owed) :
    (marks core).may a (.release k pid) := by
  obtain ⟨dev, m⟩ := a
  cases m with
  | owed => exact absurd rfl h
  | missed => trivial
  | idle => trivial

theorem obeys_establish {a : Dev Snap × Mark} {peer : Id} {snap : Snap} {f : Id → Sdk Snap α}
    (h : Calm a) (hf : ∀ i, ∃ x, f i = .ret x) :
    Obeys (marks core) (fun _ => True) (fun a _ => Calm a) a
      (withLock (deviceLock o l d) (persistDeviceSession o peer l d snap) >>= f : Sdk Snap α) := by
  refine obeys_js_bind ⟨may_calm h nofun, fun ticket _ => ?_⟩
  have hqueued : Calm ((marks core).next a ⟨.chain (deviceLock o l d), ticket⟩) := calm_next h nofun
  refine ⟨may_calm hqueued nofun, fun _ _ => ?_⟩
  have hheld : Calm ((marks core).next ((marks core).next a ⟨.chain (deviceLock o l d), ticket⟩)
      ⟨.enter (deviceLock o l d) ticket.1 ticket.2, ()⟩) := calm_next hqueued nofun
  refine obeys_bind ((obeys_persist rfl hheld).mono fun a' x hx => ?_)
  refine ⟨may_release hx, fun _ _ => ?_⟩
  cases x with
  | error e => exact calm_release hx
  | ok i =>
    obtain ⟨y, hy⟩ := hf i
    change Obeys _ _ _ _ (f i)
    rw [hy]
    exact calm_release hx

theorem obeys_initiate {a : Dev Snap × Mark} {svc : Service Snap} {args : InitiatorArgs}
    (h : Calm a) :
    Obeys (marks core) (fun _ => True) (fun a _ => Calm a) a
      (establishInitiatorDeviceSession svc args) := by
  refine obeys_js_bind ((obeys_calm rfl (foot_core (l := [.crypto]) rfl) h).mono fun a' sig hsig =>
    ?_)
  cases sig with
  | error e => exact hsig
  | ok sig =>
    refine obeys_js_bind ((obeys_calm rfl (foot_core (l := [.x3dh]) rfl) hsig).mono fun a' v hv =>
      ?_)
    cases v with
    | error e => exact hv
    | ok v => exact obeys_establish hv fun i => ⟨_, rfl⟩

theorem obeys_respond {a : Dev Snap × Mark} {svc : Service Snap} {args : ResponderArgs}
    (h : Calm a) :
    Obeys (marks core) (fun _ => True) (fun a _ => Calm a) a
      (establishResponderDeviceSession svc args) := by
  refine obeys_js_bind ((obeys_calm rfl (foot_core (l := [.x3dh]) rfl) h).mono fun a' v hv => ?_)
  cases v with
  | error e => exact hv
  | ok v =>
    refine obeys_js_bind ((obeys_calm (l := []) rfl foot_orThrow hv).mono fun a' key hkey => ?_)
    cases key with
    | error e => exact hkey
    | ok key =>
      refine obeys_js_bind ((obeys_calm (l := []) rfl foot_ensure hkey).mono fun a' u hu => ?_)
      cases u with
      | error e => exact hu
      | ok u => exact obeys_establish hu fun i => ⟨_, rfl⟩

end

/-! ## All of them -/

def place (core : Core Snap) (t : Nat) (log : List (Ev Snap)) : Dev Snap × Mark :=
  Pool.mon (marks core) (Dev.start, .idle) t log

/-- The mark of call `t`. -/
def markAt (core : Core Snap) (t : Nat) (log : List (Ev Snap)) : Mark := (place core t log).2

theorem place_dev (core : Core Snap) (t : Nat) (log : List (Ev Snap)) :
    (place core t log).1 = dev core t log :=
  Pool.mon_map (M := marks core) (N := monitor core) Prod.fst (fun _ _ => rfl) (Dev.start,
    .idle) t log

theorem markAt_self {e : Ev Snap} {log : List (Ev Snap)} :
    markAt core e.tid (e :: log) = mark (dev core e.tid log) (markAt core e.tid log) e.exch := by
  rw [← place_dev]
  exact congrArg Prod.snd (Pool.mon_self (M := marks core))

theorem markAt_other {e : Ev Snap} {log : List (Ev Snap)} {t : Nat} (h : e.tid ≠ t) :
    markAt core t (e :: log) = markAt core t log :=
  congrArg Prod.snd (Pool.mon_other (M := marks core) h)

/-- Call `t` has stored record `i` of a device and still owes its index
entry. -/
def Owes (core : Core Snap) (log : List (Ev Snap)) (t : Nat) (o l d i : Id) : Prop :=
  markAt core t log = .owed ∧ ∃ r, (dev core t log).site = .known o l d i r

structure Inv (svc : Service Snap) (s : State Snap) : Prop where
  serial : Serial svc s
  conforms : System.Conforms (marks svc.core) (fun _ => True) (fun _ => (Dev.start, .idle))
    (fun _ _ _ => True) s
  missed : ∀ t o l d i, markAt svc.core t s.log = .missed →
    (dev svc.core t s.log).site = .indexed o l d (some i) →
    s.mem.kv.lookup (.session o i) = none
  fresh : ∀ t o l d i, (dev svc.core t s.log).site = .fresh o l d i →
    ∀ i' r, s.mem.kv.lookup (.session o i') = some r → ¬ IdsOf l d r
  owed : ∀ t o l d i, Owes svc.core s.log t o l d i →
    ∀ i' r, s.mem.kv.lookup (.session o i') = some r → IdsOf l d r → i' = i
  named : ∀ o l d i r, s.mem.kv.lookup (.session o i) = some r → IdsOf l d r →
    s.mem.kv.lookup (.sessionByDevice o l d) = some i ∨ ∃ t, Owes svc.core s.log t o l d i

theorem Inv.unique {svc : Service Snap} {s : State Snap} (h : Inv svc s) {o l d i i' : Id}
    {r r' : SessionRecord Snap} (hr : s.mem.kv.lookup (.session o i) = some r)
    (hr' : s.mem.kv.lookup (.session o i') = some r') (hid : IdsOf l d r) (hid' : IdsOf l d r') :
    i = i' := by
  rcases h.named o l d i r hr hid with hi | ⟨t, ht⟩
  · rcases h.named o l d i' r' hr' hid' with hi' | ⟨t', ht'⟩
    · exact Option.some.inj (hi.symm.trans hi')
    · exact h.owed t' o l d i' ht' i r hr hid
  · exact (h.owed t o l d i ht i' r' hr' hid').symm

theorem Inv.oneRecord {svc : Service Snap} {s : State Snap} (h : Inv svc s) :
    OneRecord s.mem.kv := by
  intro o i i' r r' d hr hr' hlink hd hd'
  exact h.unique hr hr' ⟨hlink, hd⟩ ⟨rfl, hd'⟩

theorem siteNext_indexed {p : Phase} {site : Site Snap} {x : Proc.Exch (sdk Snap)} {o l d i : Id}
    (h : siteNext p site x = .indexed o l d (some i)) :
    site = .indexed o l d (some i) ∨
    x = ⟨.get (.sessionByDevice o l d), .ok (some i)⟩ ∧ Inside p o l d := by
  unfold siteNext at h
  split at h
  · split at h
    · cases h
      exact .inr ⟨rfl, ‹_›⟩
    · exact .inl h
  · unfold Site.read at h
    split at h
    · split at h
      · cases h
      · exact .inl h
    · exact .inl h
  · unfold Site.draw at h
    split at h
    · cases h
    · exact .inl h
  · unfold Site.wrote at h
    split at h <;> first | cases h | (split at h <;> cases h)
  · cases h
  · cases h
  · exact .inl h

theorem mark_missed {a : Dev Snap} {b : Mark} {x : Proc.Exch (sdk Snap)} {o l d i : Id}
    (h : mark a b x = .missed) (hsite : siteNext a.phase a.site x = .indexed o l d (some i)) :
    b = .missed ∧ a.site = .indexed o l d (some i) ∨ x = ⟨.get (.session o i), .ok none⟩ := by
  rcases siteNext_indexed hsite with hs | ⟨rfl, hin⟩
  · unfold mark at h
    split at h
    · split at h
      · rename_i o' l' d' found hin
        rw [siteNext, if_pos hin] at hsite
        cases hsite
        cases h
      · exact .inl ⟨h, hs⟩
    · rw [hs] at h
      dsimp only at h
      split at h
      · rename_i heq
        obtain ⟨rfl, rfl⟩ := heq
        exact .inr rfl
      · exact .inl ⟨h, hs⟩
    · split at h <;> cases h
    · cases h
    · cases h
    · exact .inl ⟨h, hs⟩
  · simp [mark, if_pos hin] at h

namespace Inv

variable {svc : Service Snap} {s s' : State Snap} {e : Ev Snap} {c : Call}
  {next : (sdk Snap).Ans e.op → Proc (sdk Snap) (Except Err Reply)} {o l d i : Id}
  {r : SessionRecord Snap}

theorem owes_other {log : List (Ev Snap)} {t : Nat} (ht : e.tid ≠ t) :
    Owes svc.core (e :: log) t o l d i ↔ Owes svc.core log t o l d i := by
  unfold Owes
  rw [markAt_other ht, dev_other ht]

/-- A call that owes is inside the lock of its device. -/
theorem owes_inside (h : Inv svc s) {t : Nat} (ho : Owes svc.core s.log t o l d i) :
    Inside (phase t s.log) o l d := by
  obtain ⟨-, r, hr⟩ := ho
  have hsite := h.serial.sites t
  rw [hr] at hsite
  exact hsite.1

theorem fresh_inside (h : Inv svc s) {t : Nat} (hs : (dev svc.core t s.log).site = .fresh o l d i) :
    Inside (phase t s.log) o l d := by
  have hsite := h.serial.sites t
  rw [hs] at hsite
  exact hsite.1

variable [DecidableEq Snap]

theorem marked (h : Inv svc s) (hf : Pool.Fires (system svc) s e c next s') :
    (marks svc.core).may (dev svc.core e.tid s.log, markAt svc.core e.tid s.log) e.op := by
  have hmay := h.conforms.may hf
  rw [← place_dev]
  exact hmay

/-- A call that owes an index entry writes it next. -/
theorem pays (h : Inv svc s) (hf : Pool.Fires (system svc) s e c next s')
    (ho : Owes svc.core s.log e.tid o l d i) : e.op = .set (.sessionByDevice o l d) i := by
  have hmay := h.marked hf
  rw [ho.1] at hmay
  obtain ⟨o', l', d', i', r', hop, hsite⟩ := hmay
  obtain ⟨r, hr⟩ := ho.2
  rw [hr] at hsite
  cases hsite
  exact hop

/-- An index entry becomes owed by the write of a new record. -/
theorem owes_self (h : Inv svc s) (hf : Pool.Fires (system svc) s e c next s')
    (ho : Owes svc.core s'.log e.tid o l d i) :
    (∃ r, e.op = .set (.session o i) r ∧ e.fate.lands = true) ∧
    (dev svc.core e.tid s.log).site = .fresh o l d i := by
  obtain ⟨hmark, r, hr⟩ := ho
  rw [hf.log] at hmark hr
  rw [markAt_self] at hmark
  rw [dev_self] at hr
  rcases mark_owed hmark with hb | ⟨o', i', r', o'', l', d', i'', hx, hsite⟩
  · have hmay := h.marked hf
    rw [hb] at hmay
    obtain ⟨_, _, _, _, _, hop, -⟩ := hmay
    obtain ⟨t, op, ans, f⟩ := e
    cases hop
    cases hmark
  · have hwrote : (dev svc.core e.tid s.log).site.wrote o' i' r' = .known o l d i r := by
      rw [hx] at hr
      exact hr
    rw [hsite] at hwrote
    unfold Site.wrote at hwrote
    dsimp only at hwrote
    split at hwrote
    · rename_i heq
      obtain ⟨rfl, rfl⟩ := heq
      cases hwrote
      obtain ⟨t, op, ans, f⟩ := e
      cases hx
      exact ⟨⟨_, rfl, act_set_ok hf.act⟩, hsite⟩
    · cases hwrote

/-- Drawing an id: the device has no record. -/
theorem vacant (h : Inv svc s) (hf : Pool.Fires (system svc) s e c next s')
    (hop : e.op = .runtimeUuid) {found : Option Id}
    (hs : (dev svc.core e.tid s.log).site = .indexed o l d found) {i' : Id}
    (hr : s.mem.kv.lookup (.session o i') = some r) : ¬ IdsOf l d r := by
  intro hid
  have hsite := h.serial.sites e.tid
  rw [hs] at hsite
  have hmark : markAt svc.core e.tid s.log = .missed := by
    have hmay := h.marked hf
    rw [hop] at hmay
    cases hm : markAt svc.core e.tid s.log with
    | missed => rfl
    | idle =>
      rw [hm] at hmay
      exact hmay.elim
    | owed =>
      rw [hm] at hmay
      obtain ⟨_, _, _, _, _, hop', -⟩ := hmay
      cases hop'
  rcases h.named o l d i' r hr hid with hi | ⟨t, ht⟩
  · have hfound : found = some i' := hsite.2.symm.trans hi
    subst hfound
    rw [h.missed e.tid o l d i' hmark hs] at hr
    cases hr
  · have heq := h.serial.exclusive (h.owes_inside ht) hsite.1
    subst heq
    obtain ⟨-, r', hr'⟩ := ht
    rw [hs] at hr'
    cases hr'

/-- A step that writes no session record and no index entry. -/
theorem still (h : Inv svc s) (hf : Pool.Fires (system svc) s e c next s') (hok : Indexing s e)
    (hs : Same s.mem.kv s'.mem.kv) (hl : Ratchet.landed e = none) : Inv svc s' where
  serial := h.serial.fires hf
  conforms := System.conforms_fires h.conforms hf trivial
  missed t o l d i hmark hsite := by
    rw [hs.session]
    rw [hf.log] at hmark hsite
    by_cases ht : e.tid = t
    · subst ht
      rw [markAt_self] at hmark
      rw [dev_self] at hsite
      rcases mark_missed hmark hsite with ⟨hm, hi⟩ | hx
      · exact h.missed e.tid o l d i hm hi
      · obtain ⟨t, op, ans, f⟩ := e
        cases hx
        exact act_get_ok hf.act
    · rw [markAt_other ht] at hmark
      rw [dev_other ht] at hsite
      exact h.missed t o l d i hmark hsite
  fresh t o l d i hsite i' r hr := by
    rw [hs.session] at hr
    rw [hf.log] at hsite
    by_cases ht : e.tid = t
    · subst ht
      rw [dev_self] at hsite
      rcases siteNext_fresh hsite with hold | hx
      · exact h.fresh e.tid o l d i hold i' r hr
      · -- an id is drawn
        have hdraw : (dev svc.core e.tid s.log).site.draw i = .fresh o l d i := by
          rw [hx] at hsite
          exact hsite
        unfold Site.draw at hdraw
        split at hdraw
        · rename_i hi
          cases hdraw
          have hop : e.op = .runtimeUuid := congrArg Proc.Exch.op hx
          exact h.vacant hf hop hi hr
        · exact h.fresh e.tid o l d i hdraw i' r hr
    · rw [dev_other ht] at hsite
      exact h.fresh t o l d i hsite i' r hr
  owed t o l d i ho i' r hr hid := by
    rw [hs.session] at hr
    by_cases ht : e.tid = t
    · subst ht
      obtain ⟨⟨r', hop, hlands⟩, -⟩ := h.owes_self hf ho
      obtain ⟨t, op, ans, f⟩ := e
      cases hop
      rw [Ratchet.landed, if_pos hlands] at hl
      cases hl
    · rw [hf.log, owes_other ht] at ho
      exact h.owed t o l d i ho i' r hr hid
  named o l d i r hr hid := by
    rw [hs.session] at hr
    rcases h.named o l d i r hr hid with hi | ⟨t, ho⟩
    · exact .inl ((hs.index o l d).trans hi)
    · by_cases ht : e.tid = t
      · -- the index entry it owes is there, or the write of it would have landed
        subst ht
        have hop := h.pays hf ho
        refine .inl ?_
        rw [Indexing, hop] at hok
        rcases hok with hi | hfail
        · exact (hs.index o l d).trans hi
        · have hlands : e.fate.lands = true := by
            cases hfate : e.fate with
            | fail f => exact absurd hfate (hfail f)
            | _ => rfl
          rw [kv_fires hf, hop, effect, if_pos hlands, AList.lookup_insert]
      · refine .inr ⟨t, ?_⟩
        rw [hf.log, owes_other ht]
        exact ho

/-- A session record is written. -/
theorem record (h : Inv svc s) (hf : Pool.Fires (system svc) s e c next s') (hok : Indexing s e)
    (hop : e.op = .set (.session o i) r) (hkv : s'.mem.kv = s.mem.kv.insert (.session o i) r) :
    Inv svc s' := by
  have hself := h.serial.sites e.tid
  rw [← dev_phase svc.core] at hself
  have hmay := h.serial.may hf
  rw [hop] at hmay
  obtain ⟨l, d, hin, hid, hwrote, htarget⟩ := target_of_writes hmay.1 hself
  rw [dev_phase] at hin
  -- a record of a device is one that was there, or the one that is written
  have hback : ∀ {o' l' d' i' r'}, s'.mem.kv.lookup (.session o' i') = some r' → IdsOf l' d' r' →
      (∃ r₀, s.mem.kv.lookup (.session o' i') = some r₀ ∧ IdsOf l' d' r₀) ∨
      (o', l', d', i') = (o, l, d, i) ∧ (dev svc.core e.tid s.log).site = .fresh o l d i ∧
        s.mem.kv.lookup (.session o i) = none := by
    intro o' l' d' i' r' hr' hid'
    by_cases heq : o' = o ∧ i' = i
    · obtain ⟨rfl, rfl⟩ := heq
      rw [hkv, AList.lookup_insert, Option.some.injEq] at hr'
      subst hr'
      obtain ⟨rfl, rfl⟩ := hid'.unique hid
      cases htarget with
      | existing r₀ hr₀ hid₀ => exact .inl ⟨r₀, hr₀, hid₀⟩
      | new hs _ hnone _ => exact .inr ⟨rfl, hs, hnone⟩
    · rw [hkv, lookup_record_ne heq] at hr'
      exact .inl ⟨r', hr', hid'⟩
  have hnotOwed : ∀ {o' l' d' i'}, ¬ Owes svc.core s.log e.tid o' l' d' i' := by
    intro o' l' d' i' ho
    have hop' := h.pays hf ho
    rw [hop] at hop'
    cases hop'
  -- a call in the lock of another device has nothing to do with it
  have hother : ∀ {t}, e.tid ≠ t → ¬ Inside (phase t s.log) o l d :=
    fun ht hin' => ht (h.serial.exclusive hin hin')
  have hsite : ∀ {site}, (dev svc.core e.tid s'.log).site = site →
      site = .known o l d i r ∨ site = .unknown := by
    rintro site rfl
    rw [hf.log, dev_self]
    obtain ⟨t, op, ans, f⟩ := e
    cases hop
    rcases ans with err | u
    · exact .inr rfl
    · exact .inl hwrote
  refine
    { serial := h.serial.fires hf
      conforms := System.conforms_fires h.conforms hf trivial
      missed := fun t o' l' d' i' hmark hs => ?_
      fresh := fun t o' l' d' i' hs i'' r' hr' hid' => ?_
      owed := fun t o' l' d' i' ho i'' r' hr' hid' => ?_
      named := fun o' l' d' i' r' hr' hid' => ?_ }
  · by_cases ht : e.tid = t
    · subst ht
      rcases hsite hs with hs | hs <;> cases hs
    · rw [hf.log, markAt_other ht] at hmark
      rw [hf.log, dev_other ht] at hs
      have hnone := h.missed t o' l' d' i' hmark hs
      have hindexed := h.serial.sites t
      rw [hs] at hindexed
      have hne : ¬ (o' = o ∧ i' = i) := by
        rintro ⟨rfl, rfl⟩
        cases htarget with
        | existing r₀ hr₀ _ => rw [hnone] at hr₀; cases hr₀
        | new _ _ _ hno => exact hno l' d' hindexed.2
      rw [hkv, lookup_record_ne hne]
      exact hnone
  · by_cases ht : e.tid = t
    · subst ht
      rcases hsite hs with hs | hs <;> cases hs
    · rw [hf.log, dev_other ht] at hs
      rcases hback hr' hid' with ⟨r₀, hr₀, hid₀⟩ | ⟨heq, -⟩
      · exact h.fresh t o' l' d' i' hs i'' r₀ hr₀ hid₀
      · cases heq
        exact hother ht (h.fresh_inside hs)
  · by_cases ht : e.tid = t
    · subst ht
      obtain ⟨-, hs⟩ := h.owes_self hf ho
      rcases hback hr' hid' with ⟨r₀, hr₀, hid₀⟩ | ⟨heq, hs', -⟩
      · exact absurd hid₀ (h.fresh e.tid o' l' d' i' hs i'' r₀ hr₀)
      · cases heq
        rw [hs] at hs'
        cases hs'
        rfl
    · rw [hf.log, owes_other ht] at ho
      rcases hback hr' hid' with ⟨r₀, hr₀, hid₀⟩ | ⟨heq, -⟩
      · exact h.owed t o' l' d' i' ho i'' r₀ hr₀ hid₀
      · cases heq
        exact absurd (h.owes_inside ho) (hother ht)
  · rcases hback hr' hid' with ⟨r₀, hr₀, hid₀⟩ | ⟨heq, hs, hnone⟩
    · rcases h.named o' l' d' i' r₀ hr₀ hid₀ with hi | ⟨t, ho⟩
      · refine .inl ?_
        rw [hkv, lookup_index_record]
        exact hi
      · have ht : e.tid ≠ t := by
          rintro rfl
          exact hnotOwed ho
        refine .inr ⟨t, ?_⟩
        rw [hf.log, owes_other ht]
        exact ho
    · -- the new record: the write has returned, and its index entry is owed
      cases heq
      rw [Indexing, hop] at hok
      refine .inr ⟨e.tid, ?_⟩
      unfold Owes
      rw [hf.log, markAt_self, dev_self]
      obtain ⟨t, op, ans, f⟩ := e
      cases hop
      cases ans with
      | ok u =>
        refine ⟨?_, r, hwrote⟩
        change mark _ _ ⟨.set (.session o i) r, .ok ()⟩ = _
        simp only [mark, hs]
      | error err =>
        -- it landed, so it failed after landing
        have hact := hf.act
        cases f with
        | landFail f => exact absurd rfl (hok hnone f)
        | fail f =>
          have hkv' := kv_fires hf
          rw [hkv, effect, if_neg fun h => by cases h] at hkv'
          have hlook : (s.mem.kv.insert (.session o i) r).lookup (.session o i) = some r :=
            AList.lookup_insert _
          rw [hkv', hnone] at hlook
          cases hlook
        | _ => cases hact

/-- An index entry is written. -/
theorem index (h : Inv svc s) (hf : Pool.Fires (system svc) s e c next s')
    (hop : e.op = .set (.sessionByDevice o l d) i)
    (hkv : s'.mem.kv = s.mem.kv.insert (.sessionByDevice o l d) i) : Inv svc s' := by
  have hself := h.serial.sites e.tid
  have hmay := h.serial.may hf
  rw [hop] at hmay
  obtain ⟨l', d', r, hsite, hl, hd⟩ := hmay
  rw [hsite] at hself
  obtain ⟨rfl, rfl⟩ := hself.2.2.unique ⟨hl, hd⟩
  have hrecord : ∀ o' i', s'.mem.kv.lookup (.session o' i') = s.mem.kv.lookup (.session o' i') := by
    intro o' i'
    rw [hkv, lookup_record_index]
  have hmark : markAt svc.core e.tid s'.log = .idle := by
    rw [hf.log, markAt_self]
    obtain ⟨t, op, ans, f⟩ := e
    cases hop
    rfl
  have hsite' : (dev svc.core e.tid s'.log).site = .known o l' d' i r := by
    rw [hf.log, dev_self]
    obtain ⟨t, op, ans, f⟩ := e
    cases hop
    exact hsite
  refine
    { serial := h.serial.fires hf
      conforms := System.conforms_fires h.conforms hf trivial
      missed := fun t o₁ l₁ d₁ i₁ hm hs => ?_
      fresh := fun t o₁ l₁ d₁ i₁ hs i₂ r₂ hr₂ => ?_
      owed := fun t o₁ l₁ d₁ i₁ ho i₂ r₂ hr₂ => ?_
      named := fun o₁ l₁ d₁ i₁ r₁ hr₁ hid₁ => ?_ }
  · by_cases ht : e.tid = t
    · subst ht
      rw [hmark] at hm
      cases hm
    · rw [hf.log, markAt_other ht] at hm
      rw [hf.log, dev_other ht] at hs
      exact (hrecord _ _).trans (h.missed t o₁ l₁ d₁ i₁ hm hs)
  · rw [hrecord] at hr₂
    by_cases ht : e.tid = t
    · subst ht
      rw [hsite'] at hs
      cases hs
    · rw [hf.log, dev_other ht] at hs
      exact h.fresh t o₁ l₁ d₁ i₁ hs i₂ r₂ hr₂
  · rw [hrecord] at hr₂
    by_cases ht : e.tid = t
    · subst ht
      have howed := ho.1
      rw [hmark] at howed
      cases howed
    · rw [hf.log, owes_other ht] at ho
      exact h.owed t o₁ l₁ d₁ i₁ ho i₂ r₂ hr₂
  · rw [hrecord] at hr₁
    by_cases heq : o₁ = o ∧ l₁ = l' ∧ d₁ = d'
    · -- the device's own record is the one that is indexed
      obtain ⟨rfl, rfl, rfl⟩ := heq
      have hi : i₁ = i := h.unique hr₁ hself.2.1 hid₁ hself.2.2
      subst hi
      refine .inl ?_
      rw [hkv, AList.lookup_insert]
    · rcases h.named o₁ l₁ d₁ i₁ r₁ hr₁ hid₁ with hi | ⟨t, ho⟩
      · refine .inl ?_
        rw [hkv, lookup_index_ne heq]
        exact hi
      · have ht : e.tid ≠ t := by
          rintro rfl
          obtain ⟨-, r', hr'⟩ := ho
          rw [hsite] at hr'
          cases hr'
          exact heq ⟨rfl, rfl, rfl⟩
        refine .inr ⟨t, ?_⟩
        rw [hf.log, owes_other ht]
        exact ho

theorem fires (h : Inv svc s) (hf : Pool.Fires (system svc) s e c next s') (hok : Indexing s e) :
    Inv svc s' := by
  cases h.serial.change hf with
  | none hs hl => exact h.still hf hok hs hl
  | record o i r hop _ hkv => exact h.record hf hok hop hkv
  | index o l d i hop _ hkv => exact h.index hf hop hkv

end Inv

variable [DecidableEq Snap] {svc : Service Snap}

theorem obeys_marks {c : Call} (h : isDevice c = true) :
    Obeys (marks svc.core) (fun _ => True) (fun _ _ => True) (Dev.start, .idle)
      (program svc c) := by
  have hcalm : Calm ((Dev.start, .idle) : Dev Snap × Mark) := ⟨nofun, nofun⟩
  have hany : ∀ {α : Type} {f : α → Reply} {p : Sdk Snap α},
      Obeys (marks svc.core) (fun _ => True) (fun a _ => Calm a) (Dev.start, .idle) p →
      Obeys (marks svc.core) (fun _ => True) (fun _ _ => True) (Dev.start, .idle)
        (p >>= fun r => pure (f r) : Sdk Snap Reply) := by
    intro α f p hp
    exact obeys_js_bind (hp.mono fun _ x _ => by cases x <;> trivial)
  cases c with
  | encryptDevice owner peer link device m => exact hany (obeys_calm rfl foot_encrypt hcalm)
  | decryptDevice owner peer link device pkt =>
    exact hany (obeys_calm rfl (foot_bind foot_attemptDecrypt fun _ => foot_orThrow) hcalm)
  | trialDevices owner peer link pkt =>
    exact hany (obeys_calm rfl (foot_bind (foot_listSessions.mono (by decide)) fun _ =>
      foot_trialLoop) hcalm)
  | initiateDevice args => exact hany (obeys_initiate hcalm)
  | respondDevice args => exact hany (obeys_respond hcalm)
  | _ => cases h

theorem inv_inductive (svc : Service Snap) : ((system svc).lts indexing).Inductive (Inv svc) :=
  System.inductive_of
    (fun m hm =>
      { serial := serial_init hm.1 hm.2.1 hm.2.2.1
        conforms := System.conforms_init m
        missed := fun _ _ _ _ _ h => by cases h
        fresh := fun _ _ _ _ _ h => by cases h
        owed := fun _ _ _ _ _ h => by cases h.1
        named := fun o l d i r hr hid => .inl (hm.2.2.2 o l d i r hr hid) })
    (fun _ _ h hc =>
      { h with
        serial := serial_spawn h.serial hc
        conforms := System.conforms_spawn h.conforms (obeys_marks hc) })
    (fun _ _ _ _ _ h hf hok => h.fires hf hok)

/-- **One record for a device** in every run in which a new record gets its
index entry, over every interleaving and every other storage fault. -/
theorem one_record (svc : Service Snap) (s : State Snap)
    (hr : ((system svc).lts indexing).Reachable s) : OneRecord s.mem.kv :=
  ((inv_inductive svc).reachable s hr).oneRecord

namespace Example

open Counting

/-- Account `a` establishes a session with device `d` of its link `c`. -/
def initiate : Call := .initiateDevice ⟨a, b, c, d, [], ⟨a, a⟩, ⟨a, a⟩⟩

theorem start_empty : Start (.ofStore (∅ : Store Nat) []) :=
  ⟨rfl, ⟨fun _ _ _ h => (by cases h), fun _ _ _ _ _ h => (by cases h)⟩,
    ⟨fun _ _ _ h => (by cases h), fun _ _ _ _ h => (by cases h)⟩, fun _ _ _ _ _ h => (by cases h)⟩

def anyJudge : System.Judge (anyFaults : Rules Nat) where
  may _ c := isDevice c
  ok _ _ := true
  may_iff _ _ h := h
  ok_iff _ _ _ := trivial

/-- No session write and no index write fails. -/
def writesLand (e : Ev Nat) : Bool :=
  match e.op, e.fate with
  | .set (.session ..) _, .landFail _ => false
  | .set (.sessionByDevice ..) _, .fail _ => false
  | _, _ => true

theorem indexing_of_writesLand {s : State Nat} {e : Ev Nat} (h : writesLand e = true) :
    Indexing s e := by
  obtain ⟨t, op, ans, f⟩ := e
  cases op with
  | set k v =>
    cases k with
    | session o i =>
      rintro - f rfl
      cases h
    | sessionByDevice o l d =>
      refine .inr ?_
      rintro f rfl
      cases h
    | _ => trivial
  | _ => trivial

def judge : System.Judge (indexing : Rules Nat) where
  may _ c := isDevice c
  ok _ e := writesLand e
  may_iff _ _ h := h
  ok_iff _ _ h := indexing_of_writesLand h

/-- The session records of device `d`. -/
def recordsOf (s : State Nat) : List Id :=
  s.mem.kv.keys.filterMap fun
    | .session o i =>
      match (s.mem.kv.lookup (.session o i) : Option (SessionRecord Nat)) with
      | some r => if o = a ∧ r.peerLinkId = c ∧ r.peerDeviceId = some d then some i else none
      | none => none
    | _ => none

theorem mem_recordsOf {s : State Nat} {i : Id} (h : i ∈ recordsOf s) :
    ∃ r, s.mem.kv.lookup (.session a i) = some r ∧ r.peerLinkId = c ∧ r.peerDeviceId = some d := by
  obtain ⟨k, -, hk⟩ := List.mem_filterMap.mp h
  cases k with
  | session o j =>
    dsimp only at hk
    split at hk
    · rename_i r hr
      split at hk
      · rename_i heq
        cases hk
        obtain ⟨rfl, hl, hd⟩ := heq
        exact ⟨r, hr, hl, hd⟩
      · cases hk
    · cases hk
  | _ => cases hk

def twice (s : State Nat) : Bool :=
  match recordsOf s with
  | [i, j] => i ≠ j
  | _ => false

def once (s : State Nat) : Bool := (recordsOf s).length = 1

end Example

open Example Counting in
/-- The index entry of a new record fails to be written; the retry stores a
second record for the device. -/
theorem two_records :
    ∃ s, ((system Counting.svc).lts anyFaults).Reachable s ∧ ¬ OneRecord s.mem.kv := by
  obtain ⟨s, hr, hs⟩ := System.reachable_of_play (S := system Counting.svc) anyJudge smooth
    [.call initiate, .go 0 9, .run 0 (.fail fault), .go 0 1, .call initiate,
    .go 1 11] (m := .ofStore ∅ [])
    (P := twice) start_empty (by decide +kernel)
  refine ⟨s, hr, fun hone => ?_⟩
  unfold twice at hs
  split at hs
  · rename_i i j heq
    obtain ⟨r, hr₁, hl, hd⟩ := mem_recordsOf (s := s) (i := i) (by rw [heq]; simp)
    obtain ⟨r', hr₂, hl', hd'⟩ := mem_recordsOf (s := s) (i := j) (by rw [heq]; simp)
    exact absurd (hone a i j r r' d hr₁ hr₂ (hl.trans hl'.symm) hd hd') (by simpa using hs)
  · cases hs

open Example Counting in
/-- The record write of the first establishment fails; the next two use one
record. -/
theorem one_record_twice :
    ∃ s, ((system Counting.svc).lts indexing).Reachable s ∧ once s = true ∧ OneRecord s.mem.kv := by
  obtain ⟨s, hr, hs⟩ := System.reachable_of_play (S := system Counting.svc) judge smooth
    [.call initiate, .go 0 8, .run 0 (.fail fault), .go 0 1, .call initiate,
    .go 1 11, .call initiate, .go 2 11]
    (m := .ofStore ∅ []) (P := once) start_empty (by decide +kernel)
  exact ⟨s, hr, hs, one_record Counting.svc s hr⟩

end RezSdk.L4.DeviceRecords
