import RezSdk.L3Service.Counting
import RezSdk.L4Runs.NestedLocks
import RezSdk.L4Runs.Windows

/-!
# Rollback and equivocation of a peer's device set

`ingestPeerDeviceSet` reads the floor, checks the incoming revision against
it, establishes the missing sessions and moves the floor, all inside the lock
of (owner, peer). `Inv.known` says what this lock gives: while a call is
inside, the floor it has read or written last is the stored one. `Inv.accepted`
carries the rest over a whole run: every set that was ever accepted lies below
the floor, or at it with the floor's binding.

* `floor_guards`: the floor never goes down, a call returns only for a set that
  is not below it, and two sets accepted at one revision have the same account
  and members. Calls interleave in any way, any storage operation may fail
  with or without landing, the floor may start in any of its stored shapes,
  and the process may be restarted whenever no call is in flight.
-/
namespace RezSdk.L4.SetFloor

open RezSdk.L1 RezSdk.L2 RezSdk.L3

variable {Snap : Type}

abbrev IngestState (Snap : Type) := Pool (sdk Snap) (Mem Snap) Fate IngestArgs (Except Err Ingested)
abbrev IngestRules (Snap : Type) := Discipline (sdk Snap) (Mem Snap) Fate IngestArgs
    (Except Err Ingested)

/-- Any number of calls over one store. -/
def ingests (svc : DeviceService Snap) :
    System (sdk Snap) (Mem Snap) Fate IngestArgs (Except Err Ingested) :=
  ⟨act svc.core, ingestPeerDeviceSet svc⟩

def anyIngests : IngestRules Snap where
  init m := m.locks = PromiseLock.empty
  may _ _ := True
  ok _ _ := True

def Quiescent (s : IngestState Snap) : Prop := ∀ th ∈ s.threads, ∃ x, th.proc = .ret x

/-- The process is restarted: only the store stays. -/
structure Restarts (s s' : IngestState Snap) : Prop where
  quiet : Quiescent s
  threads : s'.threads = s.threads
  log : s'.log = s.log
  kv : s'.mem.kv = s.mem.kv
  locks : s'.mem.locks = PromiseLock.empty

/-- The steps of a process, and restarts (`none`) between calls. -/
def lives (svc : DeviceService Snap) : LTS (IngestState Snap) (Option (Label Fate IngestArgs)) where
  init := ((ingests svc).lts anyIngests).init
  step s l s' :=
    match l with
    | some l => ((ingests svc).lts anyIngests).step s l s'
    | none => Restarts s s'

/-! ## The property -/

/-- The stored floor of (owner, peer). -/
def floorAt (kv : Store Snap) (owner peer : Id) : Floor :=
  readFloor (kv.lookup (.deviceSetFloor owner peer))

/-- Call `t` has returned `r`. -/
def Accepted (s : IngestState Snap) (t : Nat) (c : IngestArgs) (r : Ingested) : Prop :=
  s.threads[t]? = some ⟨c, .ret (.ok r)⟩

/-- What a set's authority binding is the hash of. -/
def contentOf (core : Core Snap) (set : DeviceSetRecord) : AuthorityContent :=
  ⟨set.v, set.purpose, set.accountIdentityPublicKeyB64, set.revision,
  sortByText core (·.deviceId.val) set.devices⟩

structure Guarded (svc : DeviceService Snap) : Prop where
  monotone : ∀ s s' ls, (lives svc).Reachable s → (lives svc).Run s ls s' → ∀ o p,
    (floorAt s.mem.kv o p).revision ≤ (floorAt s'.mem.kv o p).revision
  /-- a call returns at a moment when its set is not below the floor -/
  current : ∀ s l s', (lives svc).Reachable s → (lives svc).step s l s' →
    ∀ t c r, Accepted s' t c r →
    ¬ Accepted s t c r → (floorAt s'.mem.kv c.owner c.peer).revision ≤ r.deviceSet.revision
  /-- two sets on which the hash does not collide -/
  agree : ∀ s, (lives svc).Reachable s → ∀ t t' c c' r r', Accepted s t c r → Accepted s t' c' r' →
    c.owner = c'.owner → c.peer = c'.peer → r.deviceSet.revision = r'.deviceSet.revision →
    (svc.core.authorityHash (contentOf svc.core r.deviceSet) = svc.core.authorityHash
    (contentOf svc.core r'.deviceSet) →
      contentOf svc.core r.deviceSet = contentOf svc.core r'.deviceSet) →
    r.deviceSet.accountIdentityPublicKeyB64 = r'.deviceSet.accountIdentityPublicKeyB64 ∧
      ∀ d, d ∈ r.deviceSet.devices ↔ d ∈ r'.deviceSet.devices

/-! ## One call -/

/-- Where a call stands with the locks, and the floor as it knows it. -/
structure Seen where
  owner : Id
  peer : Id
  stands : Stands
  floor : Option Floor
  /-- it has left the lock of the floor -/
  left : Bool

def Seen.start (c : IngestArgs) : Seen := ⟨c.owner, c.peer, .out, none, false⟩

def floorNext (f : Option Floor) : Proc.Exch (sdk Snap) → Option Floor
  | ⟨.get (.deviceSetFloor ..), .ok v⟩ => some (readFloor v)
  | ⟨.set (.deviceSetFloor ..) v, .ok _⟩ => some (readFloor (some v))
  | ⟨.set (.deviceSetFloor ..) _, .error _⟩ => none
  | ⟨.enter k _ _, _⟩ => if k.1 = .inviteClaims then none else f
  | _ => f

def leaves : Op Snap → Bool
  | .release k _ => k.1 = .inviteClaims
  | _ => false

def Seen.next (w : Seen) (x : Proc.Exch (sdk Snap)) : Seen :=
  { w with
    stands := w.stands.next x
    floor := floorNext w.floor x
    left := w.left || leaves x.op }

/-- The call is inside the lock of its (owner, peer). -/
def Seen.Inside (w : Seen) : Prop := ∃ pid, w.stands.claims = .held (ingestLock w.owner w.peer) pid

/-- The floor goes up, or gets its first binding. -/
def Raises (f : Floor) (revision : Nat) : Prop :=
  f.revision < revision ∨ (revision = f.revision ∧ f.anchor = none)

def mayFloor (w : Seen) : Op Snap → Prop
  | .get (.deviceSetFloor o p) => (o = w.owner ∧ p = w.peer) ∧ w.Inside
  | .set (.deviceSetFloor o p) v => (o = w.owner ∧ p = w.peer) ∧ w.Inside ∧
      ∃ f revision binding, w.floor = some f ∧ Raises f revision ∧ v = .bound revision binding
  | .delete (.deviceSetFloor ..) => False
  | .release k _ => k.1 = .inviteClaims → k = ingestLock w.owner w.peer
  | _ => True

/-- Leaving the lock is a call's last operation. -/
def monitor : Monitor (sdk Snap) Seen where
  next := Seen.next
  may w o := w.left = false ∧ w.stands.may o ∧ mayFloor w o

/-- The floor is where an accepted set has left it. -/
def Anchored (core : Core Snap) (f : Floor) (set : DeviceSetRecord) : Prop :=
  f.revision = set.revision ∧ f.anchor = some (deviceSetAuthorityBinding core set)

def Post (core : Core Snap) (_ : IngestArgs) (w : Seen) (x : Except Err Ingested) : Prop :=
  w.stands = .out ∧ ∀ r, x = .ok r → w.left = true ∧ ∃ f, w.floor = some f ∧
    Anchored core f r.deviceSet

abbrev Lawful : Proc.Exch (sdk Snap) → Prop := fun _ => True

variable {svc : DeviceService Snap} {α β : Type}

def watched : List OpClass :=
  [.lock, .get .deviceSetFloor, .set .deviceSetFloor, .delete .deviceSetFloor]

theorem still_other {w : Seen} {o : Op Snap} (h : watched.contains (classOf o) = false) :
    (w.stands.may o ∧ mayFloor w o) ∧ ∀ r, w.next ⟨o, r⟩ = w := by
  have hlock : classOf o ≠ .lock := by
    intro heq
    rw [heq] at h
    cases h
  have hfloor : mayFloor w o ∧ leaves o = false ∧ ∀ r, floorNext w.floor ⟨o, r⟩ = w.floor := by
    cases o with
    | get k =>
      cases k with
      | deviceSetFloor o p => cases h
      | _ => exact ⟨trivial, rfl, fun r => rfl⟩
    | set k v =>
      cases k with
      | deviceSetFloor o p => cases h
      | _ => exact ⟨trivial, rfl, fun r => rfl⟩
    | delete k =>
      cases k with
      | deviceSetFloor o p => cases h
      | _ => exact ⟨trivial, rfl, fun r => rfl⟩
    | enter k prev pid => exact absurd rfl hlock
    | release k pid => exact absurd rfl hlock
    | _ => exact ⟨trivial, rfl, fun r => rfl⟩
  refine ⟨⟨Stands.may_other hlock, hfloor.1⟩, fun r => ?_⟩
  unfold Seen.next
  rw [Stands.next_other hlock, hfloor.2.2 r, hfloor.2.1, Bool.or_false]

/-- A helper that has nothing to do with the floor or the locks. -/
theorem obeys_helper {l : List OpClass} {Q : Seen → α → Prop} {w : Seen} {p : Proc (sdk Snap) α}
    (hp : Foot l p) (hl : l.all (fun c => !watched.contains c) = true) (hleft : w.left = false)
    (hq : ∀ x, Q w x) : Obeys monitor Lawful Q w p := by
  refine obeys_still (Proc.All.mono (fun o ho => ?_) hp) hq
  have hother : watched.contains (classOf o) = false := by
    have := List.all_eq_true.mp hl _ (List.contains_iff_mem.mp ho.1)
    simpa using this
  obtain ⟨hmay, hnext⟩ : (w.stands.may o ∧ mayFloor w o) ∧ ∀ r, w.next ⟨o, r⟩ = w :=
    still_other hother
  exact ⟨⟨hleft, hmay⟩, hnext⟩

/-- A locked helper leaves the call where it was. -/
theorem obeys_deviceLock {l : List OpClass} {Q : Seen → Except Err α → Prop} {w : Seen}
    {key : String} {body : Sdk Snap α} (hw : w.stands.devices = .out) (hleft : w.left = false)
    (hp : Foot l body) (hl : l.all (fun c => !watched.contains c) = true) (hq : ∀ x, Q w x) :
    Obeys monitor Lawful Q w (withLock (.deviceSessions, key) body) := by
  obtain ⟨owner, peer, ⟨claims, devices⟩, floor, left⟩ := w
  cases hw
  cases hleft
  refine ⟨⟨rfl, rfl, trivial⟩, fun ticket _ => ⟨⟨rfl, rfl, trivial⟩, fun _ _ => obeys_bind ?_⟩⟩
  refine obeys_helper hp hl rfl fun x => ?_
  exact ⟨⟨rfl, rfl, fun h => by cases h⟩, fun _ _ => hq x⟩

theorem obeys_devices {owner peer link : Id} {w : Seen} (hw : w.stands.devices = .out)
    (hleft : w.left = false) :
    ∀ {bundles : List PrekeyBundle} {Q : Seen → Except Err (List Established × List Id) → Prop},
      (∀ x, Q w x) → Obeys monitor Lawful Q w (establishDevices svc owner peer link bundles)
  | [], _, hq => hq _
  | bundle :: rest, Q, hq => by
    refine obeys_js_bind (obeys_helper foot_byDevice (by decide) hleft fun existing => ?_)
    match existing with
    | .error e => exact hq _
    | .ok (some _) =>
      refine obeys_js_bind (obeys_devices hw hleft fun x => ?_)
      cases x with
      | error e => exact hq _
      | ok x => exact hq _
    | .ok none =>
      -- the device's keys, the key exchange and the new record
      refine obeys_js_bind (obeys_js_bind (obeys_ensure (fun _ => ?_) fun _ => hq _))
      refine obeys_js_bind (obeys_helper foot_loadDeviceIdentity (by decide) hleft fun keys => ?_)
      cases keys with
      | error e => exact hq _
      | ok keys =>
        refine obeys_js_bind
          (obeys_helper (foot_core (l := [.crypto]) rfl) (by decide) hleft fun signature => ?_)
        cases signature with
        | error e => exact hq _
        | ok signature =>
          refine obeys_js_bind
            (obeys_helper (foot_core (l := [.x3dh]) rfl) (by decide) hleft fun agreed => ?_)
          cases agreed with
          | error e => exact hq _
          | ok agreed =>
            refine obeys_js_bind (obeys_deviceLock hw hleft foot_persist (by decide) fun sid => ?_)
            cases sid with
            | error e => exact hq _
            | ok sid =>
              refine obeys_js_bind (obeys_devices hw hleft fun x => ?_)
              cases x with
              | error e => exact hq _
              | ok x => exact hq _

/-- Inside the lock, with the floor `f` known. -/
def held (c : IngestArgs) (pid : Nat) (f : Option Floor) : Seen :=
  ⟨c.owner, c.peer, ⟨.held (ingestLock c.owner c.peer) pid, .out⟩, f, false⟩

/-- What the locked part leaves: it is still inside, and what it has accepted
is the floor. -/
def Locking (core : Core Snap) (c : IngestArgs) (pid : Nat) (w : Seen) (x : Except Err Ingested) :
    Prop :=
  ∃ f, w = held c pid f ∧ ∀ r, x = .ok r → ∃ f', f = some f' ∧ Anchored core f' r.deviceSet

theorem locking_error {core : Core Snap} {c : IngestArgs} {pid : Nat} {f : Option Floor} {e : Err} :
    Locking core c pid (held c pid f) (.error e) := ⟨f, rfl, fun _ h => by cases h⟩

theorem anchor_bound {revision : Nat} {binding : String} (h : binding.isEmpty = false) :
    (readFloor (some (.bound revision (if binding.isEmpty then none else some binding)))).anchor =
      some binding := by
  rw [h]
  simp [readFloor, Floor.anchor, h]

/-- The checks and the move of the floor leave it at the accepted set. -/
theorem obeys_advance {c : IngestArgs} {pid : Nat} {f : Floor} {set : DeviceSetRecord}
    {bundles : List PrekeyBundle} {made : List Established × List Id}
    (hhash : (deviceSetAuthorityBinding svc.core set).isEmpty = false)
    (hle : f.revision ≤ set.revision)
    (hsame : ¬ (set.revision = f.revision ∧
      f.anchor.any (· ≠ deviceSetAuthorityBinding svc.core set) = true)) :
    Obeys monitor Lawful (Locking svc.core c pid) (held c pid (some f)) ((do
      advanceFloor c.owner c.peer f set.revision (deviceSetAuthorityBinding svc.core set)
      return ⟨set, bundles, made.1, made.2⟩) : Sdk Snap Ingested) := by
  refine obeys_js_bind ?_
  unfold advanceFloor
  split
  · rename_i hraise
    have hraises : Raises f set.revision := by
      simpa only [Raises, Bool.or_eq_true, Bool.and_eq_true, decide_eq_true_eq,
        Option.isNone_iff_eq_none] using hraise
    refine ⟨⟨rfl, trivial, ⟨rfl, rfl⟩, ⟨pid, rfl⟩, f, set.revision, _, rfl, hraises, rfl⟩,
      fun written _ => ?_⟩
    match written with
    | .error e => exact locking_error
    | .ok () =>
      refine ⟨_, rfl, fun r hr => ⟨_, rfl, ?_⟩⟩
      cases hr
      exact ⟨rfl, anchor_bound hhash⟩
  · -- the floor stands at this revision with a binding, and it is this set's
    rename_i hstay
    simp only [Bool.or_eq_true, Bool.and_eq_true, decide_eq_true_eq, Option.isNone_iff_eq_none,
      not_or, not_and] at hstay
    have hrevision : set.revision = f.revision := by omega
    refine ⟨_, rfl, fun r hr => ⟨f, rfl, ?_⟩⟩
    cases hr
    refine ⟨hrevision.symm, ?_⟩
    cases hanchor : f.anchor with
    | none => exact absurd hanchor (hstay.2 hrevision)
    | some b =>
      rw [hanchor] at hsame
      by_contra hne
      refine hsame ⟨hrevision, ?_⟩
      simpa using hne

theorem obeys_locked {c : IngestArgs} {pid : Nat} {link : Id} {set : DeviceSetRecord}
    {bundles : List PrekeyBundle}
    (hhash : (deviceSetAuthorityBinding svc.core set).isEmpty = false) :
    Obeys monitor Lawful (Locking svc.core c pid) (held c pid none)
      (ingestLocked svc c link set bundles) := by
  refine obeys_js_bind (obeys_js_bind ⟨⟨rfl, trivial, ⟨rfl, rfl⟩, ⟨pid, rfl⟩⟩, fun stored _ => ?_⟩)
  cases stored with
  | error e => exact locking_error
  | ok stored =>
    refine obeys_js_bind (obeys_ensure (fun hfloor => ?_) fun _ => locking_error)
    refine obeys_js_bind (obeys_ensure (fun hconflict => ?_) fun _ => locking_error)
    refine obeys_js_bind (obeys_devices rfl rfl fun made => ?_)
    cases made with
    | error e => exact locking_error
    | ok made =>
      refine obeys_advance hhash ?_ ?_
      · exact Nat.le_trans (Nat.le_max_left ..) (of_decide_eq_true hfloor)
      · rintro ⟨hrevision, hother⟩
        rw [decide_eq_true hrevision, hother] at hconflict
        cases hconflict

theorem obeys_run (hhash : ∀ x, (svc.core.authorityHash x).isEmpty = false) (c : IngestArgs) :
    Obeys monitor Lawful (Post svc.core c) (.start c) (ingestPeerDeviceSet svc c) := by
  have herror : ∀ e, Post svc.core c (.start c) (.error e) := fun _ => ⟨rfl, fun _ h => by cases h⟩
  refine obeys_js_bind (obeys_ensure (fun _ => ?_) fun _ => herror _)
  refine obeys_js_bind ⟨⟨rfl, trivial, trivial⟩, fun now _ => ?_⟩
  refine obeys_js_bind (obeys_helper foot_peerContext (by decide) rfl fun context => ?_)
  cases context with
  | error e => exact herror e
  | ok context =>
    refine obeys_js_bind (obeys_helper foot_requireBound (by decide) rfl fun identity => ?_)
    cases identity with
    | error e => exact herror e
    | ok identity =>
      refine obeys_js_bind (obeys_helper foot_openSealed (by decide) rfl fun opened => ?_)
      cases opened with
      | error e => exact herror e
      | ok opened =>
        -- the lock around the floor
        refine ⟨⟨rfl, rfl, trivial⟩,
          fun ticket _ => ⟨⟨rfl, rfl, trivial⟩, fun _ _ => obeys_bind ?_⟩⟩
        refine (obeys_locked (hhash _)).mono fun w x hx => ?_
        obtain ⟨f, rfl, hok⟩ := hx
        exact ⟨⟨rfl, rfl, fun _ => rfl⟩, fun _ _ => ⟨rfl, fun r hr => ⟨rfl, hok r hr⟩⟩⟩

/-! ## All of them -/

def view (s : IngestState Snap) (t : Nat) : Option Seen := System.view monitor Seen.start s t

theorem mon_ids (c : IngestArgs) (t : Nat) (log : List (Event (sdk Snap) Fate)) :
    (Pool.mon monitor (Seen.start c) t log).owner = c.owner ∧
    (Pool.mon monitor (Seen.start c) t log).peer = c.peer := by
  induction log with
  | nil => exact ⟨rfl, rfl⟩
  | cons e log ih =>
    by_cases ht : e.tid = t
    · subst ht
      rw [Pool.mon_self]
      exact ih
    · rw [Pool.mon_other ht]
      exact ih

theorem mon_seen (c : IngestArgs) (t : Nat) (log : List (Event (sdk Snap) Fate)) :
    (Pool.mon monitor (Seen.start c) t log).stands = stands t log :=
  mon_stands (M := monitor) Seen.stands (fun _ _ => rfl) rfl t log

theorem view_stands {s : IngestState Snap} {t : Nat} {w : Seen} (h : view s t = some w) :
    w.stands = stands t s.log := by
  unfold view System.view at h
  obtain ⟨th, -, rfl⟩ := Option.map_eq_some_iff.mp h
  exact mon_seen th.call t s.log

/-- An accepted set lies below the floor, or the floor is bound to it. -/
def Below (core : Core Snap) (f : Floor) (set : DeviceSetRecord) : Prop :=
  set.revision < f.revision ∨ Anchored core f set

theorem below_raised {core : Core Snap} {f : Floor} {set : DeviceSetRecord} {revision : Nat}
    {binding : Option String} (h : Below core f set) (hr : Raises f revision) :
    Below core ⟨revision, binding⟩ set := by
  refine .inl ?_
  rcases hr with hlt | ⟨heq, hnone⟩
  · rcases h with h | h
    · exact Nat.lt_trans h hlt
    · exact h.1 ▸ hlt
  · rcases h with h | h
    · exact heq.symm ▸ h
    · rw [h.2] at hnone
      cases hnone

theorem below_anchored {core : Core Snap} {f : Floor} {set set' : DeviceSetRecord}
    (h : Anchored core f set) (h' : Below core f set') (hrev : set.revision = set'.revision) :
    deviceSetAuthorityBinding core set = deviceSetAuthorityBinding core set' := by
  rcases h' with hlt | h'
  · exact absurd (hrev.symm.trans h.1.symm) (Nat.ne_of_lt hlt)
  · exact Option.some.inj (h.2.symm.trans h'.2)

structure Inv (core : Core Snap) (s : IngestState Snap) : Prop where
  conforms : System.Conforms monitor Lawful Seen.start (Post core) s
  locked : Locked s.mem s.log
  /-- inside the lock, the floor a call knows is the stored one -/
  known : ∀ t w f, view s t = some w → w.Inside → w.floor = some f →
    floorAt s.mem.kv w.owner w.peer = f
  accepted : ∀ t c r, Accepted s t c r → Below core (floorAt s.mem.kv c.owner c.peer) r.deviceSet
  agree : ∀ t t' c c' r r', Accepted s t c r → Accepted s t' c' r' → c.owner = c'.owner →
    c.peer = c'.peer →
    r.deviceSet.revision = r'.deviceSet.revision →
    deviceSetAuthorityBinding core r.deviceSet = deviceSetAuthorityBinding core r'.deviceSet

namespace Inv

variable {s s' : IngestState Snap} {e : Event (sdk Snap) Fate} {c : IngestArgs}
  {k : (sdk Snap).Ans e.op → Proc (sdk Snap) (Except Err Ingested)}

theorem self (h : Inv svc.core s) (hf : Pool.Fires (ingests svc) s e c k s') :
    ∃ w, view s e.tid = some w ∧ monitor.may w e.op ∧ (w.owner = c.owner ∧ w.peer = c.peer) ∧
      view s' e.tid = some (w.next e.exch) :=
  ⟨_, System.view_fired hf, h.conforms.may hf, mon_ids .., System.view_self hf⟩

theorem floor_kept (hf : Pool.Fires (ingests svc) s e c k s') {o p : Id}
    (h : alters (.deviceSetFloor o p) e.op e.fate = false) :
    floorAt s'.mem.kv o p = floorAt s.mem.kv o p := by
  unfold floorAt
  rw [lookup_kept (S := ingests svc) rfl hf h]

/-- What an event can do to a floor: nothing, or its call, inside the lock,
raises it. -/
theorem floor_cases (h : Inv svc.core s) (hf : Pool.Fires (ingests svc) s e c k s') (o p : Id) :
    floorAt s'.mem.kv o p = floorAt s.mem.kv o p ∨
    (∃ w, view s e.tid = some w ∧ w.Inside ∧ w.owner = o ∧ w.peer = p) ∧
    ∃ revision binding, Raises (floorAt s.mem.kv o p) revision ∧
      floorAt s'.mem.kv o p = ⟨revision, binding⟩ := by
  cases halt : alters (.deviceSetFloor o p) e.op e.fate with
  | false => exact .inl (floor_kept hf halt)
  | true =>
    obtain ⟨w, hv, hmay, -, -⟩ := h.self hf
    obtain ⟨hl, ⟨v, hop⟩ | hop⟩ := alters_cases halt
    · have hlook := lookup_set (S := ingests svc) rfl hf hop hl
      rw [hop] at hmay
      obtain ⟨-, -, ⟨rfl, rfl⟩, hin, f, revision, binding, hfl, hraises, rfl⟩ := hmay
      refine .inr ⟨⟨w, hv, hin, rfl, rfl⟩, revision, binding, ?_, ?_⟩
      · rw [h.known e.tid w f hv hin hfl]
        exact hraises
      · unfold floorAt
        rw [hlook]
        rfl
    · rw [hop] at hmay
      exact hmay.2.2.elim

theorem monotone (h : Inv svc.core s) (hf : Pool.Fires (ingests svc) s e c k s') (o p : Id) :
    (floorAt s.mem.kv o p).revision ≤ (floorAt s'.mem.kv o p).revision := by
  obtain heq | ⟨-, revision, binding, hr, heq⟩ := h.floor_cases hf o p
  · rw [heq]
  · rw [heq]
    rcases hr with hlt | ⟨hrev, -⟩
    · exact Nat.le_of_lt hlt
    · exact Nat.le_of_eq hrev.symm

/-- A lock of its own (owner, peer) is nobody else's. -/
theorem alone (h : Inv svc.core s) {t t' : Nat} {w w' : Seen} (hv : view s t = some w)
    (hv' : view s t' = some w') (hin : w.Inside) (hin' : w'.Inside) (ho : w.owner = w'.owner)
    (hp : w.peer = w'.peer) : t = t' := by
  obtain ⟨pid, hheld⟩ := hin
  obtain ⟨pid', hheld'⟩ := hin'
  have hclaims :
      (stands t s.log).inTable .inviteClaims = .held (ingestLock w'.owner w'.peer) pid := by
    rw [← view_stands hv, ← ho, ← hp]
    exact hheld
  have hclaims' :
      (stands t' s.log).inTable .inviteClaims = .held (ingestLock w'.owner w'.peer) pid' := by
    rw [← view_stands hv']
    exact hheld'
  exact h.locked.exclusive hclaims hclaims'

theorem known_other (h : Inv svc.core s) (hf : Pool.Fires (ingests svc) s e c k s') {t : Nat}
    (ht : e.tid ≠ t) {w : Seen} {f : Floor} (hv : view s' t = some w) (hin : w.Inside)
    (hfl : w.floor = some f) : floorAt s'.mem.kv w.owner w.peer = f := by
  have hv₀ : view s t = some w := (System.view_other hf ht).symm.trans hv
  obtain heq | ⟨⟨w', hv', hin', ho, hp⟩, -⟩ := h.floor_cases hf w.owner w.peer
  · rw [heq]
    exact h.known t w f hv₀ hin hfl
  · exact absurd (h.alone hv' hv₀ hin' hin ho hp) ht

theorem known_self (h : Inv svc.core s) (hf : Pool.Fires (ingests svc) s e c k s') {w : Seen}
    {f : Floor} (hv : view s e.tid = some w) (hmay : monitor.may w e.op)
    (hin : (w.next e.exch).Inside) (hfl : (w.next e.exch).floor = some f) :
    floorAt s'.mem.kv w.owner w.peer = f := by
  have hold : alters (.deviceSetFloor w.owner w.peer) e.op e.fate = false →
      w.Inside → w.floor = some f →
      floorAt s'.mem.kv w.owner w.peer = f := by
    intro halt hin hfl
    rw [floor_kept hf halt]
    exact h.known e.tid w f hv hin hfl
  obtain ⟨pid, hheld⟩ := hin
  obtain ⟨t, op, ans, fate⟩ := e
  cases op with
  | get key =>
    cases key with
    | deviceSetFloor o p =>
      obtain ⟨-, -, ⟨rfl, rfl⟩, hin⟩ := hmay
      match ans with
      | .error _ => exact hold rfl hin hfl
      | .ok v =>
        have hlook : s.mem.kv.lookup (.deviceSetFloor w.owner w.peer) = v := act_get_ok hf.act
        have hkept := floor_kept hf (o := w.owner) (p := w.peer) rfl
        rw [hkept, floorAt, hlook]
        exact Option.some.inj hfl
    | _ => exact hold rfl ⟨pid, hheld⟩ hfl
  | set key v =>
    cases key with
    | deviceSetFloor o p =>
      obtain ⟨-, -, ⟨rfl, rfl⟩, -⟩ := hmay
      match ans with
      | .error _ => cases hfl
      | .ok () =>
        rw [floorAt, lookup_set (S := ingests svc) rfl hf rfl (act_set_ok hf.act)]
        exact Option.some.inj hfl
    | _ => exact hold (by simp [alters]) ⟨pid, hheld⟩ hfl
  | delete key =>
    cases key with
    | deviceSetFloor o p => exact hmay.2.2.elim
    | _ => exact hold (by simp [alters]) ⟨pid, hheld⟩ hfl
  | chain key =>
    refine hold rfl ⟨pid, ?_⟩ hfl
    change (if key.1 = .inviteClaims then _ else w.stands.claims) = _ at hheld
    split at hheld
    · cases hheld
    · exact hheld
  | enter key prev pid' =>
    change (if key.1 = .inviteClaims then none else w.floor) = some f at hfl
    change (if key.1 = .inviteClaims then _ else w.stands.claims) = _ at hheld
    split at hfl
    · cases hfl
    · rename_i hne
      rw [if_neg hne] at hheld
      exact hold rfl ⟨pid, hheld⟩ hfl
  | release key pid' =>
    refine hold rfl ⟨pid, ?_⟩ hfl
    change (if key.1 = .inviteClaims then _ else w.stands.claims) = _ at hheld
    split at hheld
    · cases hheld
    · exact hheld
  | _ => exact hold rfl ⟨pid, hheld⟩ hfl

/-- A call that returns has just left the lock, so the floor is where it has
left it. -/
theorem anchored_now (h : Inv svc.core s) (hf : Pool.Fires (ingests svc) s e c k s') {r : Ingested}
    (hret : k e.ans = .ret (.ok r)) :
    Anchored svc.core (floorAt s'.mem.kv c.owner c.peer) r.deviceSet := by
  obtain ⟨w, hv, hmay, ⟨ho, hp⟩, hv'⟩ := h.self hf
  obtain ⟨hlt, -⟩ := List.getElem?_eq_some_iff.mp hf.thread
  have hth : s'.threads[e.tid]? = some ⟨c, .ret (.ok r)⟩ := by
    rw [hf.threads, List.getElem?_set_self hlt, hret]
  have hpost := (System.conforms_fires h.conforms hf trivial).result hth
  have hmon : view s' e.tid = some (Pool.mon monitor (Seen.start c) e.tid s'.log) :=
    System.view_thread hth
  rw [hv', Option.some.injEq] at hmon
  rw [← hmon] at hpost
  obtain ⟨hleft, f, hfl, hanchored⟩ := hpost.2 r rfl
  have hleaves : leaves e.op = true := by
    change (w.left || leaves e.op) = true at hleft
    rw [hmay.1, Bool.false_or] at hleft
    exact hleft
  obtain ⟨t, op, ans, fate⟩ := e
  cases op with
  | release key pid =>
    have htable : key.1 = .inviteClaims := of_decide_eq_true hleaves
    have hkey : key = ingestLock w.owner w.peer := hmay.2.2 htable
    subst hkey
    have hin : w.Inside := ⟨pid, hmay.2.1⟩
    have hkept := floor_kept hf (o := w.owner) (p := w.peer) rfl
    rw [← ho, ← hp, hkept, h.known t w f hv hin hfl]
    exact hanchored
  | _ => cases hleaves

/-- Either the call had returned before, or it returns with this event. -/
theorem accepted_cases (hf : Pool.Fires (ingests svc) s e c k s') {t : Nat} {c' : IngestArgs}
    {r : Ingested} (ha : Accepted s' t c' r) :
    Accepted s t c' r ∨ (c' = c ∧ k e.ans = .ret (.ok r)) := by
  unfold Accepted at ha
  rw [hf.threads] at ha
  by_cases ht : e.tid = t
  · subst ht
    obtain ⟨hlt, -⟩ := List.getElem?_eq_some_iff.mp hf.thread
    rw [List.getElem?_set_self hlt, Option.some.injEq, Thread.mk.injEq] at ha
    exact .inr ⟨ha.1.symm, ha.2⟩
  · rw [List.getElem?_set_ne ht] at ha
    exact .inl ha

theorem keeps_accepted (h : Inv svc.core s) (hf : Pool.Fires (ingests svc) s e c k s') {t : Nat}
    {c' : IngestArgs} {r : Ingested} (ha : Accepted s' t c' r) :
    Below svc.core (floorAt s'.mem.kv c'.owner c'.peer) r.deviceSet := by
  rcases accepted_cases hf ha with ha | ⟨rfl, hret⟩
  · have hbelow := h.accepted t c' r ha
    obtain heq | ⟨-, revision, binding, hr, heq⟩ := h.floor_cases hf c'.owner c'.peer
    · rw [heq]
      exact hbelow
    · rw [heq]
      exact below_raised hbelow hr
  · exact .inr (h.anchored_now hf hret)

theorem fires (h : Inv svc.core s) (hf : Pool.Fires (ingests svc) s e c k s') :
    Inv svc.core s' where
  conforms := System.conforms_fires h.conforms hf trivial
  locked := by
    obtain ⟨w, hv, hmay, -⟩ := h.self hf
    refine h.locked.fires (S := ingests svc) rfl hf ?_
    rw [← view_stands hv]
    exact hmay.2.1
  known t w f hv hin hfl := by
    by_cases ht : e.tid = t
    · subst ht
      obtain ⟨w₀, hv₀, hmay, -, hv'⟩ := h.self hf
      rw [hv, Option.some.injEq] at hv'
      subst hv'
      exact h.known_self (w := w₀) hf hv₀ hmay hin hfl
    · exact h.known_other hf ht hv hin hfl
  accepted t c' r ha := h.keeps_accepted hf ha
  agree t t' c₁ c₂ r r' ha ha' ho hp hrev := by
    have hbelow := h.keeps_accepted hf ha
    have hbelow' := h.keeps_accepted hf ha'
    rcases accepted_cases hf ha with hold | ⟨rfl, hret⟩
    · rcases accepted_cases hf ha' with hold' | ⟨rfl, hret'⟩
      · exact h.agree t t' c₁ c₂ r r' hold hold' ho hp hrev
      · rw [ho, hp] at hbelow
        exact (below_anchored (h.anchored_now hf hret') hbelow hrev.symm).symm
    · rw [← ho, ← hp] at hbelow'
      exact below_anchored (h.anchored_now hf hret) hbelow' hrev

theorem accepted_spawn {t : Nat} {c' : IngestArgs} {r : Ingested} (h : Inv svc.core s)
    (hhash : ∀ x, (svc.core.authorityHash x).isEmpty = false)
    (ha : Accepted (s.spawn (ingests svc) c) t c' r) : Accepted s t c' r := by
  have hpost := (System.conforms_spawn (S := ingests svc) h.conforms (obeys_run hhash c)).result ha
  unfold Accepted Pool.spawn at ha
  rcases Nat.lt_trichotomy t s.threads.length with hlt | heq | hgt
  · rw [List.getElem?_append_left hlt] at ha
    exact ha
  · -- a new call has left no lock
    subst heq
    have hstart : Pool.mon monitor (Seen.start c') s.threads.length (s.spawn (ingests svc) c).log =
        .start c' :=
      Pool.mon_start fun e he => Nat.ne_of_lt (h.conforms.tids e he)
    rw [hstart] at hpost
    cases (hpost.2 r rfl).1
  · rw [List.getElem?_eq_none (by simp only [List.length_append, List.length_singleton]; omega)]
      at ha
    cases ha

theorem spawn (h : Inv svc.core s) (hhash : ∀ x, (svc.core.authorityHash x).isEmpty = false)
    (c : IngestArgs) : Inv svc.core (s.spawn (ingests svc) c) where
  conforms := System.conforms_spawn h.conforms (obeys_run hhash c)
  locked := h.locked
  known t w f hv hin hfl := by
    rcases h.conforms.view_spawned hv with ⟨-, rfl⟩ | hv
    · cases hfl
    · exact h.known t w f hv hin hfl
  accepted t c' r ha := h.accepted t c' r (h.accepted_spawn hhash ha)
  agree t t' c₁ c₂ r r' ha ha' :=
    h.agree t t' c₁ c₂ r r' (h.accepted_spawn hhash ha) (h.accepted_spawn hhash ha')

/-- When no call is in flight nobody stands in a lock. -/
theorem out_of_quiescent (h : Inv svc.core s) (hq : Quiescent s) (t : Nat) :
    stands t s.log = .out := by
  cases hth : s.threads[t]? with
  | none =>
    refine Pool.mon_start fun e he => ?_
    have hlt := h.conforms.tids e he
    have hge := List.getElem?_eq_none_iff.mp hth
    omega
  | some th =>
    obtain ⟨c, p⟩ := th
    obtain ⟨x, hx⟩ := hq _ (List.mem_of_getElem? hth)
    dsimp only at hx
    subst hx
    have hpost := h.conforms.result hth
    rw [← mon_seen c t s.log]
    exact hpost.1

theorem restarts (h : Inv svc.core s) (hr : Restarts s s') : Inv svc.core s' := by
  obtain ⟨m, threads, log⟩ := s
  obtain ⟨m', threads', log'⟩ := s'
  obtain ⟨hquiet, hthreads, hlog, hkv, hlocks⟩ := hr
  dsimp only at hthreads hlog hkv hlocks
  subst hthreads
  subst hlog
  have hout := h.out_of_quiescent hquiet
  refine ⟨⟨h.conforms.tids, h.conforms.obeys⟩, locked_restart hlocks hout, fun t w f hv hin _ => ?_,
    fun t c r ha => ?_,
    h.agree⟩
  · obtain ⟨pid, hheld⟩ := hin
    rw [view_stands hv, hout] at hheld
    cases hheld
  · rw [show (⟨m', threads', log'⟩ : IngestState Snap).mem.kv = m.kv from hkv]
    exact h.accepted t c r ha

end Inv

theorem inv_init {m : Mem Snap} (h : m.locks = PromiseLock.empty) :
    Inv svc.core (⟨m, [], []⟩ : IngestState Snap) where
  conforms := System.conforms_init m
  locked := locked_init h
  known t w f hv := by
    rw [view, System.view_init] at hv
    cases hv
  accepted t c r ha := by
    unfold Accepted at ha
    rw [List.getElem?_nil] at ha
    cases ha
  agree t t' c c' r r' ha := by
    unfold Accepted at ha
    rw [List.getElem?_nil] at ha
    cases ha

theorem inv_inductive (hhash : ∀ x, (svc.core.authorityHash x).isEmpty = false) :
    (lives svc).Inductive (Inv svc.core) where
  init := by
    rintro ⟨m, ts, log⟩ ⟨hm, rfl, rfl⟩
    exact inv_init hm
  step s l s' h hs := by
    cases l with
    | none => exact h.restarts hs
    | some l =>
      exact System.keeps_of (fun _ c h _ => Inv.spawn h hhash c)
        (fun _ _ _ _ _ h hf _ => Inv.fires h hf) s l s' h hs

/-! ## The result -/

theorem step_monotone {s s' : IngestState Snap} {l : Option (Label Fate IngestArgs)}
    (h : Inv svc.core s) (hs : (lives svc).step s l s') (o p : Id) :
    (floorAt s.mem.kv o p).revision ≤ (floorAt s'.mem.kv o p).revision := by
  cases l with
  | none =>
    have hkv : s'.mem.kv = s.mem.kv := Restarts.kv hs
    rw [hkv]
  | some l =>
    obtain ⟨c, -, rfl⟩ | ⟨e, c, k, hf, -⟩ := System.step_cases hs
    · exact Nat.le_refl _
    · exact h.monotone hf o p

theorem run_monotone (hhash : ∀ x, (svc.core.authorityHash x).isEmpty = false)
    {s s' : IngestState Snap} {ls : List (Option (Label Fate IngestArgs))}
    (hrun : (lives svc).Run s ls s') (h : Inv svc.core s) (o p : Id) :
    (floorAt s.mem.kv o p).revision ≤ (floorAt s'.mem.kv o p).revision := by
  induction hrun with
  | nil s => exact Nat.le_refl _
  | cons hs _ ih =>
    exact Nat.le_trans (step_monotone h hs o p) (ih ((inv_inductive hhash).step _ _ _ h hs))

/-- Two sets that the floor is bound to at one revision have one content. -/
theorem same_members {core : Core Snap} {set set' : DeviceSetRecord}
    (h : contentOf core set = contentOf core set') :
    set.accountIdentityPublicKeyB64 = set'.accountIdentityPublicKeyB64 ∧
    ∀ d, d ∈ set.devices ↔ d ∈ set'.devices := by
  simp only [contentOf, AuthorityContent.mk.injEq] at h
  refine ⟨h.2.2.1, fun d => ?_⟩
  have hperm : ∀ l : List DeviceEntry, d ∈ sortByText core (·.deviceId.val) l ↔ d ∈ l :=
    fun l => (List.perm_insertionSort _ l).mem_iff
  rw [← hperm set.devices, ← hperm set'.devices, h.2.2.2.2]

/-- **Rollback and equivocation protection**, over every life of the
process. -/
theorem floor_guards (svc : DeviceService Snap)
    (hhash : ∀ x, (svc.core.authorityHash x).isEmpty = false) : Guarded svc where
  monotone s s' ls hr hrun o p := run_monotone hhash hrun ((inv_inductive hhash).reachable s hr) o p
  current s l s' hr hs t c r ha hnew := by
    have h := (inv_inductive hhash).reachable s hr
    cases l with
    | none =>
      refine absurd ?_ hnew
      have hthreads : s'.threads = s.threads := Restarts.threads hs
      unfold Accepted
      rw [← hthreads]
      exact ha
    | some l =>
      obtain ⟨c', -, rfl⟩ | ⟨e, c', k, hf, -⟩ := System.step_cases hs
      · exact absurd (h.accepted_spawn hhash ha) hnew
      · rcases Inv.accepted_cases hf ha with ha | ⟨rfl, hret⟩
        · exact absurd ha hnew
        · exact Nat.le_of_eq (h.anchored_now hf hret).1
  agree s hr t t' c c' r r' ha ha' ho hp hrev hfree := by
    have hbinding := ((inv_inductive hhash).reachable s hr).agree t t' c c' r r' ha ha' ho hp hrev
    exact same_members (hfree hbinding)

/-- A run without restarts. -/
theorem lives_of_reachable {s : IngestState Snap} (h : ((ingests svc).lts anyIngests).Reachable s) :
    (lives svc).Reachable s := by
  obtain ⟨s₀, ls, hinit, hrun⟩ := h
  refine ⟨s₀, ls.map some, hinit, ?_⟩
  clear hinit
  induction hrun with
  | nil s => exact .nil s
  | cons hs _ ih => exact .cons (l := some _) hs ih

namespace Example

open Counting

def judge : System.Judge (anyIngests : IngestRules Nat) where
  may _ _ := true
  ok _ _ := true
  may_iff _ _ _ := trivial
  ok_iff _ _ _ := trivial

def args : IngestArgs where
  owner := a
  peer := b
  record := sealedSet
  nowMs := none

/-- Call `t` has returned a set at revision 1. -/
def returned (s : IngestState Nat) (t : Nat) : Bool :=
  match s.threads[t]? with
  | some ⟨_, .ret (.ok r)⟩ => r.deviceSet = deviceSet 1 [device d]
  | _ => false

def accepted (s : IngestState Nat) : Bool :=
  (floorAt s.mem.kv a b).revision = 1 && returned s 0 && returned s 1

theorem hash_text (x : AuthorityContent) : (tablet.core.authorityHash x).isEmpty = false := by
  change (if x.devices.length = 1 then "one" else "more").isEmpty = false
  split <;> rfl

end Example

open Example Counting in
/-- Two calls for one set over a floor of the first shape. -/
theorem floor_guards_legacy :
    (∃ s, (lives tablet).Reachable s ∧ accepted s = true) ∧ Guarded tablet := by
  obtain ⟨s, hr, hs⟩ := System.reachable_of_play (S := ingests tablet) judge smooth
    [.call args, .call args, .go 0 37, .go 1 23]
    (m := .ofStore (peered.insert (.deviceSetFloor a b) (.bare 1)) []) (P := accepted) rfl
    (by decide +kernel)
  exact ⟨⟨s, lives_of_reachable hr, hs⟩, floor_guards tablet hash_text⟩

end RezSdk.L4.SetFloor
