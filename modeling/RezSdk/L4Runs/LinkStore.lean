import RezSdk.L3Service.Counting
import RezSdk.L4Runs.Windows

/-!
# The optimistic lock of the peer-link store

`peerLinks.create` looks for a record and for an index entry of the pair and
then writes both; `peerLinks.update` compares the stored version with
`expectedVersion` and then writes the next one. Each is a check and a write
with nothing in between to hold the key, so two creates of one pair, or two
updates with one `expectedVersion`, can both pass (`both_updates_pass`), and a
create that breaks off between its two writes leaves a record that no index
names.

When every write finds its key as it was read, and no create stands between
its two writes while another one of the pair writes, the store is what its
callers take it for (`optimistic_lock`): one record for a pair, one success
for a version, and versions that grow.
-/
namespace RezSdk.L4.LinkStore

open RezSdk.L1 RezSdk.L2 RezSdk.L3

variable {Snap : Type}

inductive LinkCall
  | create (record : PeerLinkRecord)
  | update (record : PeerLinkRecord) (expectedVersion : Nat)
deriving DecidableEq

def LinkCall.record : LinkCall → PeerLinkRecord
  | .create r => r
  | .update r _ => r

/-- The keys a call works on. -/
def LinkCall.key (c : LinkCall) : Key := .peerLink c.record.localAccountId c.record.peerLinkId
def LinkCall.pair (c : LinkCall) : Key := .pair c.record.localAccountId c.record.peerAccountId

abbrev LinkState (Snap : Type) := Pool (sdk Snap) (Mem Snap) Fate LinkCall
    (Except Err PeerLinkRecord)
abbrev LinkRules (Snap : Type) := Discipline (sdk Snap) (Mem Snap) Fate LinkCall
    (Except Err PeerLinkRecord)

def run : LinkCall → Sdk Snap PeerLinkRecord
  | .create r => PeerLinks.create r
  | .update r v => PeerLinks.update r v

/-- Any number of creates and updates over one store. -/
def linkCalls (core : Core Snap) :
    System (sdk Snap) (Mem Snap) Fate LinkCall (Except Err PeerLinkRecord) :=
  ⟨act core, run⟩

/-! ## The property -/

/-- The versions that were written under a record key, newest first. -/
def versions (owner link : Id) : List (Event (sdk Snap) Fate) → List Nat
  | [] => []
  | e :: log =>
    match e.op with
    | .set (.peerLink o i) r =>
      if o = owner ∧ i = link ∧ e.fate.lands = true
        then normalizeVersion r.version :: versions owner link log
      else versions owner link log
    | _ => versions owner link log

/-- Update `t` has returned. -/
def Updated (s : LinkState Snap) (t : Nat) (record : PeerLinkRecord) (expectedVersion : Nat) :
    Prop :=
  ∃ r : PeerLinkRecord, s.threads[t]? = some ⟨.update record expectedVersion, .ret (.ok r)⟩

structure Locked (s : LinkState Snap) : Prop where
  /-- at most one record for a pair -/
  one : ∀ o i i' r r', s.mem.kv.lookup (.peerLink o i) = some r →
    s.mem.kv.lookup (.peerLink o i') = some r' →
    r.peerAccountId = r'.peerAccountId → i = i'
  /-- the pair index names it once no call is in flight -/
  named : (∀ th ∈ s.threads, ∃ x, th.proc = .ret x) →
    ∀ o i r, s.mem.kv.lookup (.peerLink o i) = some r →
    s.mem.kv.lookup (.pair o r.peerAccountId) = some i
  /-- no two updates of a record succeed with one expected version -/
  distinct : ∀ t t' r r' v v', t ≠ t' → Updated s t r v → Updated s t' r' v' →
    r.localAccountId = r'.localAccountId → r.peerLinkId = r'.peerLinkId → v ≠ v'
  /-- the version of a record grows with every write -/
  grows : ∀ o i, (versions o i s.log).Pairwise (· > ·)
  /-- and every successful update has written the version after its own -/
  written : ∀ t r v, Updated s t r v → v + 1 ∈ versions r.localAccountId r.peerLinkId s.log

/-! ## The runs -/

/-- Every record lies under its ids and is named by its pair. -/
structure Kept (kv : Store Snap) : Prop where
  keyed : ∀ o i r, kv.lookup (.peerLink o i) = some r → r.localAccountId = o ∧ r.peerLinkId = i
  paired : ∀ o i r, kv.lookup (.peerLink o i) = some r →
    kv.lookup (.pair o r.peerAccountId) = some i
  indexed : ∀ o p i, kv.lookup (.pair o p) = some i → ∃ r, kv.lookup (.peerLink o i) = some r ∧
    r.peerAccountId = p

def anyCalls : LinkRules Snap where
  init m := Kept m.kv
  may _ _ := True
  ok _ _ := True

/-- Call `t` has written `k`. -/
def Wrote (s : LinkState Snap) (t : Nat) (k : Key) : Prop :=
  ∃ e ∈ s.log, e.tid = t ∧ alters k e.op e.fate = true

/-- A create of the pair stands between its two writes. -/
def HalfMade (s : LinkState Snap) (pair : Key) : Prop :=
  ∃ t r p, s.threads[t]? = some ⟨.create r, p⟩ ∧ (LinkCall.create r).pair = pair ∧
    Wrote s t (LinkCall.create r).key ∧ ¬ Wrote s t pair

/-- A record write finds its key as the call read it; one of a create finds
the pair too as it read it, with no other create of the pair half made. A
create does not break off between its writes. -/
def Serial (s : LinkState Snap) (e : Event (sdk Snap) Fate) : Prop :=
  ∀ c p, s.threads[e.tid]? = some ⟨c, p⟩ →
    match c, e.op with
    | .create r, .set (.peerLink ..) _ =>
      undisturbed (LinkCall.create r).key e.tid s.log = true ∧
        undisturbed (LinkCall.create r).pair e.tid s.log = true ∧
        ¬ HalfMade s (LinkCall.create r).pair ∧ ∀ f, e.fate ≠ .landFail f
    | .create _, .set (.pair ..) _ => ∀ f, e.fate ≠ .fail f
    | .update r v, .set (.peerLink ..) _ => undisturbed (LinkCall.update r v).key e.tid s.log = true
    | _, _ => True

def serialCalls : LinkRules Snap where
  init m := Kept m.kv
  may _ _ := True
  ok := Serial

/-! ## One call -/

/-- How far a call is. -/
inductive Phase
  | start
  /-- a create has found no record -/
  | vacant
  /-- a create has found this in the pair index -/
  | free (indexed : Option Id)
  /-- a create has written its record -/
  | made
  /-- an update has found this record, with the version it expects -/
  | checked (current : PeerLinkRecord)
  /-- an update has written its record -/
  | written
  /-- the pair index is written -/
  | done
deriving DecidableEq

abbrev Progress := LinkCall × Phase

/-- The record a create writes. -/
def created (r : PeerLinkRecord) : PeerLinkRecord :=
  { r with version := normalizeVersion r.version }

/-- The record an update writes. -/
def updated (r current : PeerLinkRecord) : PeerLinkRecord :=
  { r with version := normalizeVersion current.version + 1 }

def monitor : Monitor (sdk Snap) Progress where
  next a x :=
    match a.1, x with
    | .create _, ⟨.get (.peerLink ..), .ok none⟩ => (a.1, .vacant)
    | .create _, ⟨.get (.pair ..), .ok v⟩ => (a.1, .free v)
    | .create _, ⟨.set (.peerLink ..) _, .ok ()⟩ => (a.1, .made)
    | .create _, ⟨.set (.pair ..) _, _⟩ => (a.1, .done)
    | .update .., ⟨.get (.peerLink ..), .ok (some r)⟩ => (a.1, .checked r)
    | .update .., ⟨.set (.peerLink ..) _, .ok ()⟩ => (a.1, .written)
    | .update .., ⟨.set (.pair ..) _, _⟩ => (a.1, .done)
    | _, _ => a
  may a o :=
    match a.1, o with
    | .create r, .get (.peerLink ow i) => Key.peerLink ow i = (LinkCall.create r).key ∧ a.2 = .start
    | .create r, .get (.pair ow p) => Key.pair ow p = (LinkCall.create r).pair ∧ a.2 = .vacant
    | .create r, .set (.peerLink ow i) v =>
      Key.peerLink ow i = (LinkCall.create r).key ∧ v = created r ∧
        ∃ indexed, a.2 = .free indexed ∧ ∀ j, indexed = some j → j = r.peerLinkId
    | .create r, .set (.pair ow p) v =>
      Key.pair ow p = (LinkCall.create r).pair ∧ v = r.peerLinkId ∧ a.2 = .made
    | .update r v, .get (.peerLink ow i) =>
      Key.peerLink ow i = (LinkCall.update r v).key ∧ a.2 = .start
    | .update r v, .set (.peerLink ow i) v' => Key.peerLink ow i = (LinkCall.update r v).key ∧
        ∃ current, a.2 = .checked current ∧ v' = updated r current ∧
        normalizeVersion current.version = v ∧
          current.peerAccountId = r.peerAccountId
    | .update r v, .set (.pair ow p) i =>
      Key.pair ow p = (LinkCall.update r v).pair ∧ i = r.peerLinkId ∧ a.2 = .written
    | _, _ => False

/-- A call that ends has not broken off between the writes of a create, and an
update that succeeds has made both of its writes. -/
def Post (c : LinkCall) (a : Progress) (x : Except Err PeerLinkRecord) : Prop :=
  a.2 ≠ .made ∧ (∀ r v y, c = .update r v → x = .ok y → a.2 = .done)

theorem obeys_create (r : PeerLinkRecord) :
    Obeys (monitor : Monitor (sdk Snap) Progress) (fun _ => True) (Post (.create r))
      (.create r, .start) (PeerLinks.create r) := by
  have hcreate : ∀ (x : Except Err PeerLinkRecord) (a : Progress), a.2 ≠ .made →
      Post (.create r) a x :=
    fun _ _ ha => ⟨ha, fun _ _ _ h => by cases h⟩
  refine obeys_js_bind ⟨⟨rfl, rfl⟩, fun existing _ => ?_⟩
  match existing with
  | .error e => exact hcreate _ _ nofun
  | .ok (some r') => exact hcreate _ _ nofun
  | .ok none =>
    refine obeys_js_bind ⟨⟨rfl, rfl⟩, fun indexed _ => ?_⟩
    match indexed with
    | .error e => exact hcreate _ _ nofun
    | .ok v =>
      refine obeys_js_bind (obeys_ensure (fun hv => ?_) fun _ => hcreate _ _ nofun)
      have hfree : ∀ j, v = some j → j = r.peerLinkId := by
        rintro j rfl
        exact of_decide_eq_true hv
      refine obeys_js_bind ⟨⟨rfl, rfl, v, rfl, hfree⟩, fun stored _ => ?_⟩
      match stored with
      | .error e => exact hcreate _ _ nofun
      | .ok () =>
        refine obeys_js_bind ⟨⟨rfl, rfl, rfl⟩, fun last _ => ?_⟩
        match last with
        | .error e => exact hcreate _ _ nofun
        | .ok () => exact hcreate _ _ nofun

theorem obeys_update (r : PeerLinkRecord) (v : Nat) :
    Obeys (monitor : Monitor (sdk Snap) Progress) (fun _ => True) (Post (.update r v))
      (.update r v, .start) (PeerLinks.update r v) := by
  have herror : ∀ (e : Err) (a : Progress), a.2 ≠ .made → Post (.update r v) a (.error e) :=
    fun _ _ ha => ⟨ha, fun _ _ _ _ h => by cases h⟩
  refine obeys_js_bind ⟨⟨rfl, rfl⟩, fun stored _ => ?_⟩
  match stored with
  | .error e => exact herror _ _ nofun
  | .ok none => exact herror _ _ nofun
  | .ok (some current) =>
    refine obeys_js_bind (obeys_orThrow (fun current hcurrent => ?_) fun h => by cases h)
    cases hcurrent
    refine obeys_js_bind (obeys_ensure (fun _ => ?_) fun _ => herror _ _ nofun)
    refine obeys_js_bind (obeys_ensure (fun hversion => ?_) fun _ => herror _ _ nofun)
    refine obeys_js_bind (obeys_ensure (fun _ => ?_) fun _ => herror _ _ nofun)
    refine obeys_js_bind (obeys_ensure (fun hpeer => ?_) fun _ => herror _ _ nofun)
    refine obeys_js_bind ⟨⟨rfl, current, rfl, rfl, of_decide_eq_true hversion,
      of_decide_eq_true hpeer⟩,
      fun written _ => ?_⟩
    match written with
    | .error e => exact herror _ _ nofun
    | .ok () =>
      refine obeys_js_bind ⟨⟨rfl, rfl, rfl⟩, fun last _ => ?_⟩
      match last with
      | .error e => exact herror _ _ nofun
      | .ok () => exact ⟨nofun, fun _ _ _ _ _ => rfl⟩

theorem obeys_run (c : LinkCall) :
    Obeys (monitor : Monitor (sdk Snap) Progress) (fun _ => True) (Post c) (c, .start) (run c) := by
  cases c with
  | create r => exact obeys_create r
  | update r v => exact obeys_update r v

/-! ## All of them -/

abbrev Conforms (s : LinkState Snap) : Prop :=
  System.Conforms monitor (fun _ => True) (fun c : LinkCall => (c, Phase.start)) Post s

/-- The call and the phase of thread `t`. -/
def view (s : LinkState Snap) (t : Nat) : Option Progress :=
  System.view monitor (fun c : LinkCall => (c, Phase.start)) s t

theorem next_call (a : Progress) (x : Proc.Exch (sdk Snap)) : (monitor.next a x).1 = a.1 := by
  unfold monitor
  dsimp only
  split <;> rfl

theorem mon_call (c : LinkCall) (t : Nat) (log : List (Event (sdk Snap) Fate)) :
    (Pool.mon monitor (c, .start) t log).1 = c := by
  induction log with
  | nil => rfl
  | cons e log ih =>
    by_cases ht : e.tid = t
    · subst ht
      rw [Pool.mon_self, next_call, ih]
    · rw [Pool.mon_other ht, ih]

theorem view_call {s : LinkState Snap} {t : Nat} {a : Progress} (h : view s t = some a) :
    ∃ p, s.threads[t]? = some ⟨a.1, p⟩ := by
  obtain ⟨⟨c, p⟩, hth, hmon⟩ := Option.map_eq_some_iff.mp h
  refine ⟨p, ?_⟩
  rw [hth, ← hmon, mon_call]

theorem normalizeVersion_updated (r current : PeerLinkRecord) :
    normalizeVersion (updated r current).version = normalizeVersion current.version + 1 := by
  unfold updated
  exact if_pos (Nat.succ_pos _)

/-- The two phases after an update's record write. -/
def Phase.late : Phase → Bool
  | .written => true
  | .done => true
  | _ => false

structure Inv (s : LinkState Snap) : Prop where
  conforms : Conforms s
  keyed : ∀ o i r, s.mem.kv.lookup (.peerLink o i) = some r → r.localAccountId = o ∧
    r.peerLinkId = i
  indexed : ∀ o p i, s.mem.kv.lookup (.pair o p) = some i →
    ∃ r, s.mem.kv.lookup (.peerLink o i) = some r ∧ r.peerAccountId = p
  /-- a record is named by its pair, or its create will name it -/
  paired : ∀ o i r, s.mem.kv.lookup (.peerLink o i) = some r →
    s.mem.kv.lookup (.pair o r.peerAccountId) = some i ∨
    ∃ t r', view s t = some (.create r', .made) ∧ r'.localAccountId = o ∧ r'.peerLinkId = i ∧
      r'.peerAccountId = r.peerAccountId
  one : ∀ o i i' r r', s.mem.kv.lookup (.peerLink o i) = some r →
    s.mem.kv.lookup (.peerLink o i') = some r' →
    r.peerAccountId = r'.peerAccountId → i = i'
  made : ∀ t r, view s t = some (.create r, .made) →
    (∃ r', s.mem.kv.lookup (LinkCall.create r).key = some r' ∧ r'.peerAccountId = r.peerAccountId) ∧
      Wrote s t (LinkCall.create r).key
  unnamed : ∀ t r ph, view s t = some (.create r, ph) → ph ≠ .done →
    ¬ Wrote s t (LinkCall.create r).pair
  vacant : ∀ t r ph, view s t = some (.create r, ph) → ph = .vacant ∨ (∃ v, ph = .free v) →
    undisturbed (LinkCall.create r).key t s.log = true →
      s.mem.kv.lookup (LinkCall.create r).key = none
  free : ∀ t r v, view s t = some (.create r, .free v) →
    undisturbed (LinkCall.create r).pair t s.log = true →
    s.mem.kv.lookup (LinkCall.create r).pair = v
  checked : ∀ t r v current, view s t = some (.update r v, .checked current) →
    undisturbed (LinkCall.update r v).key t s.log = true →
    s.mem.kv.lookup (LinkCall.update r v).key = some current
  late : ∀ t r v ph, view s t = some (.update r v, ph) → ph.late = true →
    (∃ r', s.mem.kv.lookup (LinkCall.update r v).key = some r' ∧ v < normalizeVersion r'.version ∧
      r'.peerAccountId = r.peerAccountId) ∧ v + 1 ∈ versions r.localAccountId r.peerLinkId s.log
  distinct : ∀ t t' r r' v v' ph ph', t ≠ t' → view s t = some (.update r v, ph) →
    view s t' = some (.update r' v', ph') →
    ph.late = true → ph'.late = true → (LinkCall.update r v).key = (LinkCall.update r' v').key →
      v ≠ v'
  versions : ∀ o i, (versions o i s.log).Pairwise (· > ·) ∧
    ∀ w ∈ LinkStore.versions o i s.log, ∃ r, s.mem.kv.lookup (.peerLink o i) = some r ∧
    w ≤ normalizeVersion r.version

section

variable {core : Core Snap} {s s' : LinkState Snap} {e : Event (sdk Snap) Fate} {c : LinkCall}
  {k : (sdk Snap).Ans e.op → Proc (sdk Snap) (Except Err PeerLinkRecord)} {a : Progress}

theorem view_self (h : Conforms s) (hf : Pool.Fires (linkCalls core) s e c k s') :
    ∃ a, view s e.tid = some a ∧ monitor.may a e.op ∧
      view s' e.tid = some (monitor.next a e.exch) :=
  ⟨_, System.view_fired hf, h.may hf, System.view_self hf⟩

theorem view_other (hf : Pool.Fires (linkCalls core) s e c k s') {t : Nat} (ht : e.tid ≠ t) :
    view s' t = view s t :=
  System.view_other hf ht

theorem view_cases (hf : Pool.Fires (linkCalls core) s e c k s') {a b : Progress} {t : Nat}
    (ha : view s' e.tid = some a) (hb : view s' t = some b) :
    t = e.tid ∧ b = a ∨ e.tid ≠ t ∧ view s t = some b :=
  System.view_cases hf ha hb

theorem view_stays (hf : Pool.Fires (linkCalls core) s e c k s') {a b : Progress} {t : Nat}
    (ha : view s e.tid = some a) (hb : view s t = some b) :
    t = e.tid ∧ b = a ∨ e.tid ≠ t ∧ view s' t = some b :=
  System.view_stays hf ha hb

theorem wrote_step (hf : Pool.Fires (linkCalls core) s e c k s') {t : Nat} {key : Key} :
    Wrote s' t key ↔ Wrote s t key ∨ e.tid = t ∧ alters key e.op e.fate = true := by
  unfold Wrote
  rw [hf.log]
  constructor
  · rintro ⟨e', he', ht, ha⟩
    rcases List.mem_cons.mp he' with rfl | he'
    · exact .inr ⟨ht, ha⟩
    · exact .inl ⟨e', he', ht, ha⟩
  · rintro (⟨e', he', hrest⟩ | ⟨ht, ha⟩)
    · exact ⟨e', .tail _ he', hrest⟩
    · exact ⟨e, .head _, ht, ha⟩

theorem versions_other {o i : Id} {log : List (Event (sdk Snap) Fate)}
    (h : alters (.peerLink o i) e.op e.fate = false) :
    versions o i (e :: log) = versions o i log := by
  rw [versions]
  split
  · rename_i o' i' r hop
    rw [if_neg]
    rintro ⟨rfl, rfl, hl⟩
    rw [hop] at h
    simp [alters, hl] at h
  · rfl

theorem versions_self {o i : Id} {r : PeerLinkRecord} {log : List (Event (sdk Snap) Fate)}
    (hop : e.op = .set (.peerLink o i) r) (hl : e.fate.lands = true) :
    versions o i (e :: log) = normalizeVersion r.version :: versions o i log := by
  obtain ⟨t, op, ans, f⟩ := e
  cases hop
  exact if_pos ⟨rfl, rfl, hl⟩

theorem versions_suffix (hf : Pool.Fires (linkCalls core) s e c k s') {o i : Id} :
    versions o i s.log <:+ versions o i s'.log := by
  rw [hf.log, versions]
  split
  · split
    · exact List.suffix_cons _ _
    · exact List.suffix_rfl
  · exact List.suffix_rfl

theorem lookup_step (hf : Pool.Fires (linkCalls core) s e c k s') {key : Key}
    (h : alters key e.op e.fate = false) : s'.mem.kv.lookup key = s.mem.kv.lookup key := by
  rw [kv_of_fires (S := linkCalls core) rfl hf]
  exact lookup_unaltered h

theorem alters_set {key k₀ : Key} {v : Val Snap k₀} {f : Fate} (h : k₀ ≠ key) :
    alters key (.set k₀ v) f = false := by
  simp [alters, h]

theorem lookup_written {k₀ : Key} {v : Val Snap k₀} (hf : Pool.Fires (linkCalls core) s e c k s')
    (hop : e.op = .set k₀ v) (hl : e.fate.lands = true) : s'.mem.kv.lookup k₀ = some v := by
  rw [kv_of_fires (S := linkCalls core) rfl hf, hop]
  simp only [effect, hl, if_true]
  exact AList.lookup_insert _

/-- A write leaves the other keys, and the versions of the other records. -/
theorem lookup_set {k₀ key : Key} {v : Val Snap k₀} (hf : Pool.Fires (linkCalls core) s e c k s')
    (hop : e.op = .set k₀ v) (hne : k₀ ≠ key) :
    s'.mem.kv.lookup key = s.mem.kv.lookup key := by
  refine lookup_step hf ?_
  rw [hop]
  exact alters_set hne

theorem versions_set {k₀ : Key} {v : Val Snap k₀} (hf : Pool.Fires (linkCalls core) s e c k s')
    (hop : e.op = .set k₀ v) {o i : Id} (hne : k₀ ≠ .peerLink o i) :
    versions o i s'.log = versions o i s.log := by
  rw [hf.log]
  refine versions_other ?_
  rw [hop]
  exact alters_set hne

/-! ### What the other calls know -/

/-- What the windows of the other calls say stays true. -/
theorem window_step (hf : Pool.Fires (linkCalls core) s e c k s') {t : Nat} (ht : e.tid ≠ t)
    {key : Key} (hu : undisturbed key t s'.log = true) :
    undisturbed key t s.log = true ∧ s'.mem.kv.lookup key = s.mem.kv.lookup key :=
  undisturbed_step (S := linkCalls core) rfl hf (fun hr => ht hr.1) hu

theorem Inv.vacant_step (h : Inv s) (hf : Pool.Fires (linkCalls core) s e c k s') {t : Nat}
    {r : PeerLinkRecord} {ph : Phase} (ht : e.tid ≠ t) (hv : view s t = some (.create r, ph))
    (hp : ph = .vacant ∨ ∃ v, ph = .free v)
    (hu : undisturbed (LinkCall.create r).key t s'.log = true) :
    s'.mem.kv.lookup (LinkCall.create r).key = none := by
  obtain ⟨hu₀, hlook⟩ := window_step hf ht hu
  exact hlook.trans (h.vacant t r ph hv hp hu₀)

theorem Inv.free_step (h : Inv s) (hf : Pool.Fires (linkCalls core) s e c k s') {t : Nat}
    {r : PeerLinkRecord} {v : Option Id} (ht : e.tid ≠ t)
    (hv : view s t = some (.create r, .free v))
    (hu : undisturbed (LinkCall.create r).pair t s'.log = true) :
    s'.mem.kv.lookup (LinkCall.create r).pair = v := by
  obtain ⟨hu₀, hlook⟩ := window_step hf ht hu
  exact hlook.trans (h.free t r v hv hu₀)

theorem Inv.checked_step (h : Inv s) (hf : Pool.Fires (linkCalls core) s e c k s') {t : Nat}
    {r current : PeerLinkRecord} {v : Nat} (ht : e.tid ≠ t)
    (hv : view s t = some (.update r v, .checked current))
    (hu : undisturbed (LinkCall.update r v).key t s'.log = true) :
    s'.mem.kv.lookup (LinkCall.update r v).key = some current := by
  obtain ⟨hu₀, hlook⟩ := window_step hf ht hu
  exact hlook.trans (h.checked t r v current hv hu₀)

/-! ### The steps -/

/-- A step that writes nothing. Its call may learn what it read. -/
theorem Inv.still (h : Inv s) (hf : Pool.Fires (linkCalls core) s e c k s')
    (hq : ∀ key, alters key e.op e.fate = false) (ha : view s e.tid = some a) {ph : Phase}
    (ha' : view s' e.tid = some (a.1, ph)) (hmade : a.2 ≠ .made ∧ ph ≠ .made)
    (hlate : ph.late = true → a.2.late = true) (hdone : a.2 = .done → ph = .done)
    (hvacant : ∀ r, a.1 = .create r → ph = .vacant ∨ (∃ v, ph = .free v) →
        undisturbed (LinkCall.create r).key e.tid s'.log = true →
        s.mem.kv.lookup (LinkCall.create r).key = none)
    (hfree : ∀ r v, a.1 = .create r → ph = .free v →
        undisturbed (LinkCall.create r).pair e.tid s'.log = true →
        s.mem.kv.lookup (LinkCall.create r).pair = v)
    (hchecked : ∀ r v current, a.1 = .update r v → ph = .checked current →
        undisturbed (LinkCall.update r v).key e.tid s'.log = true →
        s.mem.kv.lookup (LinkCall.update r v).key = some current) : Inv s' := by
  have hlook : ∀ key, s'.mem.kv.lookup key = s.mem.kv.lookup key :=
    fun key => lookup_step hf (hq key)
  have hwrote : ∀ t key, Wrote s' t key ↔ Wrote s t key := by
    intro t key
    rw [wrote_step hf, hq key]
    simp
  have hvers : ∀ o i, LinkStore.versions o i s'.log = LinkStore.versions o i s.log := by
    intro o i
    rw [hf.log]
    exact versions_other (hq _)
  -- a call that is made or late now was so before
  have hback : ∀ t b, view s' t = some b → ∃ b₀, view s t = some b₀ ∧ b₀.1 = b.1 ∧
      (b.2 = .made → b₀.2 = .made) ∧
      (b.2.late = true → b₀.2.late = true) ∧ (b.2 ≠ .done → b₀.2 ≠ .done) := by
    intro t b hb
    obtain ⟨rfl, rfl⟩ | ⟨-, hb⟩ := view_cases hf ha' hb
    · exact ⟨a, ha, rfl, fun hm => absurd hm hmade.2, hlate, fun hne hd => hne (hdone hd)⟩
    · exact ⟨b, hb, rfl, id, id, id⟩
  refine
    { conforms := System.conforms_fires h.conforms hf trivial
      keyed := fun o i r hr => h.keyed o i r ((hlook _).symm.trans hr)
      indexed := fun o p i hi => ?_
      paired := fun o i r hr => ?_
      one := fun o i i' r r' hr hr' =>
        h.one o i i' r r' ((hlook _).symm.trans hr) ((hlook _).symm.trans hr')
      made := fun t r hv => ?_
      unnamed := fun t r p hv hne => ?_
      vacant := fun t r p hv hp hu => ?_
      free := fun t r v hv hu => ?_
      checked := fun t r v current hv hu => ?_
      late := fun t r v p hv hp => ?_
      distinct := fun t t' r r' v v' p p' hne hv hv' hp hp' hkey => ?_
      versions := fun o i => ?_ }
  · rw [hlook] at hi
    obtain ⟨r, hr, hp⟩ := h.indexed o p i hi
    exact ⟨r, (hlook _).trans hr, hp⟩
  · rw [hlook] at hr ⊢
    rcases h.paired o i r hr with hl | ⟨t, r', hv, hids⟩
    · exact .inl hl
    · obtain ⟨rfl, rfl⟩ | ⟨-, hv⟩ := view_stays hf ha hv
      · exact absurd rfl hmade.1
      · exact .inr ⟨t, r', hv, hids⟩
  · obtain ⟨⟨c₀, p₀⟩, hv₀, hc, hm, -, -⟩ := hback t _ hv
    obtain rfl : c₀ = .create r := hc
    obtain rfl : p₀ = .made := hm rfl
    obtain ⟨⟨r', hr', hp⟩, hw⟩ := h.made t r hv₀
    exact ⟨⟨r', (hlook _).trans hr', hp⟩, (hwrote t _).mpr hw⟩
  · obtain ⟨⟨c₀, p₀⟩, hv₀, hc, -, -, hd⟩ := hback t _ hv
    obtain rfl : c₀ = .create r := hc
    rw [hwrote]
    exact h.unnamed t r p₀ hv₀ (hd hne)
  · obtain ⟨rfl, heq⟩ | ⟨ht, hv⟩ := view_cases hf ha' hv
    · obtain ⟨hc, rfl⟩ := Prod.mk.inj heq
      rw [hlook]
      exact hvacant r hc.symm hp hu
    · exact h.vacant_step hf ht hv hp hu
  · obtain ⟨rfl, heq⟩ | ⟨ht, hv⟩ := view_cases hf ha' hv
    · obtain ⟨hc, hph⟩ := Prod.mk.inj heq
      rw [hlook]
      exact hfree r v hc.symm hph.symm hu
    · exact h.free_step hf ht hv hu
  · obtain ⟨rfl, heq⟩ | ⟨ht, hv⟩ := view_cases hf ha' hv
    · obtain ⟨hc, hph⟩ := Prod.mk.inj heq
      rw [hlook]
      exact hchecked r v current hc.symm hph.symm hu
    · exact h.checked_step hf ht hv hu
  · obtain ⟨⟨c₀, p₀⟩, hv₀, hc, -, hl, -⟩ := hback t _ hv
    obtain rfl : c₀ = .update r v := hc
    rw [hlook, hvers]
    exact h.late t r v p₀ hv₀ (hl hp)
  · obtain ⟨⟨c₀, p₀⟩, hv₀, hc, -, hl, -⟩ := hback t _ hv
    obtain ⟨⟨c₁, p₁⟩, hv₁, hc', -, hl', -⟩ := hback t' _ hv'
    obtain rfl : c₀ = .update r v := hc
    obtain rfl : c₁ = .update r' v' := hc'
    exact h.distinct t t' r r' v v' p₀ p₁ hne hv₀ hv₁ (hl hp) (hl' hp') hkey
  · rw [hvers, hlook]
    exact h.versions o i

/-- Neither the record of a create with clean windows is stored nor an entry of
its pair: the entry would name the record. -/
theorem Inv.vacancy (h : Inv s) {t : Nat} {r : PeerLinkRecord} {v : Option Id}
    (ha : view s t = some (.create r, .free v)) (hv : ∀ j, v = some j → j = r.peerLinkId)
    (hkey : undisturbed (LinkCall.create r).key t s.log = true)
    (hpair : undisturbed (LinkCall.create r).pair t s.log = true) :
    s.mem.kv.lookup (.peerLink r.localAccountId r.peerLinkId) = none ∧
    s.mem.kv.lookup (.pair r.localAccountId r.peerAccountId) = none := by
  have hnone : s.mem.kv.lookup (.peerLink r.localAccountId r.peerLinkId) = none :=
    h.vacant t r _ ha (.inr ⟨v, rfl⟩) hkey
  refine ⟨hnone, ?_⟩
  cases hp : s.mem.kv.lookup (.pair r.localAccountId r.peerAccountId) with
  | none => rfl
  | some i =>
    have hi : i = r.peerLinkId := hv i ((h.free t r v ha hpair).symm.trans hp)
    obtain ⟨r', hr', -⟩ := h.indexed _ _ _ hp
    rw [hi, hnone] at hr'
    cases hr'

/-- With no create of the pair half made, a pair without an entry has no record. -/
theorem Inv.sole (h : Inv s) {r : PeerLinkRecord}
    (hnopair : s.mem.kv.lookup (.pair r.localAccountId r.peerAccountId) = none)
    (hhalf : ¬ HalfMade s (LinkCall.create r).pair) {i : Id} {r' : PeerLinkRecord}
    (hr' : s.mem.kv.lookup (.peerLink r.localAccountId i) = some r') :
    r'.peerAccountId ≠ r.peerAccountId := by
  intro hp
  rcases h.paired _ _ _ hr' with hi | ⟨t, r₁, hv₁, ho₁, -, hp₁⟩
  · rw [hp, hnopair] at hi
    cases hi
  · have hpair : (LinkCall.create r₁).pair = (LinkCall.create r).pair := by
      unfold LinkCall.pair LinkCall.record
      dsimp only
      rw [ho₁, hp₁, hp]
    obtain ⟨p, hth⟩ := view_call hv₁
    refine hhalf ⟨t, r₁, p, hth, hpair, (h.made t r₁ hv₁).2, ?_⟩
    rw [← hpair]
    exact h.unnamed t r₁ _ hv₁ fun hph => by cases hph

/-- A create writes its record. -/
theorem Inv.create (h : Inv s) (hf : Pool.Fires (linkCalls core) s e c k s') {r : PeerLinkRecord}
    {v : Option Id} (hop : e.op = .set (.peerLink r.localAccountId r.peerLinkId) (created r))
    (hl : e.fate.lands = true) (ha : view s e.tid = some (.create r, .free v))
    (hv : ∀ j, v = some j → j = r.peerLinkId) (ha' : view s' e.tid = some (.create r, .made))
    (hkey : undisturbed (LinkCall.create r).key e.tid s.log = true)
    (hpair : undisturbed (LinkCall.create r).pair e.tid s.log = true)
    (hhalf : ¬ HalfMade s (LinkCall.create r).pair) : Inv s' := by
  obtain ⟨hnone, hnopair⟩ := h.vacancy ha hv hkey hpair
  have hself : s'.mem.kv.lookup (.peerLink r.localAccountId r.peerLinkId) = some (created r) :=
    lookup_written hf hop hl
  have hkept : ∀ o i r', s.mem.kv.lookup (.peerLink o i) = some r' →
      s'.mem.kv.lookup (.peerLink o i) = some r' := by
    intro o i r' hr'
    rw [lookup_set hf hop]
    · exact hr'
    · intro heq
      cases heq
      rw [hnone] at hr'
      cases hr'
  have hnew : ∀ o i r', s'.mem.kv.lookup (.peerLink o i) = some r' →
      s.mem.kv.lookup (.peerLink o i) = some r' ∨
      o = r.localAccountId ∧ i = r.peerLinkId ∧ r' = created r := by
    intro o i r' hr'
    by_cases heq : Key.peerLink r.localAccountId r.peerLinkId = Key.peerLink o i
    · cases heq
      rw [hself, Option.some.injEq] at hr'
      exact .inr ⟨rfl, rfl, hr'.symm⟩
    · rw [lookup_set hf hop heq] at hr'
      exact .inl hr'
  have hpairs : ∀ o p, s'.mem.kv.lookup (.pair o p) = s.mem.kv.lookup (.pair o p) :=
    fun o p => lookup_set hf hop fun heq => by cases heq
  have hvers : ∀ o i, ¬ (o = r.localAccountId ∧ i = r.peerLinkId) →
      LinkStore.versions o i s'.log = LinkStore.versions o i s.log := by
    refine fun o i hne => versions_set hf hop fun heq => hne ?_
    cases heq
    exact ⟨rfl, rfl⟩
  have hown : LinkStore.versions r.localAccountId r.peerLinkId s'.log =
      [normalizeVersion (created r).version] := by
    rw [hf.log, versions_self hop hl]
    congr 1
    refine List.eq_nil_iff_forall_not_mem.mpr fun w hw => ?_
    obtain ⟨r', hr', -⟩ := (h.versions _ _).2 w hw
    rw [hnone] at hr'
    cases hr'
  have hupdate : ∀ t r' v' ph, view s' t = some (.update r' v', ph) →
      e.tid ≠ t ∧ view s t = some (.update r' v', ph) := by
    intro t r' v' ph hv'
    obtain ⟨-, heq⟩ | hv' := view_cases hf ha' hv'
    · cases heq
    · exact hv'
  refine
    { conforms := System.conforms_fires h.conforms hf trivial
      keyed := fun o i r' hr' => ?_
      indexed := fun o p i hi => ?_
      paired := fun o i r' hr' => ?_
      one := fun o i i' r₁ r₂ hr₁ hr₂ hp => ?_
      made := fun t r' hv' => ?_
      unnamed := fun t r' ph hv' hne => ?_
      vacant := fun t r' ph hv' hp hu => ?_
      free := fun t r' v' hv' hu => ?_
      checked := fun t r' v' current hv' hu => ?_
      late := fun t r' v' ph hv' hp => ?_
      distinct := fun t t' r₁ r₂ v₁ v₂ p p' hne hv₁ hv₂ =>
        h.distinct t t' r₁ r₂ v₁ v₂ p p' hne (hupdate _ _ _ _ hv₁).2 (hupdate _ _ _ _ hv₂).2
      versions := fun o i => ?_ }
  · rcases hnew o i r' hr' with hr' | ⟨rfl, rfl, rfl⟩
    · exact h.keyed o i r' hr'
    · exact ⟨rfl, rfl⟩
  · rw [hpairs] at hi
    obtain ⟨r', hr', hp⟩ := h.indexed o p i hi
    exact ⟨r', hkept o i r' hr', hp⟩
  · rw [hpairs]
    rcases hnew o i r' hr' with hr' | ⟨rfl, rfl, rfl⟩
    · rcases h.paired o i r' hr' with hi | ⟨t, r₁, hv₁, hids⟩
      · exact .inl hi
      · obtain ⟨-, heq⟩ | ⟨-, hv₁⟩ := view_stays hf ha hv₁
        · cases heq
        · exact .inr ⟨t, r₁, hv₁, hids⟩
    · exact .inr ⟨e.tid, r, ha', rfl, rfl, rfl⟩
  · rcases hnew o i r₁ hr₁ with hr₁ | ⟨rfl, rfl, rfl⟩
    · rcases hnew o i' r₂ hr₂ with hr₂ | ⟨rfl, rfl, rfl⟩
      · exact h.one o i i' r₁ r₂ hr₁ hr₂ hp
      · exact absurd hp (h.sole hnopair hhalf hr₁)
    · rcases hnew _ i' r₂ hr₂ with hr₂ | ⟨-, rfl, -⟩
      · exact absurd hp.symm (h.sole hnopair hhalf hr₂)
      · rfl
  · obtain ⟨rfl, heq⟩ | ⟨-, hv'⟩ := view_cases hf ha' hv'
    · cases heq
      refine ⟨⟨created r, hself, rfl⟩, (wrote_step hf).mpr (.inr ⟨rfl, ?_⟩)⟩
      rw [hop]
      simp [alters, hl, LinkCall.key, LinkCall.record]
    · obtain ⟨⟨r₁, hr₁, hp⟩, hw⟩ := h.made t r' hv'
      exact ⟨⟨r₁, hkept _ _ _ hr₁, hp⟩, (wrote_step hf).mpr (.inl hw)⟩
  · rw [wrote_step hf]
    rintro (hw | ⟨ht, halt⟩)
    · obtain ⟨rfl, heq⟩ | ⟨-, hv'⟩ := view_cases hf ha' hv'
      · cases heq
        exact h.unnamed e.tid r _ ha (fun hph => by cases hph) hw
      · exact h.unnamed t r' ph hv' hne hw
    · rw [hop, alters_set
        (show Key.peerLink _ _ ≠ (LinkCall.create r').pair from fun h => by cases h)] at halt
      cases halt
  · obtain ⟨-, heq⟩ | ⟨ht, hv'⟩ := view_cases hf ha' hv'
    · cases heq
      rcases hp with hp | ⟨v', hp⟩ <;> cases hp
    · exact h.vacant_step hf ht hv' hp hu
  · obtain ⟨-, heq⟩ | ⟨ht, hv'⟩ := view_cases hf ha' hv'
    · cases heq
    · exact h.free_step hf ht hv' hu
  · obtain ⟨ht, hv'⟩ := hupdate _ _ _ _ hv'
    exact h.checked_step hf ht hv' hu
  · obtain ⟨⟨r₁, hr₁, hlt⟩, hmem⟩ := h.late t r' v' ph (hupdate _ _ _ _ hv').2 hp
    exact ⟨⟨r₁, hkept _ _ _ hr₁, hlt⟩, (versions_suffix hf).subset hmem⟩
  · by_cases hsame : o = r.localAccountId ∧ i = r.peerLinkId
    · obtain ⟨rfl, rfl⟩ := hsame
      rw [hown]
      refine ⟨List.pairwise_singleton _ _, fun w hw => ⟨created r, hself, ?_⟩⟩
      rw [List.mem_singleton.mp hw]
    · rw [hvers o i hsame]
      refine ⟨(h.versions o i).1, fun w hw => ?_⟩
      obtain ⟨r', hr', hle⟩ := (h.versions o i).2 w hw
      exact ⟨r', hkept o i r' hr', hle⟩

/-- A call writes the pair index of a record that is stored. -/
theorem Inv.name (h : Inv s) (hf : Pool.Fires (linkCalls core) s e c k s') {r : PeerLinkRecord}
    (hr : a.1.record = r) (hop : e.op = .set (.pair r.localAccountId r.peerAccountId) r.peerLinkId)
    (hl : e.fate.lands = true) (ha : view s e.tid = some a)
    (ha' : view s' e.tid = some (a.1, .done)) (hlate : ∀ r v, a.1 = .update r v → a.2.late = true)
    (hstored : ∃ r', s.mem.kv.lookup (.peerLink r.localAccountId r.peerLinkId) = some r' ∧
        r'.peerAccountId = r.peerAccountId) : Inv s' := by
  have hself : s'.mem.kv.lookup (.pair r.localAccountId r.peerAccountId) = some r.peerLinkId :=
    lookup_written hf hop hl
  have hlinks : ∀ o i, s'.mem.kv.lookup (.peerLink o i) = s.mem.kv.lookup (.peerLink o i) :=
    fun o i => lookup_set hf hop nofun
  have hback : ∀ t b, view s' t = some b → b.2 ≠ .done → e.tid ≠ t ∧ view s t = some b := by
    intro t b hb hne
    obtain ⟨-, rfl⟩ | hb := view_cases hf ha' hb
    · exact absurd rfl hne
    · exact hb
  have hupdate : ∀ t r v ph, view s' t = some (.update r v, ph) → ph.late = true →
      ∃ ph₀, view s t = some (.update r v, ph₀) ∧ ph₀.late = true := by
    intro t r v ph hv hp
    obtain ⟨rfl, heq⟩ | ⟨-, hv⟩ := view_cases hf ha' hv
    · obtain ⟨hc, -⟩ := Prod.mk.inj heq
      refine ⟨a.2, ?_, hlate r v hc.symm⟩
      rw [ha, hc]
    · exact ⟨ph, hv, hp⟩
  obtain ⟨r₀, hr₀, hp₀⟩ := hstored
  refine
    { conforms := System.conforms_fires h.conforms hf trivial
      keyed := fun o i r' hr' => h.keyed o i r' ((hlinks o i).symm.trans hr')
      indexed := fun o p i hi => ?_
      paired := fun o i r' hr' => ?_
      one := fun o i i' r₁ r₂ hr₁ hr₂ =>
        h.one o i i' r₁ r₂ ((hlinks o i).symm.trans hr₁) ((hlinks o i').symm.trans hr₂)
      made := fun t r' hv => ?_
      unnamed := fun t r' ph hv hne => ?_
      vacant := fun t r' ph hv hp hu => ?_
      free := fun t r' v hv hu => ?_
      checked := fun t r' v current hv hu => ?_
      late := fun t r' v ph hv hp => ?_
      distinct := fun t t' r₁ r₂ v₁ v₂ p p' hne hv₁ hv₂ hp hp' hk => ?_
      versions := fun o i => ?_ }
  · rw [hlinks]
    by_cases heq : Key.pair r.localAccountId r.peerAccountId = Key.pair o p
    · cases heq
      rw [hself, Option.some.injEq] at hi
      rw [← hi]
      exact ⟨r₀, hr₀, hp₀⟩
    · rw [lookup_set hf hop heq] at hi
      exact h.indexed o p i hi
  · rw [hlinks] at hr'
    by_cases heq : Key.pair r.localAccountId r.peerAccountId = Key.pair o r'.peerAccountId
    · left
      have hids := Key.pair.inj heq
      rw [← hids.1, ← hids.2, hself]
      obtain ⟨rfl, hp⟩ := hids
      rw [h.one _ _ _ r₀ r' hr₀ hr' (hp₀.trans hp)]
    · rw [lookup_set hf hop heq]
      rcases h.paired o i r' hr' with hi | ⟨t, r₁, hv₁, ho₁, hi₁, hp₁⟩
      · exact .inl hi
      · obtain ⟨rfl, rfl⟩ | ⟨-, hv₁⟩ := view_stays hf ha hv₁
        · refine absurd ?_ heq
          rw [← hr]
          dsimp only [LinkCall.record]
          rw [ho₁, hp₁]
        · exact .inr ⟨t, r₁, hv₁, ho₁, hi₁, hp₁⟩
  · obtain ⟨-, hv⟩ := hback t _ hv nofun
    obtain ⟨⟨r₁, hr₁, hp⟩, hw⟩ := h.made t r' hv
    exact ⟨⟨r₁, (hlinks _ _).trans hr₁, hp⟩, (wrote_step hf).mpr (.inl hw)⟩
  · obtain ⟨ht, hv⟩ := hback t _ hv hne
    rw [wrote_step hf]
    rintro (hw | ⟨heq, -⟩)
    · exact h.unnamed t r' ph hv hne hw
    · exact ht heq
  · obtain ⟨ht, hv⟩ := hback t _ hv (by rintro rfl; rcases hp with hp | ⟨v, hp⟩ <;> cases hp)
    exact h.vacant_step hf ht hv hp hu
  · obtain ⟨ht, hv⟩ := hback t _ hv nofun
    exact h.free_step hf ht hv hu
  · obtain ⟨ht, hv⟩ := hback t _ hv nofun
    exact h.checked_step hf ht hv hu
  · obtain ⟨ph₀, hv₀, hp₀'⟩ := hupdate t r' v ph hv hp
    obtain ⟨⟨r₁, hr₁, hlt⟩, hmem⟩ := h.late t r' v ph₀ hv₀ hp₀'
    exact ⟨⟨r₁, (hlinks _ _).trans hr₁, hlt⟩, (versions_suffix hf).subset hmem⟩
  · obtain ⟨ph₁, hv₁', hp₁⟩ := hupdate t r₁ v₁ p hv₁ hp
    obtain ⟨ph₂, hv₂', hp₂⟩ := hupdate t' r₂ v₂ p' hv₂ hp'
    exact h.distinct t t' r₁ r₂ v₁ v₂ ph₁ ph₂ hne hv₁' hv₂' hp₁ hp₂ hk
  · rw [versions_set hf hop nofun, hlinks]
    exact h.versions o i

/-- An update that has written its record expected less than the stored version. -/
theorem Inv.lower (h : Inv s) {t : Nat} {r current : PeerLinkRecord} {v : Nat} {ph : Phase}
    {o i : Id} (hv : view s t = some (.update r v, ph)) (hp : ph.late = true)
    (ho : r.localAccountId = o) (hi : r.peerLinkId = i)
    (hcur : s.mem.kv.lookup (.peerLink o i) = some current) :
    v < normalizeVersion current.version := by
  subst ho
  subst hi
  obtain ⟨⟨r₁, hr₁, hlt, -⟩, -⟩ := h.late t r v ph hv hp
  have heq : some current = some r₁ := hcur.symm.trans hr₁
  rw [Option.some.inj heq]
  exact hlt

/-- An update writes its record. -/
theorem Inv.update (h : Inv s) (hf : Pool.Fires (linkCalls core) s e c k s')
    {r current : PeerLinkRecord} {v : Nat}
    (hop : e.op = .set (.peerLink r.localAccountId r.peerLinkId) (updated r current))
    (hl : e.fate.lands = true) (ha : view s e.tid = some (.update r v, .checked current))
    (hv : normalizeVersion current.version = v) (hpeer : current.peerAccountId = r.peerAccountId)
    {ph : Phase} (ha' : view s' e.tid = some (.update r v, ph))
    (hkey : undisturbed (LinkCall.update r v).key e.tid s.log = true) : Inv s' := by
  have hcur : s.mem.kv.lookup (.peerLink r.localAccountId r.peerLinkId) = some current :=
    h.checked e.tid r v current ha hkey
  have hself : s'.mem.kv.lookup (.peerLink r.localAccountId r.peerLinkId) =
      some (updated r current) :=
    lookup_written hf hop hl
  have hpairs : ∀ o p, s'.mem.kv.lookup (.pair o p) = s.mem.kv.lookup (.pair o p) :=
    fun o p => lookup_set hf hop nofun
  -- a record is replaced by one of the same peer and a higher version
  have hnew : ∀ o i r', s'.mem.kv.lookup (.peerLink o i) = some r' →
      ∃ r₀, s.mem.kv.lookup (.peerLink o i) = some r₀ ∧ r₀.peerAccountId = r'.peerAccountId := by
    intro o i r' hr'
    by_cases heq : Key.peerLink r.localAccountId r.peerLinkId = Key.peerLink o i
    · cases heq
      rw [hself, Option.some.injEq] at hr'
      subst hr'
      exact ⟨current, hcur, hpeer⟩
    · rw [lookup_set hf hop heq] at hr'
      exact ⟨r', hr', rfl⟩
  have hold : ∀ o i r₀, s.mem.kv.lookup (.peerLink o i) = some r₀ →
      ∃ r', s'.mem.kv.lookup (.peerLink o i) = some r' ∧ r'.peerAccountId = r₀.peerAccountId ∧
        normalizeVersion r₀.version ≤ normalizeVersion r'.version := by
    intro o i r₀ hr₀
    by_cases heq : Key.peerLink r.localAccountId r.peerLinkId = Key.peerLink o i
    · cases heq
      rw [hcur, Option.some.injEq] at hr₀
      subst hr₀
      refine ⟨updated r current, hself, hpeer.symm, ?_⟩
      rw [normalizeVersion_updated]
      exact Nat.le_succ _
    · exact ⟨r₀, (lookup_set hf hop heq).trans hr₀, rfl, Nat.le_refl _⟩
  have hcreate : ∀ t r' ph', view s' t = some (.create r', ph') →
      e.tid ≠ t ∧ view s t = some (.create r', ph') := by
    intro t r' ph' hv'
    obtain ⟨-, heq⟩ | hv' := view_cases hf ha' hv'
    · cases heq
    · exact hv'
  -- the updates that came before had lower versions
  have hlower : ∀ t r' v' ph', view s t = some (.update r' v', ph') → ph'.late = true →
      (LinkCall.update r' v').key = (LinkCall.update r v).key → v' < v := by
    intro t r' v' ph' hv' hp hk
    obtain ⟨ho, hi⟩ := Key.peerLink.inj hk
    rw [← hv]
    exact h.lower hv' hp ho hi hcur
  refine
    { conforms := System.conforms_fires h.conforms hf trivial
      keyed := fun o i r' hr' => ?_
      indexed := fun o p i hi => ?_
      paired := fun o i r' hr' => ?_
      one := fun o i i' r₁ r₂ hr₁ hr₂ hp => ?_
      made := fun t r' hv' => ?_
      unnamed := fun t r' ph' hv' hne => ?_
      vacant := fun t r' ph' hv' hp hu => ?_
      free := fun t r' v' hv' hu => ?_
      checked := fun t r' v' cur' hv' hu => ?_
      late := fun t r' v' ph' hv' hp => ?_
      distinct := fun t t' r₁ r₂ v₁ v₂ p p' hne hv₁ hv₂ hp hp' hk => ?_
      versions := fun o i => ?_ }
  · by_cases heq : Key.peerLink r.localAccountId r.peerLinkId = Key.peerLink o i
    · cases heq
      rw [hself, Option.some.injEq] at hr'
      subst hr'
      exact ⟨rfl, rfl⟩
    · rw [lookup_set hf hop heq] at hr'
      exact h.keyed o i r' hr'
  · rw [hpairs] at hi
    obtain ⟨r₀, hr₀, hp⟩ := h.indexed o p i hi
    obtain ⟨r', hr', hp', -⟩ := hold o i r₀ hr₀
    exact ⟨r', hr', hp'.trans hp⟩
  · rw [hpairs]
    obtain ⟨r₀, hr₀, hp⟩ := hnew o i r' hr'
    rw [← hp]
    rcases h.paired o i r₀ hr₀ with hi | ⟨t, r₁, hv₁, hids⟩
    · exact .inl hi
    · obtain ⟨-, heq⟩ | ⟨-, hv₁⟩ := view_stays hf ha hv₁
      · cases heq
      · exact .inr ⟨t, r₁, hv₁, hids⟩
  · obtain ⟨q₁, hq₁, hp₁⟩ := hnew o i r₁ hr₁
    obtain ⟨q₂, hq₂, hp₂⟩ := hnew o i' r₂ hr₂
    exact h.one o i i' q₁ q₂ hq₁ hq₂ (hp₁.trans (hp.trans hp₂.symm))
  · obtain ⟨⟨r₁, hr₁, hp⟩, hw⟩ := h.made t r' (hcreate t r' _ hv').2
    obtain ⟨r₂, hr₂, hp₂, -⟩ := hold _ _ _ hr₁
    exact ⟨⟨r₂, hr₂, hp₂.trans hp⟩, (wrote_step hf).mpr (.inl hw)⟩
  · obtain ⟨ht, hv'⟩ := hcreate t r' _ hv'
    rw [wrote_step hf]
    rintro (hw | ⟨heq, -⟩)
    · exact h.unnamed t r' ph' hv' hne hw
    · exact ht heq
  · obtain ⟨ht, hv'⟩ := hcreate t r' _ hv'
    exact h.vacant_step hf ht hv' hp hu
  · obtain ⟨ht, hv'⟩ := hcreate t r' _ hv'
    exact h.free_step hf ht hv' hu
  · obtain ⟨rfl, heq⟩ | ⟨ht, hv'⟩ := view_cases hf ha' hv'
    · -- the window of the call is no longer clean after its own write
      cases heq
      rw [hf.log, undisturbed, hop] at hu
      simp [reads, alters, hl, LinkCall.key, LinkCall.record] at hu
    · exact h.checked_step hf ht hv' hu
  · obtain ⟨rfl, heq⟩ | ⟨-, hv'⟩ := view_cases hf ha' hv'
    · cases heq
      refine ⟨⟨updated r current, hself, ?_, rfl⟩, ?_⟩
      · rw [normalizeVersion_updated, hv]
        exact Nat.lt_succ_self _
      · rw [hf.log, versions_self hop hl, normalizeVersion_updated, hv]
        exact .head _
    · obtain ⟨⟨r₁, hr₁, hlt, hp₁⟩, hmem⟩ := h.late t r' v' ph' hv' hp
      obtain ⟨r₂, hr₂, hp₂, hle⟩ := hold _ _ _ hr₁
      exact ⟨⟨r₂, hr₂, Nat.lt_of_lt_of_le hlt hle, hp₂.trans hp₁⟩,
        (versions_suffix hf).subset hmem⟩
  · obtain ⟨rfl, heq₁⟩ | ⟨-, hv₁⟩ := view_cases hf ha' hv₁
    · obtain ⟨rfl, -⟩ | ⟨-, hv₂⟩ := view_cases hf ha' hv₂
      · exact absurd rfl hne
      · cases heq₁
        exact Nat.ne_of_gt (hlower t' r₂ v₂ p' hv₂ hp' hk.symm)
    · obtain ⟨-, heq₂⟩ | ⟨-, hv₂⟩ := view_cases hf ha' hv₂
      · cases heq₂
        exact Nat.ne_of_lt (hlower t r₁ v₁ p hv₁ hp hk)
      · exact h.distinct t t' r₁ r₂ v₁ v₂ p p' hne hv₁ hv₂ hp hp' hk
  · have hbound : ∀ w ∈ LinkStore.versions o i s.log,
        ∃ r', s'.mem.kv.lookup (.peerLink o i) = some r' ∧ w ≤ normalizeVersion r'.version := by
      intro w hw
      obtain ⟨r₀, hr₀, hle⟩ := (h.versions o i).2 w hw
      obtain ⟨r', hr', -, hle'⟩ := hold o i r₀ hr₀
      exact ⟨r', hr', Nat.le_trans hle hle'⟩
    by_cases heq : Key.peerLink r.localAccountId r.peerLinkId = Key.peerLink o i
    · cases heq
      rw [hf.log, versions_self hop hl, normalizeVersion_updated]
      refine ⟨List.pairwise_cons.mpr ⟨fun w hw => ?_, (h.versions _ _).1⟩, fun w hw => ?_⟩
      · obtain ⟨r₀, hr₀, hle⟩ := (h.versions _ _).2 w hw
        rw [hcur, Option.some.injEq] at hr₀
        subst hr₀
        exact Nat.lt_succ_of_le hle
      · rcases List.mem_cons.mp hw with rfl | hw
        · refine ⟨updated r current, hself, ?_⟩
          rw [normalizeVersion_updated]
        · exact hbound w hw
    · rw [versions_set hf hop heq]
      exact ⟨(h.versions o i).1, hbound⟩

/-- The phases that remember what was read. -/
def Phase.knows : Phase → Bool
  | .vacant => true
  | .free _ => true
  | .checked _ => true
  | _ => false

/-- A step that writes nothing, after which its call remembers nothing. -/
theorem Inv.idle (h : Inv s) (hf : Pool.Fires (linkCalls core) s e c k s')
    (hq : ∀ key, alters key e.op e.fate = false) (ha : view s e.tid = some a) {ph : Phase}
    (ha' : view s' e.tid = some (a.1, ph)) (hidle : ph.knows = false)
    (hmade : a.2 ≠ .made ∧ ph ≠ .made) (hlate : ph.late = true → a.2.late = true)
    (hdone : a.2 = .done → ph = .done) : Inv s' := by
  refine h.still hf hq ha ha' hmade hlate hdone (fun r _ hp _ => ?_)
    (fun r v _ hp _ => ?_) fun r v cur _ hp _ => ?_
  · rcases hp with rfl | ⟨v, rfl⟩ <;> cases hidle
  · rw [hp] at hidle
    cases hidle
  · rw [hp] at hidle
    cases hidle

/-- A step that writes nothing, after which its call stands where it stood. -/
theorem Inv.same (h : Inv s) (hf : Pool.Fires (linkCalls core) s e c k s')
    (hq : ∀ key, alters key e.op e.fate = false) (ha : view s e.tid = some a)
    (ha' : view s' e.tid = some a) (hmade : a.2 ≠ .made)
    (hread : ∀ key, reads key e.op = true → a.2.knows = true →
        a.1.key ≠ key ∧ a.1.pair = key ∧ a.2 = .vacant) : Inv s' := by
  refine h.still hf hq ha ha' ⟨hmade, hmade⟩ id id (fun r hr hp hu => ?_) (fun r v hr hp hu => ?_)
    fun r v cur hr hp hu => ?_
  · have hknows : a.2.knows = true := by rcases hp with hp | ⟨v, hp⟩ <;> rw [hp] <;> rfl
    refine h.vacant e.tid r a.2 (by rw [ha, ← hr]) hp
      (undisturbed_step (S := linkCalls core) rfl hf ?_ hu).1
    exact fun hr' => (hread _ hr'.2 hknows).1 (by rw [hr])
  · have hknows : a.2.knows = true := by rw [hp]; rfl
    refine h.free e.tid r v (by rw [ha, ← hr, ← hp])
      (undisturbed_step (S := linkCalls core) rfl hf ?_ hu).1
    intro hr'
    obtain ⟨-, -, hvac⟩ := hread _ hr'.2 hknows
    rw [hp] at hvac
    cases hvac
  · have hknows : a.2.knows = true := by rw [hp]; rfl
    refine h.checked e.tid r v cur (by rw [ha, ← hr, ← hp])
      (undisturbed_step (S := linkCalls core) rfl hf ?_ hu).1
    intro hr'
    obtain ⟨-, -, hvac⟩ := hread _ hr'.2 hknows
    rw [hp] at hvac
    cases hvac

/-- A create has found no record. -/
theorem Inv.findsNone (h : Inv s) (hf : Pool.Fires (linkCalls core) s e c k s')
    (hq : ∀ key, alters key e.op e.fate = false) {r : PeerLinkRecord}
    (ha : view s e.tid = some (.create r, .start)) (ha' : view s' e.tid = some (.create r, .vacant))
    (hnone : s.mem.kv.lookup (LinkCall.create r).key = none) : Inv s' := by
  refine h.still hf hq ha ha' ⟨nofun, nofun⟩ nofun nofun (fun r' hr' _ _ => ?_)
    (fun r' v hr' hp => ?_)
    fun r' v cur hr' => ?_
  · cases hr'
    exact hnone
  · cases hp
  · cases hr'

/-- A create has looked at the pair. -/
theorem Inv.findsPair (h : Inv s) (hf : Pool.Fires (linkCalls core) s e c k s')
    (hq : ∀ key, alters key e.op e.fate = false) {r : PeerLinkRecord} {v : Option Id}
    (hop : e.op = .get (LinkCall.create r).pair) (ha : view s e.tid = some (.create r, .vacant))
    (ha' : view s' e.tid = some (.create r, .free v))
    (hlook : s.mem.kv.lookup (LinkCall.create r).pair = v) : Inv s' := by
  refine h.still hf hq ha ha' ⟨nofun, nofun⟩ nofun nofun (fun r' hr' _ hu => ?_)
    (fun r' v' hr' hp _ => ?_)
    fun r' v cur hr' => ?_
  · cases hr'
    refine h.vacant e.tid r _ ha (.inl rfl) (undisturbed_step (S := linkCalls core) rfl hf ?_ hu).1
    rintro ⟨-, hr⟩
    rw [hop] at hr
    simp [reads, LinkCall.key, LinkCall.pair] at hr
  · cases hr'
    cases hp
    exact hlook
  · cases hr'

/-- An update has found its record. -/
theorem Inv.findsSome (h : Inv s) (hf : Pool.Fires (linkCalls core) s e c k s')
    (hq : ∀ key, alters key e.op e.fate = false) {r current : PeerLinkRecord} {v : Nat}
    (ha : view s e.tid = some (.update r v, .start))
    (ha' : view s' e.tid = some (.update r v, .checked current))
    (hlook : s.mem.kv.lookup (LinkCall.update r v).key = some current) : Inv s' := by
  refine h.still hf hq ha ha' ⟨nofun, nofun⟩ nofun nofun (fun r' hr' => ?_) (fun r' v' hr' => ?_)
    fun r' v' cur hr' hp _ => ?_
  · cases hr'
  · cases hr'
  · cases hr'
    cases hp
    exact hlook

/-- A write that does not land alters nothing. -/
theorem alters_fails {key k₀ : Key} {v : Val Snap k₀} {f : Fate} (hl : f.lands = false) :
    alters key (.set k₀ v : Op Snap) f = false := by
  simp [alters, hl]

theorem inv_create {r : PeerLinkRecord} {ph : Phase} (h : Inv s)
    (hf : Pool.Fires (linkCalls core) s e c k s') (hok : Serial s e)
    (ha : view s e.tid = some (.create r, ph)) (hmay : monitor.may (.create r, ph) e.op)
    (ha' : view s' e.tid = some (monitor.next (.create r, ph) e.exch)) : Inv s' := by
  obtain ⟨p, hth⟩ := view_call ha
  have hser := hok _ p hth
  have hact : act core e.tid s.mem e.op e.fate = some (e.ans, s'.mem) := hf.act
  obtain ⟨t, o, x, f⟩ := e
  cases o with
  | get key =>
    cases key with
    | peerLink ow i =>
      obtain ⟨hkey, rfl⟩ := hmay
      match x with
      | .error err => exact h.idle hf (fun _ => rfl) ha ha' rfl ⟨nofun, nofun⟩ nofun nofun
      | .ok none => exact h.findsNone hf (fun _ => rfl) ha ha' (hkey ▸ act_get_ok hact)
      | .ok (some r') => exact h.idle hf (fun _ => rfl) ha ha' rfl ⟨nofun, nofun⟩ nofun nofun
    | pair ow q =>
      obtain ⟨hkey, rfl⟩ := hmay
      match x with
      | .error err =>
        refine h.same hf (fun _ => rfl) ha ha' nofun fun key hr _ => ?_
        rw [show key = (LinkCall.create r).pair from (of_decide_eq_true hr).symm.trans hkey]
        exact ⟨nofun, rfl, rfl⟩
      | .ok v =>
        cases hkey
        exact h.findsPair hf (fun _ => rfl) rfl ha ha' (act_get_ok hact)
    | _ => exact hmay.elim
  | set key v =>
    cases key with
    | peerLink ow i =>
      obtain ⟨hkey, rfl, indexed, rfl, hfree⟩ := hmay
      obtain ⟨hclean, hpair, hhalf, hland⟩ := hser
      cases hkey
      match x with
      | .error err =>
        have hl : f.lands = false := by
          cases f with
          | landFail y => exact absurd rfl (hland y)
          | fail y => rfl
          | _ => cases hact
        exact h.same hf (fun _ => alters_fails hl) ha ha' nofun fun key hr => by cases hr
      | .ok () => exact h.create hf rfl (act_set_ok hact) ha hfree ha' hclean hpair hhalf
    | pair ow q =>
      obtain ⟨hkey, rfl, rfl⟩ := hmay
      cases hkey
      have hl : f.lands = true := by
        cases f with
        | fail y => exact absurd rfl (hser y)
        | _ => rfl
      refine h.name hf rfl rfl hl ha ha' (fun _ _ hc => ?_) (h.made t r ha).1
      cases hc
    | _ => exact hmay.elim
  | _ => exact hmay.elim

theorem inv_update {r : PeerLinkRecord} {v : Nat} {ph : Phase} (h : Inv s)
    (hf : Pool.Fires (linkCalls core) s e c k s') (hok : Serial s e)
    (ha : view s e.tid = some (.update r v, ph)) (hmay : monitor.may (.update r v, ph) e.op)
    (ha' : view s' e.tid = some (monitor.next (.update r v, ph) e.exch)) : Inv s' := by
  obtain ⟨p, hth⟩ := view_call ha
  have hser := hok _ p hth
  have hact : act core e.tid s.mem e.op e.fate = some (e.ans, s'.mem) := hf.act
  obtain ⟨t, o, x, f⟩ := e
  cases o with
  | get key =>
    cases key with
    | peerLink ow i =>
      obtain ⟨hkey, rfl⟩ := hmay
      match x with
      | .error err => exact h.idle hf (fun _ => rfl) ha ha' rfl ⟨nofun, nofun⟩ nofun nofun
      | .ok none => exact h.idle hf (fun _ => rfl) ha ha' rfl ⟨nofun, nofun⟩ nofun nofun
      | .ok (some current) =>
        cases hkey
        exact h.findsSome hf (fun _ => rfl) ha ha' (act_get_ok hact)
    | _ => exact hmay.elim
  | set key w =>
    cases key with
    | peerLink ow i =>
      obtain ⟨hkey, current, rfl, rfl, hv, hpeer⟩ := hmay
      cases hkey
      cases hl : f.lands with
      | true =>
        match x with
        | .ok () => exact h.update hf rfl hl ha hv hpeer ha' hser
        | .error err => exact h.update hf rfl hl ha hv hpeer ha' hser
      | false =>
        match x with
        | .ok () =>
          rw [act_set_ok hact] at hl
          cases hl
        | .error err =>
          exact h.same hf (fun _ => alters_fails hl) ha ha' nofun fun key hr => by cases hr
    | pair ow q =>
      obtain ⟨hkey, rfl, rfl⟩ := hmay
      cases hkey
      cases hl : f.lands with
      | true =>
        obtain ⟨⟨r', hr', -, hp⟩, -⟩ := h.late t r v _ ha rfl
        exact h.name hf rfl rfl hl ha ha' (fun _ _ _ => rfl) ⟨r', hr', hp⟩
      | false =>
        exact h.idle hf (fun _ => alters_fails hl) ha ha' rfl ⟨nofun, nofun⟩ (fun _ => rfl) nofun
    | _ => exact hmay.elim
  | _ => exact hmay.elim

/-- Every step keeps it. -/
theorem inv_fires (h : Inv s) (hf : Pool.Fires (linkCalls core) s e c k s') (hok : Serial s e) :
    Inv s' := by
  obtain ⟨⟨call, ph⟩, ha, hmay, ha'⟩ := view_self h.conforms hf
  cases call with
  | create r => exact inv_create h hf hok ha hmay ha'
  | update r v => exact inv_update h hf hok ha hmay ha'

end

theorem Kept.one {kv : Store Snap} (h : Kept kv) {o i i' : Id} {r r' : PeerLinkRecord}
    (hr : kv.lookup (.peerLink o i) = some r) (hr' : kv.lookup (.peerLink o i') = some r')
    (hp : r.peerAccountId = r'.peerAccountId) : i = i' := by
  have hi := h.paired o i r hr
  rw [hp, h.paired o i' r' hr', Option.some.injEq] at hi
  exact hi.symm

theorem inv_init {m : Mem Snap} (h : Kept m.kv) : Inv (⟨m, [], []⟩ : LinkState Snap) where
  conforms := System.conforms_init m
  keyed := h.keyed
  indexed := h.indexed
  paired o i r hr := .inl (h.paired o i r hr)
  one _ _ _ _ _ hr hr' hp := h.one hr hr' hp
  made t _ hv := by cases hv.symm.trans (System.view_init m t)
  unnamed t _ _ hv := by cases hv.symm.trans (System.view_init m t)
  vacant t _ _ hv := by cases hv.symm.trans (System.view_init m t)
  free t _ _ hv := by cases hv.symm.trans (System.view_init m t)
  checked t _ _ _ hv := by cases hv.symm.trans (System.view_init m t)
  late t _ _ _ hv := by cases hv.symm.trans (System.view_init m t)
  distinct t _ _ _ _ _ _ _ _ hv := by cases hv.symm.trans (System.view_init m t)
  versions _ _ := ⟨.nil, fun _ hw => by cases hw⟩

theorem inv_spawn {core : Core Snap} {s : LinkState Snap} (h : Inv s) (c : LinkCall) :
    Inv (s.spawn (linkCalls core) c) := by
  have hback : ∀ t b, view (s.spawn (linkCalls core) c) t = some b → b.2 ≠ .start →
      view s t = some b := by
    intro t b hb hne
    rcases h.conforms.view_spawned hb with ⟨-, rfl⟩ | hb
    · exact absurd rfl hne
    · exact hb
  refine
    { conforms := System.conforms_spawn h.conforms (obeys_run c)
      keyed := h.keyed
      indexed := h.indexed
      paired := fun o i r hr => ?_
      one := h.one
      made := fun t r hv => h.made t r (hback t _ hv nofun)
      unnamed := fun t r ph hv hne => ?_
      vacant := fun t r ph hv hp => h.vacant t r ph (hback t _ hv ?_) hp
      free := fun t r v hv => h.free t r v (hback t _ hv nofun)
      checked := fun t r v cur hv => h.checked t r v cur (hback t _ hv nofun)
      late := fun t r v ph hv hp => h.late t r v ph (hback t _ hv (by rintro rfl; cases hp)) hp
      distinct :=
        fun t t' r r' v v' ph ph' hne hv hv' hp hp' => h.distinct t t' r r' v v' ph ph' hne
        (hback t _ hv (by rintro rfl; cases hp)) (hback t' _ hv' (by rintro rfl; cases hp')) hp hp'
      versions := h.versions }
  · rcases h.paired o i r hr with hi | ⟨t, r', hv, hids⟩
    · exact .inl hi
    · exact .inr ⟨t, r', h.conforms.view_kept hv, hids⟩
  · rcases h.conforms.view_spawned hv with ⟨rfl, -⟩ | hv
    · -- the new call has no events yet
      rintro ⟨e, he, ht, -⟩
      exact Nat.ne_of_lt (h.conforms.tids e he) ht
    · exact h.unnamed t r ph hv hne
  · rcases hp with rfl | ⟨v, rfl⟩ <;> exact nofun

theorem inv_inductive (core : Core Snap) : ((linkCalls core).lts serialCalls).Inductive Inv :=
  System.inductive_of (fun _ hm => inv_init hm) (fun _ c h _ => inv_spawn h c)
    fun _ _ _ _ _ h hf hok => inv_fires h hf hok

/-- An update that has returned is past its writes. -/
theorem Inv.updated {s : LinkState Snap} (h : Inv s) {t : Nat} {r : PeerLinkRecord} {v : Nat}
    (hu : Updated s t r v) : view s t = some (.update r v, .done) := by
  obtain ⟨y, hth⟩ := hu
  have hpost := (h.conforms.result hth).2 r v y rfl rfl
  have hview : view s t = some (Pool.mon monitor (.update r v, .start) t s.log) :=
    System.view_thread hth
  have hcall := mon_call (.update r v) t s.log
  rw [hview]
  exact congrArg some (Prod.ext hcall hpost)

/-- **The optimistic lock** holds in every run whose writes find what was
read. -/
theorem optimistic_lock (core : Core Snap) (s : LinkState Snap)
    (hr : ((linkCalls core).lts serialCalls).Reachable s) : Locked s := by
  have h := (inv_inductive core).reachable s hr
  refine ⟨h.one, fun hquiet o i r hl => ?_, fun t t' r r' v v' hne hu hu' ho hi => ?_,
    fun o i => (h.versions o i).1,
    fun t r v hu => (h.late t r v _ (h.updated hu) rfl).2⟩
  · rcases h.paired o i r hl with hp | ⟨t, r', hv, -⟩
    · exact hp
    · -- a create between its writes would be in flight
      obtain ⟨⟨c, p⟩, hth, hmon⟩ := Option.map_eq_some_iff.mp hv
      obtain ⟨x, rfl⟩ := hquiet _ (List.mem_of_getElem? hth)
      have hpost := (h.conforms.result hth).1
      rw [show Pool.mon monitor (c, Phase.start) t s.log = _ from hmon] at hpost
      exact absurd rfl hpost
  · refine h.distinct t t' r r' v v' _ _ hne (h.updated hu) (h.updated hu') rfl rfl ?_
    unfold LinkCall.key LinkCall.record
    dsimp only
    rw [ho, hi]

namespace Example

open Counting

/-- Account `a`'s link `c` to account `b`, and its pair. -/
def start : Store Nat :=
  ((∅ : Store Nat).insert (.peerLink a c) (link .handshakeSent)).insert (.pair a b) c

theorem kept_start : Kept start where
  keyed o i r hr := by
    rw [start, AList.lookup_insert_ne (show Key.peerLink o i ≠ Key.pair a b from nofun)] at hr
    by_cases heq : Key.peerLink o i = Key.peerLink a c
    · cases heq
      rw [AList.lookup_insert, Option.some.injEq] at hr
      subst hr
      exact ⟨rfl, rfl⟩
    · rw [AList.lookup_insert_ne heq] at hr
      cases hr
  paired o i r hr := by
    rw [start, AList.lookup_insert_ne (show Key.peerLink o i ≠ Key.pair a b from nofun)] at hr
    by_cases heq : Key.peerLink o i = Key.peerLink a c
    · cases heq
      rw [AList.lookup_insert, Option.some.injEq] at hr
      subst hr
      exact AList.lookup_insert _
    · rw [AList.lookup_insert_ne heq] at hr
      cases hr
  indexed o p i hi := by
    by_cases heq : Key.pair o p = Key.pair a b
    · cases heq
      rw [start, AList.lookup_insert, Option.some.injEq] at hi
      subst hi
      exact ⟨link .handshakeSent,
        AList.lookup_insert_ne (show Key.peerLink a c ≠ Key.pair a b from nofun), rfl⟩
    · rw [start, AList.lookup_insert_ne heq,
        AList.lookup_insert_ne (show Key.pair o p ≠ Key.peerLink a c from nofun)] at hi
      cases hi

def anyJudge : System.Judge (anyCalls : LinkRules Nat) where
  may _ _ := true
  ok _ _ := true
  may_iff _ _ _ := trivial
  ok_iff _ _ _ := trivial

/-- Only updates write, and they find what they read. -/
def serial (s : LinkState Nat) (e : Event (sdk Nat) Fate) : Bool :=
  match s.threads[e.tid]?, e.op with
  | some ⟨.update r v, _⟩, .set (.peerLink ..) _ =>
    undisturbed (LinkCall.update r v).key e.tid s.log
  | some ⟨.update .., _⟩, _ => true
  | _, _ => false

theorem serial_spec {s : LinkState Nat} {e : Event (sdk Nat) Fate} (h : serial s e = true) :
    Serial s e := by
  intro c p hth
  unfold serial at h
  rw [hth] at h
  cases c with
  | create r => cases h
  | update r v =>
    dsimp only at h ⊢
    cases hop : e.op with
    | set key w =>
      rw [hop] at h
      cases key <;> first | exact h | trivial
    | _ => trivial

def judge : System.Judge (serialCalls : LinkRules Nat) where
  may _ _ := true
  ok := serial
  may_iff _ _ _ := trivial
  ok_iff _ _ h := serial_spec h

def updatedTo (s : LinkState Nat) (t : Nat) (r : PeerLinkRecord) (v : Nat) : Bool :=
  match s.threads[t]? with
  | some ⟨c, .ret (.ok _)⟩ => c = .update r v
  | _ => false

theorem updatedTo_spec {s : LinkState Nat} {t : Nat} {r : PeerLinkRecord} {v : Nat}
    (h : updatedTo s t r v = true) : Updated s t r v := by
  unfold updatedTo at h
  split at h
  · rename_i c y hth
    rw [of_decide_eq_true h] at hth
    exact ⟨y, hth⟩
  · cases h

def bothPass (s : LinkState Nat) : Bool :=
  updatedTo s 0 (link .degraded) 1 && updatedTo s 1 (link .sessionEstablished) 1

def inTurn (s : LinkState Nat) : Bool :=
  updatedTo s 0 (link .degraded) 1 && updatedTo s 1 (link .sessionEstablished) 2

end Example

open Example Counting in
/-- Two updates read version 1, and both succeed with it. -/
theorem both_updates_pass :
    ∃ s, ((linkCalls Counting.core).lts anyCalls).Reachable s ∧ ¬ Locked s := by
  obtain ⟨s, hr, hs⟩ := System.reachable_of_play (S := linkCalls Counting.core) anyJudge smooth
    [.call (.update (link .degraded) 1), .call (.update (link .sessionEstablished) 1),
    .go 0 1, .go 1 1, .go 0 2,
      .go 1 2] (m := .ofStore start []) (P := bothPass) kept_start (by decide +kernel)
  simp only [bothPass, Bool.and_eq_true] at hs
  refine ⟨s, hr, fun hlocked => ?_⟩
  exact hlocked.distinct 0 1 _ _ 1 1 (by decide) (updatedTo_spec hs.1)
    (updatedTo_spec hs.2) rfl rfl rfl

open Example Counting in
/-- Two updates in turn carry different versions. -/
theorem optimistic_lock_in_turn : ∃ s, ((linkCalls Counting.core).lts serialCalls).Reachable s ∧
    Updated s 0 (link .degraded) 1 ∧ Updated s 1 (link .sessionEstablished) 2 ∧ Locked s := by
  obtain ⟨s, hr, hs⟩ := System.reachable_of_play (S := linkCalls Counting.core) judge smooth
    [.call (.update (link .degraded) 1), .go 0 3, .call (.update (link .sessionEstablished) 2),
    .go 1 3]
    (m := .ofStore start []) (P := inTurn) kept_start (by decide +kernel)
  simp only [inTurn, Bool.and_eq_true] at hs
  exact ⟨s, hr, updatedTo_spec hs.1, updatedTo_spec hs.2, optimistic_lock Counting.core s hr⟩

end RezSdk.L4.LinkStore
