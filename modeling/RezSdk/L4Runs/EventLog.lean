import Mathlib.Data.List.Infix
import RezSdk.L3Service.Alone
import RezSdk.L3Service.Counting
import RezSdk.L4Runs.Windows

/-!
# The event log of a peer link

`events.append` writes the event and then extends the link's index, which it
has read in between. An append whose index write fails leaves an event that no
index names, and the retry returns it as appended without looking at the
index; of two appends that read the same index the later write drops the
other's event; two appends of one event can both find it missing and list it
twice. As long as the record write and the index write of an append come in
clean windows and no append breaks off between them, every acknowledged event
is listed once, in the order of the appends (`acknowledged_listed`).
-/
namespace RezSdk.L4.EventLog

open RezSdk.L1 RezSdk.L2 RezSdk.L3

variable {Snap : Type}

abbrev LogState (Snap : Type) := Pool (sdk Snap) (Mem Snap) Fate EventRecord
    (Except Err EventRecord)
abbrev LogRules (Snap : Type) := Discipline (sdk Snap) (Mem Snap) Fate EventRecord
    (Except Err EventRecord)

/-- Any number of `events.append` calls over one store. -/
def appends (core : Core Snap) :
    System (sdk Snap) (Mem Snap) Fate EventRecord (Except Err EventRecord) :=
  ⟨act core, Events.append⟩

/-! ## The property -/

/-- The ids of a link's index. -/
def indexed (kv : Store Snap) (owner link : Id) : List Id :=
  (kv.lookup (.eventIndex owner link)).getD []

/-- What `listByPeerLinkId` lists for a link. -/
def listed (kv : Store Snap) (owner link : Id) : List EventRecord :=
  (indexed kv owner link).filterMap fun i => kv.lookup (.event owner i)

/-- The store without failures. -/
noncomputable abbrev calm (core : Core Snap) (t : Nat) : Answers (sdk Snap) (Mem Snap) Fate :=
  within (Calm fun _ => True) (act core t)

/-- Reading the whole log of a link, alone and without storage failures,
returns `items`. -/
def Lists (core : Core Snap) (m : Mem Snap) (owner link : Id) (items : List EventRecord) : Prop :=
  ∃ t cursor m', Ends (calm core t) (Events.listByPeerLinkId owner link none none) m
    (.ok (items, cursor)) m'

/-- No append is in flight. -/
def Quiet (s : LogState Snap) : Prop := ∀ th ∈ s.threads, ∃ x, th.proc = .ret x

/-- An append of `ev` has returned. -/
def Acknowledged (s : LogState Snap) (ev : EventRecord) : Prop :=
  ∃ (t : Nat) (r : EventRecord), s.threads[t]? = some ⟨ev, .ret (.ok r)⟩

/-- No append of `ev` is in flight. -/
def Settled (s : LogState Snap) (ev : EventRecord) : Prop :=
  ∀ th ∈ s.threads, th.call = ev → ∃ x, th.proc = .ret x

/-- No append of `ev` has started. -/
def Unheard (s : LogState Snap) (ev : EventRecord) : Prop :=
  (∀ th ∈ s.threads, th.call ≠ ev) ∧ s.mem.kv.lookup (.event ev.ownerAccountId ev.eventId) = none

/-! ## The runs -/

/-- A log that appends have left: every event is listed once under its link,
and nothing else is. -/
structure Logged (kv : Store Snap) : Prop where
  filed : ∀ o i r, kv.lookup (.event o i) = some r → r.ownerAccountId = o ∧ r.eventId = i
  once : ∀ o i r, kv.lookup (.event o i) = some r → (indexed kv o r.peerLinkId).count i = 1
  known : ∀ o l i, i ∈ indexed kv o l → ∃ r, kv.lookup (.event o i) = some r ∧ r.peerLinkId = l

/-- An event id names one event. -/
def Named (s : LogState Snap) (ev : EventRecord) : Prop :=
  (∀ th ∈ s.threads, th.call.ownerAccountId = ev.ownerAccountId → th.call.eventId = ev.eventId →
  th.call = ev) ∧
  ∀ r, s.mem.kv.lookup (.event ev.ownerAccountId ev.eventId) = some r → r = ev

def anyAppends : LogRules Snap where
  init m := Logged m.kv
  may := Named
  ok _ _ := True

/-- Both writes of an append come in clean windows, and it does not break off
between them. -/
def Completes (s : LogState Snap) (e : Event (sdk Snap) Fate) : Prop :=
  match e.op with
  | .set (.event o i) _ => undisturbed (.event o i) e.tid s.log = true ∧ ∀ f, e.fate ≠ .landFail f
  | .get (.eventIndex ..) => ∀ f, e.fate ≠ .fail f
  | .set (.eventIndex o l) _ =>
    undisturbed (.eventIndex o l) e.tid s.log = true ∧ ∀ f, e.fate ≠ .fail f
  | _ => True

def completeAppends : LogRules Snap where
  init m := Logged m.kv
  may := Named
  ok := Completes

/-! ## One append -/

/-- How far an append is. -/
inductive Phase
  | asked
  | absent
  | found
  | stored
  | read (ids : List Id)
  | done
deriving DecidableEq

/-- The event is stored and its index entry is still to come. -/
def Phase.pending : Phase → Bool
  | .stored => true
  | .read _ => true
  | _ => false

/-- The phase and the event of an append. -/
abbrev Progress := EventRecord × Phase

def monitor : Monitor (sdk Snap) Progress where
  next a
    | ⟨.get (.event ..), .ok none⟩ => (a.1, .absent)
    | ⟨.get (.event ..), .ok (some _)⟩ => (a.1, .found)
    | ⟨.set (.event ..) _, .ok ()⟩ => (a.1, .stored)
    | ⟨.get (.eventIndex ..), .ok v⟩ => (a.1, .read (v.getD []))
    | ⟨.set (.eventIndex ..) _, _⟩ => (a.1, .done)
    | _ => a
  may a
    | .get (.event o i) => o = a.1.ownerAccountId ∧ i = a.1.eventId ∧ a.2 = .asked
    | .set (.event o i) v => o = a.1.ownerAccountId ∧ i = a.1.eventId ∧ v = a.1 ∧ a.2 = .absent
    | .get (.eventIndex o l) => o = a.1.ownerAccountId ∧ l = a.1.peerLinkId ∧ a.2 = .stored
    | .set (.eventIndex o l) v =>
      o = a.1.ownerAccountId ∧ l = a.1.peerLinkId ∧ ∃ ids, a.2 = .read ids ∧
        v = ids ++ [a.1.eventId]
    | _ => False

/-- The index is read without failure. -/
def Law : Proc.Exch (sdk Snap) → Prop
  | ⟨.get (.eventIndex ..), .error _⟩ => False
  | _ => True

/-- An append that ends leaves nothing to come, and one that succeeds has
found or listed its event. -/
def Post (_ : EventRecord) (a : Progress) (x : Except Err EventRecord) : Prop :=
  a.2.pending = false ∧ ∀ r, x = .ok r → a.2 = .found ∨ a.2 = .done

theorem obeys_append (ev : EventRecord) :
    Obeys (monitor : Monitor (sdk Snap) Progress) Law (Post ev) (ev, .asked)
      (Events.append ev) := by
  refine obeys_js_bind ⟨⟨rfl, rfl, rfl⟩, fun existing _ => ?_⟩
  match existing with
  | .error e => exact ⟨rfl, nofun⟩
  | .ok (some r) =>
    refine obeys_js_bind (obeys_ensure (fun _ => ?_) fun _ => ?_)
    · exact ⟨rfl, fun _ _ => .inl rfl⟩
    · exact ⟨rfl, nofun⟩
  | .ok none =>
    refine obeys_js_bind ⟨⟨rfl, rfl, rfl, rfl⟩, fun stored _ => ?_⟩
    match stored with
    | .error e => exact ⟨rfl, nofun⟩
    | .ok () =>
      refine obeys_js_bind ⟨⟨rfl, rfl, rfl⟩, fun index hl => ?_⟩
      match index with
      | .error e => exact hl.elim
      | .ok v =>
        refine obeys_js_bind ⟨⟨rfl, rfl, v.getD [], rfl, rfl⟩, fun r _ => ?_⟩
        match r with
        | .error e => exact ⟨rfl, nofun⟩
        | .ok () => exact ⟨rfl, fun _ _ => .inr rfl⟩

/-! ## All of them -/

/-- The event and the phase of append `t`. -/
def view (s : LogState Snap) (t : Nat) : Option Progress :=
  System.view monitor (fun ev : EventRecord => (ev, Phase.asked)) s t

theorem next_event (a : Progress) (x : Proc.Exch (sdk Snap)) : (monitor.next a x).1 = a.1 := by
  unfold monitor
  dsimp only
  split <;> rfl

theorem mon_event (ev : EventRecord) (t : Nat) (log : List (Event (sdk Snap) Fate)) :
    (Pool.mon monitor (ev, .asked) t log).1 = ev := by
  induction log with
  | nil => rfl
  | cons e log ih =>
    by_cases ht : e.tid = t
    · subst ht
      rw [Pool.mon_self, next_event, ih]
    · rw [Pool.mon_other ht, ih]

abbrev Conforms (s : LogState Snap) : Prop :=
  System.Conforms monitor Law (fun ev : EventRecord => (ev, Phase.asked)) Post s

section

variable {core : Core Snap} {s s' : LogState Snap} {e : Event (sdk Snap) Fate} {c : EventRecord}
  {k : (sdk Snap).Ans e.op → Proc (sdk Snap) (Except Err EventRecord)}

/-- The append whose step it is: what it may do, and where it goes. -/
theorem view_self (h : Conforms s) (hf : Pool.Fires (appends core) s e c k s') :
    ∃ a, view s e.tid = some a ∧ monitor.may a e.op ∧
      view s' e.tid = some (monitor.next a e.exch) :=
  ⟨_, System.view_fired hf, h.may hf, System.view_self hf⟩

theorem view_other (hf : Pool.Fires (appends core) s e c k s') {t : Nat} (ht : e.tid ≠ t) :
    view s' t = view s t :=
  System.view_other hf ht

theorem view_cases (hf : Pool.Fires (appends core) s e c k s') {a b : Progress} {t : Nat}
    (ha : view s' e.tid = some a) (hb : view s' t = some b) :
    t = e.tid ∧ b = a ∨ e.tid ≠ t ∧ view s t = some b :=
  System.view_cases hf ha hb

theorem view_stays (hf : Pool.Fires (appends core) s e c k s') {a b : Progress} {t : Nat}
    (ha : view s e.tid = some a) (hb : view s t = some b) :
    t = e.tid ∧ b = a ∨ e.tid ≠ t ∧ view s' t = some b :=
  System.view_stays hf ha hb

end

/-- What the appends know of the store. -/
structure Inv (s : LogState Snap) : Prop where
  conforms : Conforms s
  /-- an event id names one event -/
  named : ∀ t a t' a', view s t = some a → view s t' = some a' →
    a.1.ownerAccountId = a'.1.ownerAccountId →
    a.1.eventId = a'.1.eventId → a.1 = a'.1
  filed : ∀ o i r, s.mem.kv.lookup (.event o i) = some r → r.ownerAccountId = o ∧ r.eventId = i
  same : ∀ t a r, view s t = some a →
    s.mem.kv.lookup (.event a.1.ownerAccountId a.1.eventId) = some r → r = a.1
  known : ∀ o l i, i ∈ indexed s.mem.kv o l → ∃ r, s.mem.kv.lookup (.event o i) = some r ∧
    r.peerLinkId = l
  /-- an event is listed once, or its append will list it -/
  once : ∀ o i r, s.mem.kv.lookup (.event o i) = some r →
    (indexed s.mem.kv o r.peerLinkId).count i = 1 ∨
    ∃ t a, view s t = some a ∧ a.1 = r ∧ a.2.pending = true
  pending : ∀ t a, view s t = some a → a.2.pending = true →
    s.mem.kv.lookup (.event a.1.ownerAccountId a.1.eventId) = some a.1 ∧
      a.1.eventId ∉ indexed s.mem.kv a.1.ownerAccountId a.1.peerLinkId
  sole : ∀ t a t' a', view s t = some a → view s t' = some a' → a.2.pending = true →
    a'.2.pending = true →
    a.1 = a'.1 → t = t'
  has : ∀ t a, view s t = some a → a.2 = .found ∨ a.2 = .done →
    s.mem.kv.lookup (.event a.1.ownerAccountId a.1.eventId) = some a.1
  absent : ∀ t a, view s t = some a → a.2 = .absent →
    undisturbed (.event a.1.ownerAccountId a.1.eventId) t s.log = true →
    s.mem.kv.lookup (.event a.1.ownerAccountId a.1.eventId) = none
  read : ∀ t a ids, view s t = some a → a.2 = .read ids →
    undisturbed (.eventIndex a.1.ownerAccountId a.1.peerLinkId) t s.log = true →
    indexed s.mem.kv a.1.ownerAccountId a.1.peerLinkId = ids

theorem indexed_insert_event {kv : Store Snap} {o i : Id} {r : EventRecord} (o' l : Id) :
    indexed (kv.insert (.event o i) r) o' l = indexed kv o' l := by
  unfold indexed
  rw [AList.lookup_insert_ne (show Key.eventIndex o' l ≠ Key.event o i from nofun)]

theorem indexed_insert_self {kv : Store Snap} {o l : Id} {ids : List Id} :
    indexed (kv.insert (.eventIndex o l) ids) o l = ids := by
  unfold indexed
  rw [AList.lookup_insert]
  rfl

theorem indexed_insert_other {kv : Store Snap} {o l o' l' : Id} {ids : List Id}
    (h : ¬ (o' = o ∧ l' = l)) :
    indexed (kv.insert (.eventIndex o l) ids) o' l' = indexed kv o' l' := by
  unfold indexed
  rw [AList.lookup_insert_ne]
  intro heq
  exact h (by cases heq; exact ⟨rfl, rfl⟩)

theorem lookup_insert_index {kv : Store Snap} {o l : Id} {ids : List Id} (o' i : Id) :
    (kv.insert (.eventIndex o l) ids).lookup (.event o' i) = kv.lookup (.event o' i) :=
  AList.lookup_insert_ne (show Key.event o' i ≠ Key.eventIndex o l from nofun)

section

variable {core : Core Snap} {s s' : LogState Snap} {e : Event (sdk Snap) Fate} {c : EventRecord}
  {k : (sdk Snap).Ans e.op → Proc (sdk Snap) (Except Err EventRecord)} {a : Progress}

/-- Every append keeps its event. -/
theorem view_back (hf : Pool.Fires (appends core) s e c k s') (ha : view s e.tid = some a)
    {ph : Phase} (ha' : view s' e.tid = some (a.1, ph)) {t : Nat} {b : Progress}
    (hb : view s' t = some b) : ∃ b₀, view s t = some b₀ ∧ b₀.1 = b.1 := by
  obtain ⟨rfl, rfl⟩ | ⟨-, hb⟩ := view_cases hf ha' hb
  · exact ⟨a, ha, rfl⟩
  · exact ⟨b, hb, rfl⟩

theorem Inv.named_step (h : Inv s) (hf : Pool.Fires (appends core) s e c k s')
    (ha : view s e.tid = some a) {ph : Phase} (ha' : view s' e.tid = some (a.1, ph)) {t t' : Nat}
    {b b' : Progress} (hb : view s' t = some b) (hb' : view s' t' = some b')
    (ho : b.1.ownerAccountId = b'.1.ownerAccountId) (hi : b.1.eventId = b'.1.eventId) :
    b.1 = b'.1 := by
  obtain ⟨b₀, hb₀, heq⟩ := view_back hf ha ha' hb
  obtain ⟨b₁, hb₁, heq'⟩ := view_back hf ha ha' hb'
  rw [← heq, ← heq'] at ho hi ⊢
  exact h.named t b₀ t' b₁ hb₀ hb₁ ho hi

/-- What another append has not found is still missing, as long as its window
is clean. -/
theorem Inv.absent_step (h : Inv s) (hf : Pool.Fires (appends core) s e c k s') {t : Nat}
    {b : Progress} (ht : e.tid ≠ t) (hb : view s t = some b) (hp : b.2 = .absent)
    (hu : undisturbed (.event b.1.ownerAccountId b.1.eventId) t s'.log = true) :
    s'.mem.kv.lookup (.event b.1.ownerAccountId b.1.eventId) = none := by
  obtain ⟨hu₀, hlook⟩ := undisturbed_step (S := appends core) rfl hf (fun hr => ht hr.1) hu
  rw [hlook]
  exact h.absent t b hb hp hu₀

/-- And the index that another append has read is still the stored one. -/
theorem Inv.read_step (h : Inv s) (hf : Pool.Fires (appends core) s e c k s') {t : Nat}
    {b : Progress} {ids : List Id} (ht : e.tid ≠ t) (hb : view s t = some b) (hp : b.2 = .read ids)
    (hu : undisturbed (.eventIndex b.1.ownerAccountId b.1.peerLinkId) t s'.log = true) :
    indexed s'.mem.kv b.1.ownerAccountId b.1.peerLinkId = ids := by
  obtain ⟨hu₀, hlook⟩ := undisturbed_step (S := appends core) rfl hf (fun hr => ht hr.1) hu
  unfold indexed
  rw [hlook]
  exact h.read t b ids hb hp hu₀

/-- A step that writes nothing and keeps what its append has to do. -/
theorem Inv.still (h : Inv s) (hf : Pool.Fires (appends core) s e c k s') (hc : Conforms s')
    (ha : view s e.tid = some a) {ph : Phase} (ha' : view s' e.tid = some (a.1, ph))
    (hkv : s'.mem.kv = s.mem.kv) (hpend : ph.pending = a.2.pending)
    (hhas : ph = .found ∨ ph = .done →
        s.mem.kv.lookup (.event a.1.ownerAccountId a.1.eventId) = some a.1)
    (habsent : ph = .absent →
        undisturbed (.event a.1.ownerAccountId a.1.eventId) e.tid s'.log = true →
        s.mem.kv.lookup (.event a.1.ownerAccountId a.1.eventId) = none)
    (hread : ∀ ids, ph = .read ids →
        undisturbed (.eventIndex a.1.ownerAccountId a.1.peerLinkId) e.tid s'.log = true →
        indexed s.mem.kv a.1.ownerAccountId a.1.peerLinkId = ids) : Inv s' := by
  -- every append has the event it had, and pends exactly when it did
  have hback : ∀ t b, view s' t = some b → ∃ b₀, view s t = some b₀ ∧ b₀.1 = b.1 ∧
      b₀.2.pending = b.2.pending := by
    intro t b hb
    obtain ⟨rfl, rfl⟩ | ⟨-, hb⟩ := view_cases hf ha' hb
    · exact ⟨a, ha, rfl, hpend.symm⟩
    · exact ⟨b, hb, rfl, rfl⟩
  refine
    { conforms := hc
      named := fun t b t' b' hb hb' => h.named_step hf ha ha' hb hb'
      filed := by rw [hkv]; exact h.filed
      same := fun t b r hb hr => ?_
      known := by rw [hkv]; exact h.known
      once := fun o i r hr => ?_
      pending := fun t b hb hp => ?_
      sole := fun t b t' b' hb hb' hp hp' heq => ?_
      has := fun t b hb hp => ?_
      absent := fun t b hb hp hu => ?_
      read := fun t b ids hb hp hu => ?_ }
  · obtain ⟨b₀, hb₀, heq, -⟩ := hback t b hb
    rw [hkv, ← heq] at hr
    rw [← heq]
    exact h.same t b₀ r hb₀ hr
  · rw [hkv] at hr ⊢
    rcases h.once o i r hr with hone | ⟨t, b, hb, hr', hp⟩
    · exact .inl hone
    · obtain ⟨rfl, rfl⟩ | ⟨-, hb⟩ := view_stays hf ha hb
      · exact .inr ⟨e.tid, _, ha', hr', hpend.trans hp⟩
      · exact .inr ⟨t, b, hb, hr', hp⟩
  · obtain ⟨b₀, hb₀, heq, hp₀⟩ := hback t b hb
    rw [hkv, ← heq]
    exact h.pending t b₀ hb₀ (hp₀.trans hp)
  · obtain ⟨b₀, hb₀, he₀, hp₀⟩ := hback t b hb
    obtain ⟨b₁, hb₁, he₁, hp₁⟩ := hback t' b' hb'
    exact h.sole t b₀ t' b₁ hb₀ hb₁ (hp₀.trans hp) (hp₁.trans hp') (he₀.trans (heq.trans he₁.symm))
  · rw [hkv]
    obtain ⟨rfl, rfl⟩ | ⟨-, hb⟩ := view_cases hf ha' hb
    · exact hhas hp
    · exact h.has t b hb hp
  · obtain ⟨rfl, rfl⟩ | ⟨ht, hb⟩ := view_cases hf ha' hb
    · rw [hkv]
      exact habsent hp hu
    · exact h.absent_step hf ht hb hp hu
  · obtain ⟨rfl, rfl⟩ | ⟨ht, hb⟩ := view_cases hf ha' hb
    · rw [hkv]
      exact hread ids hp hu
    · exact h.read_step hf ht hb hp hu

/-- The write of the event. -/
theorem Inv.record (h : Inv s) (hf : Pool.Fires (appends core) s e c k s') (hc : Conforms s')
    (ha : view s e.tid = some a) (hph : a.2 = .absent) (ha' : view s' e.tid = some (a.1, .stored))
    (hnone : s.mem.kv.lookup (.event a.1.ownerAccountId a.1.eventId) = none)
    (hkv : s'.mem.kv = s.mem.kv.insert (.event a.1.ownerAccountId a.1.eventId) a.1) : Inv s' := by
  have hself : s'.mem.kv.lookup (.event a.1.ownerAccountId a.1.eventId) = some a.1 := by
    rw [hkv, AList.lookup_insert]
  -- what was stored stays stored
  have hkept : ∀ o i r, s.mem.kv.lookup (.event o i) = some r →
      s'.mem.kv.lookup (.event o i) = some r := by
    intro o i r hr
    rw [hkv, AList.lookup_insert_ne]
    · exact hr
    · intro heq
      cases heq
      rw [hnone] at hr
      cases hr
  have hindexed : ∀ o l, indexed s'.mem.kv o l = indexed s.mem.kv o l := by
    intro o l
    rw [hkv, indexed_insert_event]
  have hnew : ∀ o i r, s'.mem.kv.lookup (.event o i) = some r →
      s.mem.kv.lookup (.event o i) = some r ∨
      o = a.1.ownerAccountId ∧ i = a.1.eventId ∧ r = a.1 := by
    intro o i r hr
    by_cases hkey : Key.event o i = Key.event a.1.ownerAccountId a.1.eventId
    · cases hkey
      rw [hself, Option.some.injEq] at hr
      exact .inr ⟨rfl, rfl, hr.symm⟩
    · rw [hkv, AList.lookup_insert_ne hkey] at hr
      exact .inl hr
  -- no other append has stored this event
  have hother : ∀ t b, view s t = some b → b.2.pending = true → b.1 ≠ a.1 := by
    intro t b hb hp heq
    obtain ⟨hlook, -⟩ := h.pending t b hb hp
    rw [heq, hnone] at hlook
    cases hlook
  refine
    { conforms := hc
      named := fun t b t' b' hb hb' => h.named_step hf ha ha' hb hb'
      filed := fun o i r hr => ?_
      same := fun t b r hb hr => ?_
      known := fun o l i hi => ?_
      once := fun o i r hr => ?_
      pending := fun t b hb hp => ?_
      sole := fun t b t' b' hb hb' hp hp' heq => ?_
      has := fun t b hb hp => ?_
      absent := fun t b hb hp hu => ?_
      read := fun t b ids hb hp hu => ?_ }
  · rcases hnew o i r hr with hr | ⟨rfl, rfl, rfl⟩
    · exact h.filed o i r hr
    · exact ⟨rfl, rfl⟩
  · rcases hnew _ _ r hr with hr | ⟨ho, hi, rfl⟩
    · obtain ⟨b₀, hb₀, heq⟩ := view_back hf ha ha' hb
      rw [← heq] at hr ⊢
      exact h.same t b₀ r hb₀ hr
    · exact (h.named_step hf ha ha' hb ha' ho hi).symm
  · rw [hindexed] at hi
    obtain ⟨r, hr, hl⟩ := h.known o l i hi
    exact ⟨r, hkept o i r hr, hl⟩
  · rw [hindexed]
    rcases hnew o i r hr with hr | ⟨rfl, rfl, rfl⟩
    · rcases h.once o i r hr with hone | ⟨t, b, hb, hr', hp⟩
      · exact .inl hone
      · obtain ⟨rfl, rfl⟩ | ⟨-, hb⟩ := view_stays hf ha hb
        · rw [hph] at hp
          cases hp
        · exact .inr ⟨t, b, hb, hr', hp⟩
    · exact .inr ⟨e.tid, _, ha', rfl, rfl⟩
  · rw [hindexed]
    obtain ⟨rfl, rfl⟩ | ⟨-, hb⟩ := view_cases hf ha' hb
    · refine ⟨hself, fun hin => ?_⟩
      obtain ⟨r, hr, -⟩ := h.known _ _ _ hin
      rw [hnone] at hr
      cases hr
    · obtain ⟨hlook, hin⟩ := h.pending t b hb hp
      exact ⟨hkept _ _ _ hlook, hin⟩
  · obtain ⟨rfl, rfl⟩ | ⟨-, hb⟩ := view_cases hf ha' hb
    · obtain ⟨rfl, -⟩ | ⟨-, hb'⟩ := view_cases hf ha' hb'
      · rfl
      · exact absurd heq.symm (hother t' b' hb' hp')
    · obtain ⟨rfl, rfl⟩ | ⟨-, hb'⟩ := view_cases hf ha' hb'
      · exact absurd heq (hother t b hb hp)
      · exact h.sole t b t' b' hb hb' hp hp' heq
  · obtain ⟨rfl, rfl⟩ | ⟨-, hb⟩ := view_cases hf ha' hb
    · exact hself
    · exact hkept _ _ _ (h.has t b hb hp)
  · obtain ⟨rfl, rfl⟩ | ⟨ht, hb⟩ := view_cases hf ha' hb
    · cases hp
    · exact h.absent_step hf ht hb hp hu
  · obtain ⟨rfl, rfl⟩ | ⟨ht, hb⟩ := view_cases hf ha' hb
    · cases hp
    · exact h.read_step hf ht hb hp hu

/-- The write of the index. -/
theorem Inv.list (h : Inv s) (hf : Pool.Fires (appends core) s e c k s') (hc : Conforms s')
    (ha : view s e.tid = some a) (hp : a.2.pending = true) (ha' : view s' e.tid = some (a.1, .done))
    (hkv : s'.mem.kv = s.mem.kv.insert (.eventIndex a.1.ownerAccountId a.1.peerLinkId)
      (indexed s.mem.kv a.1.ownerAccountId a.1.peerLinkId ++ [a.1.eventId])) : Inv s' := by
  have hevent : ∀ o i, s'.mem.kv.lookup (.event o i) = s.mem.kv.lookup (.event o i) := by
    intro o i
    rw [hkv, lookup_insert_index]
  obtain ⟨hstored, hnotin⟩ := h.pending e.tid a ha hp
  -- the index of the append's own link, and the others
  have hown : indexed s'.mem.kv a.1.ownerAccountId a.1.peerLinkId =
      indexed s.mem.kv a.1.ownerAccountId a.1.peerLinkId ++ [a.1.eventId] := by
    rw [hkv, indexed_insert_self]
  have hothers : ∀ o l, ¬ (o = a.1.ownerAccountId ∧ l = a.1.peerLinkId) →
      indexed s'.mem.kv o l = indexed s.mem.kv o l := by
    intro o l hne
    rw [hkv, indexed_insert_other hne]
  have hpend : ∀ t b, view s' t = some b → b.2.pending = true →
      e.tid ≠ t ∧ view s t = some b := by
    intro t b hb hpb
    obtain ⟨rfl, rfl⟩ | hb := view_cases hf ha' hb
    · cases hpb
    · exact hb
  refine
    { conforms := hc
      named := fun t b t' b' hb hb' => h.named_step hf ha ha' hb hb'
      filed := fun o i r hr => h.filed o i r (hevent o i ▸ hr)
      same := fun t b r hb hr => ?_
      known := fun o l i hi => ?_
      once := fun o i r hr => ?_
      pending := fun t b hb hpb => ?_
      sole := fun t b t' b' hb hb' hpb hpb' =>
        h.sole t b t' b' (hpend t b hb hpb).2 (hpend t' b' hb' hpb').2 hpb hpb'
      has := fun t b hb hpb => ?_
      absent := fun t b hb hpb hu => ?_
      read := fun t b ids hb hpb hu => ?_ }
  · obtain ⟨b₀, hb₀, heq⟩ := view_back hf ha ha' hb
    rw [hevent, ← heq] at hr
    rw [← heq]
    exact h.same t b₀ r hb₀ hr
  · rw [hevent]
    by_cases hkey : o = a.1.ownerAccountId ∧ l = a.1.peerLinkId
    · obtain ⟨rfl, rfl⟩ := hkey
      rw [hown, List.mem_append, List.mem_singleton] at hi
      rcases hi with hi | rfl
      · exact h.known _ _ i hi
      · exact ⟨a.1, hstored, rfl⟩
    · rw [hothers o l hkey] at hi
      exact h.known o l i hi
  · rw [hevent] at hr
    by_cases hev : o = a.1.ownerAccountId ∧ i = a.1.eventId
    · obtain ⟨rfl, rfl⟩ := hev
      rw [hstored, Option.some.injEq] at hr
      subst hr
      left
      rw [hown, List.count_append, List.count_eq_zero.mpr hnotin, List.count_singleton_self]
    · rcases h.once o i r hr with hone | ⟨t, b, hb, hr', hpb⟩
      · left
        by_cases hkey : o = a.1.ownerAccountId ∧ r.peerLinkId = a.1.peerLinkId
        · have hne : a.1.eventId ≠ i := fun heq => hev ⟨hkey.1, heq.symm⟩
          rw [hkey.1, hkey.2] at hone ⊢
          rw [hown, List.count_append, hone, List.count_singleton, if_neg (by simpa using hne)]
        · rw [hothers o r.peerLinkId hkey]
          exact hone
      · obtain ⟨rfl, rfl⟩ | ⟨-, hb⟩ := view_stays hf ha hb
        · obtain ⟨ho, hi⟩ := h.filed o i r hr
          exact absurd ⟨by rw [hr', ho], by rw [hr', hi]⟩ hev
        · exact .inr ⟨t, b, hb, hr', hpb⟩
  · obtain ⟨ht, hb⟩ := hpend t b hb hpb
    obtain ⟨hlook, hin⟩ := h.pending t b hb hpb
    refine ⟨(hevent _ _).trans hlook, ?_⟩
    by_cases hkey : b.1.ownerAccountId = a.1.ownerAccountId ∧ b.1.peerLinkId = a.1.peerLinkId
    · rw [hkey.1, hkey.2] at hin ⊢
      rw [hown, List.mem_append, List.mem_singleton]
      rintro (hmem | heq)
      · exact hin hmem
      · exact ht (h.sole e.tid a t b ha hb hp hpb (h.named t b e.tid a hb ha hkey.1 heq).symm)
    · rw [hothers _ _ hkey]
      exact hin
  · rw [hevent]
    obtain ⟨rfl, rfl⟩ | ⟨-, hb⟩ := view_cases hf ha' hb
    · exact hstored
    · exact h.has t b hb hpb
  · obtain ⟨rfl, rfl⟩ | ⟨ht, hb⟩ := view_cases hf ha' hb
    · cases hpb
    · exact h.absent_step hf ht hb hpb hu
  · obtain ⟨ht, hb⟩ := hpend t b hb (by rw [hpb]; rfl)
    exact h.read_step hf ht hb hpb hu

theorem law_fires (hf : Pool.Fires (appends core) s e c k s') (hok : Completes s e) :
    Law e.exch := by
  obtain ⟨t, o, r, f⟩ := e
  cases o with
  | get key =>
    cases key with
    | eventIndex o l =>
      match r with
      | .ok v => trivial
      | .error err =>
        have hact : act core t s.mem (.get (.eventIndex o l)) f = some (.error err, s'.mem) :=
          hf.act
        cases f with
        | fail x => exact absurd rfl (hok x)
        | _ => cases hact
    | _ => trivial
  | _ => trivial

theorem inv_fires (h : Inv s) (hf : Pool.Fires (appends core) s e c k s') (hok : Completes s e) :
    Inv s' := by
  have hc := System.conforms_fires h.conforms hf (law_fires hf hok)
  obtain ⟨a, ha, hmay, ha'⟩ := view_self h.conforms hf
  have hkv : s'.mem.kv = effect s.mem.kv e.op e.fate := kv_of_fires (S := appends core) rfl hf
  have hact : act core e.tid s.mem e.op e.fate = some (e.ans, s'.mem) := hf.act
  have hlog := hf.log
  obtain ⟨t, o, r, f⟩ := e
  cases o with
  | get key =>
    cases key with
    | event o i =>
      obtain ⟨rfl, rfl, hph⟩ := hmay
      have hnot : a.2.pending = false := by rw [hph]; rfl
      rcases r with err | _ | v
      · have hstays : view s' t = some (a.1, a.2) := ha'
        refine h.still hf hc ha hstays hkv rfl ?_ ?_ ?_
        · rw [hph]
          exact fun h => by rcases h with h | h <;> cases h
        · rw [hph]
          exact fun h => by cases h
        · rw [hph]
          exact fun _ h => by cases h
      · have hnone := act_get_ok hact
        exact h.still hf hc ha ha' hkv hnot.symm (fun h => by rcases h with h | h <;> cases h)
          (fun _ _ => hnone) fun _ h => by cases h
      · have hsome := act_get_ok hact
        refine h.still hf hc ha ha' hkv hnot.symm (fun _ => ?_) (fun h => by cases h) fun _ h => by
          cases h
        rw [hsome, h.same t a v ha hsome]
    | eventIndex o l =>
      obtain ⟨rfl, rfl, hph⟩ := hmay
      cases r with
      | error err =>
        have hstays : view s' t = some (a.1, a.2) := ha'
        refine h.still hf hc ha hstays hkv rfl ?_ ?_ ?_
        · rw [hph]
          exact fun h => by rcases h with h | h <;> cases h
        · rw [hph]
          exact fun h => by cases h
        · rw [hph]
          exact fun _ h => by cases h
      | ok v =>
        have hlook := act_get_ok hact
        refine h.still hf hc ha ha' hkv (by rw [hph]; rfl)
          (fun h => by rcases h with h | h <;> cases h)
          (fun h => by cases h) fun ids hids _ => ?_
        rw [indexed, hlook]
        exact Phase.read.inj hids
    | _ => exact hmay.elim
  | set key v =>
    cases key with
    | event o i =>
      obtain ⟨rfl, rfl, rfl, hph⟩ := hmay
      obtain ⟨hclean, hland⟩ := hok
      cases r with
      | error err =>
        have hlands : f.lands = false := by
          cases f with
          | landFail x => exact absurd rfl (hland x)
          | fail x => rfl
          | _ => cases hact
        have hsame : s'.mem.kv = s.mem.kv := by
          rw [hkv]
          simp only [effect, hlands]
          rfl
        have hstays : view s' t = some (a.1, a.2) := ha'
        refine h.still hf hc ha hstays hsame rfl ?_ ?_ ?_
        · rw [hph]
          exact fun h => by rcases h with h | h <;> cases h
        · intro _ _
          exact h.absent t a ha hph hclean
        · rw [hph]
          exact fun _ h => by cases h
      | ok u =>
        refine h.record hf hc ha hph ha' (h.absent t a ha hph hclean) ?_
        rw [hkv]
        simp only [effect, act_set_ok hact, if_true]
    | eventIndex o l =>
      obtain ⟨rfl, rfl, ids, hph, hv⟩ := hmay
      obtain ⟨hclean, hfail⟩ := hok
      have hlands : f.lands = true := by
        cases f with
        | fail x => exact absurd rfl (hfail x)
        | _ => rfl
      have hids := h.read t a ids ha hph hclean
      refine h.list hf hc ha (by rw [hph]; rfl) ha' ?_
      rw [hkv, hids, ← hv]
      simp only [effect, hlands, if_true]
    | _ => exact hmay.elim
  | _ => exact hmay.elim

end

theorem inv_init {m : Mem Snap} (h : Logged m.kv) : Inv (⟨m, [], []⟩ : LogState Snap) where
  conforms := System.conforms_init m
  named t a _ _ ha := by cases ha.symm.trans (System.view_init m t)
  filed := h.filed
  same t a _ ha := by cases ha.symm.trans (System.view_init m t)
  known := h.known
  once o i r hr := .inl (h.once o i r hr)
  pending t a ha := by cases ha.symm.trans (System.view_init m t)
  sole t a _ _ ha := by cases ha.symm.trans (System.view_init m t)
  has t a ha := by cases ha.symm.trans (System.view_init m t)
  absent t a ha := by cases ha.symm.trans (System.view_init m t)
  read t a _ ha := by cases ha.symm.trans (System.view_init m t)

theorem inv_spawn {core : Core Snap} {s : LogState Snap} {ev : EventRecord} (h : Inv s)
    (hn : Named s ev) : Inv (s.spawn (appends core) ev) := by
  have hback : ∀ t b, view (s.spawn (appends core) ev) t = some b →
      b = (ev, .asked) ∨ view s t = some b :=
    fun t b hb => (h.conforms.view_spawned hb).imp_left And.right
  have hkept : ∀ t b, view s t = some b → view (s.spawn (appends core) ev) t = some b :=
    fun t b hb => h.conforms.view_kept hb
  have hcall : ∀ t b, view s t = some b → ∃ th ∈ s.threads, th.call = b.1 := by
    intro t b hb
    obtain ⟨th, hth, hmon⟩ := Option.map_eq_some_iff.mp hb
    refine ⟨th, List.mem_of_getElem? hth, ?_⟩
    rw [← hmon, mon_event]
  refine
    { conforms := System.conforms_spawn h.conforms (obeys_append ev)
      named := fun t b t' b' hb hb' ho hi => ?_
      filed := h.filed
      same := fun t b r hb hr => ?_
      known := h.known
      once := fun o i r hr => ?_
      pending := fun t b hb hp => ?_
      sole := fun t b t' b' hb hb' hp hp' => ?_
      has := fun t b hb hp => ?_
      absent := fun t b hb hp hu => ?_
      read := fun t b ids hb hp hu => ?_ }
  · rcases hback t b hb with rfl | hb
    · rcases hback t' b' hb' with rfl | hb'
      · rfl
      · obtain ⟨th, hth, hcall'⟩ := hcall t' b' hb'
        rw [← hcall'] at ho hi ⊢
        exact (hn.1 th hth ho.symm hi.symm).symm
    · rcases hback t' b' hb' with rfl | hb'
      · obtain ⟨th, hth, hcall'⟩ := hcall t b hb
        rw [← hcall'] at ho hi ⊢
        exact hn.1 th hth ho hi
      · exact h.named t b t' b' hb hb' ho hi
  · rcases hback t b hb with rfl | hb
    · exact hn.2 r hr
    · exact h.same t b r hb hr
  · rcases h.once o i r hr with hone | ⟨t, b, hb, hrest⟩
    · exact .inl hone
    · exact .inr ⟨t, b, hkept t b hb, hrest⟩
  · rcases hback t b hb with rfl | hb
    · cases hp
    · exact h.pending t b hb hp
  · rcases hback t b hb with rfl | hb
    · cases hp
    · rcases hback t' b' hb' with rfl | hb'
      · cases hp'
      · exact h.sole t b t' b' hb hb' hp hp'
  · rcases hback t b hb with rfl | hb
    · rcases hp with hp | hp <;> cases hp
    · exact h.has t b hb hp
  · rcases hback t b hb with rfl | hb
    · cases hp
    · exact h.absent t b hb hp hu
  · rcases hback t b hb with rfl | hb
    · cases hp
    · exact h.read t b ids hb hp hu

theorem inv_inductive (core : Core Snap) : ((appends core).lts completeAppends).Inductive Inv :=
  System.inductive_of (fun _ hm => inv_init hm) (fun _ _ h hn => inv_spawn h hn)
    fun _ _ _ _ _ h hf hok => inv_fires h hf hok

/-! ## What is listed -/

theorem calm_readAll_eq {core : Core Snap} {t : Nat} {m : Mem Snap} {owner : Id} (ids : List Id) :
    After (calm core t)
      (fun x m' => m' = m ∧ x = .ok (ids.filterMap fun i => m.kv.lookup (.event owner i)))
      (Events.readAll owner ids) m := by
  induction ids with
  | nil => exact ⟨rfl, rfl⟩
  | cons i ids ih =>
    refine after_js_bind (calm_get (after_js_bind (ih.mono ?_)))
    rintro x m' ⟨rfl, rfl⟩
    refine ⟨rfl, ?_⟩
    rw [List.filterMap_cons]
    cases m'.kv.lookup (.event owner i) <;> rfl

theorem ends_get {core : Core Snap} {t : Nat} (m : Mem Snap) (key : Key) :
    Ends (calm core t) (kvGet key) m (.ok (m.kv.lookup key)) m := by
  have hact : calm core t m (.get key) .ok = some (.ok (m.kv.lookup key), m) :=
    within_some.mpr ⟨trivial, rfl⟩
  exact .ask hact (.ret _ _)

theorem ends_readAll (core : Core Snap) (t : Nat) (m : Mem Snap) (owner : Id) (ids : List Id) :
    ∃ items, Ends (calm core t) (Events.readAll owner ids) m (.ok items) m := by
  induction ids with
  | nil => exact ⟨[], .ret _ _⟩
  | cons i ids ih =>
    obtain ⟨items, hends⟩ := ih
    exact ⟨_, Ends.js_bind (ends_get m _) (Ends.js_bind hends (.ret _ _))⟩

theorem lists_iff {core : Core Snap} {m : Mem Snap} {owner link : Id} {items : List EventRecord} :
    Lists core m owner link items ↔ items = listed m.kv owner link := by
  have hafter : ∀ t, After (calm core t)
      (fun x _ => x = .ok (listed m.kv owner link, none))
      (Events.listByPeerLinkId owner link none none) m := by
    intro t
    refine after_js_bind (calm_get (after_js_bind ((calm_readAll_eq _).mono ?_)))
    rintro x m' ⟨rfl, rfl⟩
    rfl
  constructor
  · rintro ⟨t, cursor, m', hends⟩
    have h := after_iff_ends.mp (hafter t) _ _ hends
    rw [Except.ok.injEq, Prod.mk.injEq] at h
    exact h.1
  · rintro rfl
    obtain ⟨items, hread⟩ := ends_readAll core 0 m owner (indexed m.kv owner link)
    have hends : Ends (calm core 0) (Events.listByPeerLinkId owner link none none) m
        (.ok (items, none)) m := Ends.js_bind (ends_get m _) (Ends.js_bind hread (.ret _ _))
    have h := after_iff_ends.mp (hafter 0) _ _ hends
    rw [Except.ok.injEq, Prod.mk.injEq] at h
    rw [← h.1]
    exact ⟨0, none, m, hends⟩

theorem count_filterMap {α β : Type} [DecidableEq α] [DecidableEq β] {f : α → Option β} {a : α}
    {b : β} (hf : ∀ x, f x = some b ↔ x = a) (l : List α) :
    (l.filterMap f).count b = l.count a := by
  induction l with
  | nil => rfl
  | cons x l ih =>
    rw [List.filterMap_cons, List.count_cons]
    by_cases hx : x = a
    · rw [(hf x).mpr hx, List.count_cons_self, ih]
      simp [hx]
    · cases hfx : f x with
      | none => simp [hx, ih]
      | some y =>
        have hy : y ≠ b := fun heq => hx ((hf x).mp (heq ▸ hfx))
        simp [hx, ih, hy]

/-- The event of an append that has returned is stored. -/
theorem Inv.acknowledged {s : LogState Snap} (h : Inv s) {ev : EventRecord}
    (hack : Acknowledged s ev) :
    s.mem.kv.lookup (.event ev.ownerAccountId ev.eventId) = some ev := by
  obtain ⟨t, r, ht⟩ := hack
  have hpost := h.conforms.result ht
  have hview : view s t = some (Pool.mon monitor (ev, .asked) t s.log) := System.view_thread ht
  have hhas := h.has t _ hview (hpost.2 r rfl)
  rwa [mon_event] at hhas

/-- An event no append of which is in flight is listed once. -/
theorem Inv.settled {s : LogState Snap} (h : Inv s) {ev : EventRecord}
    (hstored : s.mem.kv.lookup (.event ev.ownerAccountId ev.eventId) = some ev)
    (hset : Settled s ev) :
    (indexed s.mem.kv ev.ownerAccountId ev.peerLinkId).count ev.eventId = 1 := by
  rcases h.once _ _ _ hstored with hone | ⟨t, a, ha, hev, hp⟩
  · exact hone
  · obtain ⟨th, hth, hmon⟩ := Option.map_eq_some_iff.mp ha
    have hcall : th.call = ev := by rw [← hev, ← hmon, mon_event]
    obtain ⟨x, hx⟩ := hset th (List.mem_of_getElem? hth) hcall
    obtain ⟨c, p⟩ := th
    obtain rfl : p = .ret x := hx
    have hpost := (h.conforms.result hth).1
    rw [show Pool.mon monitor (c, Phase.asked) t s.log = a from hmon] at hpost
    rw [hpost] at hp
    cases hp

theorem Inv.listed_once {s : LogState Snap} (h : Inv s) {ev : EventRecord}
    (hstored : s.mem.kv.lookup (.event ev.ownerAccountId ev.eventId) = some ev) :
    (listed s.mem.kv ev.ownerAccountId ev.peerLinkId).count ev =
      (indexed s.mem.kv ev.ownerAccountId ev.peerLinkId).count ev.eventId := by
  refine count_filterMap (fun i => ⟨fun hi => ?_, fun hi => ?_⟩) _
  · exact (h.filed _ _ _ hi).2.symm
  · rw [hi, hstored]

/-! ## The order -/

section

variable {core : Core Snap} {s s' : LogState Snap} {e : Event (sdk Snap) Fate} {c : EventRecord}
  {k : (sdk Snap).Ans e.op → Proc (sdk Snap) (Except Err EventRecord)}

/-- An index only grows at its end. -/
theorem Inv.grows (h : Inv s) (hf : Pool.Fires (appends core) s e c k s') (hok : Completes s e)
    (o l : Id) : indexed s.mem.kv o l <+: indexed s'.mem.kv o l := by
  obtain ⟨a, ha, hmay, -⟩ := view_self h.conforms hf
  rw [kv_of_fires (S := appends core) rfl hf]
  obtain ⟨t, op, r, f⟩ := e
  cases op with
  | set key v =>
    cases key with
    | event o' i =>
      simp only [effect]
      split
      · rw [indexed_insert_event]
      · exact List.prefix_refl _
    | eventIndex o' l' =>
      obtain ⟨rfl, rfl, ids, hph, rfl⟩ := hmay
      have hids := h.read t a ids ha hph hok.1
      simp only [effect]
      split
      · by_cases hkey : o = a.1.ownerAccountId ∧ l = a.1.peerLinkId
        · obtain ⟨rfl, rfl⟩ := hkey
          rw [indexed_insert_self, hids]
          exact List.prefix_append _ _
        · rw [indexed_insert_other hkey]
      · exact List.prefix_refl _
    | _ => exact hmay.elim
  | get key => exact List.prefix_refl _
  | _ => exact hmay.elim

theorem run_grows {ls : List (Label Fate EventRecord)}
    (hrun : ((appends core).lts completeAppends).Run s ls s') (h : Inv s) (o l : Id) :
    indexed s.mem.kv o l <+: indexed s'.mem.kv o l := by
  have hkeeps :=
    hrun.keeps (J := fun s₁ => Inv s₁ ∧ indexed s.mem.kv o l <+: indexed s₁.mem.kv o l) ?_
    ⟨h, List.prefix_refl _⟩
  · exact hkeeps.2
  · rintro s₁ lab s₂ ⟨h₁, hpre⟩ hstep
    refine ⟨(inv_inductive core).step s₁ lab s₂ h₁ hstep, ?_⟩
    obtain ⟨ev, -, rfl⟩ | ⟨e, c, k, hf, hok⟩ := System.step_cases hstep
    · exact hpre
    · exact hpre.trans (h₁.grows hf hok o l)

end

/-- An event that was acknowledged before the append of another one started is
listed before it. -/
theorem listed_order {core : Core Snap} {s₀ s : LogState Snap} {ls : List (Label Fate EventRecord)}
    (h₀ : Inv s₀) (hrun : ((appends core).lts completeAppends).Run s₀ ls s) (hquiet : Quiet s)
    {x y : EventRecord} (hx : Acknowledged s₀ x) (hxs : Settled s₀ x) (hy : Unheard s₀ y)
    (hack : Acknowledged s y) (ho : x.ownerAccountId = y.ownerAccountId)
    (hl : x.peerLinkId = y.peerLinkId) :
    List.Sublist [x, y] (listed s.mem.kv y.ownerAccountId y.peerLinkId) := by
  have h : Inv s := hrun.keeps (inv_inductive core).step h₀
  have hystored := h.acknowledged hack
  have hyin : y.eventId ∈ indexed s.mem.kv y.ownerAccountId y.peerLinkId :=
    List.count_pos_iff.mp
      (by rw [h.settled hystored fun th hth _ => hquiet th hth]; exact Nat.one_pos)
  have hxin : x.eventId ∈ indexed s₀.mem.kv y.ownerAccountId y.peerLinkId := by
    rw [← ho, ← hl]
    exact List.count_pos_iff.mp (by rw [h₀.settled (h₀.acknowledged hx) hxs]; exact Nat.one_pos)
  have hynot : y.eventId ∉ indexed s₀.mem.kv y.ownerAccountId y.peerLinkId := by
    intro hin
    obtain ⟨r, hr, -⟩ := h₀.known _ _ _ hin
    rw [hy.2] at hr
    cases hr
  -- `x` was listed before the run and `y` is behind everything that was
  obtain ⟨rest, hrest⟩ := run_grows hrun h₀ y.ownerAccountId y.peerLinkId
  have hyrest : y.eventId ∈ rest := by
    rw [← hrest, List.mem_append] at hyin
    exact hyin.resolve_left hynot
  have hsub :
      List.Sublist [x.eventId, y.eventId] (indexed s.mem.kv y.ownerAccountId y.peerLinkId) := by
    rw [← hrest]
    exact (List.singleton_sublist.mpr hxin).append (List.singleton_sublist.mpr hyrest)
  -- `x` is still stored, since it is still listed
  have hxstored : s.mem.kv.lookup (.event y.ownerAccountId x.eventId) = some x := by
    have hin : x.eventId ∈ indexed s.mem.kv y.ownerAccountId y.peerLinkId := by
      rw [← hrest]
      exact List.mem_append_left _ hxin
    obtain ⟨r, hr, -⟩ := h.known _ _ _ hin
    obtain ⟨t, r', ht⟩ := hx
    obtain ⟨p, hp⟩ : ∃ p, s.threads[t]? = some ⟨x, p⟩ := by
      refine hrun.keeps (J := fun s₁ => ∃ p, s₁.threads[t]? = some ⟨x, p⟩) ?_ ⟨_, ht⟩
      rintro s₁ lab s₂ ⟨p, hp⟩ hstep
      obtain ⟨ev, -, rfl⟩ | ⟨e, c, k, hf, -⟩ := System.step_cases hstep
      · exact ⟨p, Pool.spawn_thread hp⟩
      · exact hf.call hp
    have hview : view s t = some (Pool.mon monitor (x, .asked) t s.log) := System.view_thread hp
    have hsame := h.same t _ r hview (by rw [mon_event, ho]; exact hr)
    rw [mon_event] at hsame
    rw [hr, hsame]
  have hmap := hsub.filterMap fun i => s.mem.kv.lookup (.event y.ownerAccountId i)
  rw [List.filterMap_cons, hxstored, List.filterMap_cons, hystored] at hmap
  exact hmap

/-- **Acknowledged events are listed** once each, and in the order of appends
that did not overlap, in every run whose appends complete. -/
theorem acknowledged_listed (core : Core Snap) (s₀ s : LogState Snap)
    (ls : List (Label Fate EventRecord)) (hr : ((appends core).lts completeAppends).Reachable s₀)
    (hrun : ((appends core).lts completeAppends).Run s₀ ls s) (hquiet : Quiet s) :
    (∀ ev items, Acknowledged s ev → Lists core s.mem ev.ownerAccountId ev.peerLinkId items →
        items.count ev = 1) ∧
    ∀ x y items, Acknowledged s₀ x → Settled s₀ x → Unheard s₀ y → Acknowledged s y →
      x.ownerAccountId = y.ownerAccountId → x.peerLinkId = y.peerLinkId →
      Lists core s.mem y.ownerAccountId y.peerLinkId items → List.Sublist [x, y] items := by
  have h₀ := (inv_inductive core).reachable s₀ hr
  have h : Inv s := hrun.keeps (inv_inductive core).step h₀
  have hsettled : ∀ ev, Settled s ev := fun ev th hth _ => hquiet th hth
  refine ⟨fun ev items hack hlists => ?_, fun x y items hx hxs hy hack ho hl hlists => ?_⟩
  · have hstored := h.acknowledged hack
    rw [lists_iff.mp hlists, h.listed_once hstored, h.settled hstored (hsettled ev)]
  · rw [lists_iff.mp hlists]
    exact listed_order h₀ hrun hquiet hx hxs hy hack ho hl

namespace Example

open Counting

/-- An event of account `a`'s link `d`. -/
def event (id : Id) : EventRecord := ⟨a, id, d, .handshakeSent, 1, none, []⟩

theorem logged_empty : Logged (∅ : Store Nat) where
  filed _ _ _ h := by cases h
  once _ _ _ h := by cases h
  known _ _ _ h := by cases h

def named (s : LogState Nat) (ev : EventRecord) : Bool :=
  (s.threads.all fun th => decide (th.call.ownerAccountId = ev.ownerAccountId →
  th.call.eventId = ev.eventId →
    th.call = ev)) && (s.mem.kv.lookup (.event ev.ownerAccountId ev.eventId)).all (· = ev)

theorem named_spec {s : LogState Nat} {ev : EventRecord} (h : named s ev = true) : Named s ev := by
  simp only [named, Bool.and_eq_true, List.all_eq_true, decide_eq_true_iff] at h
  refine ⟨h.1, fun r hr => ?_⟩
  have hall := h.2
  rw [hr] at hall
  exact of_decide_eq_true hall

def completes (s : LogState Nat) (e : Event (sdk Nat) Fate) : Bool :=
  match e.op, e.fate with
  | .set (.event o i) _, .ok => undisturbed (.event o i) e.tid s.log
  | .set (.event ..) _, _ => false
  | .get (.eventIndex ..), .ok => true
  | .get (.eventIndex ..), _ => false
  | .set (.eventIndex o l) _, .ok => undisturbed (.eventIndex o l) e.tid s.log
  | .set (.eventIndex ..) _, _ => false
  | _, _ => true

theorem completes_spec {s : LogState Nat} {e : Event (sdk Nat) Fate} (h : completes s e = true) :
    Completes s e := by
  obtain ⟨t, o, r, f⟩ := e
  cases o with
  | set key v =>
    cases key with
    | event o i => cases f <;> first | exact ⟨h, nofun⟩ | cases h
    | eventIndex o l => cases f <;> first | exact ⟨h, nofun⟩ | cases h
    | _ => trivial
  | get key =>
    cases key with
    | eventIndex o l =>
      cases f with
      | fail x => cases h
      | _ => exact nofun
    | _ => trivial
  | _ => trivial

def anyJudge : System.Judge (anyAppends : LogRules Nat) where
  may := named
  ok _ _ := true
  may_iff _ _ h := named_spec h
  ok_iff _ _ _ := trivial

def judge : System.Judge (completeAppends : LogRules Nat) where
  may := named
  ok := completes
  may_iff _ _ h := named_spec h
  ok_iff _ _ h := completes_spec h

def returned (s : LogState Nat) (t : Nat) (ev : EventRecord) : Bool :=
  match s.threads[t]? with
  | some ⟨ev', .ret (.ok _)⟩ => ev' = ev
  | _ => false

theorem returned_spec {s : LogState Nat} {t : Nat} {ev : EventRecord} (h : returned s t ev = true) :
    Acknowledged s ev := by
  unfold returned at h
  split at h
  · rename_i ev' r ht
    rw [← of_decide_eq_true h]
    exact ⟨t, r, ht⟩
  · cases h

def ended (s : LogState Nat) : Bool :=
  s.threads.all fun th =>
    match th.proc with
    | .ret _ => true
    | .ask .. => false

theorem ended_spec {s : LogState Nat} (h : ended s = true) : Quiet s := by
  intro th hth
  have hall := List.all_eq_true.mp h th hth
  cases hp : th.proc with
  | ret x => exact ⟨x, rfl⟩
  | ask o k =>
    rw [hp] at hall
    cases hall

/-- The append of `event b` has returned, and that of `event c` can follow. -/
def first (s : LogState Nat) : Bool :=
  returned s 0 (event b) && ended s && (s.threads.all fun th => decide (th.call ≠ event c)) &&
    (s.mem.kv.lookup (.event a c)).isNone &&
    ((appends Counting.core).play judge smooth s [.call (event c), .go 1 4]).any fun s' =>
      ended s' && returned s' 1 (event c)

def lost (s : LogState Nat) : Bool :=
  ended s && returned s 1 (event b) && (listed s.mem.kv a d).count (event b) ≠ 1

end Example

open Example Counting in
/-- The index write of an append fails, and the retry reports the event as
appended: it is listed nowhere. -/
theorem acknowledged_lost :
    ∃ s items, ((appends Counting.core).lts anyAppends).Reachable s ∧ Quiet s ∧
      Acknowledged s (event b) ∧ Lists Counting.core s.mem a d items ∧
      items.count (event b) ≠ 1 := by
  obtain ⟨s, hr, hs⟩ := System.reachable_of_play (S := appends Counting.core) anyJudge smooth
    [.call (event b), .go 0 3, .run 0 (.fail fault), .call (event b), .go 1 1] (m := .ofStore ∅ [])
    (P := lost) logged_empty (by decide +kernel)
  simp only [lost, Bool.and_eq_true, decide_eq_true_iff] at hs
  obtain ⟨⟨hend, hret⟩, hcount⟩ := hs
  exact ⟨s, _, hr, ended_spec hend, returned_spec hret, lists_iff.mpr rfl, hcount⟩

open Example Counting in
/-- Two appends in turn are listed in turn. -/
theorem acknowledged_listed_twice :
    ∃ s₀ s ls items, ((appends Counting.core).lts completeAppends).Reachable s₀ ∧
      ((appends Counting.core).lts completeAppends).Run s₀ ls s ∧ Quiet s ∧
      Lists Counting.core s.mem a d items ∧ items.count (event c) = 1 ∧
      List.Sublist [event b, event c] items := by
  obtain ⟨s₀, hr, h₀⟩ := System.reachable_of_play (S := appends Counting.core) judge smooth
    [.call (event b), .go 0 4] (m := .ofStore ∅ []) (P := first) logged_empty (by decide +kernel)
  simp only [first, Bool.and_eq_true] at h₀
  obtain ⟨⟨⟨⟨hret, hend⟩, hcalls⟩, hnone⟩, hplay⟩ := h₀
  obtain ⟨s, hs, hP⟩ := (Option.any_eq_true _ _).mp hplay
  rw [Bool.and_eq_true] at hP
  obtain ⟨ls, hrun⟩ := System.run_of_play judge hs
  obtain ⟨hlisted, horder⟩ := acknowledged_listed Counting.core s₀ s ls hr hrun (ended_spec hP.1)
  have hunheard : Unheard s₀ (event c) :=
    ⟨fun th hth => of_decide_eq_true (List.all_eq_true.mp hcalls th hth),
    Option.isNone_iff_eq_none.mp hnone⟩
  have hlists : Lists Counting.core s.mem a d (listed s.mem.kv a d) := lists_iff.mpr rfl
  exact ⟨s₀, s, ls, _, hr, hrun, ended_spec hP.1, hlists, hlisted _ _ (returned_spec hP.2) hlists,
    horder _ _ _ (returned_spec hret) (fun th hth _ => ended_spec hend th hth) hunheard
      (returned_spec hP.2) rfl rfl
      hlists⟩

end RezSdk.L4.EventLog
