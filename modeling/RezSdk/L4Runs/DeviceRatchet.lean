import RezSdk.L3Service.Counting
import RezSdk.L4Runs.DeviceCalls

/-!
# Per-device ratchets under concurrent calls

The five calls of `DevicePeerSessions` hold the lock of (owner, link, device)
around every load, codec call and put. `Inv` ties the promise-chain mutex,
the store and what the suspended calls have read together: while a call is
inside its lock, the record it has read there is the stored one, because a
write of that record is only ever made inside the same lock. So every session
write extends the record's history, whatever writes fail.

* `device_ratchet`: packets of one session were sealed from distinct
  snapshots, what a call returned was stored by a write that returned, and no
  advance is rolled back.
-/
namespace RezSdk.L4.DeviceRatchet

open RezSdk.L1 RezSdk.L2 RezSdk.L3 RezSdk.Lineage RezSdk.L4.Ratchet Relation

variable {Snap : Type}

/-! ## The store -/

/-- A session record lies under its own ids, and an index entry of a device
names a record of that device. -/
structure WellIndexed (kv : Store Snap) : Prop where
  keyed : ∀ o i r, kv.lookup (.session o i) = some r → r.localAccountId = o ∧ r.sessionId = i
  indexed : ∀ o l d i r, kv.lookup (.sessionByDevice o l d) = some i →
    kv.lookup (.session o i) = some r → IdsOf l d r

/-- The session ids in the store are in use. -/
structure Used (m : Mem Snap) : Prop where
  records : ∀ o i r, m.kv.lookup (.session o i) = some r → i ∈ m.used
  indexes : ∀ o l d i, m.kv.lookup (.sessionByDevice o l d) = some i → i ∈ m.used

/-- The session records and their device index are the same. -/
structure Same (kv kv' : Store Snap) : Prop where
  session : ∀ o i, kv'.lookup (.session o i) = kv.lookup (.session o i)
  index : ∀ o l d, kv'.lookup (.sessionByDevice o l d) = kv.lookup (.sessionByDevice o l d)

/-- What an event can do to them. -/
inductive Change (kv kv' : Store Snap) (e : Ev Snap) : Prop
  | none : Same kv kv' → landed e = none → Change kv kv' e
  | record (o i : Id) (r : SessionRecord Snap) : e.op = Op.set (.session o i) r →
      landed e = some ((o, i), r.ratchetSnapshot) → kv' = kv.insert (.session o i) r →
        Change kv kv' e
  | index (o l d i : Id) : e.op = Op.set (.sessionByDevice o l d) i → landed e = none →
      kv' = kv.insert (.sessionByDevice o l d) i → Change kv kv' e

theorem same_refl (kv : Store Snap) : Same kv kv := ⟨fun _ _ => rfl, fun _ _ _ => rfl⟩

theorem change_of_may {core : Core Snap} {a : Dev Snap} {kv : Store Snap} {e : Ev Snap}
    (h : (monitor core).may a e.op) : Change kv (effect kv e.op e.fate) e := by
  obtain ⟨t, o, r, f⟩ := e
  cases o with
  | set k v =>
    cases hf : f.lands with
    | false =>
      refine .none ?_ ?_
      · simp only [effect, hf, Bool.false_eq_true, if_false]; exact same_refl kv
      · cases k <;> simp [landed, hf]
    | true =>
      cases k with
      | session o i =>
        exact .record o i v rfl (by simp only [landed, hf, if_true])
          (by simp only [effect, hf, if_true])
      | sessionByDevice o l d => exact .index o l d v rfl rfl (by simp only [effect, hf, if_true])
      | _ =>
        refine .none ?_ rfl
        simp only [effect, hf, if_true]
        exact ⟨fun _ _ => AList.lookup_insert_ne (by simp),
          fun _ _ _ => AList.lookup_insert_ne (by simp)⟩
  | delete k =>
    refine .none ?_ rfl
    simp only [effect]
    split
    · cases k with
      | session o i => exact h.elim
      | sessionByDevice o l d => exact h.elim
      | _ => exact ⟨fun _ _ => AList.lookup_erase_ne (by simp),
          fun _ _ _ => AList.lookup_erase_ne (by simp)⟩
    · exact same_refl kv
  | _ => exact .none (same_refl kv) rfl

/-! ## What a call inside its lock knows -/

def SiteOk (m : Mem Snap) (p : Phase) : Site Snap → Prop
  | .unknown => True
  | .indexed o l d found => Inside p o l d ∧ m.kv.lookup (.sessionByDevice o l d) = found
  | .known o l d i r => Inside p o l d ∧ m.kv.lookup (.session o i) = some r ∧ IdsOf l d r
  | .fresh o l d i => Inside p o l d ∧ i ∈ m.used ∧ m.kv.lookup (.session o i) = none ∧
      ∀ l' d', m.kv.lookup (.sessionByDevice o l' d') ≠ some i

theorem siteOk_not_held {m : Mem Snap} {p : Phase} {site : Site Snap} (h : SiteOk m p site)
    (hp : ∀ k pid, p ≠ .held k pid) : site = .unknown := by
  have hout : ∀ {o l d}, ¬ Inside p o l d := fun ⟨pid, hk⟩ => hp _ pid hk
  cases site with
  | unknown => rfl
  | indexed o l d found => exact absurd h.1 hout
  | known o l d i r => exact absurd h.1 hout
  | fresh o l d i => exact absurd h.1 hout

theorem siteOk_same {m m' : Mem Snap} {p : Phase} {site : Site Snap} (h : SiteOk m p site)
    (hs : Same m.kv m'.kv) (hu : m.used ⊆ m'.used) : SiteOk m' p site := by
  cases site with
  | unknown => trivial
  | indexed o l d found => exact ⟨h.1, (hs.index o l d).trans h.2⟩
  | known o l d i r => exact ⟨h.1, (hs.session o i).trans h.2.1, h.2.2⟩
  | fresh o l d i =>
    exact ⟨h.1, hu h.2.1, (hs.session o i).trans h.2.2.1, fun l' d' => by
      rw [hs.index]; exact h.2.2.2 l' d'⟩

/-- The firing call's own site, when no record or index changes. -/
theorem siteOk_next {core : Core Snap} {t : Nat} {m m' : Mem Snap} {a : Dev Snap} {o : Op Snap}
    {f : Fate} {r : o.Ans} (hact : act core t m o f = some (r, m')) (h : SiteOk m a.phase a.site)
    (hw : WellIndexed m.kv) (hu : Used m) (hs : Same m.kv m'.kv)
    (hl : landed (⟨t, o, r, f⟩ : Ev Snap) = none) (hmay : (monitor core).may a o) :
    SiteOk m' (lockNext a.phase ⟨o, r⟩) (siteNext a.phase a.site ⟨o, r⟩) := by
  have hkeep : SiteOk m' a.phase a.site := siteOk_same h hs (act_used hact)
  cases o with
  | get k =>
    cases k with
    | sessionByDevice o l d =>
      rcases r with err | found
      · exact hkeep
      · simp only [siteNext]
        split
        · exact ⟨‹_›, (hs.index o l d).trans (act_get_ok hact)⟩
        · exact hkeep
    | session o i =>
      rcases r with err | _ | rec
      · exact hkeep
      · exact hkeep
      · simp only [siteNext, Site.read]
        split
        · rename_i o' l d i' hsite
          rw [hsite] at h
          split
          · rename_i heq
            obtain ⟨rfl, rfl⟩ := heq
            have hrec := act_get_ok hact
            exact ⟨h.1, (hs.session _ _).trans hrec, hw.indexed _ _ _ _ _ h.2 hrec⟩
          · exact hkeep
        · exact hkeep
    | _ => exact hkeep
  | set k v =>
    cases k with
    | session o i =>
      rcases r with err | u
      · trivial
      · simp [landed, act_set_ok hact] at hl
    | _ => exact hkeep
  | runtimeUuid =>
    obtain ⟨hnew, hin⟩ := act_uuid hact
    simp only [siteNext, Site.draw]
    split
    · rename_i o l d found hsite
      rw [hsite] at h
      refine ⟨h.1, hin, ?_, fun l' d' hi => ?_⟩
      · rw [hs.session]
        cases hlook : m.kv.lookup (.session o r) with
        | none => rfl
        | some rec => exact absurd (hu.records _ _ _ hlook) hnew
      · rw [hs.index] at hi
        exact hnew (hu.indexes _ _ _ _ hi)
    · exact hkeep
  | chain k =>
    have hp : a.phase = .out := hmay
    rw [siteOk_not_held h fun _ _ hh => by rw [hp] at hh; cases hh]
    trivial
  | enter k prev pid =>
    have hp : a.phase = .queued k prev pid := hmay
    rw [siteOk_not_held h fun _ _ hh => by rw [hp] at hh; cases hh]
    trivial
  | release k pid => trivial
  | _ => exact hkeep

/-! ## A landing session write -/

/-- The record a write is made over: the one of the device, or none. -/
inductive Target (m : Mem Snap) (a : Dev Snap) (o l d i : Id) : Prop
  | existing (r₀ : SessionRecord Snap) : m.kv.lookup (.session o i) = some r₀ → IdsOf l d r₀ →
      Target m a o l d i
  | new : a.site = .fresh o l d i → i ∈ m.used → m.kv.lookup (.session o i) = none →
      (∀ l' d', m.kv.lookup (.sessionByDevice o l' d') ≠ some i) → Target m a o l d i

theorem target_of_writes {core : Core Snap} {m : Mem Snap} {a : Dev Snap} {o i : Id}
    {r : SessionRecord Snap} (hw : Writes core a o i r) (h : SiteOk m a.phase a.site) :
    ∃ l d, Inside a.phase o l d ∧ IdsOf l d r ∧ a.site.wrote o i r = .known o l d i r ∧
      Target m a o l d i := by
  cases hw with
  | @advance l d r₀ hs hid =>
    rw [hs] at h ⊢
    exact ⟨l, d, h.1, ⟨hid.link.trans h.2.2.link, hid.device.trans h.2.2.device⟩,
      by simp only [Site.wrote, and_self, if_true], .existing r₀ h.2.1 h.2.2⟩
  | @replace l d r₀ hs hid =>
    rw [hs] at h ⊢
    exact ⟨l, d, h.1, hid, by simp only [Site.wrote, and_self, if_true], .existing r₀ h.2.1 h.2.2⟩
  | @create l d hs hid =>
    have h' := h
    rw [hs] at h'
    refine ⟨l, d, h'.1, hid, ?_, .new hs h'.2.1 h'.2.2.1 h'.2.2.2⟩
    rw [hs]; simp only [Site.wrote, and_self, if_true]

theorem IdsOf.unique {l d l' d' : Id} {r : SessionRecord Snap} (h : IdsOf l d r)
    (h' : IdsOf l' d' r) : l = l' ∧ d = d' :=
  ⟨h.link.symm.trans h'.link, Option.some.inj (h.device.symm.trans h'.device)⟩

section Record

variable {m m' : Mem Snap} {a : Dev Snap} {o l d i : Id} {r : SessionRecord Snap}

theorem lookup_record_ne {kv : Store Snap} {o' i' : Id} (h : ¬ (o' = o ∧ i' = i)) :
    (kv.insert (.session o i) r).lookup (.session o' i') = kv.lookup (.session o' i') :=
  AList.lookup_insert_ne (by simpa using h)

theorem lookup_index_record {kv : Store Snap} {o' l' d' : Id} :
    (kv.insert (.session o i) r).lookup (.sessionByDevice o' l' d') =
      kv.lookup (.sessionByDevice o' l' d') :=
  AList.lookup_insert_ne (by simp)

theorem wellIndexed_record (h : WellIndexed m.kv) (ht : Target m a o l d i) (hid : IdsOf l d r)
    (hk : r.localAccountId = o ∧ r.sessionId = i) : WellIndexed (m.kv.insert (.session o i) r) where
  keyed o' i' r' hr := by
    by_cases heq : o' = o ∧ i' = i
    · obtain ⟨rfl, rfl⟩ := heq
      rw [AList.lookup_insert] at hr
      cases hr
      exact hk
    · rw [lookup_record_ne heq] at hr
      exact h.keyed o' i' r' hr
  indexed o' l' d' i' r' hi hr := by
    rw [lookup_index_record] at hi
    by_cases heq : o' = o ∧ i' = i
    · obtain ⟨rfl, rfl⟩ := heq
      rw [AList.lookup_insert] at hr
      cases hr
      cases ht with
      | existing r₀ h₀ hid₀ =>
        obtain ⟨rfl, rfl⟩ := hid₀.unique (h.indexed _ _ _ _ _ hi h₀)
        exact hid
      | new _ _ _ hno => exact absurd hi (hno l' d')
    · rw [lookup_record_ne heq] at hr
      exact h.indexed o' l' d' i' r' hi hr

theorem used_record (h : Used m) (ht : Target m a o l d i) (hu : m.used ⊆ m'.used)
    (hkv : m'.kv = m.kv.insert (.session o i) r) : Used m' where
  records o' i' r' hr := by
    rw [hkv] at hr
    by_cases heq : o' = o ∧ i' = i
    · obtain ⟨rfl, rfl⟩ := heq
      cases ht with
      | existing r₀ h₀ _ => exact hu (h.records _ _ _ h₀)
      | new _ hin _ _ => exact hu hin
    · rw [lookup_record_ne heq] at hr
      exact hu (h.records _ _ _ hr)
  indexes o' l' d' i' hi := by
    rw [hkv, lookup_index_record] at hi
    exact hu (h.indexes _ _ _ _ hi)

/-- Another call inside another lock still knows what it knew. -/
theorem siteOk_record_other {p : Phase} {site : Site Snap} (h : SiteOk m p site)
    (ht : Target m a o l d i) (hu : m.used ⊆ m'.used) (hkv : m'.kv = m.kv.insert (.session o i) r)
    (hexcl : ¬ Inside p o l d)
    (hdrawn : a.site = .fresh o l d i → ∀ o' l' d', site ≠ .fresh o' l' d' i) :
    SiteOk m' p site := by
  cases site with
  | unknown => trivial
  | indexed o' l' d' found => exact ⟨h.1, by rw [hkv, lookup_index_record]; exact h.2⟩
  | known o' l' d' i' r' =>
    refine ⟨h.1, ?_, h.2.2⟩
    by_cases heq : o' = o ∧ i' = i
    · obtain ⟨rfl, rfl⟩ := heq
      cases ht with
      | existing r₀ h₀ hid₀ =>
        cases h₀.symm.trans h.2.1
        obtain ⟨rfl, rfl⟩ := hid₀.unique h.2.2
        exact absurd h.1 hexcl
      | new _ _ hnone _ => cases hnone.symm.trans h.2.1
    · rw [hkv, lookup_record_ne heq]; exact h.2.1
  | fresh o' l' d' i' =>
    refine ⟨h.1, hu h.2.1, ?_,
      fun l'' d'' => by rw [hkv, lookup_index_record]; exact h.2.2.2 l'' d''⟩
    by_cases heq : o' = o ∧ i' = i
    · obtain ⟨rfl, rfl⟩ := heq
      cases ht with
      | existing r₀ h₀ _ => cases h₀.symm.trans h.2.2.1
      | new hs _ _ _ => exact absurd rfl (hdrawn hs o' l' d')
    · rw [hkv, lookup_record_ne heq]; exact h.2.2.1

/-! ## A landing index write -/

theorem lookup_index_ne {kv : Store Snap} {o' l' d' : Id} (h : ¬ (o' = o ∧ l' = l ∧ d' = d)) :
    (kv.insert (.sessionByDevice o l d) i).lookup (.sessionByDevice o' l' d') =
      kv.lookup (.sessionByDevice o' l' d') :=
  AList.lookup_insert_ne (by simpa using h)

theorem lookup_record_index {kv : Store Snap} {o' i' : Id} :
    (kv.insert (.sessionByDevice o l d) i).lookup (.session o' i') = kv.lookup (.session o' i') :=
  AList.lookup_insert_ne (by simp)

theorem wellIndexed_index (h : WellIndexed m.kv) (hr : m.kv.lookup (.session o i) = some r)
    (hid : IdsOf l d r) : WellIndexed (m.kv.insert (.sessionByDevice o l d) i) where
  keyed o' i' r' hr' := by
    rw [lookup_record_index] at hr'
    exact h.keyed o' i' r' hr'
  indexed o' l' d' i' r' hi hr' := by
    rw [lookup_record_index] at hr'
    by_cases heq : o' = o ∧ l' = l ∧ d' = d
    · obtain ⟨rfl, rfl, rfl⟩ := heq
      rw [AList.lookup_insert] at hi
      cases hi
      cases hr.symm.trans hr'
      exact hid
    · rw [lookup_index_ne heq] at hi
      exact h.indexed o' l' d' i' r' hi hr'

theorem used_index (h : Used m) (hr : m.kv.lookup (.session o i) = some r) (hu : m.used ⊆ m'.used)
    (hkv : m'.kv = m.kv.insert (.sessionByDevice o l d) i) : Used m' where
  records o' i' r' hr' := by
    rw [hkv, lookup_record_index] at hr'
    exact hu (h.records _ _ _ hr')
  indexes o' l' d' i' hi := by
    rw [hkv] at hi
    by_cases heq : o' = o ∧ l' = l ∧ d' = d
    · obtain ⟨rfl, rfl, rfl⟩ := heq
      rw [AList.lookup_insert] at hi
      cases hi
      exact hu (h.records _ _ _ hr)
    · rw [lookup_index_ne heq] at hi
      exact hu (h.indexes _ _ _ _ hi)

theorem siteOk_index {p : Phase} {site : Site Snap} (h : SiteOk m p site)
    (hr : m.kv.lookup (.session o i) = some r) (hu : m.used ⊆ m'.used)
    (hkv : m'.kv = m.kv.insert (.sessionByDevice o l d) i)
    (hexcl : ∀ found, site = .indexed o l d found → False) : SiteOk m' p site := by
  cases site with
  | unknown => trivial
  | indexed o' l' d' found =>
    refine ⟨h.1, ?_⟩
    rw [hkv, lookup_index_ne]
    · exact h.2
    · rintro ⟨rfl, rfl, rfl⟩
      exact hexcl found rfl
  | known o' l' d' i' r' => exact ⟨h.1, by rw [hkv, lookup_record_index]; exact h.2.1, h.2.2⟩
  | fresh o' l' d' i' =>
    refine ⟨h.1, hu h.2.1, by rw [hkv, lookup_record_index]; exact h.2.2.1, fun l'' d'' hi => ?_⟩
    rw [hkv] at hi
    by_cases heq : o' = o ∧ l'' = l ∧ d'' = d
    · obtain ⟨rfl, rfl, rfl⟩ := heq
      rw [AList.lookup_insert] at hi
      cases hi
      rw [h.2.2.1] at hr; cases hr
    · rw [lookup_index_ne heq] at hi
      exact h.2.2.2 l'' d'' hi

end Record

/-! ## The runs -/

/-- Two snapshots with a common descendant. -/
def Kin (core : Core Snap) (x y : Snap) : Prop :=
  ∃ z, ReflTransGen (Adv core) x z ∧ ReflTransGen (Adv core) y z

theorem Kin.step {core : Core Snap} {x b s : Snap} (h : Kin core x s)
    (hs : ReflGen (Adv core) b s) : Kin core x b := by
  obtain ⟨z, hx, hz⟩ := h
  exact ⟨z, hx, hs.to_reflTransGen.trans hz⟩

/-- The snapshot of an X3DH establishment is kin of nothing that is stored,
was written, or was established before. -/
structure NewRoot (core : Core Snap) (s : State Snap) (x : Snap) : Prop where
  stored : ∀ cell y, stored s.mem.kv cell = some y → ¬ Kin core x y
  written : ∀ cell, ∀ w ∈ writes cell s.log, ¬ Kin core x w.snap
  earlier : ∀ e ∈ s.log, ∀ y, established e.exch = some y → ¬ Kin core x y

def isDevice : Call → Bool
  | .encryptDevice .. => true
  | .decryptDevice .. => true
  | .trialDevices .. => true
  | .initiateDevice _ => true
  | .respondDevice _ => true
  | _ => false

/-- Any number of the five calls over a well-indexed store, with any storage
faults; each establishment is a new root. -/
def device (core : Core Snap) : Rules Snap where
  init m := m.locks = PromiseLock.empty ∧ WellIndexed m.kv ∧ Used m
  may _ c := isDevice c = true
  ok s e := ∀ x, established e.exch = some x → NewRoot core s x

def dev (core : Core Snap) (t : Nat) (log : List (Ev Snap)) : Dev Snap :=
  Pool.mon (monitor core) .start t log

theorem dev_seen (core : Core Snap) (t : Nat) (log : List (Ev Snap)) :
    (dev core t log).seen = seen t log :=
  Pool.mon_map (M := monitor core) (N := ⟨watch, fun _ _ => True⟩) Dev.seen
    (fun _ _ => rfl) .start t log

theorem dev_phase (core : Core Snap) (t : Nat) (log : List (Ev Snap)) :
    (dev core t log).phase = phase t log :=
  mon_phase (M := monitor core) Dev.phase (fun _ _ => rfl) rfl t log

theorem dev_self {core : Core Snap} {e : Ev Snap} {log : List (Ev Snap)} :
    dev core e.tid (e :: log) = (monitor core).next (dev core e.tid log) e.exch := Pool.mon_self

theorem dev_other {core : Core Snap} {e : Ev Snap} {log : List (Ev Snap)} {t : Nat}
    (h : e.tid ≠ t) : dev core t (e :: log) = dev core t log := Pool.mon_other h

/-- Establishments that are not written yet are kin of nothing. -/
structure Roots (core : Core Snap) (kv : Store Snap) (log : List (Ev Snap)) : Prop where
  stored : ∀ t x, (dev core t log).x3dh = some x → ∀ cell y, stored kv cell = some y →
    ¬ Kin core x y
  written : ∀ t x, (dev core t log).x3dh = some x →
    ∀ cell, ∀ w ∈ writes cell log, ¬ Kin core x w.snap
  apart : ∀ t t' x x', t ≠ t' → (dev core t log).x3dh = some x → (dev core t' log).x3dh = some x' →
    ¬ Kin core x x'
  logged : ∀ t x, (dev core t log).x3dh = some x → ∃ e ∈ log, established e.exch = some x

/-- What a finished call leaves behind. -/
def Post (core : Core Snap) : Call → Dev Snap → Except Err Reply → Prop
  | .encryptDevice owner .., a, x =>
    ∀ p sid, x = .ok (.deviceEncrypted p sid) → Sealed core owner sid a.seen
  | .decryptDevice owner .., a, x =>
    ∀ p sid, x = .ok (.deviceDecrypted p sid) → Kept core owner sid a.seen
  | .trialDevices owner .., a, x =>
    ∀ d p sid, x = .ok (.deviceTrial (some (d, p, sid))) → Kept core owner sid a.seen
  | _, _, _ => True

/-- The calls keep to their locks, and what each has learnt inside its own is
so. -/
structure Serial (svc : Service Snap) (s : State Snap) : Prop where
  conforms : System.Conforms (monitor svc.core) (Law svc.core) (fun _ => .start) (Post svc.core) s
  mutex : Mutex s
  indexed : WellIndexed s.mem.kv
  used : Used s.mem
  sites : ∀ t, SiteOk s.mem (phase t s.log) (dev svc.core t s.log).site
  drawn : ∀ t t' o l d i o' l' d', (dev svc.core t s.log).site = .fresh o l d i →
    (dev svc.core t' s.log).site = .fresh o' l' d' i → t = t'

structure Inv (svc : Service Snap) (s : State Snap) : Prop extends Serial svc s where
  ratchet : Ratchet.Inv svc.core s.mem.kv s.log
  roots : Roots svc.core s.mem.kv s.log

/-! ## One event -/

theorem lockMay_of_may {core : Core Snap} {a : Dev Snap} {o : Op Snap}
    (h : (monitor core).may a o) : lockMay a.phase o := by
  cases o with
  | chain _ | enter _ _ _ | release _ _ => exact h
  | _ => trivial

theorem siteNext_fresh {p : Phase} {site : Site Snap} {x : Proc.Exch (sdk Snap)} {o l d i : Id}
    (h : siteNext p site x = .fresh o l d i) : site = .fresh o l d i ∨ x = ⟨.runtimeUuid, i⟩ := by
  unfold siteNext at h
  split at h
  · split at h
    · cases h
    · exact .inl h
  · unfold Site.read at h
    split at h
    · split at h
      · cases h
      · exact .inl h
    · exact .inl h
  · unfold Site.draw at h
    split at h
    · cases h; exact .inr rfl
    · exact .inl h
  · unfold Site.wrote at h
    split at h <;> first | cases h | (split at h <;> cases h)
  · cases h
  · cases h
  · exact .inl h

theorem x3dhNext_some {y : Option Snap} {e : Proc.Exch (sdk Snap)} {x : Snap}
    (h : x3dhNext y e = some x) : established e = some x ∨ y = some x := by
  unfold x3dhNext at h
  split at h
  · cases h
  · exact (Option.or_eq_some_iff.mp h).imp id And.right

theorem stored_same {kv kv' : Store Snap} (h : Same kv kv') (cell : Id × Id) :
    stored kv' cell = stored kv cell := by
  simp only [stored, h.session]

namespace Serial

variable {svc : Service Snap} {s s' : State Snap} {e : Ev Snap} {c : Call}
  {next : (sdk Snap).Ans e.op → Proc (sdk Snap) (Except Err Reply)}

/-- A call inside the lock of a device is the only one. -/
theorem exclusive (h : Serial svc s) {t t' : Nat} {o l d : Id} (ht : Inside (phase t s.log) o l d)
    (ht' : Inside (phase t' s.log) o l d) : t = t' := by
  obtain ⟨pid, hp⟩ := ht
  obtain ⟨pid', hp'⟩ := ht'
  exact h.mutex.exclusive hp hp'

variable [DecidableEq Snap]

theorem may (h : Serial svc s) (hf : Pool.Fires (system svc) s e c next s') :
    (monitor svc.core).may (dev svc.core e.tid s.log) e.op := h.conforms.may hf

theorem law (h : Serial svc s) (hf : Pool.Fires (system svc) s e c next s') :
    Law svc.core e.exch := by
  refine ⟨lawful_fires hf, ?_⟩
  obtain ⟨t, o, r, f⟩ := e
  cases o with
  | get k =>
    cases k with
    | session o i =>
      match r with
      | .error _ => trivial
      | .ok none => trivial
      | .ok (some rec) => exact h.indexed.keyed o i rec (act_get_ok hf.act)
    | _ => trivial
  | _ => trivial

theorem mutex_fires (h : Serial svc s) (hf : Pool.Fires (system svc) s e c next s') : Mutex s' :=
  h.mutex.fires hf (dev_phase svc.core e.tid s.log ▸ lockMay_of_may (h.may hf))

theorem change (h : Serial svc s) (hf : Pool.Fires (system svc) s e c next s') :
    Change s.mem.kv s'.mem.kv e := kv_fires hf ▸ change_of_may (h.may hf)

theorem drawn_fires (h : Serial svc s) (hf : Pool.Fires (system svc) s e c next s') :
    ∀ t t' o l d i o' l' d', (dev svc.core t s'.log).site = .fresh o l d i →
      (dev svc.core t' s'.log).site = .fresh o' l' d' i → t = t' := by
  -- the drawing call against another one: the id was not in use
  have key : ∀ t' o l d i o' l' d', e.tid ≠ t' →
      siteNext (dev svc.core e.tid s.log).phase (dev svc.core e.tid s.log).site e.exch =
        .fresh o l d i →
      (dev svc.core t' s.log).site = .fresh o' l' d' i → e.tid = t' := by
    intro t' o l d i o' l' d' _ h₁ h₂
    rcases siteNext_fresh h₁ with h₁ | hx
    · exact h.drawn _ _ _ _ _ _ _ _ _ h₁ h₂
    · have hin : i ∈ s.mem.used := by
        have := h.sites t'
        rw [h₂] at this
        exact this.2.1
      obtain ⟨t, op, r, f⟩ := e
      simp only [Event.exch, Proc.Exch.mk.injEq] at hx
      obtain ⟨rfl, hx⟩ := hx
      cases hx
      exact absurd hin (act_uuid hf.act).1
  intro t t' o l d i o' l' d' h₁ h₂
  rw [hf.log] at h₁ h₂
  by_cases ht : e.tid = t <;> by_cases ht' : e.tid = t'
  · exact ht.symm.trans ht'
  · subst ht
    rw [dev_self] at h₁
    rw [dev_other ht'] at h₂
    exact key t' o l d i o' l' d' ht' h₁ h₂
  · subst ht'
    rw [dev_self] at h₂
    rw [dev_other ht] at h₁
    exact (key t o' l' d' i o l d ht h₂ h₁).symm
  · rw [dev_other ht] at h₁
    rw [dev_other ht'] at h₂
    exact h.drawn t t' o l d i o' l' d' h₁ h₂

theorem sites_fires (h : Serial svc s) (hf : Pool.Fires (system svc) s e c next s') :
    ∀ t, SiteOk s'.mem (phase t s'.log) (dev svc.core t s'.log).site := by
  have hmay := h.may hf
  have hu := act_used hf.act
  have hself := h.sites e.tid
  rw [← dev_phase svc.core] at hself
  -- the firing call's own site, and everybody else's
  suffices hboth : SiteOk s'.mem (lockNext (dev svc.core e.tid s.log).phase e.exch)
      (siteNext (dev svc.core e.tid s.log).phase (dev svc.core e.tid s.log).site e.exch) ∧
      ∀ t, e.tid ≠ t → SiteOk s'.mem (phase t s.log) (dev svc.core t s.log).site by
    intro t
    rw [hf.log]
    by_cases ht : e.tid = t
    · subst ht
      rw [phase_self, dev_self, ← dev_phase svc.core]
      exact hboth.1
    · rw [phase_other ht, dev_other ht]
      exact hboth.2 t ht
  cases h.change hf with
  | none hs hl =>
    exact ⟨siteOk_next hf.act hself h.indexed h.used hs hl hmay,
      fun t _ => siteOk_same (h.sites t) hs hu⟩
  | record o i r hop _ hkv =>
    obtain ⟨t, op, ans, f⟩ := e
    cases hop
    obtain ⟨l, d, hin, hid, hwrote, htarget⟩ := target_of_writes hmay.1 hself
    refine ⟨?_, fun t' ht' => siteOk_record_other (h.sites t') htarget hu hkv (fun hin' => ?_)
      fun hfresh o' l' d' hfresh' => ht' (h.drawn _ _ _ _ _ _ _ _ _ hfresh hfresh')⟩
    · match ans with
      | .error _ => trivial
      | .ok () =>
        simp only [Event.exch, siteNext, hwrote]
        exact ⟨hin, by rw [hkv, AList.lookup_insert], hid⟩
    · rw [dev_phase] at hin
      exact ht' (h.exclusive hin hin')
  | index o l d i hop _ hkv =>
    obtain ⟨t, op, ans, f⟩ := e
    cases hop
    obtain ⟨l', d', r, hsite, rfl, hd⟩ := hmay
    have hknown := hself
    rw [hsite] at hknown
    obtain ⟨rfl, rfl⟩ := hknown.2.2.unique ⟨rfl, hd⟩
    refine ⟨siteOk_index hself hknown.2.1 hu hkv fun _ hi => (by rw [hsite] at hi; cases hi),
      fun t' ht' => siteOk_index (h.sites t') hknown.2.1 hu hkv fun found hi => ?_⟩
    have hin' := h.sites t'
    rw [hi] at hin'
    have hin := hknown.1
    rw [dev_phase] at hin
    exact ht' (h.exclusive hin hin'.1)

theorem store_fires (h : Serial svc s) (hf : Pool.Fires (system svc) s e c next s') :
    WellIndexed s'.mem.kv ∧ Used s'.mem := by
  have hmay := h.may hf
  have hu := act_used hf.act
  have hself := h.sites e.tid
  rw [← dev_phase svc.core] at hself
  cases h.change hf with
  | none hs _ =>
    refine ⟨⟨fun o i r hr => ?_, fun o l d i r hi hr => ?_⟩,
      ⟨fun o i r hr => ?_, fun o l d i hi => ?_⟩⟩
    · rw [hs.session] at hr; exact h.indexed.keyed o i r hr
    · rw [hs.session] at hr
      rw [hs.index] at hi
      exact h.indexed.indexed o l d i r hi hr
    · rw [hs.session] at hr; exact hu (h.used.records o i r hr)
    · rw [hs.index] at hi; exact hu (h.used.indexes o l d i hi)
  | record o i r hop _ hkv =>
    rw [hop] at hmay
    obtain ⟨l, d, -, hid, -, htarget⟩ := target_of_writes hmay.1 hself
    exact ⟨hkv ▸ wellIndexed_record h.indexed htarget hid hmay.2, used_record h.used htarget hu hkv⟩
  | index o l d i hop _ hkv =>
    rw [hop] at hmay
    obtain ⟨l', d', r, hsite, rfl, hd⟩ := hmay
    rw [hsite] at hself
    exact ⟨hkv ▸ wellIndexed_index h.indexed hself.2.1 ⟨rfl, hd⟩,
      used_index h.used hself.2.1 hu hkv⟩

theorem fires (h : Serial svc s) (hf : Pool.Fires (system svc) s e c next s') : Serial svc s' where
  conforms := System.conforms_fires h.conforms hf (h.law hf)
  mutex := h.mutex_fires hf
  indexed := (h.store_fires hf).1
  used := (h.store_fires hf).2
  sites := h.sites_fires hf
  drawn := h.drawn_fires hf

end Serial

namespace Inv

variable {svc : Service Snap} {s s' : State Snap} {e : Ev Snap} {c : Call}
  {next : (sdk Snap).Ans e.op → Proc (sdk Snap) (Except Err Reply)}

/-- A landing write extends the record's history. -/
theorem history (h : Inv svc s) {t : Nat} {o i : Id} {r : SessionRecord Snap}
    (hw : Writes svc.core (dev svc.core t s.log) o i r) {x₀ : Option Snap}
    (hist : History (Adv svc.core) x₀ (writes (o, i) s.log))
    (hcur : current x₀ (writes (o, i) s.log) = stored s.mem.kv (o, i)) :
    History (Adv svc.core) x₀ (writeOf s.log t r.ratchetSnapshot :: writes (o, i) s.log) := by
  have hsite := h.sites t
  cases hw with
  | @advance l d r₀ hs _ hc hstep =>
    rw [hs] at hsite
    rw [dev_seen] at hc
    have hb : (writeOf s.log t r.ratchetSnapshot).base = r₀.ratchetSnapshot := by
      simp only [writeOf, Seen.base, hc]
    refine .advance hist ?_ (hb ▸ hstep)
    rw [hcur, hb]
    simp only [stored, hsite.2.1, Option.map_some]
  | replace _ _ hc hx | create _ _ hc hx =>
    rw [dev_seen] at hc
    refine .reset hist (by simp only [writeOf, Seen.base, hc]) fun v hv hle => ?_
    exact h.roots.written t _ hx (o, i) v hv ⟨v.snap, hle, .refl⟩

/-- A written snapshot is no kin of another call's establishment. -/
theorem not_kin (h : Inv svc s) {t t' : Nat} (ht : t' ≠ t) {o i : Id} {r : SessionRecord Snap}
    (hw : Writes svc.core (dev svc.core t s.log) o i r) {x : Snap}
    (hx : (dev svc.core t' s.log).x3dh = some x) : ¬ Kin svc.core x r.ratchetSnapshot := by
  have hsite := h.sites t
  cases hw with
  | @advance l d r₀ hs _ _ hstep =>
    rw [hs] at hsite
    exact fun hk => h.roots.stored t' x hx (o, i) r₀.ratchetSnapshot
      (by simp only [stored, hsite.2.1, Option.map_some]) (hk.step hstep)
  | replace _ _ _ hr | create _ _ _ hr => exact h.roots.apart t' t x _ ht hx hr

variable [DecidableEq Snap]

theorem ratchet_fires (h : Inv svc s) (hf : Pool.Fires (system svc) s e c next s') :
    Ratchet.Inv svc.core s'.mem.kv s'.log := by
  have hmay := h.may hf
  refine h.ratchet.fires hf ?_ fun cell snap hl x₀ hist hcur => ?_
  · obtain ⟨t, op, ans, f⟩ := e
    cases op with
    | delete k => cases k <;> first | exact hmay | trivial
    | _ => trivial
  · cases h.change hf with
    | none _ hno => rw [hno] at hl; cases hl
    | record o i r hop hland _ =>
      rw [hop] at hmay
      cases hland.symm.trans hl
      exact h.history hmay.1 hist hcur
    | index o l d i _ hno => rw [hno] at hl; cases hl

omit [DecidableEq Snap] in
/-- The establishments that are pending after an event were pending before,
or it is the event's own. -/
theorem pending_cons {core : Core Snap} {log : List (Ev Snap)} {t : Nat} {x : Snap}
    (hx : (dev core t (e :: log)).x3dh = some x) :
    (dev core t log).x3dh = some x ∨ e.tid = t ∧ established e.exch = some x := by
  by_cases ht : e.tid = t
  · subst ht
    rw [dev_self] at hx
    exact (x3dhNext_some hx).symm.imp id fun he => ⟨rfl, he⟩
  · rw [dev_other ht] at hx
    exact .inl hx

omit [DecidableEq Snap] in
theorem pending_record {core : Core Snap} {log : List (Ev Snap)} {o i : Id} {r : SessionRecord Snap}
    (hop : e.op = .set (.session o i) r) {t : Nat} {x : Snap}
    (hx : (dev core t (e :: log)).x3dh = some x) : t ≠ e.tid ∧ (dev core t log).x3dh = some x := by
  by_cases ht : e.tid = t
  · subst ht
    rw [dev_self] at hx
    obtain ⟨t, op, ans, f⟩ := e
    cases hop
    cases hx
  · rw [dev_other ht] at hx
    exact ⟨Ne.symm ht, hx⟩

theorem roots_fires (h : Inv svc s) (hf : Pool.Fires (system svc) s e c next s')
    (hok : (device svc.core).ok s e) : Roots svc.core s'.mem.kv s'.log := by
  have hmay := h.may hf
  have hch := h.change hf
  rw [hf.log]
  constructor
  · intro t x hx cell y hy
    cases hch with
    | none hs _ =>
      rw [stored_same hs] at hy
      rcases pending_cons hx with hx | ⟨-, hx⟩
      · exact h.roots.stored t x hx cell y hy
      · exact (hok x hx).stored cell y hy
    | record o i r hop hl hkv =>
      obtain ⟨ht, hx⟩ := pending_record hop hx
      by_cases hc : cell = (o, i)
      · subst hc
        rw [hkv, stored_insert] at hy
        cases hy
        rw [hop] at hmay
        exact h.not_kin ht hmay.1 hx
      · rw [hkv, stored_insert_ne (by simpa [Prod.ext_iff] using hc)] at hy
        exact h.roots.stored t x hx cell y hy
    | index o l d i hop hl hkv =>
      rw [hkv, stored_insert_ne (by simp)] at hy
      rcases pending_cons hx with hx | ⟨-, hx⟩
      · exact h.roots.stored t x hx cell y hy
      · exact (hok x hx).stored cell y hy
  · intro t x hx cell w hw
    cases hl : landed e with
    | none =>
      rw [writes_cons_of_not (by simp [hl])] at hw
      rcases pending_cons hx with hx | ⟨-, hx⟩
      · exact h.roots.written t x hx cell w hw
      · exact (hok x hx).written cell w hw
    | some cs =>
      cases hch with
      | none _ hno => rw [hno] at hl; cases hl
      | record o i r hop hland _ =>
        obtain ⟨ht, hx⟩ := pending_record hop hx
        by_cases hc : cell = (o, i)
        · subst hc
          rw [writes_cons_of_landed hland] at hw
          rcases List.mem_cons.mp hw with rfl | hw
          · rw [hop] at hmay
            exact h.not_kin ht hmay.1 hx
          · exact h.roots.written t x hx _ w hw
        · rw [writes_cons_of_not (fun s' hs' => hc (by rw [hland] at hs'; cases hs'; rfl))] at hw
          exact h.roots.written t x hx cell w hw
      | index _ _ _ _ _ hno => rw [hno] at hl; cases hl
  · intro t t' x x' hne hx hx' hk
    have hsymm : Kin svc.core x' x := by
      obtain ⟨z, h₁, h₂⟩ := hk
      exact ⟨z, h₂, h₁⟩
    rcases pending_cons hx with h₁ | ⟨ht, h₁⟩ <;> rcases pending_cons hx' with h₂ | ⟨ht', h₂⟩
    · exact h.roots.apart t t' x x' hne h₁ h₂ hk
    · obtain ⟨e₀, he₀, hest⟩ := h.roots.logged t x h₁
      exact (hok x' h₂).earlier e₀ he₀ x hest hsymm
    · obtain ⟨e₀, he₀, hest⟩ := h.roots.logged t' x' h₂
      exact (hok x h₁).earlier e₀ he₀ x' hest hk
    · exact hne (ht.symm.trans ht')
  · intro t x hx
    rcases pending_cons hx with hx | ⟨-, hx⟩
    · obtain ⟨e₀, he₀, hest⟩ := h.roots.logged t x hx
      exact ⟨e₀, .tail _ he₀, hest⟩
    · exact ⟨e, .head _, hx⟩

theorem fires (h : Inv svc s) (hf : Pool.Fires (system svc) s e c next s')
    (hok : (device svc.core).ok s e) : Inv svc s' where
  toSerial := h.toSerial.fires hf
  ratchet := h.ratchet_fires hf
  roots := h.roots_fires hf hok

end Inv

/-! ## Whole runs -/

theorem serial_init {svc : Service Snap} {m : Mem Snap} (hl : m.locks = PromiseLock.empty)
    (hi : WellIndexed m.kv) (hu : Used m) : Serial svc ⟨m, [], []⟩ where
  conforms := System.conforms_init m
  mutex := mutex_init hl
  indexed := hi
  used := hu
  sites _ := trivial
  drawn _ _ _ _ _ _ _ _ _ h := by cases h

theorem roots_init (core : Core Snap) (kv : Store Snap) : Roots core kv [] where
  stored _ _ h := by cases h
  written _ _ h := by cases h
  apart _ _ _ _ _ h := by cases h
  logged _ _ h := by cases h

variable [DecidableEq Snap] {svc : Service Snap}

theorem obeys_program {c : Call} (h : isDevice c = true) :
    Obeys (monitor svc.core) (Law svc.core) (Post svc.core c) .start (program svc c) := by
  cases c with
  | encryptDevice owner peer link device m =>
    refine obeys_js_bind (obeys_encrypt.mono fun a x hx => ?_)
    cases x with
    | error e => exact fun _ _ h => by cases h
    | ok r => exact fun _ _ h => by cases h; exact hx r rfl
  | decryptDevice owner peer link device pkt =>
    refine obeys_js_bind (obeys_decrypt.mono fun a x hx => ?_)
    cases x with
    | error e => exact fun _ _ h => by cases h
    | ok r => exact fun _ _ h => by cases h; exact hx r rfl
  | trialDevices owner peer link pkt =>
    refine obeys_js_bind (obeys_trial.mono fun a x hx => ?_)
    cases x with
    | error e => exact fun _ _ _ h => by cases h
    | ok r => exact fun d p sid h => by cases h; exact hx (d, p, sid) rfl
  | initiateDevice args =>
    exact obeys_js_bind (obeys_initiate.mono fun _ x _ => by cases x <;> trivial)
  | respondDevice args =>
    exact obeys_js_bind (obeys_respond.mono fun _ x _ => by cases x <;> trivial)
  | _ => cases h

theorem serial_spawn {s : State Snap} (h : Serial svc s) {c : Call} (hc : isDevice c = true) :
    Serial svc (s.spawn (system svc) c) :=
  { h with
    conforms := System.conforms_spawn h.conforms (obeys_program hc)
    mutex := mutex_spawn h.mutex c }

theorem inv_inductive (svc : Service Snap) :
    ((system svc).lts (device svc.core)).Inductive (Inv svc) :=
  System.inductive_of
    (fun m hm =>
      { toSerial := serial_init hm.1 hm.2.1 hm.2.2
        ratchet := inv_init svc.core m.kv
        roots := roots_init svc.core m.kv })
    (fun _ _ h hc =>
      { toSerial := serial_spawn h.toSerial hc
        ratchet := h.ratchet
        roots := h.roots })
    (fun _ _ _ _ _ h hf hok => h.fires hf hok)

/-- The calls of two packets returned for one device session sealed from
different snapshots. -/
def NoReuse (s : State Snap) : Prop :=
  ∀ t₁ t₂ owner sid peer₁ peer₂ link₁ link₂ device₁ device₂ m₁ m₂ pkt₁ pkt₂, t₁ ≠ t₂ →
    outcome s t₁ = some (.encryptDevice owner peer₁ link₁ device₁ m₁,
      .ok (.deviceEncrypted pkt₁ sid)) →
    outcome s t₂ = some (.encryptDevice owner peer₂ link₂ device₂ m₂,
      .ok (.deviceEncrypted pkt₂ sid)) →
    ∀ b ∈ (seen t₁ s.log).seals, b ∉ (seen t₂ s.log).seals

/-- The session whose packet or plaintext a call returned. -/
def delivered : Call → Reply → Option (Id × Id)
  | .encryptDevice owner .., .deviceEncrypted _ sid => some (owner, sid)
  | .decryptDevice owner .., .deviceDecrypted _ sid => some (owner, sid)
  | .trialDevices owner .., .deviceTrial (some (_, _, sid)) => some (owner, sid)
  | _, _ => none

/-- What was returned had been stored by a write that returned. -/
def StoredFirst (core : Core Snap) (s : State Snap) : Prop :=
  ∀ t c r owner sid, outcome s t = some (c, .ok r) → delivered c r = some (owner, sid) →
    Kept core owner sid (seen t s.log)

omit [DecidableEq Snap] in
theorem storedFirst_of_inv {s : State Snap} (h : Inv svc s) : StoredFirst svc.core s := by
  intro t c r owner sid ht hd
  have hpost := h.conforms.result (outcome_some.mp ht)
  rw [← dev_seen svc.core]
  unfold delivered at hd
  split at hd
  · cases hd; exact (hpost _ _ rfl).kept
  · cases hd; exact hpost _ _ rfl
  · cases hd; exact hpost _ _ _ rfl
  · cases hd

/-- **Per-device serialisation**, over every interleaving and every pattern
of storage faults. -/
theorem device_ratchet (svc : Service Snap) (hc : Codec svc.core) (s : State Snap)
    (hr : ((system svc).lts (device svc.core)).Reachable s) :
    NoReuse s ∧ StoredFirst svc.core s ∧ NoRollback svc.core s.log := by
  have h := (inv_inductive svc).reachable s hr
  refine ⟨?_, storedFirst_of_inv h, h.ratchet.noRollback hc⟩
  intro t₁ t₂ owner sid peer₁ peer₂ link₁ link₂ device₁ device₂ m₁ m₂ pkt₁ pkt₂ hne h₁ h₂ b hb₁ hb₂
  obtain ⟨b₁, s₁, -, hs₁, ha₁, hput₁⟩ := h.conforms.result (outcome_some.mp h₁) _ _ rfl
  obtain ⟨b₂, s₂, -, hs₂, ha₂, hput₂⟩ := h.conforms.result (outcome_some.mp h₂) _ _ rfl
  change (dev svc.core _ _).seen.seals = _ at hs₁ hs₂
  change _ ∈ (dev svc.core _ _).seen.puts at hput₁ hput₂
  rw [dev_seen] at hs₁ hs₂ hput₁ hput₂
  rw [hs₁, List.mem_singleton] at hb₁
  rw [hs₂, List.mem_singleton] at hb₂
  subst hb₁ hb₂
  exact hne (h.ratchet.noReuse hc hput₁ hput₂ ha₁ ha₂)

/-! ## A concrete run -/

/-- Nothing has been established or written, and nothing is stored. -/
def untouched (s : State Snap) : Bool :=
  s.mem.kv.keys.isEmpty && s.log.all fun e => (established e.exch).isNone && (landed e).isNone

omit [DecidableEq Snap] in
theorem writes_nil {log : List (Ev Snap)} (h : ∀ e ∈ log, landed e = none) (cell : Id × Id) :
    writes cell log = [] := by
  induction log with
  | nil => rfl
  | cons e log ih =>
    rw [writes_cons_of_not (by simp [h e (.head _)])]
    exact ih fun e' he' => h e' (.tail _ he')

omit [DecidableEq Snap] in
theorem newRoot_of_untouched {core : Core Snap} {s : State Snap} (h : untouched s = true)
    (x : Snap) : NewRoot core s x := by
  simp only [untouched, Bool.and_eq_true, List.isEmpty_iff, List.all_eq_true,
    Option.isNone_iff_eq_none] at h
  obtain ⟨hkeys, hlog⟩ := h
  refine ⟨fun cell y hy => ?_, fun cell w hw => ?_, fun e he y hy => ?_⟩
  · have hnone : s.mem.kv.lookup (.session cell.1 cell.2) = none :=
      AList.lookup_eq_none.mpr fun hmem => by
        rw [AList.mem_keys, hkeys] at hmem
        exact List.not_mem_nil hmem
    simp only [stored, hnone, Option.map_none] at hy
    cases hy
  · rw [writes_nil fun e he => (hlog e he).2] at hw
    exact absurd hw List.not_mem_nil
  · rw [(hlog e he).1] at hy
    cases hy

def deviceJudge (core : Core Snap) : System.Judge (device core) where
  may _ c := isDevice c
  ok s e := (established e.exch).isNone || untouched s
  may_iff _ _ h := h
  ok_iff s e h x hx := by
    rw [hx] at h
    exact newRoot_of_untouched (by simpa using h) x

open Counting in
def establish : List (Label Fate Call) :=
  [.call (.initiateDevice ⟨a, b, c, d, [], ⟨a, a⟩, ⟨a, a⟩⟩), .run 0 (.rand 0), .run 0 (.rand 1),
    .run 0 .ok, .run 0 .ok, .run 0 (.time 5), .run 0 .ok, .run 0 (.fresh d), .run 0 .ok, .run 0 .ok,
    .run 0 .ok, .run 0 .ok]

/-- Both encrypts are queued before the first enters the lock. -/
def twoEncrypts : List (Label Fate Call) :=
  [.call (.encryptDevice Counting.a Counting.b Counting.c Counting.d [1]),
    .call (.encryptDevice Counting.a Counting.b Counting.c Counting.d [2]), .run 1 .ok, .run 2 .ok]

def lockedEncrypt (t : Nat) : List (Label Fate Call) :=
  [.run t .ok, .run t .ok, .run t .ok, .run t (.rand 0), .run t (.time 5), .run t .ok, .run t .ok,
    .run t .ok, .run t .ok]

def bothReturned (s : State Snap) : Bool :=
  match outcome s 1, outcome s 2 with
  | some (_, .ok (.deviceEncrypted _ sid₁)), some (_, .ok (.deviceEncrypted _ sid₂)) => sid₁ = sid₂
  | _, _ => false

/-- A session is established on an empty store, and two encrypts compete for
it. -/
theorem device_ratchet_competing :
    ∃ s, ((system Counting.svc).lts (device Counting.core)).Reachable s ∧ bothReturned s = true ∧
      NoReuse s ∧ StoredFirst Counting.core s ∧ NoRollback Counting.core s.log := by
  have hinit : (device Counting.core).init (.ofStore ∅ []) :=
    ⟨rfl, ⟨fun _ _ _ h => (by cases h), fun _ _ _ _ _ h => (by cases h)⟩,
      ⟨fun _ _ _ h => (by cases h), fun _ _ _ _ h => (by cases h)⟩⟩
  obtain ⟨s, hr, hs⟩ :=
    System.reachable_of_exec (S := system Counting.svc) (deviceJudge Counting.core)
    (establish ++ twoEncrypts ++ lockedEncrypt 1 ++ lockedEncrypt 2) (P := bothReturned) hinit
    (by decide)
  exact ⟨s, hr, hs, device_ratchet Counting.svc Counting.codec s hr⟩

end RezSdk.L4.DeviceRatchet
