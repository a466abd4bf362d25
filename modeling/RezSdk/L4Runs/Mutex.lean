import RezSdk.L3Service.Footprints

/-!
# The two mutexes over a whole run

`phase t log` is where call `t` stands with respect to `withLock`: outside,
queued with a ticket, or inside. `Mutex` ties the phases to the promise
tables: a queued call has a ticket that has not settled, a call inside has
one that was entered and has not settled.

* `Mutex.fires`: every event keeps it, if the call uses the lock as
  `withLock` does (`lockMay`).
* `Mutex.exclusive`: two calls inside the same key are the same call.
-/
namespace RezSdk.L4

open RezSdk.L1 RezSdk.L2 RezSdk.L3 RezSdk.PromiseLock

variable {Snap : Type}

inductive Phase
  | out
  | queued (k : LockKey) (prev : Option Nat) (pid : Nat)
  | held (k : LockKey) (pid : Nat)

def lockNext (p : Phase) : Proc.Exch (sdk Snap) → Phase
  | ⟨.chain k, ticket⟩ => .queued k ticket.1 ticket.2
  | ⟨.enter k _ pid, _⟩ => .held k pid
  | ⟨.release .., _⟩ => .out
  | _ => p

def lockMay (p : Phase) : Op Snap → Prop
  | .chain _ => p = .out
  | .enter k prev pid => p = .queued k prev pid
  | .release k pid => p = .held k pid
  | _ => True

def phase (t : Nat) (log : List (Ev Snap)) : Phase :=
  Pool.mon ⟨lockNext, lockMay⟩ .out t log

/-- A call that uses the locks in its own way is in its own place. -/
theorem mon_phase {A : Type} {M : Monitor (sdk Snap) A} (g : A → Phase)
    (hg : ∀ a x, g (M.next a x) = lockNext (g a) x) {a : A} (ha : g a = .out) (t : Nat)
    (log : List (Ev Snap)) : g (Pool.mon M a t log) = phase t log := by
  rw [Pool.mon_map (N := ⟨lockNext, lockMay⟩) g hg, ha]
  rfl

/-! ## The tables -/

/-- What an operation of thread `t` does to the promise tables. -/
inductive LockStep (s : Locks LockKey) (t : Nat) :
    (o : Op Snap) → o.Ans → Locks LockKey → Prop
  | chain (k : LockKey) : LockStep s t (.chain k) (chain s t k).1 (chain s t k).2
  | enter {k : LockKey} {prev : Option Nat} {pid : Nat} {s' : Locks LockKey} :
      enter s prev pid = some s' → LockStep s t (.enter k prev pid) () s'
  | release (k : LockKey) (pid : Nat) : LockStep s t (.release k pid) () (release s k pid)
  | other {o : Op Snap} {r : o.Ans} : classOf o ≠ .lock → LockStep s t o r s

theorem act_locks {core : Core Snap} {t : Nat} {m m' : Mem Snap} {o : Op Snap} {f : Fate}
    {r : o.Ans} (h : act core t m o f = some (r, m')) : LockStep m.locks t o r m'.locks := by
  unfold act at h
  split at h
  case h_14 => cases h; exact .chain _
  case h_15 =>
    obtain ⟨l, hl, he⟩ := Option.map_eq_some_iff.mp h
    cases he
    exact .enter hl
  case h_16 => cases h; exact .release _ _
  case h_23 q n =>
    cases h
    exact .other (by cases q <;> exact fun h => by cases h)
  all_goals first
    | (cases h; exact .other fun h => by cases h)
    | (split at h <;> first | (cases h; exact .other fun h => by cases h) | cases h)
    | cases h

/-- Where a call stands, in terms of its ticket. -/
def LockPlace (s : Locks LockKey) (t : Nat) : Phase → Prop
  | .out => True
  | .queued k prev pid => ⟨k, t, prev, pid⟩ ∈ s.tickets ∧ pid ∉ s.settled
  | .held k pid => ∃ prev, PromiseLock.Holds s ⟨k, t, prev, pid⟩

structure Mutex (s : State Snap) : Prop where
  inv : PromiseLock.Inv s.mem.locks
  place : ∀ t, LockPlace s.mem.locks t (phase t s.log)

theorem mutex_init {m : Mem Snap} (h : m.locks = PromiseLock.empty) :
    Mutex (⟨m, [], []⟩ : State Snap) where
  inv := by rw [h]; exact inv_empty
  place _ := trivial

/-- A settled promise of another ticket moves nobody. -/
theorem place_release {s : Locks LockKey} (h : PromiseLock.Inv s) {a : Ticket LockKey}
    (ha : a ∈ s.tickets) {t : Nat} (ht : a.owner ≠ t) {p : Phase} (hp : LockPlace s t p) :
    LockPlace (release s a.key a.pid) t p := by
  have hne : ∀ b ∈ s.tickets, b.owner = t → b.pid ∉ s.settled →
      b.pid ∉ (release s a.key a.pid).settled := by
    intro b hb ho hn hin
    rcases List.mem_cons.mp hin with heq | hin
    · exact ht ((h.uniq b hb a ha heq) ▸ ho)
    · exact hn hin
  cases p with
  | out => trivial
  | queued k prev pid => exact ⟨hp.1, hne _ hp.1 rfl hp.2⟩
  | held k pid =>
    obtain ⟨prev, hb, hin, hn⟩ := hp
    exact ⟨prev, hb, hin, hne _ hb rfl hn⟩

theorem place_chain {s : Locks LockKey} {t t' : Nat} {k : LockKey} {p : Phase}
    (hp : LockPlace s t p) : LockPlace (chain s t' k).2 t p := by
  cases p with
  | out => trivial
  | queued k prev pid => exact ⟨.tail _ hp.1, hp.2⟩
  | held k pid =>
    obtain ⟨prev, hb, hin, hn⟩ := hp
    exact ⟨prev, .tail _ hb, hin, hn⟩

theorem enter_some {s s' : Locks LockKey} {prev : Option Nat} {pid : Nat}
    (h : enter s prev pid = some s') : s' = { s with entered := pid :: s.entered } := by
  unfold enter at h
  split at h
  · cases h; rfl
  · split at h
    · cases h; rfl
    · cases h

theorem place_enter {s s' : Locks LockKey} {prev : Option Nat} {pid t : Nat}
    (h : enter s prev pid = some s') {p : Phase} (hp : LockPlace s t p) : LockPlace s' t p := by
  rw [enter_some h]
  cases p with
  | out => trivial
  | queued k prev pid => exact hp
  | held k pid =>
    obtain ⟨prev, hb, hin, hn⟩ := hp
    exact ⟨prev, hb, .tail _ hin, hn⟩

/-! ## One event -/

theorem phase_self {e : Ev Snap} {log : List (Ev Snap)} :
    phase e.tid (e :: log) = lockNext (phase e.tid log) e.exch := Pool.mon_self

theorem phase_other {e : Ev Snap} {log : List (Ev Snap)} {t : Nat} (h : e.tid ≠ t) :
    phase t (e :: log) = phase t log := Pool.mon_other h

theorem lockNext_other {o : Op Snap} {r : o.Ans} {p : Phase} (h : classOf o ≠ .lock) :
    lockNext p ⟨o, r⟩ = p := by
  cases o with
  | chain k => exact absurd rfl h
  | enter k prev pid => exact absurd rfl h
  | release k pid => exact absurd rfl h
  | _ => rfl

/-- One operation keeps the tables in order; the calls that did not make it
keep their places, the one that did moves to its next phase. -/
theorem place_step {l l' : Locks LockKey} {t : Nat} {o : Op Snap} {r : o.Ans} {f : Nat → Phase}
    (hinv : PromiseLock.Inv l) (hplace : ∀ t, LockPlace l t (f t)) (hstep : LockStep l t o r l')
    (hmay : lockMay (f t) o) :
    PromiseLock.Inv l' ∧ LockPlace l' t (lockNext (f t) ⟨o, r⟩) ∧
      ∀ t', t ≠ t' → LockPlace l' t' (f t') := by
  cases hstep with
  | chain k =>
    refine ⟨inv_chain hinv t k, ⟨.head _, fun hin => ?_⟩, fun t' _ => place_chain (hplace t')⟩
    exact absurd (hinv.known _ (hinv.opened _ hin)) (Nat.lt_irrefl _)
  | @enter k prev pid _ he =>
    obtain ⟨hin, hn⟩ : LockPlace l t (.queued k prev pid) := hmay ▸ hplace t
    refine ⟨inv_enter (a := ⟨k, t, prev, pid⟩) hinv hin he, ?_,
      fun t' _ => place_enter he (hplace t')⟩
    rw [enter_some he]
    exact ⟨prev, hin, .head _, hn⟩
  | release k pid =>
    obtain ⟨prev, hin, hent, hn⟩ : LockPlace l t (.held k pid) := hmay ▸ hplace t
    exact ⟨inv_release hinv hin hent, trivial,
      fun t' ht => place_release hinv hin ht (hplace t')⟩
  | other ho =>
    rw [lockNext_other ho]
    exact ⟨hinv, hplace t, fun t' _ => hplace t'⟩

theorem Mutex.fires [DecidableEq Snap] {svc : Service Snap} {s s' : State Snap} {e : Ev Snap}
    {c : Call} {k : (sdk Snap).Ans e.op → Proc (sdk Snap) (Except Err Reply)} (h : Mutex s)
    (hf : Pool.Fires (system svc) s e c k s') (hmay : lockMay (phase e.tid s.log) e.op) :
    Mutex s' := by
  obtain ⟨hinv, hme, hother⟩ := place_step (f := fun t => phase t s.log) h.inv h.place
    (act_locks hf.act) hmay
  refine ⟨hinv, fun t => ?_⟩
  rw [hf.log]
  by_cases ht : e.tid = t
  · subst ht; rw [phase_self]; exact hme
  · rw [phase_other ht]; exact hother t ht

theorem mutex_spawn [DecidableEq Snap] {svc : Service Snap} {s : State Snap} (h : Mutex s)
    (c : Call) : Mutex (s.spawn (system svc) c) := ⟨h.inv, h.place⟩

/-- **Mutual exclusion.** -/
theorem Mutex.exclusive {s : State Snap} (h : Mutex s) {t t' : Nat} {k : LockKey} {pid pid' : Nat}
    (ht : phase t s.log = .held k pid) (ht' : phase t' s.log = .held k pid') : t = t' := by
  obtain ⟨prev, ha⟩ : LockPlace s.mem.locks t (.held k pid) := ht ▸ h.place t
  obtain ⟨prev', hb⟩ : LockPlace s.mem.locks t' (.held k pid') := ht' ▸ h.place t'
  have := h.inv.exclusive ha hb rfl
  cases this
  rfl

end RezSdk.L4
