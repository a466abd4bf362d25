import RezSdk.L4Runs.Mutex

/-!
# A device lock inside a claim lock

`ingestPeerDeviceSet` takes a lock of `INVITE_CLAIM_LOCKS` and, inside it, the
lock of one device session after the other. A call then stands in each of the
two tables on its own (`Stands`). `Locked` is `Mutex` for such calls: the two
tables share their promises, so what one of a call's two tickets does must
leave the other where it is.

* `Locked.fires`: every event keeps it, if the call uses both tables as
  `withLock` does.
* `Locked.exclusive`: two calls inside the same key are the same call.
* `locked_restart`: nobody is inside when no call is in flight.
-/
namespace RezSdk.L4

open RezSdk.L1 RezSdk.L2 RezSdk.L3 RezSdk.PromiseLock

variable {Snap C R : Type}

/-- Where a call stands in the two lock tables. -/
structure Stands where
  claims : Phase
  devices : Phase

namespace Stands

def out : Stands := ⟨.out, .out⟩

def inTable (w : Stands) : LockTable → Phase
  | .inviteClaims => w.claims
  | .deviceSessions => w.devices

/-- A lock operation of another table leaves `p` as it is. -/
def nextIn (tb : LockTable) (p : Phase) : Proc.Exch (sdk Snap) → Phase
  | ⟨.chain k, ticket⟩ => if k.1 = tb then .queued k ticket.1 ticket.2 else p
  | ⟨.enter k _ pid, _⟩ => if k.1 = tb then .held k pid else p
  | ⟨.release k _, _⟩ => if k.1 = tb then .out else p
  | _ => p

def next (w : Stands) (x : Proc.Exch (sdk Snap)) : Stands :=
  ⟨nextIn .inviteClaims w.claims x, nextIn .deviceSessions w.devices x⟩

def may (w : Stands) : Op Snap → Prop
  | .chain k => w.inTable k.1 = .out
  | .enter k prev pid => w.inTable k.1 = .queued k prev pid
  | .release k pid => w.inTable k.1 = .held k pid
  | _ => True

theorem inTable_next (w : Stands) (x : Proc.Exch (sdk Snap)) (tb : LockTable) :
    (w.next x).inTable tb = nextIn tb (w.inTable tb) x := by
  cases tb <;> rfl

theorem next_other {w : Stands} {o : Op Snap} {r : o.Ans} (h : classOf o ≠ .lock) :
    w.next ⟨o, r⟩ = w := by
  cases o with
  | chain k => exact absurd rfl h
  | enter k prev pid => exact absurd rfl h
  | release k pid => exact absurd rfl h
  | _ => rfl

theorem may_other {w : Stands} {o : Op Snap} (h : classOf o ≠ .lock) : w.may o := by
  cases o with
  | chain k => exact absurd rfl h
  | enter k prev pid => exact absurd rfl h
  | release k pid => exact absurd rfl h
  | _ => trivial

end Stands

/-- The key a call waits for or is inside of. -/
def Phase.key : Phase → Option LockKey
  | .out => none
  | .queued k _ _ => some k
  | .held k _ => some k

def stands (t : Nat) (log : List (Event (sdk Snap) Fate)) : Stands :=
  Pool.mon ⟨Stands.next, Stands.may⟩ .out t log

/-- A call that uses the locks in its own way stands in its own place. -/
theorem mon_stands {A : Type} {M : Monitor (sdk Snap) A} (g : A → Stands)
    (hg : ∀ a x, g (M.next a x) = (g a).next x) {a : A} (ha : g a = .out) (t : Nat)
    (log : List (Event (sdk Snap) Fate)) : g (Pool.mon M a t log) = stands t log := by
  rw [Pool.mon_map (N := ⟨Stands.next, Stands.may⟩) g hg, ha]
  rfl

theorem stands_self {e : Event (sdk Snap) Fate} {log : List (Event (sdk Snap) Fate)} :
    stands e.tid (e :: log) = (stands e.tid log).next e.exch := Pool.mon_self

theorem stands_other {e : Event (sdk Snap) Fate} {log : List (Event (sdk Snap) Fate)} {t : Nat}
    (h : e.tid ≠ t) : stands t (e :: log) = stands t log := Pool.mon_other h

/-- The keys of a table are that table's. -/
theorem nextIn_key {tb : LockTable} {p : Phase} {x : Proc.Exch (sdk Snap)}
    (hp : ∀ k, p.key = some k → k.1 = tb) :
    ∀ k, (Stands.nextIn tb p x).key = some k → k.1 = tb := by
  obtain ⟨o, r⟩ := x
  intro k hk
  cases o with
  | chain k' =>
    simp only [Stands.nextIn] at hk
    split at hk
    · cases hk
      assumption
    · exact hp k hk
  | enter k' prev pid =>
    simp only [Stands.nextIn] at hk
    split at hk
    · cases hk
      assumption
    · exact hp k hk
  | release k' pid =>
    simp only [Stands.nextIn] at hk
    split at hk
    · cases hk
    · exact hp k hk
  | _ => exact hp k hk

theorem stands_key {t : Nat} {tb : LockTable} :
    ∀ {log : List (Event (sdk Snap) Fate)} {k : LockKey}, ((stands t log).inTable tb).key = some k →
      k.1 = tb
  | [], k, h => by cases tb <;> cases h
  | e :: log, k, h => by
    by_cases ht : e.tid = t
    · subst ht
      rw [stands_self, Stands.inTable_next] at h
      exact nextIn_key (fun _ => stands_key) k h
    · rw [stands_other ht] at h
      exact stands_key h

/-! ## The tables -/

structure Locked (m : Mem Snap) (log : List (Event (sdk Snap) Fate)) : Prop where
  inv : PromiseLock.Inv m.locks
  place : ∀ t tb, LockPlace m.locks t ((stands t log).inTable tb)

theorem locked_init {m : Mem Snap} (h : m.locks = PromiseLock.empty) : Locked m [] where
  inv := by
    rw [h]
    exact inv_empty
  place t tb := by cases tb <;> trivial

/-- A settled promise moves nobody who has another ticket. -/
theorem place_settled {s : Locks LockKey} (h : PromiseLock.Inv s) {a : Ticket LockKey}
    (ha : a ∈ s.tickets) {t : Nat} {p : Phase} (hp : LockPlace s t p)
    (hne : ∀ k, p.key = some k → ¬ (a.owner = t ∧ a.key = k)) :
    LockPlace (release s a.key a.pid) t p := by
  have hfree : ∀ b ∈ s.tickets, ¬ (a.owner = b.owner ∧ a.key = b.key) → b.pid ∉ s.settled →
      b.pid ∉ (release s a.key a.pid).settled := by
    intro b hb hother hn hin
    rcases List.mem_cons.mp hin with heq | hin
    · cases h.uniq b hb a ha heq
      exact hother ⟨rfl, rfl⟩
    · exact hn hin
  cases p with
  | out => trivial
  | queued k prev pid => exact ⟨hp.1, hfree _ hp.1 (hne k rfl) hp.2⟩
  | held k pid =>
    obtain ⟨prev, hb, hin, hn⟩ := hp
    exact ⟨prev, hb, hin, hfree _ hb (hne k rfl) hn⟩

/-- One operation keeps the tables in order: the calls that did not make it
keep their places, the one that did moves in the table of its key. -/
theorem places_step {l l' : Locks LockKey} {t : Nat} {o : Op Snap} {r : o.Ans} {f : Nat → Stands}
    (hkeys : ∀ t tb k, ((f t).inTable tb).key = some k → k.1 = tb) (hinv : PromiseLock.Inv l)
    (hplace : ∀ t tb, LockPlace l t ((f t).inTable tb)) (hstep : LockStep l t o r l')
    (hmay : (f t).may o) :
    PromiseLock.Inv l' ∧ (∀ tb, LockPlace l' t (((f t).next ⟨o, r⟩).inTable tb)) ∧
    ∀ t', t ≠ t' → ∀ tb, LockPlace l' t' ((f t').inTable tb) := by
  cases hstep with
  | chain k =>
    refine ⟨inv_chain hinv t k, fun tb => ?_, fun t' _ tb => place_chain (hplace t' tb)⟩
    rw [Stands.inTable_next, Stands.nextIn]
    split
    · exact ⟨.head _, fun hin => absurd (hinv.known _ (hinv.opened _ hin)) (Nat.lt_irrefl _)⟩
    · exact place_chain (hplace t tb)
  | @enter k prev pid _ he =>
    obtain ⟨hin, hn⟩ : LockPlace l t (.queued k prev pid) := hmay ▸ hplace t k.1
    refine ⟨inv_enter (a := ⟨k, t, prev, pid⟩) hinv hin he, fun tb => ?_,
      fun t' _ tb => place_enter he (hplace t' tb)⟩
    rw [Stands.inTable_next, Stands.nextIn]
    split
    · rw [enter_some he]
      exact ⟨prev, hin, .head _, hn⟩
    · exact place_enter he (hplace t tb)
  | release k pid =>
    obtain ⟨prev, hin, hent, hn⟩ : LockPlace l t (.held k pid) := hmay ▸ hplace t k.1
    refine ⟨inv_release hinv hin hent, fun tb => ?_, fun t' ht tb => ?_⟩
    · rw [Stands.inTable_next, Stands.nextIn]
      split
      · trivial
      · rename_i htable
        refine place_settled hinv hin (hplace t tb) fun k' hk' heq => ?_
        have heq : k = k' := heq.2
        subst heq
        exact htable (hkeys t tb k hk')
    · exact place_settled hinv hin (hplace t' tb) fun k' _ heq => ht heq.1
  | other ho =>
    rw [Stands.next_other ho]
    exact ⟨hinv, hplace t, fun t' _ tb => hplace t' tb⟩

section

variable {S : System (sdk Snap) (Mem Snap) Fate C R} {core : Core Snap}
  {s s' : Pool (sdk Snap) (Mem Snap) Fate C R}
  {e : Event (sdk Snap) Fate} {c : C} {p : (sdk Snap).Ans e.op → Proc (sdk Snap) R}

theorem Locked.fires (hS : S.act = act core) (h : Locked s.mem s.log) (hf : Pool.Fires S s e c p s')
    (hmay : (stands e.tid s.log).may e.op) : Locked s'.mem s'.log := by
  have hact := hf.act
  rw [hS] at hact
  obtain ⟨hinv, hme, hother⟩ :=
    places_step (f := fun t => stands t s.log) (fun _ _ _ => stands_key) h.inv h.place
    (act_locks hact) hmay
  refine ⟨hinv, fun t tb => ?_⟩
  rw [hf.log]
  by_cases ht : e.tid = t
  · subst ht
    rw [stands_self]
    exact hme tb
  · rw [stands_other ht]
    exact hother t ht tb

end

/-- **Mutual exclusion**, in each of the two tables. -/
theorem Locked.exclusive {m : Mem Snap} {log : List (Event (sdk Snap) Fate)} (h : Locked m log)
    {t t' : Nat} {tb : LockTable} {k : LockKey} {pid pid' : Nat}
    (ht : (stands t log).inTable tb = .held k pid)
    (ht' : (stands t' log).inTable tb = .held k pid') : t = t' := by
  obtain ⟨prev, ha⟩ : LockPlace m.locks t (.held k pid) := ht ▸ h.place t tb
  obtain ⟨prev', hb⟩ : LockPlace m.locks t' (.held k pid') := ht' ▸ h.place t' tb
  have := h.inv.exclusive ha hb rfl
  cases this
  rfl

/-- Nobody is inside when every call has ended, so the tables may as well be
empty. -/
theorem locked_restart {m : Mem Snap} {log : List (Event (sdk Snap) Fate)}
    (h : m.locks = PromiseLock.empty) (hout : ∀ t, stands t log = .out) : Locked m log where
  inv := by
    rw [h]
    exact inv_empty
  place t tb := by
    rw [hout]
    cases tb <;> trivial

end RezSdk.L4
