import RezSdk.Core.PromiseLock
import RezSdk.Core.Script
import RezSdk.L3Service.Mutexes

/-!
# The two mutexes

Calls of `withLock` and of `#withLock`, any number of them, on any keys and in
any order of their steps. `tickets` replays a log on the promise locks of
`RezSdk.PromiseLock`: both mutexes are such locks (`Chained.fires`), so what holds
of the tickets holds of the calls.

* `serves_both`: at most one function of a key runs, the functions are called
  in the order of the calls, each once, every caller gets what its own function
  gave, a key whose calls have no outcome yet is not stuck, and the entry of a
  key is deleted in the end.
* `entry_left`: `#withLock` deletes it only after the callers have their
  outcomes.
-/
namespace RezSdk.L4.LockChains

open RezSdk.L1 RezSdk.L3.Mutexes

variable {ε α : Type}

abbrev Exch (ε α : Type) := Proc.Exch (locks ε α)

/-! ## The property -/

/-- What an event says of a call. -/
inductive Seen (ε α : Type)
  | called (key : String)
  /-- its function is called -/
  | started
  /-- its function has ended -/
  | ended (r : Except ε α)
  /-- the caller gets `r`; the entry is looked at -/
  | released (r : Except ε α)
  /-- the caller gets `r`; the entry is not looked at yet -/
  | settled (r : Except ε α)
  | cleanedUp

def seen : Exch ε α → Option (Nat × Seen ε α)
  | ⟨.run (.queue key) _, (_, s)⟩ => some (s.number, .called key)
  | ⟨.run (.release _ n r) _, _⟩ => some (n, .released r)
  | ⟨.run (.settle n r) _, _⟩ => some (n, .settled r)
  | ⟨.run (.cleanUp _ n) _, _⟩ => some (n, .cleanedUp)
  | ⟨.await (.previous n _), _⟩ => some (n, .started)
  | ⟨.await (.outcome n), r⟩ => some (n, .ended r)
  | ⟨.await .unlocked, _⟩ => none

/-- What a log says, newest first. -/
def story (log : List (LockEvent ε α)) : List (Nat × Seen ε α) := log.filterMap fun e => seen e.exch

def Seen.isCall (key : String) : Seen ε α → Bool
  | .called key' => key' = key
  | _ => false

def Seen.isStart : Seen ε α → Bool
  | .started => true
  | _ => false

/-- The calls about which something of a kind is said, oldest first. -/
def those (kind : Seen ε α → Bool) (log : List (LockEvent ε α)) : List Nat :=
  (((story log).filter fun x => kind x.2).map Prod.fst).reverse

/-- The calls of a key, in their order. -/
abbrev calls (key : String) (log : List (LockEvent ε α)) : List Nat := those (Seen.isCall key) log

/-- The calls whose functions have been called, in this order. -/
abbrev started (log : List (LockEvent ε α)) : List Nat := those Seen.isStart log

/-- The function of the call has been called and has not ended. -/
def Running (log : List (LockEvent ε α)) (n : Nat) : Prop :=
  n ∈ started log ∧ ∀ r, (n, .ended r) ∉ story log

/-- The caller of the call has got `r`. -/
def Answer (log : List (LockEvent ε α)) (n : Nat) (r : Except ε α) : Prop :=
  (n, .released r) ∈ story log ∨ (n, .settled r) ∈ story log

def Answered (log : List (LockEvent ε α)) (n : Nat) : Prop := ∃ r, Answer log n r

def CleanedUp (log : List (LockEvent ε α)) (n : Nat) : Prop :=
  (∃ r, (n, .released r) ∈ story log) ∨ (n, .cleanedUp) ∈ story log

/-- Call `n` is that of thread `t`. -/
def Made (log : List (LockEvent ε α)) (t n : Nat) : Prop :=
  ∃ e ∈ log, e.tid = t ∧ ∃ key, seen e.exch = some (n, .called key)

/-- The call can go on by itself. -/
def Moves (S : LockSystem ε α) (s : LockState ε α) (n : Nat) : Prop :=
  ∃ t f, Made s.log t n ∧ (s.fire S t f).isSome = true

/-- A mutex at work; `late`: it looks at the entry of a call later than the
caller has its outcome. -/
structure Serves (S : LockSystem ε α) (late : Bool) (s : LockState ε α) : Prop where
  exclusive : ∀ key n n', n ∈ calls key s.log → n' ∈ calls key s.log → Running s.log n →
    Running s.log n' → n = n'
  ordered : ∀ key, (started s.log).filter (fun n => n ∈ calls key s.log) <+: calls key s.log
  once : (started s.log).Nodup
  own : ∀ n r, Answer s.log n r → n ∈ started s.log ∧ (n, .ended r) ∈ story s.log ∧
    ∀ r', (n, .ended r') ∈ story s.log → r' = r
  returned : ∀ t n c r, Made s.log t n → s.threads[t]? = some ⟨c, .ret r⟩ → Answer s.log n r
  /-- a key whose calls are not all answered is not stuck -/
  served : ∀ key, ∀ n ∈ calls key s.log, ¬Answered s.log n →
    ∃ n' ∈ calls key s.log, ¬Answered s.log n' ∧ (Running s.log n' ∨ Moves S s n')
  cleared : ∀ key, (∀ n ∈ calls key s.log, Answered s.log n ∧ (late = true → CleanedUp s.log n)) →
    OMap.get key s.mem.map = none
  /-- and an answered call waits for nothing to look at the entry -/
  tidied : ∀ n, Answered s.log n → CleanedUp s.log n ∨ Moves S s n
  /-- no call makes more than five steps -/
  bounded : ∀ t, (s.log.filter fun e => e.tid = t).length ≤ 5

/-! ## Where a call stands -/

inductive Place (ε α : Type)
  | unlocked
  | left (r : Except ε α)
  | idle (key : String)
  | queued (key : String) (n : Nat) (p : Option Nat)
  | running (key : String) (n : Nat)
  | ended (key : String) (n : Nat) (r : Except ε α)
  /-- the caller has its outcome, the entry is not looked at yet -/
  | settled (key : String) (n : Nat) (r : Except ε α)
  | done (key : String) (n : Nat) (r : Except ε α)

/-- `late`: the entry is looked at later than the caller has its outcome. -/
def script (late : Bool) : Script Locks Unit (Stretch ε α) (outside ε α) (Place ε α) where
  apply l _ s := l.apply s
  legal
    | .idle key, .queue key' => key' = key
    | .ended key n r, .release key' n' r' => late = false ∧ key' = key ∧ n' = n ∧ r' = r
    | .ended _ n r, .settle n' r' => late = true ∧ n' = n ∧ r' = r
    | .settled key n _, .cleanUp key' n' => late = true ∧ key' = key ∧ n' = n
    | _, _ => False
  follow
    | _, _, s, .queue key => .queued key s.number (OMap.get key s.map)
    | .ended key n r, _, _, .release .. => .done key n r
    | .ended key n r, _, _, .settle .. => .settled key n r
    | .settled key n r, _, _, .cleanUp .. => .done key n r
    | w, _, _, _ => w
  asks
    | .queued _ n p, .previous n' p' => n' = n ∧ p' = p
    | .running _ n, .outcome n' => n' = n
    | .unlocked, .unlocked => True
    | _, _ => False
  hears
    | .queued key n _, .previous .., _ => .running key n
    | .running key n, .outcome _, r => .ended key n r
    | .unlocked, .unlocked, r => .left r
    | w, _, _ => w

def claimStart (lockKey : String) : Place ε α :=
  if (trim lockKey).isEmpty then .unlocked else .idle (trim lockKey)

/-- Where a call that has returned stands. -/
def Final (w : Place ε α) (r : Except ε α) : Prop := w = .left r ∨ ∃ key n, w = .done key n r

theorem obeys_withLock (lockKey : String) :
    Obeys (script false).monitor (fun _ => True) Final (claimStart lockKey)
      (withLock lockKey : Locking ε α α) := by
  unfold withLock claimStart
  generalize (trim lockKey).isEmpty = blank
  cases blank with
  | true => exact ⟨trivial, fun r _ => .inl rfl⟩
  | false =>
    refine ⟨⟨rfl, rfl⟩, fun x _ => ⟨⟨rfl, rfl⟩, fun _ _ => ⟨rfl, fun r _ => ?_⟩⟩⟩
    exact ⟨⟨rfl, rfl, rfl, rfl, rfl⟩, fun _ _ => .inr ⟨_, _, rfl⟩⟩

theorem obeys_deviceLock (key : String) :
    Obeys (script true).monitor (fun _ => True) Final (.idle key)
      (deviceLock key : Locking ε α α) := by
  refine ⟨⟨rfl, rfl⟩, fun x _ => ⟨⟨rfl, rfl⟩, fun _ _ => ⟨rfl, fun r _ => ?_⟩⟩⟩
  exact ⟨⟨rfl, rfl, rfl, rfl⟩, fun _ _ => ⟨⟨rfl, rfl, rfl, rfl⟩, fun _ _ => .inr ⟨_, _, rfl⟩⟩⟩

/-! ## The tickets -/

/-- What an event of thread `t` is on the promise locks. -/
def replay (g : PromiseLock.Locks String) (t : Nat) : Exch ε α → PromiseLock.Locks String
  | ⟨.run (.queue key) _, _⟩ => (PromiseLock.chain g t key).2
  | ⟨.run (.release key n _) _, _⟩ => PromiseLock.release g key n
  | ⟨.run (.settle n _) _, _⟩ => PromiseLock.settle g n
  | ⟨.run (.cleanUp key n) _, _⟩ => PromiseLock.drop g key n
  | ⟨.await (.previous n _), _⟩ => { g with entered := n :: g.entered }
  | _ => g

def tickets : List (LockEvent ε α) → PromiseLock.Locks String
  | [] => PromiseLock.empty
  | e :: log => replay (tickets log) e.tid e.exch

structure Mirrors (m : Locks) (g : PromiseLock.Locks String) : Prop where
  map : ∀ key, OMap.get key m.map = g.tail key
  previous : m.previous = g.tickets.map PromiseLock.Ticket.prev
  settled : m.settled = g.settled

/-- What is said of a call, newest first. -/
def about (n : Nat) (log : List (LockEvent ε α)) : List (Seen ε α) :=
  ((story log).filter fun x => x.1 = n).map Prod.snd

namespace Place

/-- What has been said of a call that stands there. -/
def path (late : Bool) : Place ε α → List (Seen ε α)
  | .queued key _ _ => [.called key]
  | .running key _ => [.started, .called key]
  | .ended key _ r => [.ended r, .started, .called key]
  | .settled key _ r => [.settled r, .ended r, .started, .called key]
  | .done key _ r =>
    if late then [.cleanedUp, .settled r, .ended r, .started, .called key]
      else [.released r, .ended r, .started, .called key]
  | _ => []

/-- How many steps a call has made that stands there. -/
def steps (late : Bool) (w : Place ε α) : Nat :=
  match w with
  | .left _ => 1
  | w => (w.path late).length

/-- The call of the ticket may stand there. -/
def Of (late : Bool) (a : PromiseLock.Ticket String) : Place ε α → Prop
  | .queued key n p => key = a.key ∧ n = a.pid ∧ p = a.prev
  | .running key n => key = a.key ∧ n = a.pid
  | .ended key n _ => key = a.key ∧ n = a.pid
  | .settled key n _ => late = true ∧ key = a.key ∧ n = a.pid
  | .done key n _ => key = a.key ∧ n = a.pid
  | _ => False

/-- The call has no ticket. -/
def Bare : Place ε α → Prop
  | .unlocked => True
  | .left _ => True
  | .idle _ => True
  | _ => False

theorem steps_le (late : Bool) (w : Place ε α) : w.steps late ≤ 5 := by
  cases w with
  | done key n r => cases late <;> simp [steps, path]
  | _ => simp [steps, path]

theorem starts_le (late : Bool) (w : Place ε α) :
    ((w.path late).filter Seen.isStart).length ≤ 1 := by
  cases w with
  | running key n => exact Nat.le_refl 1
  | ended key n r => exact Nat.le_refl 1
  | settled key n r => exact Nat.le_refl 1
  | done key n r => cases late <;> exact Nat.le_refl 1
  | _ => exact Nat.zero_le 1

theorem Of.pid_eq {late : Bool} {w : Place ε α} {a b : PromiseLock.Ticket String} (ha : w.Of late a)
    (hb : w.Of late b) : a.pid = b.pid := by
  cases w with
  | queued key n p => exact ha.2.1.symm.trans hb.2.1
  | running key n => exact ha.2.symm.trans hb.2
  | ended key n r => exact ha.2.symm.trans hb.2
  | settled key n r => exact ha.2.2.symm.trans hb.2.2
  | done key n r => exact ha.2.symm.trans hb.2
  | _ => cases ha

end Place

/-! ## What the log says -/

section

variable {log : List (LockEvent ε α)} {e : LockEvent ε α} {n m : Nat} {x : Seen ε α}
  {kind : Seen ε α → Bool}

theorem story_cons : story (e :: log) = (seen e.exch).toList ++ story log := by
  unfold story
  rw [List.filterMap_cons]
  cases seen e.exch <;> rfl

theorem mem_about : x ∈ about n log ↔ (n, x) ∈ story log := by
  simp [about]

theorem about_cons (h : seen e.exch = some (n, x)) :
    about m (e :: log) = if n = m then x :: about m log else about m log := by
  unfold about
  rw [story_cons, h]
  by_cases hn : n = m
  · simp [hn]
  · simp [hn]

theorem mem_those : n ∈ those kind log ↔ ∃ x ∈ about n log, kind x = true := by
  unfold those
  simp only [List.mem_reverse, List.mem_map, List.mem_filter, mem_about]
  constructor
  · intro ⟨⟨n', x⟩, ⟨hmem, hkind⟩, heq⟩
    cases heq
    exact ⟨x, hmem, hkind⟩
  · intro ⟨x, hmem, hkind⟩
    exact ⟨(n, x), ⟨hmem, hkind⟩, rfl⟩

theorem count_those : (those kind log).count n = ((about n log).filter kind).length := by
  unfold those about
  rw [List.count_reverse, List.count_eq_countP, List.countP_map, List.countP_filter,
    ← List.countP_eq_length_filter, List.countP_map,
    List.countP_filter]
  refine List.countP_congr fun y _ => ?_
  simp [and_comm]

def Seen.isCleanUp : Seen ε α → Bool
  | .released _ => true
  | .cleanedUp => true
  | _ => false

theorem cleanedUp_iff : CleanedUp log n ↔ n ∈ those Seen.isCleanUp log := by
  rw [mem_those]
  constructor
  · intro h
    rcases h with ⟨r, h⟩ | h
    · exact ⟨_, mem_about.mpr h, rfl⟩
    · exact ⟨_, mem_about.mpr h, rfl⟩
  · intro ⟨x, hx, hkind⟩
    cases x with
    | released r => exact .inl ⟨r, mem_about.mp hx⟩
    | cleanedUp => exact .inr (mem_about.mp hx)
    | _ => cases hkind

theorem mem_story_cons {y : Nat × Seen ε α} :
    y ∈ story (e :: log) ↔ seen e.exch = some y ∨ y ∈ story log := by
  rw [story_cons, List.mem_append, Option.mem_toList]

theorem cleanedUp_cons (h : seen e.exch = some (n, x)) :
    CleanedUp (e :: log) m ↔ (n = m ∧ x.isCleanUp = true) ∨ CleanedUp log m := by
  rw [cleanedUp_iff, cleanedUp_iff, mem_those, mem_those, about_cons h]
  by_cases hn : n = m
  · simp [hn]
  · simp [hn]

theorem those_cons (h : seen e.exch = some (n, x)) :
    (those kind (e :: log)).reverse =
      if kind x then n :: (those kind log).reverse else (those kind log).reverse := by
  unfold those
  rw [story_cons, h, List.reverse_reverse, List.reverse_reverse]
  by_cases hk : kind x = true
  · simp [hk]
  · simp [hk]

end

/-! ## One event -/

section

variable {late : Bool} {start : String → Place ε α} {s s' : LockState ε α} {e : LockEvent ε α}

abbrev view (late : Bool) (start : String → Place ε α) (s : LockState ε α) (t : Nat) :
    Option (Place ε α) := (script late).view start s t

/-- The call of a ticket stands in its place, and the log says so. -/
structure Stands (late : Bool) (start : String → Place ε α) (s : LockState ε α)
    (a : PromiseLock.Ticket String) (w : Place ε α) : Prop where
  view : view late start s a.owner = some w
  of : w.Of late a
  about : about a.pid s.log = w.path late

structure Chained (late : Bool) (start : String → Place ε α) (s : LockState ε α) : Prop where
  inv : PromiseLock.Inv (tickets s.log)
  line : PromiseLock.Line (tickets s.log)
  mirrors : Mirrors s.mem (tickets s.log)
  place : ∀ a ∈ (tickets s.log).tickets, ∃ w, Stands late start s a w
  owned : ∀ t w, view late start s t = some w → w.Bare ∨ ∃ a ∈ (tickets s.log).tickets, a.owner = t
  known : ∀ y ∈ story s.log, ∃ a ∈ (tickets s.log).tickets, a.pid = y.1
  called : ∀ key, (calls key s.log).reverse = PromiseLock.pids (tickets s.log) key
  made : ∀ t n, Made s.log t n ↔ ∃ a ∈ (tickets s.log).tickets, a.owner = t ∧ a.pid = n
  entry : ∀ key p, (tickets s.log).tail key = some p → ¬CleanedUp s.log p
  steps : ∀ t w, view late start s t = some w →
    (s.log.filter fun e => e.tid = t).length = w.steps late

namespace Mirrors

variable {m : Locks} {g : PromiseLock.Locks String}

theorem number (h : Mirrors m g) (hl : PromiseLock.Line g) : m.number = g.next := by
  have hlen := congrArg List.length hl.numbered
  simp only [List.length_map, List.length_reverse, List.length_range] at hlen
  unfold Locks.number
  rw [h.previous, List.length_map, hlen]

theorem queue (h : Mirrors m g) (hl : PromiseLock.Line g) (t : Nat) (key : String) :
    Mirrors (m.queue key) (PromiseLock.chain g t key).2 where
  map key' := by
    have hnumber := h.number hl
    simp only [Locks.queue, PromiseLock.chain, OMap.get_set, hnumber, h.map, eq_comm]
  previous := by
    have hget := h.map key
    simp only [Locks.queue, PromiseLock.chain, List.map_cons, hget, h.previous]
  settled := h.settled

theorem settle (h : Mirrors m g) (n : Nat) : Mirrors (m.settle n) (PromiseLock.settle g n) :=
  ⟨h.map, h.previous, congrArg (n :: ·) h.settled⟩

theorem cleanUp (h : Mirrors m g) (key : String) (n : Nat) :
    Mirrors (m.cleanUp key n) (PromiseLock.drop g key n) where
  map key' := by
    have hkey := h.map key
    have hkey' := h.map key'
    simp only [Locks.cleanUp, PromiseLock.drop]
    by_cases hn : g.tail key = some n
    · simp only [hkey, hn, if_true, OMap.get_delete, and_true, hkey', eq_comm]
    · simp only [hkey, hn, if_false, and_false, hkey']
  previous := h.previous
  settled := h.settled

end Mirrors

/-- What an event about a ticket's call does: the promise locks go on, and the
call moves from one place to the next. -/
structure Advances (late : Bool) (start : String → Place ε α) (s s' : LockState ε α)
    (e : LockEvent ε α) (a : PromiseLock.Ticket String) (x : Seen ε α) (w' : Place ε α) : Prop where
  owner : a.owner = e.tid
  mem : a ∈ (tickets s.log).tickets
  seen : seen e.exch = some (a.pid, x)
  call : ∀ key, x ≠ .called key
  view : view late start s' e.tid = some w'
  of : w'.Of late a
  path : w'.path late = x :: about a.pid s.log
  log : s'.log = e :: s.log
  same : (tickets s'.log).tickets = (tickets s.log).tickets
  inv : PromiseLock.Inv (tickets s'.log)
  line : PromiseLock.Line (tickets s'.log)
  mirrors : Mirrors s'.mem (tickets s'.log)
  entry : ∀ key p, (tickets s'.log).tail key = some p → ¬CleanedUp s'.log p

theorem steps_of {w : Place ε α} {a : PromiseLock.Ticket String} (h : w.Of late a) :
    w.steps late = (w.path late).length := by
  cases w with
  | left r => cases h
  | _ => rfl

theorem made_cons {log : List (LockEvent ε α)} {t n : Nat} :
    Made (e :: log) t n ↔
    (e.tid = t ∧ ∃ key, seen e.exch = some (n, .called key)) ∨ Made log t n := by
  unfold Made
  simp only [List.mem_cons, exists_eq_or_imp]

/-- The log's other events leave the other calls where they were. -/
theorem filter_tid_cons {log : List (LockEvent ε α)} {t : Nat} :
    ((e :: log).filter fun e => e.tid = t).length =
      (log.filter fun e => e.tid = t).length + if e.tid = t then 1 else 0 := by
  by_cases ht : e.tid = t
  · simp [ht]
  · simp [ht]

variable {W : Environment Locks (outside ε α)} {prog : String → Proc (locks ε α) (Except ε α)}
  {Q : String → Place ε α → Except ε α → Prop} {c : String}
  {k : (locks ε α).Ans e.op → Proc (locks ε α) (Except ε α)}

/-- Two tickets of one call are the same. -/
theorem Stands.eq {a b : PromiseLock.Ticket String} {w w' : Place ε α} (h : Chained late start s)
    (ha : a ∈ (tickets s.log).tickets) (hb : b ∈ (tickets s.log).tickets)
    (hw : Stands late start s a w) (hw' : Stands late start s b w') (howner : a.owner = b.owner) :
    a = b := by
  have hview := hw.view
  rw [howner, hw'.view] at hview
  cases hview
  exact h.inv.uniq a ha b hb (hw.of.pid_eq hw'.of)

theorem chained_advances (h : Chained late start s) (hf : Pool.Fires (.ofObject W prog) s e c k s')
    {a : PromiseLock.Ticket String} {x : Seen ε α} {w' : Place ε α}
    (ha : Advances late start s s' e a x w') : Chained late start s' where
  inv := ha.inv
  line := ha.line
  mirrors := ha.mirrors
  place b hb := by
    rw [ha.same] at hb
    by_cases hba : b = a
    · subst hba
      refine ⟨w', ?_, ha.of, ?_⟩
      · rw [ha.owner]
        exact ha.view
      · rw [ha.log, about_cons ha.seen, if_pos rfl]
        exact ha.path.symm
    · obtain ⟨w, hw⟩ := h.place b hb
      obtain ⟨wa, hwa⟩ := h.place a ha.mem
      have hother : e.tid ≠ b.owner :=
        fun heq => hba (hw.eq h hb ha.mem hwa (heq.symm.trans ha.owner.symm))
      have hpid : a.pid ≠ b.pid := fun heq => hba (h.inv.uniq b hb a ha.mem heq.symm)
      refine ⟨w, ?_, hw.of, ?_⟩
      · exact (System.view_other hf hother).trans hw.view
      · rw [ha.log, about_cons ha.seen, if_neg hpid]
        exact hw.about
  owned t w hw := by
    rw [ha.same]
    by_cases ht : e.tid = t
    · exact .inr ⟨a, ha.mem, ha.owner.trans ht⟩
    · refine h.owned t w ?_
      rw [← hw]
      exact (System.view_other hf ht).symm
  known y hy := by
    rw [ha.same]
    rw [ha.log] at hy
    rcases mem_story_cons.mp hy with hnew | hold
    · rw [ha.seen] at hnew
      exact ⟨a, ha.mem, congrArg Prod.fst (Option.some.inj hnew)⟩
    · exact h.known y hold
  called key := by
    have hkind : Seen.isCall key x = false := by
      cases x with
      | called key' => exact absurd rfl (ha.call key')
      | _ => rfl
    have hpids : PromiseLock.pids (tickets s'.log) key = PromiseLock.pids (tickets s.log) key := by
      unfold PromiseLock.pids
      rw [ha.same]
    rw [hpids, ha.log, those_cons ha.seen, hkind]
    exact h.called key
  made t n := by
    rw [ha.same, ha.log, made_cons, ← h.made]
    refine or_iff_right ?_
    intro hcall
    obtain ⟨-, key, hseen⟩ := hcall
    rw [ha.seen] at hseen
    exact ha.call key (congrArg Prod.snd (Option.some.inj hseen))
  entry := ha.entry
  steps t w hw := by
    rw [ha.log, filter_tid_cons]
    by_cases ht : e.tid = t
    · subst ht
      have hw' : some w' = some w := ha.view.symm.trans hw
      cases hw'
      obtain ⟨wa, hwa⟩ := h.place a ha.mem
      have hbefore := hwa.view
      rw [ha.owner] at hbefore
      have hsteps := h.steps _ _ hbefore
      rw [if_pos rfl, hsteps, steps_of hwa.of, steps_of ha.of, ha.path, hwa.about, List.length_cons]
    · rw [if_neg ht, Nat.add_zero]
      refine h.steps t w ?_
      rw [← hw]
      exact (System.view_other hf ht).symm

/-- A call of a key takes its ticket. -/
theorem chained_queue (h : Chained late start s) (hf : Pool.Fires (.ofObject W prog) s e c k s')
    {key : String} {i : Unit} {g : Unit → Locks → Locks}
    (hx : e.exch = ⟨.run (.queue key) g, (i, s.mem)⟩) (hmem : s'.mem = s.mem.queue key)
    (hbefore : view late start s e.tid = some (.idle key))
    (hafter : view late start s' e.tid = some (.queued key s.mem.number (OMap.get key s.mem.map))) :
    Chained late start s' := by
  have hnumber := h.mirrors.number h.line
  have hseen : seen e.exch = some (s.mem.number, .called key) := by rw [hx]; rfl
  have hold (b : PromiseLock.Ticket String) (hb : b ∈ (tickets s.log).tickets) :
      s.mem.number ≠ b.pid := by
    have hlt := h.inv.bound b hb
    omega
  have hother (b : PromiseLock.Ticket String) (hb : b ∈ (tickets s.log).tickets) :
      e.tid ≠ b.owner := by
    intro heq
    obtain ⟨w, hw⟩ := h.place b hb
    have hview := hw.view
    rw [← heq, hbefore] at hview
    cases hview
    exact hw.of
  have htickets : tickets s'.log = (PromiseLock.chain (tickets s.log) e.tid key).2 := by
    rw [hf.log, tickets, hx]
    rfl
  have hnew : (tickets s'.log).tickets =
      ⟨key, e.tid, (tickets s.log).tail key, (tickets s.log).next⟩ :: (tickets s.log).tickets := by
    rw [htickets]
    rfl
  have hnone : about s.mem.number s.log = [] := by
    refine List.eq_nil_iff_forall_not_mem.mpr fun x hmem => ?_
    obtain ⟨b, hb, hpid⟩ := h.known _ (mem_about.mp hmem)
    exact hold b hb hpid.symm
  refine ⟨?_, ?_, ?_, ?_, ?_, ?_, ?_, ?_, ?_, ?_⟩
  · rw [htickets]
    exact PromiseLock.inv_chain h.inv _ _
  · rw [htickets]
    exact PromiseLock.line_chain h.inv h.line _ _
  · rw [htickets, hmem]
    exact h.mirrors.queue h.line _ _
  · intro b hb
    rw [hnew] at hb
    rcases List.mem_cons.mp hb with rfl | hb
    · refine ⟨_, hafter, ⟨rfl, hnumber, h.mirrors.map key⟩, ?_⟩
      rw [hf.log, about_cons hseen, if_pos hnumber, ← hnumber, hnone]
      rfl
    · obtain ⟨w, hw⟩ := h.place b hb
      refine ⟨w, ?_, hw.of, ?_⟩
      · exact (System.view_other hf (hother b hb)).trans hw.view
      · rw [hf.log, about_cons hseen, if_neg (hold b hb)]
        exact hw.about
  · intro t w hw
    rw [hnew]
    by_cases ht : e.tid = t
    · exact .inr ⟨_, .head _, ht⟩
    · refine (h.owned t w ?_).imp_right fun ⟨b, hb, howner⟩ => ⟨b, .tail _ hb, howner⟩
      rw [← hw]
      exact (System.view_other hf ht).symm
  · intro y hy
    rw [hnew]
    rw [hf.log] at hy
    rcases mem_story_cons.mp hy with heq | hy
    · rw [hseen] at heq
      cases heq
      exact ⟨_, .head _, hnumber.symm⟩
    · obtain ⟨b, hb, hpid⟩ := h.known y hy
      exact ⟨b, .tail _ hb, hpid⟩
  · intro key'
    rw [htickets, PromiseLock.pids_chain, hf.log, those_cons hseen, h.called, hnumber]
    by_cases hkey : key = key'
    · simp [Seen.isCall, hkey]
    · simp [Seen.isCall, hkey]
  · intro t n
    rw [hnew, hf.log, made_cons, h.made]
    simp only [hseen, List.mem_cons, exists_eq_or_imp, hnumber, Option.some.injEq,
      Prod.mk.injEq, Seen.called.injEq]
    simp
  · intro key' p hp
    rw [htickets] at hp
    rw [hf.log, cleanedUp_cons hseen]
    simp only [Seen.isCleanUp, Bool.false_eq_true, and_false, false_or]
    simp only [PromiseLock.chain] at hp
    split at hp
    · cases hp
      rw [← hnumber, cleanedUp_iff, mem_those, hnone]
      simp
    · exact h.entry key' p hp
  · intro t w hw
    rw [hf.log, filter_tid_cons]
    by_cases ht : e.tid = t
    · subst ht
      have hw' := hafter.symm.trans hw
      cases hw'
      rw [if_pos rfl, h.steps _ _ hbefore]
      rfl
    · rw [if_neg ht, Nat.add_zero]
      refine h.steps t w ?_
      rw [← hw]
      exact (System.view_other hf ht).symm

/-- A call without a key has its outcome. -/
theorem chained_unlocked (h : Chained late start s) (hf : Pool.Fires (.ofObject W prog) s e c k s')
    {r : Except ε α} (hx : e.exch = ⟨.await .unlocked, r⟩) (hmem : s'.mem = s.mem)
    (hbefore : view late start s e.tid = some .unlocked)
    (hafter : view late start s' e.tid = some (.left r)) : Chained late start s' := by
  have hseen : seen e.exch = none := by rw [hx]; rfl
  have hstory : story s'.log = story s.log := by rw [hf.log, story_cons, hseen]; rfl
  have htickets : tickets s'.log = tickets s.log := by
    rw [hf.log, tickets, hx]
    rfl
  have hother (t : Nat) (ht : e.tid ≠ t) : view late start s' t = view late start s t :=
    System.view_other hf ht
  refine ⟨?_, ?_, ?_, ?_, ?_, ?_, ?_, ?_, ?_, ?_⟩
  · exact htickets ▸ h.inv
  · exact htickets ▸ h.line
  · rw [htickets, hmem]
    exact h.mirrors
  · intro b hb
    rw [htickets] at hb
    obtain ⟨w, hw⟩ := h.place b hb
    refine ⟨w, ?_, hw.of, ?_⟩
    · rw [hother b.owner fun heq => ?_]
      · exact hw.view
      · have hview := hw.view
        rw [← heq, hbefore] at hview
        cases hview
        exact hw.of
    · unfold about
      rw [hstory]
      exact hw.about
  · intro t w hw
    rw [htickets]
    by_cases ht : e.tid = t
    · subst ht
      have hw' := hafter.symm.trans hw
      cases hw'
      exact .inl trivial
    · exact h.owned t w ((hother t ht).symm.trans hw)
  · rw [hstory, htickets]
    exact h.known
  · unfold calls those
    rw [hstory, htickets]
    exact h.called
  · intro t n
    rw [htickets, hf.log, made_cons, hseen, ← h.made]
    simp
  · unfold CleanedUp
    rw [hstory, htickets]
    exact h.entry
  · intro t w hw
    rw [hf.log, filter_tid_cons]
    by_cases ht : e.tid = t
    · subst ht
      have hw' := hafter.symm.trans hw
      cases hw'
      rw [if_pos rfl, h.steps _ _ hbefore]
      rfl
    · rw [if_neg ht, Nat.add_zero]
      exact h.steps t w ((hother t ht).symm.trans hw)

/-! ## Every event -/

/-- What the two worlds have in common: a call goes on only when the call it
waits for is over, and it can do so when that one and all before it are. -/
structure Guards (W : Environment Locks (outside ε α)) : Prop where
  effect : ∀ m o r, W.effect m o r = m
  sound : ∀ m n p, W.allows m (.previous n p) () = true → ∀ q, p = some q → q ∈ m.settled
  live : ∀ m n p, (∀ q ∈ m.settled, queuedSettled m.settled m.previous q = true) →
    (∀ q, p = some q → q ∈ m.settled) →
    W.allows m (.previous n p) () = true

def Seen.isAnswer : Seen ε α → Bool
  | .released _ => true
  | .settled _ => true
  | _ => false

theorem replay_entered (g : PromiseLock.Locks String) (t : Nat) (x : Exch ε α) :
    (replay g t x).entered =
      ((seen x).toList.filter fun y => y.2.isStart).map Prod.fst ++ g.entered := by
  obtain ⟨o, r⟩ := x
  cases o with
  | run l f => cases l <;> rfl
  | await o => cases o <;> rfl

theorem replay_settled (g : PromiseLock.Locks String) (t : Nat) (x : Exch ε α) :
    (replay g t x).settled =
      ((seen x).toList.filter fun y => y.2.isAnswer).map Prod.fst ++ g.settled := by
  obtain ⟨o, r⟩ := x
  cases o with
  | run l f => cases l <;> rfl
  | await o => cases o <;> rfl

theorem those_reverse_cons {kind : Seen ε α → Bool} {log : List (LockEvent ε α)} :
    (those kind (e :: log)).reverse =
      ((seen e.exch).toList.filter fun y => kind y.2).map Prod.fst ++ (those kind log).reverse := by
  unfold those
  rw [story_cons, List.filter_append, List.map_append, List.reverse_reverse, List.reverse_reverse]

theorem entered_eq (log : List (LockEvent ε α)) :
    (tickets log).entered = (started log).reverse := by
  induction log with
  | nil => rfl
  | cons e log ih => rw [tickets, replay_entered, ih, those_reverse_cons]

theorem settled_eq (log : List (LockEvent ε α)) :
    (tickets log).settled = (those Seen.isAnswer log).reverse := by
  induction log with
  | nil => rfl
  | cons e log ih => rw [tickets, replay_settled, ih, those_reverse_cons]

theorem mem_entered {log : List (LockEvent ε α)} {n : Nat} :
    n ∈ (tickets log).entered ↔ n ∈ started log := by
  rw [entered_eq, List.mem_reverse]

theorem mem_settled {log : List (LockEvent ε α)} {n : Nat} :
    n ∈ (tickets log).settled ↔ Answered log n := by
  rw [settled_eq, List.mem_reverse, mem_those]
  constructor
  · intro ⟨x, hx, hkind⟩
    cases x with
    | released r => exact ⟨r, .inl (mem_about.mp hx)⟩
    | settled r => exact ⟨r, .inr (mem_about.mp hx)⟩
    | _ => cases hkind
  · intro ⟨r, h⟩
    rcases h with h | h
    · exact ⟨_, mem_about.mpr h, rfl⟩
    · exact ⟨_, mem_about.mpr h, rfl⟩

/-- A call that has made its first step has a ticket. -/
theorem Chained.standing (h : Chained late start s) {t : Nat} {w : Place ε α}
    (hw : view late start s t = some w) (hbare : ¬w.Bare) :
    ∃ a ∈ (tickets s.log).tickets, a.owner = t ∧ Stands late start s a w := by
  obtain ⟨a, ha, rfl⟩ := (h.owned t w hw).resolve_left hbare
  obtain ⟨w', hw'⟩ := h.place a ha
  have hsame := hw'.view.symm.trans hw
  cases hsame
  exact ⟨a, ha, rfl, hw'⟩

/-- The entry of a key is not that of a call that has looked at it. -/
theorem entry_dropped (h : Chained late start s) {a : PromiseLock.Ticket String}
    (ha : a ∈ (tickets s.log).tickets) {key : String} {p : Nat}
    (hp : (PromiseLock.drop (tickets s.log) a.key a.pid).tail key = some p) :
    p ≠ a.pid ∧ (tickets s.log).tail key = some p := by
  simp only [PromiseLock.drop] at hp
  split at hp
  · cases hp
  · rename_i hkept
    refine ⟨fun heq => hkept ?_, hp⟩
    subst heq
    obtain ⟨b, hb, hkey, hpid⟩ := h.inv.tail_some key _ hp
    obtain rfl := h.inv.uniq b hb a ha hpid
    exact ⟨hkey.symm, hkey ▸ hp⟩

section

variable {key : String} {n : Nat} {a : PromiseLock.Ticket String}

/-- The function of a call is called. -/
theorem advances_start (h : Chained late start s) (hlog : s'.log = e :: s.log) {p : Option Nat}
    (hx : e.exch = ⟨.await (.previous n p), ()⟩) (hmem : s'.mem = s.mem)
    (hready : ∀ q, p = some q → q ∈ s.mem.settled) (ha : a ∈ (tickets s.log).tickets)
    (howner : a.owner = e.tid) (hw : Stands late start s a (.queued key n p))
    (hafter : view late start s' e.tid = some (.running key n)) :
    Advances late start s s' e a .started (.running key n) := by
  obtain ⟨hkey, rfl, rfl⟩ := hw.of
  have habout := hw.about
  have htickets :
      tickets s'.log = { tickets s.log with entered := a.pid :: (tickets s.log).entered } := by
    rw [hlog, tickets, hx]
    rfl
  have hseen : seen e.exch = some (a.pid, .started) := by rw [hx]; rfl
  have henter : PromiseLock.enter (tickets s.log) a.prev a.pid = some (tickets s'.log) := by
    rw [htickets]
    refine PromiseLock.enter_of fun q hq => ?_
    rw [← h.mirrors.settled]
    exact hready q hq
  have hout : a.pid ∉ (tickets s.log).entered := by
    rw [mem_entered, mem_those, habout]
    simp [Place.path, Seen.isStart]
  refine ⟨howner, ha, hseen, nofun, hafter, ⟨hkey, rfl⟩, ?_, hlog, ?_, ?_, ?_, ?_, ?_⟩
  · rw [habout]
    rfl
  · rw [htickets]
  · exact PromiseLock.inv_enter h.inv ha henter
  · exact PromiseLock.line_enter h.inv h.line ha hout henter
  · rw [htickets, hmem]
    exact ⟨h.mirrors.map, h.mirrors.previous, h.mirrors.settled⟩
  · intro key' q hq
    rw [htickets] at hq
    rw [hlog, cleanedUp_cons hseen]
    simp only [Seen.isCleanUp, Bool.false_eq_true, and_false, false_or]
    exact h.entry key' q hq

/-- The function of a call has ended. -/
theorem advances_end (h : Chained late start s) (hlog : s'.log = e :: s.log) {r : Except ε α}
    (hx : e.exch = ⟨.await (.outcome n), r⟩) (hmem : s'.mem = s.mem)
    (ha : a ∈ (tickets s.log).tickets) (howner : a.owner = e.tid)
    (hw : Stands late start s a (.running key n))
    (hafter : view late start s' e.tid = some (.ended key n r)) :
    Advances late start s s' e a (.ended r) (.ended key n r) := by
  obtain ⟨hkey, rfl⟩ := hw.of
  have habout := hw.about
  have htickets : tickets s'.log = tickets s.log := by
    rw [hlog, tickets, hx]
    rfl
  have hseen : seen e.exch = some (a.pid, .ended r) := by rw [hx]; rfl
  refine ⟨howner, ha, hseen, nofun, hafter, ⟨hkey, rfl⟩, ?_, hlog, ?_, ?_, ?_, ?_, ?_⟩
  · rw [habout]
    rfl
  · rw [htickets]
  · exact htickets ▸ h.inv
  · exact htickets ▸ h.line
  · rw [htickets, hmem]
    exact h.mirrors
  · intro key' q hq
    rw [htickets] at hq
    rw [hlog, cleanedUp_cons hseen]
    simp only [Seen.isCleanUp, Bool.false_eq_true, and_false, false_or]
    exact h.entry key' q hq

theorem entered_ended (hw : Stands late start s a (.ended key n r)) :
    a.pid ∈ (tickets s.log).entered := by
  have habout := hw.about
  rw [mem_entered, mem_those, habout]
  simp [Place.path, Seen.isStart]

/-- `run` of a call is settled. -/
theorem advances_settle (h : Chained true start s) (hlog : s'.log = e :: s.log) {r : Except ε α}
    {g : Unit → Locks → Locks} {i : Unit × Locks} (hx : e.exch = ⟨.run (.settle n r) g, i⟩)
    (hmem : s'.mem = s.mem.settle n) (ha : a ∈ (tickets s.log).tickets) (howner : a.owner = e.tid)
    (hw : Stands true start s a (.ended key n r))
    (hafter : view true start s' e.tid = some (.settled key n r)) :
    Advances true start s s' e a (.settled r) (.settled key n r) := by
  have hin := entered_ended hw
  obtain ⟨hkey, rfl⟩ := hw.of
  have habout := hw.about
  have htickets : tickets s'.log = PromiseLock.settle (tickets s.log) a.pid := by
    rw [hlog, tickets, hx]
    rfl
  have hseen : seen e.exch = some (a.pid, .settled r) := by rw [hx]; rfl
  refine ⟨howner, ha, hseen, nofun, hafter, ⟨rfl, hkey, rfl⟩, ?_, hlog, ?_, ?_, ?_, ?_, ?_⟩
  · rw [habout]
    rfl
  · rw [htickets]
    rfl
  · rw [htickets]
    exact PromiseLock.inv_settle h.inv hin
  · rw [htickets]
    exact PromiseLock.line_settle h.line _
  · rw [htickets, hmem]
    exact h.mirrors.settle _
  · intro key' q hq
    rw [htickets] at hq
    rw [hlog, cleanedUp_cons hseen]
    simp only [Seen.isCleanUp, Bool.false_eq_true, and_false, false_or]
    exact h.entry key' q hq

/-- The entry is looked at. -/
theorem advances_cleanUp (h : Chained true start s) (hlog : s'.log = e :: s.log) {r : Except ε α}
    {g : Unit → Locks → Locks} {i : Unit × Locks} (hx : e.exch = ⟨.run (.cleanUp key n) g, i⟩)
    (hmem : s'.mem = s.mem.cleanUp key n) (ha : a ∈ (tickets s.log).tickets)
    (howner : a.owner = e.tid) (hw : Stands true start s a (.settled key n r))
    (hafter : view true start s' e.tid = some (.done key n r)) :
    Advances true start s s' e a .cleanedUp (.done key n r) := by
  obtain ⟨-, rfl, rfl⟩ := hw.of
  have habout := hw.about
  have hsettled : a.pid ∈ (tickets s.log).settled :=
    mem_settled.mpr ⟨r, .inr (mem_about.mp (by rw [habout]; exact .head _))⟩
  have htickets : tickets s'.log = PromiseLock.drop (tickets s.log) a.key a.pid := by
    rw [hlog, tickets, hx]
    rfl
  have hseen : seen e.exch = some (a.pid, .cleanedUp) := by rw [hx]; rfl
  refine ⟨howner, ha, hseen, nofun, hafter, ⟨rfl, rfl⟩, ?_, hlog, ?_, ?_, ?_, ?_, ?_⟩
  · rw [habout]
    rfl
  · rw [htickets]
    rfl
  · rw [htickets]
    exact PromiseLock.inv_drop h.inv ha hsettled
  · rw [htickets]
    exact PromiseLock.line_drop h.line _ _
  · rw [htickets, hmem]
    exact h.mirrors.cleanUp _ _
  · intro key' q hq
    rw [htickets] at hq
    obtain ⟨hne, hold⟩ := entry_dropped h ha hq
    rw [hlog, cleanedUp_cons hseen]
    exact fun hcleaned => hcleaned.elim (fun heq => hne heq.1.symm) (h.entry key' q hold)

/-- The `finally` of a call. -/
theorem advances_release (h : Chained false start s) (hlog : s'.log = e :: s.log) {r : Except ε α}
    {g : Unit → Locks → Locks} {i : Unit × Locks} (hx : e.exch = ⟨.run (.release key n r) g, i⟩)
    (hmem : s'.mem = s.mem.release key n) (ha : a ∈ (tickets s.log).tickets)
    (howner : a.owner = e.tid) (hw : Stands false start s a (.ended key n r))
    (hafter : view false start s' e.tid = some (.done key n r)) :
    Advances false start s s' e a (.released r) (.done key n r) := by
  have hin := entered_ended hw
  obtain ⟨rfl, rfl⟩ := hw.of
  have habout := hw.about
  have htickets : tickets s'.log = PromiseLock.release (tickets s.log) a.key a.pid := by
    rw [hlog, tickets, hx]
    rfl
  have hseen : seen e.exch = some (a.pid, .released r) := by rw [hx]; rfl
  refine ⟨howner, ha, hseen, nofun, hafter, ⟨rfl, rfl⟩, ?_, hlog, ?_, ?_, ?_, ?_, ?_⟩
  · rw [habout]
    rfl
  · rw [htickets]
    rfl
  · rw [htickets]
    exact PromiseLock.inv_release h.inv ha hin
  · rw [htickets]
    exact PromiseLock.line_drop (PromiseLock.line_settle h.line _) _ _
  · rw [htickets, hmem]
    exact (h.mirrors.settle _).cleanUp _ _
  · intro key' q hq
    rw [htickets] at hq
    obtain ⟨hne, hold⟩ := entry_dropped h ha hq
    rw [hlog, cleanedUp_cons hseen]
    exact fun hcleaned => hcleaned.elim (fun heq => hne heq.1.symm) (h.entry key' q hold)

end

theorem chained_fires (hW : Guards W) (h : Chained late start s)
    (hc : System.Conforms (script late).monitor (fun _ => True) start Q s)
    (hf : Pool.Fires (.ofObject W prog) s e c k s') : Chained late start s' := by
  have hlog := hf.log
  cases Script.turn hc hf with
  | runs l i w hx hmem hbefore hlegal hafter =>
    cases w with
    | idle key =>
      cases l with
      | queue key' =>
        obtain rfl : key' = key := hlegal
        exact chained_queue h hf hx hmem hbefore hafter
      | _ => cases hlegal
    | ended key n r =>
      obtain ⟨a, ha, howner, hw⟩ := h.standing hbefore id
      cases l with
      | release key' n' r' =>
        obtain ⟨rfl, rfl, rfl, rfl⟩ : late = false ∧ key' = key ∧ n' = n ∧ r' = r := hlegal
        exact chained_advances h hf (advances_release h hlog hx hmem ha howner hw hafter)
      | settle n' r' =>
        obtain ⟨rfl, rfl, rfl⟩ : late = true ∧ n' = n ∧ r' = r := hlegal
        exact chained_advances h hf (advances_settle h hlog hx hmem ha howner hw hafter)
      | _ => cases hlegal
    | settled key n r =>
      obtain ⟨a, ha, howner, hw⟩ := h.standing hbefore id
      cases l with
      | cleanUp key' n' =>
        obtain ⟨rfl, rfl, rfl⟩ : late = true ∧ key' = key ∧ n' = n := hlegal
        exact chained_advances h hf (advances_cleanUp h hlog hx hmem ha howner hw hafter)
      | _ => cases hlegal
    | _ => cases l <;> cases hlegal
  | hears o r w hx hallowed hmem hbefore hasks hafter =>
    have hsame : s'.mem = s.mem := hmem.trans (hW.effect _ _ _)
    cases w with
    | queued key n p =>
      obtain ⟨a, ha, howner, hw⟩ := h.standing hbefore id
      cases o with
      | previous n' p' =>
        obtain ⟨rfl, rfl⟩ : n' = n ∧ p' = p := hasks
        exact chained_advances h hf
          (advances_start h hlog hx hsame (hW.sound _ _ _ hallowed) ha howner hw hafter)
      | _ => cases hasks
    | running key n =>
      obtain ⟨a, ha, howner, hw⟩ := h.standing hbefore id
      cases o with
      | outcome n' =>
        obtain rfl : n' = n := hasks
        exact chained_advances h hf (advances_end h hlog hx hsame ha howner hw hafter)
      | _ => cases hasks
    | unlocked =>
      cases o with
      | unlocked => exact chained_unlocked h hf hx hsame hbefore hafter
      | _ => cases hasks
    | _ => cases o <;> cases hasks

theorem chained_init : Chained late start (⟨.new, [], []⟩ : LockState ε α) where
  inv := PromiseLock.inv_empty
  line := PromiseLock.line_empty
  mirrors := ⟨fun _ => rfl, rfl, rfl⟩
  place _ h := absurd h List.not_mem_nil
  owned t w hw := by
    have hnone : view late start (⟨.new, [], []⟩ : LockState ε α) t = none := System.view_init _ t
    rw [hnone] at hw
    cases hw
  known _ h := absurd h List.not_mem_nil
  called _ := rfl
  made t n := by
    constructor
    · intro h
      obtain ⟨e, he, -⟩ := h
      cases he
    · intro h
      obtain ⟨a, ha, -⟩ := h
      cases ha
  entry _ _ h := by cases h
  steps t w hw := by
    have hnone : view late start (⟨.new, [], []⟩ : LockState ε α) t = none := System.view_init _ t
    rw [hnone] at hw
    cases hw

/-- A call starts without a ticket and without a step. -/
def Fresh (late : Bool) (start : String → Place ε α) : Prop :=
  ∀ c, (start c).Bare ∧ (start c).steps late = 0

theorem chained_spawn (hstart : Fresh late start) (h : Chained late start s)
    (hc : System.Conforms (script late).monitor (fun _ => True) start Q s) (S : LockSystem ε α)
    (c : String) : Chained late start (s.spawn S c) where
  inv := h.inv
  line := h.line
  mirrors := h.mirrors
  place a ha := by
    obtain ⟨w, hw⟩ := h.place a ha
    exact ⟨w, hc.view_kept hw.view, hw.of, hw.about⟩
  owned t w hw := by
    rcases hc.view_spawned hw with ⟨-, rfl⟩ | hw
    · exact .inl (hstart c).1
    · exact h.owned t w hw
  known := h.known
  called := h.called
  made := h.made
  entry := h.entry
  steps t w hw := by
    rcases hc.view_spawned hw with ⟨rfl, rfl⟩ | hw
    · have hnone : s.log.filter (fun e => e.tid = s.threads.length) = [] := by
        refine List.filter_eq_nil_iff.mpr fun e he => ?_
        have hlt := hc.tids e he
        simp
        omega
      rw [(hstart c).2]
      exact congrArg List.length hnone
    · exact h.steps t w hw

/-- The calls of a mutex are chained in every state. -/
theorem chained_reachable (hW : Guards W) (hstart : Fresh late start)
    (hprog : ∀ c, Obeys (script late).monitor (fun _ => True) (Q c) (start c) (prog c))
    (hr : ((System.ofObject W prog).lts anyCalls).Reachable s) :
    System.Conforms (script late).monitor (fun _ => True) start Q s ∧ Chained late start s := by
  refine (System.inductive_of (fun m hm => ?_) (fun s c h hc => ?_) fun s e c k s' h hf hok => ?_ :
    ((System.ofObject W prog).lts anyCalls).Inductive fun s =>
      System.Conforms (script late).monitor (fun _ => True) start Q s ∧
        Chained late start s).reachable s hr
  · have hm : m = Locks.new := hm
    subst hm
    exact ⟨System.conforms_init _, chained_init⟩
  · exact ⟨System.conforms_spawn h.1 (hprog c), chained_spawn hstart h.2 h.1 _ c⟩
  · exact ⟨System.conforms_fires h.1 hf trivial, chained_fires hW h.2 h.1 hf⟩

/-! ## The calls are served -/

theorem Chained.mem_calls (h : Chained late start s) {key : String} {n : Nat} :
    n ∈ calls key s.log ↔ ∃ a ∈ (tickets s.log).tickets, a.key = key ∧ a.pid = n := by
  rw [← PromiseLock.mem_pids, ← h.called, List.mem_reverse]

/-- What is said of a call is said of a ticket. -/
theorem Chained.told (h : Chained late start s) {n : Nat} {x : Seen ε α}
    (hx : (n, x) ∈ story s.log) :
    ∃ a ∈ (tickets s.log).tickets, a.pid = n ∧ ∃ w, Stands late start s a w ∧ x ∈ w.path late := by
  obtain ⟨a, ha, rfl⟩ := h.known _ hx
  obtain ⟨w, hw⟩ := h.place a ha
  exact ⟨a, ha, rfl, w, hw, hw.about ▸ mem_about.mpr hx⟩

theorem mem_path_answer {w : Place ε α} {r : Except ε α}
    (h : .released r ∈ w.path late ∨ .settled r ∈ w.path late) :
    (∃ key n, w = .settled key n r) ∨ ∃ key n, w = .done key n r := by
  cases w with
  | settled key n r' =>
    simp [Place.path] at h
    exact .inl ⟨key, n, by rw [h]⟩
  | done key n r' =>
    cases late with
    | true =>
      simp [Place.path] at h
      exact .inr ⟨key, n, by rw [h]⟩
    | false =>
      simp [Place.path] at h
      exact .inr ⟨key, n, by rw [h]⟩
  | _ => simp [Place.path] at h

/-- An answered call stands at the end of its way. -/
theorem Chained.answer (h : Chained late start s) {n : Nat} {r : Except ε α}
    (hr : Answer s.log n r) :
    ∃ a ∈ (tickets s.log).tickets, a.pid = n ∧
      ∃ w, Stands late start s a w ∧
        ((∃ key n, w = .settled key n r) ∨ ∃ key n, w = .done key n r) := by
  rcases hr with hr | hr
  · obtain ⟨a, ha, hpid, w, hw, hx⟩ := h.told hr
    exact ⟨a, ha, hpid, w, hw, mem_path_answer (.inl hx)⟩
  · obtain ⟨a, ha, hpid, w, hw, hx⟩ := h.told hr
    exact ⟨a, ha, hpid, w, hw, mem_path_answer (.inr hx)⟩

theorem Chained.own (h : Chained late start s) {n : Nat} {r : Except ε α} (hr : Answer s.log n r) :
    n ∈ started s.log ∧ (n, .ended r) ∈ story s.log ∧
    ∀ r', (n, .ended r') ∈ story s.log → r' = r := by
  obtain ⟨a, ha, rfl, w, hw, hlast⟩ := h.answer hr
  rw [mem_those]
  simp only [← mem_about]
  rw [hw.about]
  rcases hlast with ⟨key, n, rfl⟩ | ⟨key, n, rfl⟩
  · simp [Place.path, Seen.isStart]
  · cases late <;> simp [Place.path, Seen.isStart]

theorem Chained.once (h : Chained late start s) : (started s.log).Nodup := by
  refine List.nodup_iff_count_le_one.mpr fun n => ?_
  rw [count_those]
  by_cases hnone : about n s.log = []
  · rw [hnone]
    exact Nat.zero_le _
  · obtain ⟨x, hx⟩ := List.exists_mem_of_ne_nil _ hnone
    obtain ⟨a, ha, rfl, w, hw, -⟩ := h.told (mem_about.mp hx)
    rw [hw.about]
    exact w.starts_le late

theorem Chained.ordered (h : Chained late start s) (key : String) :
    (started s.log).filter (fun n => n ∈ calls key s.log) <+: calls key s.log := by
  have hcalls : calls key s.log = (PromiseLock.pids (tickets s.log) key).reverse := by
    rw [← h.called, List.reverse_reverse]
  have hstarted : started s.log = (tickets s.log).entered.reverse := by
    rw [entered_eq, List.reverse_reverse]
  have hinside : (started s.log).filter (fun n => n ∈ calls key s.log) =
      (PromiseLock.inside (tickets s.log) key).reverse := by
    rw [hstarted, List.filter_reverse, hcalls]
    unfold PromiseLock.inside
    simp
  rw [hinside, hcalls, List.reverse_prefix]
  exact h.line.order key

/-- A running call has entered and not settled. -/
theorem Chained.holds (h : Chained late start s) {a : PromiseLock.Ticket String}
    (ha : a ∈ (tickets s.log).tickets) (hr : Running s.log a.pid) :
    PromiseLock.Holds (tickets s.log) a := by
  refine ⟨ha, mem_entered.mpr hr.1, fun hsettled => ?_⟩
  obtain ⟨r, hanswer⟩ := mem_settled.mp hsettled
  exact hr.2 r (h.own hanswer).2.1

theorem Chained.exclusive (h : Chained late start s) {key : String} {n n' : Nat}
    (hn : n ∈ calls key s.log) (hn' : n' ∈ calls key s.log) (hr : Running s.log n)
    (hr' : Running s.log n') : n = n' := by
  obtain ⟨a, ha, hkey, rfl⟩ := h.mem_calls.mp hn
  obtain ⟨b, hb, hkey', rfl⟩ := h.mem_calls.mp hn'
  exact congrArg _ (h.inv.exclusive (h.holds ha hr) (h.holds hb hr') (hkey.trans hkey'.symm))

/-- The number of a ticket is how many came before. -/
theorem Chained.pid_eq (h : Chained late start s) {newer older : List (PromiseLock.Ticket String)}
    {a : PromiseLock.Ticket String} (hsplit : (tickets s.log).tickets = newer ++ a :: older) :
    a.pid = older.length := by
  have hnumbered := h.line.numbered
  have hlen := congrArg List.length hnumbered
  have hget := congrArg (fun l => l[newer.length]?) hnumbered
  simp only [hsplit, List.length_map, List.length_append, List.length_cons,
    List.length_reverse, List.length_range, List.map_append,
    List.map_cons] at hlen hget
  rw [List.getElem?_append_right (by simp), List.length_map, Nat.sub_self, List.getElem?_cons_zero,
    List.getElem?_reverse (by simp; omega), List.length_range, List.getElem?_range (by omega),
      Option.some.injEq] at hget
  omega

/-- The promise of a settled ticket is settled: so are all before it. -/
theorem Chained.woven (h : Chained late start s) :
    ∀ q ∈ s.mem.settled, queuedSettled s.mem.settled s.mem.previous q = true := by
  have hall : ∀ older newer :
      List (PromiseLock.Ticket String), (tickets s.log).tickets = newer ++ older →
      ∀ q ∈ (tickets s.log).settled, q < older.length →
        queuedSettled (tickets s.log).settled (older.map PromiseLock.Ticket.prev) q = true := by
    intro older
    induction older with
    | nil => exact fun _ _ q _ hlt => absurd hlt (Nat.not_lt_zero q)
    | cons a older ih =>
      intro newer hsplit q hq hlt
      have hpid := h.pid_eq hsplit
      have holder := ih (newer ++ [a]) (by rw [hsplit, List.append_assoc]; rfl)
      rw [List.map_cons, queuedSettled, List.length_map]
      split
      · rename_i hlast
        have ha : a ∈ (tickets s.log).tickets := by rw [hsplit]; simp
        have hin : a.pid ∈ (tickets s.log).entered := h.inv.opened _ (hpid.trans hlast.symm ▸ hq)
        rw [Bool.and_eq_true, decide_eq_true_eq, Option.all_eq_true]
        refine ⟨hq, fun p hp => ?_⟩
        have hbelow := h.line.prev_lt a ha p hp
        exact holder p (h.inv.awaited ha hin hp hbelow) (hpid ▸ hbelow)
      · rw [List.length_cons] at hlt
        exact holder q hq (by omega)
  intro q hq
  rw [h.mirrors.settled] at hq ⊢
  rw [h.mirrors.previous]
  have hlt := h.inv.known q (h.inv.opened q hq)
  have hlen := congrArg List.length h.line.numbered
  simp only [List.length_map, List.length_reverse, List.length_range] at hlen
  exact hall (tickets s.log).tickets [] rfl q hq (hlen ▸ hlt)

section

/-- A call that stands on its way asks something. -/
theorem asks_of
    (hc : System.Conforms (script late).monitor (fun _ => True) start (fun _ => Final) s) {t : Nat}
    {w : Place ε α} (hw : view late start s t = some w) (hway : ∀ r, ¬Final w r) :
    ∃ c o k, s.threads[t]? = some ⟨c, .ask o k⟩ ∧ (script late).monitor.may w o := by
  obtain ⟨⟨c, p⟩, hthread, hmon⟩ := Option.map_eq_some_iff.mp hw
  have hobeys := hc.obeys t _ hthread
  subst hmon
  cases p with
  | ret r => exact absurd hobeys (hway r)
  | ask o k => exact ⟨c, o, k, hthread, hobeys.1⟩

theorem fire_run {t : Nat} {c : String} {l : Stretch ε α} {g : Unit → Locks → Locks}
    {k : (Unit × Locks) → Proc (locks ε α) (Except ε α)}
    (ht : s.threads[t]? = some ⟨c, .ask (.run l g) k⟩) (f : ObjFate Unit (outside ε α)) :
    (s.fire (.ofObject W prog) t f).isSome = true := by
  unfold Pool.fire
  rw [ht]
  rfl

/-- A call that has to run a stretch can do so. -/
theorem moves_run
    (hc : System.Conforms (script late).monitor (fun _ => True) start (fun _ => Final) s)
    (h : Chained late start s) {a : PromiseLock.Ticket String} (ha : a ∈ (tickets s.log).tickets)
    {w : Place ε α} (hw : Stands late start s a w) (hway : ∀ r, ¬Final w r)
    (hrun : ∀ o, ¬(script late).asks w o) : Moves (.ofObject W prog) s a.pid := by
  obtain ⟨c, o, k, hthread, hmay⟩ := asks_of hc hw.view hway
  have hmade : Made s.log a.owner a.pid := (h.made _ _).mpr ⟨a, ha, rfl, rfl⟩
  cases o with
  | run l g => exact ⟨a.owner, ⟨(), fun _ => none⟩, hmade, fire_run hthread _⟩
  | await o => exact absurd hmay (hrun o)

/-- The promise of the call before has settled. -/
def goAhead (ε α : Type) : (o : Await) → Option (Await.Ans ε α o)
  | .previous .. => some ()
  | _ => none

/-- A call whose awaited promise is settled can go on. -/
theorem moves_queued (hW : Guards W)
    (hc : System.Conforms (script late).monitor (fun _ => True) start (fun _ => Final) s)
    (h : Chained late start s) {a : PromiseLock.Ticket String} (ha : a ∈ (tickets s.log).tickets)
    {key : String} {n : Nat} {p : Option Nat} (hw : Stands late start s a (.queued key n p))
    (hready : ∀ q, a.prev = some q → q ∈ (tickets s.log).settled) :
    Moves (.ofObject W prog) s a.pid := by
  have hway : ∀ r, ¬Final (.queued key n p : Place ε α) r := by
    intro r hfinal
    rcases hfinal with hfinal | ⟨key', n', hfinal⟩
    · cases hfinal
    · cases hfinal
  obtain ⟨c, o, k, hthread, hmay⟩ := asks_of hc hw.view hway
  have hmade : Made s.log a.owner a.pid := (h.made _ _).mpr ⟨a, ha, rfl, rfl⟩
  obtain ⟨-, -, rfl⟩ := hw.of
  cases o with
  | run l g =>
    cases l with
    | queue key' => cases hmay.2
    | release key' n' r => cases hmay.2
    | settle n' r => cases hmay.2
    | cleanUp key' n' => cases hmay.2
  | await o =>
    cases o with
    | previous n' p' =>
      obtain ⟨rfl, rfl⟩ : n' = n ∧ p' = a.prev := hmay
      have hallows : W.allows s.mem (.previous n' a.prev) () = true := by
        refine hW.live _ _ _ h.woven fun q hq => ?_
        rw [h.mirrors.settled]
        exact hready q hq
      refine ⟨a.owner, ⟨(), goAhead ε α⟩, hmade, ?_⟩
      unfold Pool.fire
      rw [hthread]
      dsimp only [System.ofObject, objAct, goAhead, Option.bind_some]
      rw [hallows]
      rfl
    | outcome n' => cases hmay
    | unlocked => cases hmay

/-- What the log says of a call that stands at the end of its way. -/
theorem answer_settled {a : PromiseLock.Ticket String} {key : String} {n : Nat} {r : Except ε α}
    (hw : Stands late start s a (.settled key n r)) : Answer s.log a.pid r := by
  refine .inr (mem_about.mp ?_)
  rw [hw.about]
  exact List.mem_cons_self

theorem answer_done {a : PromiseLock.Ticket String} {key : String} {n : Nat} {r : Except ε α}
    (hw : Stands late start s a (.done key n r)) :
    Answer s.log a.pid r ∧ CleanedUp s.log a.pid := by
  have hsaid (x : Seen ε α) (hx : x ∈ (Place.done key n r).path late) :
      (a.pid, x) ∈ story s.log := by
    rw [← mem_about, hw.about]
    exact hx
  cases late with
  | true => exact ⟨.inr (hsaid _ (.tail _ (.head _))), .inr (hsaid _ (.head _))⟩
  | false => exact ⟨.inl (hsaid _ (.head _)), .inl ⟨r, hsaid _ (.head _)⟩⟩

theorem not_final_ended {key : String} {n : Nat} {r r' : Except ε α} :
    ¬Final (.ended key n r) r' := by
  intro hfinal
  rcases hfinal with hfinal | ⟨key', n', hfinal⟩
  · cases hfinal
  · cases hfinal

theorem not_asks_ended {key : String} {n : Nat} {r : Except ε α} (o : Await) :
    ¬(script late).asks (.ended key n r) o := by
  cases o <;> exact id

theorem not_asks_settled {key : String} {n : Nat} {r : Except ε α} (o : Await) :
    ¬(script late).asks (.settled key n r) o := by
  cases o <;> exact id

theorem not_final_settled {key : String} {n : Nat} {r r' : Except ε α} :
    ¬Final (.settled key n r) r' := by
  intro hfinal
  rcases hfinal with hfinal | ⟨key', n', hfinal⟩
  · cases hfinal
  · cases hfinal

/-- A key whose calls are not all answered is not stuck. -/
theorem Chained.served (hW : Guards W)
    (hc : System.Conforms (script late).monitor (fun _ => True) start (fun _ => Final) s)
    (h : Chained late start s) {key : String} {n : Nat} (hn : n ∈ calls key s.log)
    (hopen : ¬Answered s.log n) :
    ∃ n' ∈ calls key s.log, ¬Answered s.log n' ∧
      (Running s.log n' ∨ Moves (.ofObject W prog) s n') := by
  obtain ⟨a, ha, rfl, rfl⟩ := h.mem_calls.mp hn
  obtain ⟨b, hb, hkey, hfree, hready⟩ :=
    h.inv.front h.line.prev_lt ha fun hsettled => hopen (mem_settled.mp hsettled)
  have hunanswered : ¬Answered s.log b.pid := fun hanswered => hfree (mem_settled.mpr hanswered)
  refine ⟨b.pid, h.mem_calls.mpr ⟨b, hb, hkey, rfl⟩, hunanswered, ?_⟩
  obtain ⟨w, hw⟩ := h.place b hb
  have habout := hw.about
  cases w with
  | queued key n p => exact .inr (moves_queued hW hc h hb hw hready)
  | running key n =>
    refine .inl ⟨?_, fun r hr => ?_⟩
    · rw [mem_those, habout]
      exact ⟨_, .head _, rfl⟩
    · rw [← mem_about, habout] at hr
      simp [Place.path] at hr
  | ended key n r => exact .inr (moves_run hc h hb hw (fun _ => not_final_ended) not_asks_ended)
  | settled key n r => exact absurd ⟨r, answer_settled hw⟩ hunanswered
  | done key n r => exact absurd ⟨r, (answer_done hw).1⟩ hunanswered
  | unlocked => exact hw.of.elim
  | left r => exact hw.of.elim
  | idle key => exact hw.of.elim

/-- An answered call has looked at its entry, or can do so. -/
theorem Chained.tidied
    (hc : System.Conforms (script late).monitor (fun _ => True) start (fun _ => Final) s)
    (h : Chained late start s) {n : Nat} (hn : Answered s.log n) :
    CleanedUp s.log n ∨ late = true ∧ Moves (.ofObject W prog) s n := by
  obtain ⟨r, hr⟩ := hn
  obtain ⟨a, ha, rfl, w, hw, hlast⟩ := h.answer hr
  rcases hlast with ⟨key, n, rfl⟩ | ⟨key, n, rfl⟩
  · exact .inr ⟨hw.of.1, moves_run hc h ha hw (fun _ => not_final_settled) not_asks_settled⟩
  · exact .inl (answer_done hw).2

theorem Chained.returned
    (hc : System.Conforms (script late).monitor (fun _ => True) start (fun _ => Final) s)
    (h : Chained late start s) {t n : Nat} {c : String} {r : Except ε α} (hmade : Made s.log t n)
    (hr : s.threads[t]? = some ⟨c, .ret r⟩) : Answer s.log n r := by
  obtain ⟨a, ha, rfl, rfl⟩ := (h.made t n).mp hmade
  obtain ⟨w, hw⟩ := h.place a ha
  have hview : view late start s a.owner = some _ := System.view_thread hr
  have hfinal := hc.result hr
  rw [hw.view, Option.some.injEq] at hview
  rw [← hview] at hfinal
  rcases hfinal with rfl | ⟨key, n, rfl⟩
  · exact hw.of.elim
  · exact (answer_done hw).1

theorem Chained.cleared (h : Chained late start s) {key : String}
    (hall : ∀ n ∈ calls key s.log, CleanedUp s.log n) : OMap.get key s.mem.map = none := by
  rw [h.mirrors.map]
  cases htail : (tickets s.log).tail key with
  | none => rfl
  | some p =>
    obtain ⟨a, ha, hkey, rfl⟩ := h.inv.tail_some key p htail
    exact absurd (hall a.pid (h.mem_calls.mpr ⟨a, ha, hkey, rfl⟩)) (h.entry key _ htail)

theorem Chained.bounded
    (hc : System.Conforms (script late).monitor (fun _ => True) start (fun _ => Final) s)
    (h : Chained late start s) (t : Nat) : (s.log.filter fun e => e.tid = t).length ≤ 5 := by
  cases hw : view late start s t with
  | some w =>
    rw [h.steps t w hw]
    exact w.steps_le late
  | none =>
    have hnone : s.log.filter (fun e => e.tid = t) = [] := by
      refine List.filter_eq_nil_iff.mpr fun e he => ?_
      have hlt := hc.tids e he
      have hge := List.getElem?_eq_none_iff.mp (Option.map_eq_none_iff.mp hw)
      simp
      omega
    rw [hnone]
    exact Nat.zero_le 5

end

theorem serves (hW : Guards W) (hstart : Fresh late start)
    (hprog : ∀ c, Obeys (script late).monitor (fun _ => True) Final (start c) (prog c))
    (hr : ((System.ofObject W prog).lts anyCalls).Reachable s) :
    Serves (.ofObject W prog) late s := by
  obtain ⟨hc, h⟩ := chained_reachable hW hstart hprog hr
  refine ⟨?_, h.ordered, h.once, ?_, ?_, ?_, ?_, ?_, h.bounded hc⟩
  · exact fun key n n' hn hn' => h.exclusive hn hn'
  · exact fun n r hanswer => h.own hanswer
  · exact fun t n c r hmade => h.returned hc hmade
  · exact fun key n hn => h.served hW hc hn
  · intro key hall
    refine h.cleared fun n hn => ?_
    obtain ⟨hanswered, hlate⟩ := hall n hn
    have htidied : CleanedUp s.log n ∨ late = true ∧ Moves (.ofObject W prog) s n :=
      h.tidied hc hanswered
    rcases htidied with hclean | ⟨hlast, -⟩
    · exact hclean
    · exact hlate hlast
  · exact fun n hanswered => (h.tidied hc hanswered).imp_right And.right

end

/-! ## The two worlds -/

theorem mem_of_queuedSettled {settled : List Nat} {previous : List (Option Nat)} {n : Nat}
    (h : queuedSettled settled previous n = true) : n ∈ settled := by
  induction previous with
  | nil => cases h
  | cons p older ih =>
    rw [queuedSettled] at h
    split at h
    · exact of_decide_eq_true ((Bool.and_eq_true _ _).mp h).1
    · exact ih h

theorem guards_claimWorld : Guards (claimWorld : Environment Locks (outside ε α)) where
  effect _ _ _ := rfl
  sound m n p h q hq := by
    subst hq
    exact mem_of_queuedSettled h
  live m n p hall hready := by
    cases p with
    | none => rfl
    | some q => exact hall q (hready q rfl)

theorem guards_deviceWorld : Guards (deviceWorld : Environment Locks (outside ε α)) where
  effect _ _ _ := rfl
  sound m n p h q hq := by
    subst hq
    exact of_decide_eq_true h
  live m n p _ hready := by
    cases p with
    | none => rfl
    | some q => exact decide_eq_true (hready q rfl)

theorem fresh_claimStart : Fresh false (claimStart : String → Place ε α) := by
  intro lockKey
  unfold claimStart
  split
  · exact ⟨trivial, rfl⟩
  · exact ⟨trivial, rfl⟩

theorem fresh_idle : Fresh true (Place.idle : String → Place ε α) := fun _ => ⟨trivial, rfl⟩

/-- **Both mutexes**, for any number of calls on any keys in any order of their
steps. The entry of a key is gone when all its calls have their outcomes and,
with `#withLock`, have looked at it; for that they wait for nothing. -/
theorem serves_both (ε α : Type) :
    (∀ s, ((claimLocks ε α).lts anyCalls).Reachable s → Serves (claimLocks ε α) false s) ∧
    ∀ s, ((deviceLocks ε α).lts anyCalls).Reachable s → Serves (deviceLocks ε α) true s := by
  constructor
  · exact fun s hr => serves guards_claimWorld fresh_claimStart (@obeys_withLock ε α) hr
  · exact fun s hr => serves guards_deviceWorld fresh_idle obeys_deviceLock hr

namespace Example

def judge : System.Judge (anyCalls : LockRules Unit Unit) :=
  ⟨fun _ _ => true, fun _ _ => true, fun _ _ _ => trivial, fun _ _ _ => trivial⟩

/-- The function of a call ends well. -/
def well : ObjFate Unit (outside Unit Unit) where
  input := ()
  answer
    | .previous .. => some ()
    | .outcome _ => some (.ok ())
    | .unlocked => some (.ok ())

/-- One call, up to where its caller has the outcome. -/
def answeredOnce : List (Label (ObjFate Unit (outside Unit Unit)) String) :=
  .call "key" :: List.replicate 4 (.run 0 well)

end Example

open Example in
/-- When every call of a key has its outcome, the entry may still be there. -/
theorem entry_left :
    ∃ s, ((deviceLocks Unit Unit).lts anyCalls).Reachable s ∧ calls "key" s.log = [0] ∧
      (∀ n ∈ calls "key" s.log, Answered s.log n) ∧ OMap.get "key" s.mem.map = some 0 := by
  obtain ⟨s, hr, hs⟩ := System.reachable_of_exec judge answeredOnce (S := deviceLocks Unit Unit)
    (P := fun s => calls "key" s.log = [0] && those Seen.isAnswer s.log = [0] &&
    OMap.get "key" s.mem.map = some 0) rfl
    (by decide +kernel)
  simp only [Bool.and_eq_true, decide_eq_true_eq] at hs
  obtain ⟨⟨hcalls, hanswers⟩, hentry⟩ := hs
  refine ⟨s, hr, hcalls, fun n hn => ?_, hentry⟩
  rw [hcalls, List.mem_singleton] at hn
  rw [← mem_settled, settled_eq, hanswers, hn]
  exact List.mem_cons_self

end RezSdk.L4.LockChains
