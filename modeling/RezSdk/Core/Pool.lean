import RezSdk.Core.LTS
import RezSdk.Core.Monitor

/-!
# Pools of concurrent calls

A `System` runs any number of calls over one shared memory: `call c` starts a
new thread with program `prog c`, `run t f` lets thread `t` perform the
operation it is waiting at. The memory answers (`act`); everything it may
decide (success or failure, the time, a random seed) is the label's `fate`.
Threads only meet at their operations, which is the interleaving of
asynchronous functions at their await points. The pool keeps the log of all
events, newest first.

A `Discipline` restricts the runs: the initial memories, which calls may
start, and which events may happen (`ok`, judged in the state before the
event).

* `Pool.step_cases`: what one step can do.
* `conforms_reachable`: if every program obeys a monitor from its starting
  state, then in every reachable pool every thread's rest obeys it from the
  state its own history has led to.
* `Conforms.may`: so every event was allowed by its thread's monitor.
* `view`: the monitor state of every call, and how a step changes it.
* `conforms_within`: the same for a law that is only known of a whole log.
-/
namespace RezSdk

structure Event (F : Iface) (Fate : Type) where
  tid : Nat
  op : F.Op
  ans : F.Ans op
  fate : Fate

def Event.exch {F : Iface} {Fate : Type} (e : Event F Fate) : Proc.Exch F := ⟨e.op, e.ans⟩

structure Thread (F : Iface) (C R : Type) where
  call : C
  proc : Proc F R

structure Pool (F : Iface) (Mem Fate C R : Type) where
  mem : Mem
  threads : List (Thread F C R)
  log : List (Event F Fate)

inductive Label (Fate C : Type)
  | call (c : C)
  | run (t : Nat) (f : Fate)

structure System (F : Iface) (Mem Fate C R : Type) where
  act : Nat → Mem → (o : F.Op) → Fate → Option (F.Ans o × Mem)
  prog : C → Proc F R

structure Discipline (F : Iface) (Mem Fate C R : Type) where
  init : Mem → Prop
  may : Pool F Mem Fate C R → C → Prop
  ok : Pool F Mem Fate C R → Event F Fate → Prop

section

variable {F : Iface} {Mem Fate C R : Type}

namespace Pool

def spawn (S : System F Mem Fate C R) (s : Pool F Mem Fate C R) (c : C) : Pool F Mem Fate C R :=
  { s with threads := s.threads ++ [⟨c, S.prog c⟩] }

/-- The event thread `t` fires under fate `f`, and the pool it leads to. -/
def fire (S : System F Mem Fate C R) (s : Pool F Mem Fate C R) (t : Nat) (f : Fate) :
    Option (Event F Fate × Pool F Mem Fate C R) :=
  match s.threads[t]? with
  | some ⟨c, .ask o k⟩ =>
    (S.act t s.mem o f).map fun x =>
      (⟨t, o, x.1, f⟩, ⟨x.2, s.threads.set t ⟨c, k x.1⟩, ⟨t, o, x.1, f⟩ :: s.log⟩)
  | _ => none

/-- `e` happens in `s` and leads to `s'`. -/
structure Fires (S : System F Mem Fate C R) (s : Pool F Mem Fate C R) (e : Event F Fate)
    (c : C) (k : F.Ans e.op → Proc F R) (s' : Pool F Mem Fate C R) : Prop where
  thread : s.threads[e.tid]? = some ⟨c, .ask e.op k⟩
  act : S.act e.tid s.mem e.op e.fate = some (e.ans, s'.mem)
  threads : s'.threads = s.threads.set e.tid ⟨c, k e.ans⟩
  log : s'.log = e :: s.log

theorem fire_some {S : System F Mem Fate C R} {s s' : Pool F Mem Fate C R} {t : Nat} {f : Fate}
    {e : Event F Fate} (h : s.fire S t f = some (e, s')) :
    ∃ c k, Fires S s e c k s' := by
  unfold fire at h
  split at h
  · rename_i c o k ht
    obtain ⟨⟨r, m⟩, ha, he⟩ := Option.map_eq_some_iff.mp h
    simp only [Prod.mk.injEq] at he
    obtain ⟨rfl, rfl⟩ := he
    exact ⟨c, k, ht, ha, rfl, rfl⟩
  · cases h

/-- An event changes no thread's call. -/
theorem Fires.call {S : System F Mem Fate C R} {s s' : Pool F Mem Fate C R} {e : Event F Fate}
    {c : C} {k : F.Ans e.op → Proc F R} (hf : Fires S s e c k s') {t : Nat} {th : Thread F C R}
    (h : s.threads[t]? = some th) : ∃ p, s'.threads[t]? = some ⟨th.call, p⟩ := by
  rw [hf.threads]
  by_cases ht : e.tid = t
  · subst ht
    cases hf.thread.symm.trans h
    obtain ⟨hlt, -⟩ := List.getElem?_eq_some_iff.mp hf.thread
    exact ⟨_, List.getElem?_set_self hlt⟩
  · exact ⟨th.proc, by rw [List.getElem?_set_ne ht, h]⟩

/-- No event starts a call. -/
theorem Fires.called {S : System F Mem Fate C R} {s s' : Pool F Mem Fate C R} {e : Event F Fate}
    {c : C} {k : F.Ans e.op → Proc F R} (hf : Fires S s e c k s') {t : Nat} {th : Thread F C R}
    (h : s'.threads[t]? = some th) : ∃ p, s.threads[t]? = some ⟨th.call, p⟩ := by
  rw [hf.threads] at h
  by_cases ht : e.tid = t
  · subst ht
    obtain ⟨hlt, -⟩ := List.getElem?_eq_some_iff.mp hf.thread
    rw [List.getElem?_set_self hlt, Option.some.injEq] at h
    subst h
    exact ⟨_, hf.thread⟩
  · rw [List.getElem?_set_ne ht] at h
    exact ⟨th.proc, h⟩

/-- A new call changes no other thread. -/
theorem spawn_lt {S : System F Mem Fate C R} {s : Pool F Mem Fate C R} {c : C} {t : Nat}
    (h : t < s.threads.length) : (s.spawn S c).threads[t]? = s.threads[t]? :=
  List.getElem?_append_left h

theorem spawn_thread {S : System F Mem Fate C R} {s : Pool F Mem Fate C R} {c : C} {t : Nat}
    {th : Thread F C R} (h : s.threads[t]? = some th) : (s.spawn S c).threads[t]? = some th := by
  obtain ⟨hlt, -⟩ := List.getElem?_eq_some_iff.mp h
  rw [spawn_lt hlt, h]

/-- The state of monitor `M` that thread `t`'s own events lead to from `a`. -/
def mon {A : Type} (M : Monitor F A) (a : A) (t : Nat) : List (Event F Fate) → A
  | [] => a
  | e :: log => if e.tid = t then M.next (mon M a t log) e.exch else mon M a t log

theorem mon_self {A : Type} {M : Monitor F A} {a : A} {e : Event F Fate}
    {log : List (Event F Fate)} : mon M a e.tid (e :: log) = M.next (mon M a e.tid log) e.exch := by
  simp only [mon, if_true]

theorem mon_other {A : Type} {M : Monitor F A} {a : A} {t : Nat} {e : Event F Fate}
    {log : List (Event F Fate)} (h : e.tid ≠ t) : mon M a t (e :: log) = mon M a t log := by
  simp only [mon, h, if_false]

theorem mon_start {A : Type} {M : Monitor F A} {a : A} {t : Nat} {log : List (Event F Fate)}
    (h : ∀ e ∈ log, e.tid ≠ t) : mon M a t log = a := by
  induction log with
  | nil => rfl
  | cons e log ih =>
    rw [mon_other (h e (.head _))]
    exact ih fun e' he' => h e' (.tail _ he')

/-- A condition on the state that only some exchanges can bring about. -/
theorem mon_event {A : Type} {M : Monitor F A} {a : A} {P : A → Prop} {R : Proc.Exch F → Prop}
    (hnext : ∀ b x, P (M.next b x) → P b ∨ R x) (ha : ¬ P a) {t : Nat} :
    ∀ {log : List (Event F Fate)}, P (mon M a t log) → ∃ e ∈ log, e.tid = t ∧ R e.exch
  | [], h => absurd h ha
  | e :: log, h => by
    have htail : P (mon M a t log) → ∃ e' ∈ e :: log, e'.tid = t ∧ R e'.exch := by
      intro h
      obtain ⟨e', he', hR⟩ := mon_event hnext ha h
      exact ⟨e', .tail _ he', hR⟩
    by_cases ht : e.tid = t
    · subst ht
      rw [mon_self] at h
      rcases hnext _ _ h with h | hR
      · exact htail h
      · exact ⟨e, .head _, rfl, hR⟩
    · rw [mon_other ht] at h
      exact htail h

/-- A map between monitors carries over to the states of a log. -/
theorem mon_map {A B : Type} {M : Monitor F A} {N : Monitor F B} (g : A → B)
    (hg : ∀ a e, g (M.next a e) = N.next (g a) e) (a : A) (t : Nat) (log : List (Event F Fate)) :
    g (mon M a t log) = mon N (g a) t log := by
  induction log with
  | nil => rfl
  | cons e log ih =>
    by_cases h : e.tid = t
    · subst h; rw [mon_self, mon_self, hg, ih]
    · rw [mon_other h, mon_other h, ih]

end Pool

namespace System

open Pool

variable (S : System F Mem Fate C R) (D : Discipline F Mem Fate C R)

/-- The pool's transition system under a discipline. -/
def lts : LTS (Pool F Mem Fate C R) (Label Fate C) where
  init s := D.init s.mem ∧ s.threads = [] ∧ s.log = []
  step s l s' :=
    match l with
    | .call c => D.may s c ∧ s' = s.spawn S c
    | .run t f => ∃ e, s.fire S t f = some (e, s') ∧ D.ok s e

variable {S D}

theorem step_cases {s s' : Pool F Mem Fate C R} {l : Label Fate C} (h : (S.lts D).step s l s') :
    (∃ c, D.may s c ∧ s' = s.spawn S c) ∨ (∃ e c k, Fires S s e c k s' ∧ D.ok s e) := by
  cases l with
  | call c => exact .inl ⟨c, h⟩
  | run t f =>
    obtain ⟨e, hf, hok⟩ := h
    obtain ⟨c, k, hfire⟩ := fire_some hf
    exact .inr ⟨e, c, k, hfire, hok⟩

/-- What new calls and events keep, every step keeps. -/
theorem keeps_of {J : Pool F Mem Fate C R → Prop} (spawn : ∀ s c, J s → D.may s c → J (s.spawn S c))
    (fires : ∀ s e c k s', J s → Fires S s e c k s' → D.ok s e → J s') (s : Pool F Mem Fate C R)
    (l : Label Fate C) (s' : Pool F Mem Fate C R) (hj : J s) (hs : (S.lts D).step s l s') :
    J s' := by
  obtain ⟨c, hc, rfl⟩ | ⟨e, c, k, hf, hok⟩ := step_cases hs
  · exact spawn s c hj hc
  · exact fires s e c k s' hj hf hok

/-- An invariant of the pool from its three obligations. -/
theorem inductive_of {J : Pool F Mem Fate C R → Prop}
    (init : ∀ m, D.init m → J ⟨m, [], []⟩)
    (spawn : ∀ s c, J s → D.may s c → J (s.spawn S c))
    (fires : ∀ s e c k s', J s → Fires S s e c k s' → D.ok s e → J s') :
    (S.lts D).Inductive J where
  init := by
    rintro ⟨m, ts, log⟩ ⟨hm, rfl, rfl⟩
    exact init m hm
  step := keeps_of spawn fires

/-! ## Monitored threads -/

/-- Every thread's rest obeys the monitor from where its history led. -/
structure Conforms {A : Type} (M : Monitor F A) (L : Proc.Exch F → Prop) (start : C → A)
    (Q : C → A → R → Prop) (s : Pool F Mem Fate C R) : Prop where
  tids : ∀ e ∈ s.log, e.tid < s.threads.length
  obeys : ∀ t th, s.threads[t]? = some th →
    Obeys M L (Q th.call) (mon M (start th.call) t s.log) th.proc

variable {A : Type} {M : Monitor F A} {L : Proc.Exch F → Prop} {start : C → A}
  {Q : C → A → R → Prop}

theorem Conforms.may {s s' : Pool F Mem Fate C R} (h : Conforms M L start Q s)
    {e : Event F Fate} {c : C} {k : F.Ans e.op → Proc F R} (hf : Fires S s e c k s') :
    M.may (mon M (start c) e.tid s.log) e.op :=
  (h.obeys _ _ hf.thread).1

theorem conforms_init (m : Mem) :
    Conforms M L start Q (⟨m, [], []⟩ : Pool F Mem Fate C R) :=
  ⟨fun _ h => absurd h (List.not_mem_nil), fun _ _ h => by simp at h⟩

theorem conforms_spawn {s : Pool F Mem Fate C R} (h : Conforms M L start Q s) {c : C}
    (hc : Obeys M L (Q c) (start c) (S.prog c)) : Conforms M L start Q (s.spawn S c) := by
  refine ⟨fun e he => ?_, fun t th ht => ?_⟩
  · have := h.tids e he
    simp only [spawn, List.length_append]; omega
  · simp only [spawn] at ht ⊢
    rcases Nat.lt_trichotomy t s.threads.length with hlt | heq | hgt
    · rw [List.getElem?_append_left hlt] at ht
      exact h.obeys t th ht
    · subst heq
      rw [List.getElem?_append_right (Nat.le_refl _)] at ht
      simp only [Nat.sub_self, List.getElem?_cons_zero, Option.some.injEq] at ht
      subst ht
      -- the new thread's number is above every thread number in the log
      rw [mon_start fun e he => Nat.ne_of_lt (h.tids e he)]
      exact hc
    · rw [List.getElem?_eq_none (by simp only [List.length_append, List.length_singleton]; omega)]
        at ht
      cases ht

theorem conforms_fires {s s' : Pool F Mem Fate C R} (h : Conforms M L start Q s)
    {e : Event F Fate} {c : C} {k : F.Ans e.op → Proc F R} (hf : Fires S s e c k s')
    (hl : L e.exch) : Conforms M L start Q s' := by
  have hlt : e.tid < s.threads.length := (List.getElem?_eq_some_iff.mp hf.thread).1
  refine ⟨fun e' he' => ?_, fun t th ht => ?_⟩
  · rw [hf.log] at he'
    rw [hf.threads, List.length_set]
    rcases List.mem_cons.mp he' with rfl | he'
    · exact hlt
    · exact h.tids e' he'
  · rw [hf.threads] at ht
    rw [hf.log]
    by_cases heq : e.tid = t
    · subst heq
      rw [List.getElem?_set_self hlt, Option.some.injEq] at ht
      subst ht
      rw [mon_self]
      exact (h.obeys _ _ hf.thread).2 e.ans hl
    · rw [List.getElem?_set_ne heq] at ht
      rw [mon_other heq]
      exact h.obeys t th ht

theorem conforms_inductive (hprog : ∀ s c, D.may s c → Obeys M L (Q c) (start c) (S.prog c))
    (hl : ∀ s e c k s', Fires S s e c k s' → D.ok s e → L e.exch) :
    (S.lts D).Inductive (Conforms M L start Q) :=
  inductive_of (fun m _ => conforms_init m)
    (fun s c h hc => conforms_spawn h (hprog s c hc))
    (fun s e c k s' h hf hok => conforms_fires h hf (hl s e c k s' hf hok))

theorem conforms_reachable (hprog : ∀ s c, D.may s c → Obeys M L (Q c) (start c) (S.prog c))
    (hl : ∀ s e c k s', Fires S s e c k s' → D.ok s e → L e.exch) {s : Pool F Mem Fate C R}
    (hr : (S.lts D).Reachable s) : Conforms M L start Q s :=
  (conforms_inductive hprog hl).reachable s hr

/-- A finished thread's result satisfies its postcondition. -/
theorem Conforms.result {s : Pool F Mem Fate C R} (h : Conforms M L start Q s) {t : Nat} {c : C}
    {x : R} (ht : s.threads[t]? = some ⟨c, .ret x⟩) : Q c (mon M (start c) t s.log) x :=
  h.obeys t _ ht

/-! ## Where every call is -/

/-- The monitor state call `t` has reached. -/
def view (M : Monitor F A) (start : C → A) (s : Pool F Mem Fate C R) (t : Nat) : Option A :=
  s.threads[t]?.map fun th => mon M (start th.call) t s.log

theorem view_init (m : Mem) (t : Nat) :
    view M start (⟨m, [], []⟩ : Pool F Mem Fate C R) t = none := by
  unfold view
  rw [List.getElem?_nil]
  rfl

theorem view_thread {s : Pool F Mem Fate C R} {t : Nat} {th : Thread F C R}
    (ht : s.threads[t]? = some th) : view M start s t = some (mon M (start th.call) t s.log) := by
  unfold view
  rw [ht]
  rfl

theorem Conforms.view_spawn {s : Pool F Mem Fate C R} (h : Conforms M L start Q s) (c : C)
    (t : Nat) :
    view M start (s.spawn S c) t =
      if t = s.threads.length then some (start c) else view M start s t := by
  unfold view Pool.spawn
  dsimp only
  split
  · rename_i ht
    subst ht
    rw [List.getElem?_append_right (Nat.le_refl _), Nat.sub_self, List.getElem?_cons_zero,
      Option.map_some,
      mon_start fun e he => Nat.ne_of_lt (h.tids e he)]
  · rename_i ht
    rcases Nat.lt_or_ge t s.threads.length with hlt | hge
    · rw [List.getElem?_append_left hlt]
    · rw [List.getElem?_eq_none (by simp only [List.length_append, List.length_singleton]; omega),
        List.getElem?_eq_none hge]

/-- A new call stands at its start, and every other call where it stood. -/
theorem Conforms.view_spawned {s : Pool F Mem Fate C R} (h : Conforms M L start Q s) {c : C}
    {t : Nat} {a : A} (ha : view M start (s.spawn S c) t = some a) :
    t = s.threads.length ∧ a = start c ∨ view M start s t = some a := by
  rw [h.view_spawn] at ha
  split at ha
  · exact .inl ⟨‹_›, (Option.some.inj ha).symm⟩
  · exact .inr ha

theorem Conforms.view_kept {s : Pool F Mem Fate C R} (h : Conforms M L start Q s) {c : C} {t : Nat}
    {a : A} (ha : view M start s t = some a) : view M start (s.spawn S c) t = some a := by
  rw [h.view_spawn, if_neg]
  · exact ha
  · rintro rfl
    unfold view at ha
    rw [List.getElem?_eq_none (Nat.le_refl _)] at ha
    cases ha

section

variable {s s' : Pool F Mem Fate C R} {e : Event F Fate} {c : C} {k : F.Ans e.op → Proc F R}

theorem view_fired (hf : Fires S s e c k s') :
    view M start s e.tid = some (mon M (start c) e.tid s.log) :=
  view_thread hf.thread

theorem view_self (hf : Fires S s e c k s') :
    view M start s' e.tid = some (M.next (mon M (start c) e.tid s.log) e.exch) := by
  obtain ⟨hlt, -⟩ := List.getElem?_eq_some_iff.mp hf.thread
  unfold view
  rw [hf.threads, List.getElem?_set_self hlt, hf.log]
  dsimp only [Option.map_some]
  rw [mon_self]

theorem view_other (hf : Fires S s e c k s') {t : Nat} (ht : e.tid ≠ t) :
    view M start s' t = view M start s t := by
  unfold view
  rw [hf.threads, List.getElem?_set_ne ht, hf.log]
  cases s.threads[t]? with
  | none => rfl
  | some th =>
    dsimp only [Option.map_some]
    rw [mon_other ht]

/-- Only the call that acts moves. -/
theorem view_cases (hf : Fires S s e c k s') {a : A} (ha : view M start s' e.tid = some a)
    {t : Nat} {b : A} (hb : view M start s' t = some b) :
    t = e.tid ∧ b = a ∨ e.tid ≠ t ∧ view M start s t = some b := by
  by_cases ht : e.tid = t
  · subst ht
    exact .inl ⟨rfl, Option.some.inj (hb.symm.trans ha)⟩
  · exact .inr ⟨ht, (view_other hf ht).symm.trans hb⟩

theorem view_stays (hf : Fires S s e c k s') {a : A} (ha : view M start s e.tid = some a)
    {t : Nat} {b : A} (hb : view M start s t = some b) :
    t = e.tid ∧ b = a ∨ e.tid ≠ t ∧ view M start s' t = some b := by
  by_cases ht : e.tid = t
  · subst ht
    exact .inl ⟨rfl, Option.some.inj (hb.symm.trans ha)⟩
  · exact .inr ⟨ht, (view_other hf ht).trans hb⟩

end

/-! ## Laws that are known afterwards -/

/-- Every event of the log was allowed by its thread's monitor. -/
def Allowed (M : Monitor F A) (start : C → A) (s : Pool F Mem Fate C R) : Prop :=
  ∀ newer e older th, s.log = newer ++ e :: older → s.threads[e.tid]? = some th →
    M.may (mon M (start th.call) e.tid older) e.op

theorem allowed_spawn {s : Pool F Mem Fate C R} (h : Allowed M start s)
    (ht : ∀ e ∈ s.log, e.tid < s.threads.length) (c : C) : Allowed M start (s.spawn S c) := by
  intro newer e older th hlog hth
  have hmem : e ∈ s.log := by
    rw [show s.log = newer ++ e :: older from hlog]
    simp
  rw [spawn_lt (ht e hmem)] at hth
  exact h newer e older th hlog hth

theorem allowed_fires {s s' : Pool F Mem Fate C R} (h : Allowed M start s)
    (hc : Conforms M L start Q s) {e : Event F Fate} {c : C} {k : F.Ans e.op → Proc F R}
    (hf : Fires S s e c k s') : Allowed M start s' := by
  intro newer e' older th hlog hth
  obtain ⟨p, hp⟩ := hf.called hth
  rw [hf.log] at hlog
  cases newer with
  | nil =>
    rw [List.nil_append, List.cons.injEq] at hlog
    obtain ⟨rfl, rfl⟩ := hlog
    rw [hf.thread, Option.some.injEq, Thread.mk.injEq] at hp
    rw [← hp.1]
    exact hc.may hf
  | cons e₁ newer =>
    rw [List.cons_append, List.cons.injEq] at hlog
    exact h newer e' older ⟨th.call, p⟩ hlog.2 hp

/-- What every event keeps, every event of a log has kept. -/
theorem log_lawful (hl : ∀ s e c k s', Fires S s e c k s' → D.ok s e → L e.exch) :
    (S.lts D).Inductive fun s => ∀ e ∈ s.log, L e.exch := by
  refine inductive_of (fun m _ e he => absurd he List.not_mem_nil) (fun s c h _ => h) ?_
  intro s e c k s' ih hf hok e' he'
  rw [hf.log] at he'
  rcases List.mem_cons.mp he' with rfl | he'
  · exact hl s e' c k s' hf hok
  · exact ih e' he'

/-- A law that the whole log keeps may be assumed from the start. -/
theorem conforms_within (hprog : ∀ s c, D.may s c → Obeys M L (Q c) (start c) (S.prog c)) :
    (S.lts D).Inductive fun s =>
      (∀ e ∈ s.log, L e.exch) → Conforms M L start Q s ∧ Allowed M start s := by
  refine inductive_of (fun m _ _ => ⟨conforms_init m, fun newer e older th hlog => ?_⟩) ?_ ?_
  · simp at hlog
  · intro s c ih hc hl
    obtain ⟨hcon, hall⟩ := ih hl
    exact ⟨conforms_spawn hcon (hprog s c hc), allowed_spawn hall hcon.tids c⟩
  · intro s e c k s' ih hf _ hl
    rw [hf.log] at hl
    obtain ⟨hcon, hall⟩ := ih fun e' he' => hl e' (.tail _ he')
    exact ⟨conforms_fires hcon hf (hl e (.head _)), allowed_fires hall hcon hf⟩

/-! ## One call on its own -/

/-- Run `p` as thread `t` with nothing in between, one fate per operation:
its exchanges, its result and the memory it leaves. -/
def solo {α : Type} (S : System F Mem Fate C R) (t : Nat) :
    Mem → Proc F α → List Fate → Option (List (Proc.Exch F) × α × Mem)
  | m, .ret x, [] => some ([], x, m)
  | m, .ask o k, f :: fs =>
    (S.act t m o f).bind fun y => (solo S t y.2 (k y.1) fs).map fun z => (⟨o, y.1⟩ :: z.1, z.2)
  | _, _, _ => none

theorem solo_trace {α : Type} {t : Nat} {p : Proc F α} :
    ∀ {m m' : Mem} {fs : List Fate} {τ : List (Proc.Exch F)} {x : α},
      S.solo t m p fs = some (τ, x, m') → Proc.Trace p τ x := by
  induction p with
  | ret y =>
    intro m m' fs τ x h
    cases fs with
    | nil => cases h; exact .ret y
    | cons f fs => cases h
  | ask o k ih =>
    intro m m' fs τ x h
    cases fs with
    | nil => cases h
    | cons f fs =>
      obtain ⟨y, -, h⟩ := Option.bind_eq_some_iff.mp h
      obtain ⟨⟨τ', x', m₁⟩, hz, he⟩ := Option.map_eq_some_iff.mp h
      cases he
      exact .ask y.1 (ih y.1 hz)

/-- A run that was evaluated to a resolved result. -/
theorem solo_ok {ε α : Type} {t : Nat} {m : Mem} {p : Js F ε α} {fs : List Fate}
    (h : (S.solo t m p fs).any (fun x => x.2.1.toBool) = true) :
    ∃ τ v m', S.solo t m p fs = some (τ, .ok v, m') := by
  obtain ⟨⟨τ, x, m'⟩, hs, hx⟩ := (Option.any_eq_true _ _).mp h
  cases x with
  | error e => cases hx
  | ok v => exact ⟨τ, v, m', hs⟩

/-- The fates of a run of `p` alone that are chosen by the operation and its
number. -/
def fates {α : Type} (S : System F Mem Fate C R) (choose : Nat → F.Op → Fate) (t : Nat) :
    Nat → Mem → Proc F α → List Fate
  | _, _, .ret _ => []
  | n, m, .ask o k =>
    choose n o :: match S.act t m o (choose n o) with
      | some y => fates S choose t (n + 1) y.2 (k y.1)
      | none => []

theorem mem_fates {α : Type} {choose : Nat → F.Op → Fate} {t : Nat} {P : Fate → Prop}
    (h : ∀ n o, P (choose n o)) :
    ∀ {p : Proc F α} {n : Nat} {m : Mem}, ∀ f ∈ S.fates choose t n m p, P f := by
  intro p
  induction p with
  | ret x => exact fun f hf => absurd hf List.not_mem_nil
  | ask o k ih =>
    intro n m f hf
    rw [fates] at hf
    rcases List.mem_cons.mp hf with rfl | hf
    · exact h n o
    · split at hf
      · exact ih _ f hf
      · exact absurd hf List.not_mem_nil

/-! ## Evaluated runs -/

/-- A discipline's two conditions, decided. -/
structure Judge (D : Discipline F Mem Fate C R) where
  may : Pool F Mem Fate C R → C → Bool
  ok : Pool F Mem Fate C R → Event F Fate → Bool
  may_iff : ∀ s c, may s c = true → D.may s c
  ok_iff : ∀ s e, ok s e = true → D.ok s e

/-- The pool's step function, keeping only the steps the judge allows. -/
def judged (S : System F Mem Fate C R) (J : Judge D) (s : Pool F Mem Fate C R) :
    Label Fate C → Option (Pool F Mem Fate C R)
  | .call c => if J.may s c then some (s.spawn S c) else none
  | .run t f => (s.fire S t f).bind fun x => if J.ok s x.1 then some x.2 else none

theorem step_of_judged (J : Judge D) {s s' : Pool F Mem Fate C R} {l : Label Fate C}
    (h : S.judged J s l = some s') : (S.lts D).step s l s' := by
  cases l with
  | call c =>
    simp only [judged] at h
    split at h
    · cases h; exact ⟨J.may_iff s c ‹_›, rfl⟩
    · cases h
  | run t f =>
    obtain ⟨⟨e, s₁⟩, hf, h⟩ := Option.bind_eq_some_iff.mp h
    split at h
    · cases h; exact ⟨e, hf, J.ok_iff s e ‹_›⟩
    · cases h

/-- A run that was evaluated to a state with property `P`. -/
theorem run_of_exec (J : Judge D) (s₀ : Pool F Mem Fate C R) (ls : List (Label Fate C))
    {P : Pool F Mem Fate C R → Bool} (he : (LTS.exec (S.judged J) s₀ ls).any P = true) :
    ∃ s, (S.lts D).Run s₀ ls s ∧ P s = true := by
  obtain ⟨s, hs, hP⟩ := (Option.any_eq_true _ _).mp he
  exact ⟨s, LTS.run_of_exec (fun _ _ _ h => step_of_judged J h) hs, hP⟩

theorem reachable_of_exec (J : Judge D) (ls : List (Label Fate C)) {m : Mem}
    {P : Pool F Mem Fate C R → Bool} (hi : D.init m)
    (he : (LTS.exec (S.judged J) ⟨m, [], []⟩ ls).any P = true) :
    ∃ s, (S.lts D).Reachable s ∧ P s = true := by
  obtain ⟨s, hrun, hP⟩ := run_of_exec J _ _ he
  exact ⟨s, ⟨_, ls, ⟨hi, rfl, rfl⟩, hrun⟩, hP⟩

/-! ## Scripted runs -/

/-- Let thread `t` go on for `n` operations under the default fates, which may
depend on how many events there were. -/
def goOn (S : System F Mem Fate C R) (J : Judge D) (choose : Nat → F.Op → Fate) (t : Nat) :
    Nat → Pool F Mem Fate C R → Option (Pool F Mem Fate C R)
  | 0, s => some s
  | n + 1, s =>
    match s.threads[t]? with
    | some ⟨_, .ask o _⟩ =>
      (S.judged J s (.run t (choose s.log.length o))).bind (goOn S J choose t n)
    | _ => none

theorem run_of_goOn (J : Judge D) {choose : Nat → F.Op → Fate} {t : Nat} :
    ∀ {n : Nat} {s s' : Pool F Mem Fate C R}, S.goOn J choose t n s = some s' →
      ∃ ls, (S.lts D).Run s ls s'
  | 0, s, s', h => by cases h; exact ⟨[], .nil _⟩
  | n + 1, s, s', h => by
    unfold goOn at h
    split at h
    · obtain ⟨s₁, h₁, h⟩ := Option.bind_eq_some_iff.mp h
      obtain ⟨ls, hrun⟩ := run_of_goOn J h
      exact ⟨_, .cons (step_of_judged J h₁) hrun⟩
    · cases h

/-- One move of a script. -/
inductive Move (Fate C : Type)
  | call (c : C)
  | run (t : Nat) (f : Fate)
  | go (t n : Nat)

def play (S : System F Mem Fate C R) (J : Judge D) (choose : Nat → F.Op → Fate) :
    Pool F Mem Fate C R → List (Move Fate C) → Option (Pool F Mem Fate C R)
  | s, [] => some s
  | s, .call c :: ms => (S.judged J s (.call c)).bind fun s' => play S J choose s' ms
  | s, .run t f :: ms => (S.judged J s (.run t f)).bind fun s' => play S J choose s' ms
  | s, .go t n :: ms => (S.goOn J choose t n s).bind fun s' => play S J choose s' ms

theorem run_of_play (J : Judge D) {choose : Nat → F.Op → Fate} {ms : List (Move Fate C)} :
    ∀ {s s' : Pool F Mem Fate C R}, S.play J choose s ms = some s' →
      ∃ ls, (S.lts D).Run s ls s' := by
  induction ms with
  | nil =>
    intro s s' h
    cases h
    exact ⟨[], .nil _⟩
  | cons m ms ih =>
    intro s s' h
    cases m with
    | call c =>
      obtain ⟨s₁, h₁, h⟩ := Option.bind_eq_some_iff.mp h
      obtain ⟨ls, hrun⟩ := ih h
      exact ⟨_, .cons (step_of_judged J h₁) hrun⟩
    | run t f =>
      obtain ⟨s₁, h₁, h⟩ := Option.bind_eq_some_iff.mp h
      obtain ⟨ls, hrun⟩ := ih h
      exact ⟨_, .cons (step_of_judged J h₁) hrun⟩
    | go t n =>
      obtain ⟨s₁, h₁, h⟩ := Option.bind_eq_some_iff.mp h
      obtain ⟨ls₁, hrun₁⟩ := run_of_goOn J h₁
      obtain ⟨ls, hrun⟩ := ih h
      exact ⟨_, hrun₁.append hrun⟩

/-- A script that was evaluated to a state with property `P`. -/
theorem reachable_of_play (J : Judge D) (choose : Nat → F.Op → Fate) (ms : List (Move Fate C))
    {m : Mem} {P : Pool F Mem Fate C R → Bool} (hi : D.init m)
    (he : (S.play J choose ⟨m, [], []⟩ ms).any P = true) :
    ∃ s, (S.lts D).Reachable s ∧ P s = true := by
  obtain ⟨s, hs, hP⟩ := (Option.any_eq_true _ _).mp he
  obtain ⟨ls, hrun⟩ := run_of_play J hs
  exact ⟨s, ⟨_, ls, ⟨hi, rfl, rfl⟩, hrun⟩, hP⟩

end System
end
end RezSdk
