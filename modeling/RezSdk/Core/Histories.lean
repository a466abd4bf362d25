import RezSdk.Core.Pool

/-!
# Monitors that remember everything

The state of a history monitor is what its program has asked and heard, newest
first, so "this may only be asked after that" is a condition on a list.

* `obeys_grows`: a program of operations that are always allowed makes the
  history longer by such operations.
* `mon_history`: the monitor state of a call is its own part of the log.
* `recalls_inductive`: every event was allowed after its call's own history.
* `licensed_inductive`: what allowed a call to start still holds.
-/
namespace RezSdk

variable {F : Iface} {α ε Fate : Type}

/-- Where nothing with `q` comes after another, there is only one. -/
theorem eq_of_fresh {q : α → Prop} {l : List α}
    (h : ∀ newer x older, l = newer ++ x :: older → q x → ∀ y ∈ older, ¬ q y) {x y : α} (hx : x ∈ l)
    (hy : y ∈ l) (hqx : q x) (hqy : q y) : x = y := by
  obtain ⟨newer, older, hl⟩ := List.append_of_mem hx
  rw [hl] at hy
  rcases List.mem_append.mp hy with hmem | hmem
  · obtain ⟨newer', mid, hsplit⟩ := List.append_of_mem hmem
    refine absurd hqx (h newer' y (mid ++ x :: older) ?_ hqy x (by simp))
    rw [hl, hsplit, List.append_assoc, List.cons_append]
  · rcases List.mem_cons.mp hmem with rfl | hmem
    · rfl
    · exact absurd hqy (h newer x older hl hqx y hmem)

theorem filter_of_fresh {q : α → Bool} {l : List α}
    (h : ∀ newer x older, l = newer ++ x :: older → q x = true → ∀ y ∈ older, q y = false) {x : α}
    (hx : x ∈ l) (hqx : q x = true) : l.filter q = [x] := by
  induction l with
  | nil => cases hx
  | cons y l ih =>
    rcases List.mem_cons.mp hx with rfl | hx
    · have hrest : l.filter q = [] := List.filter_eq_nil_iff.mpr fun z hz hqz => by
        rw [h [] x l rfl hqx z hz] at hqz
        cases hqz
      rw [List.filter_cons_of_pos hqx, hrest]
    · have hy : ¬q y = true := fun hqy => by
        rw [h [] y l rfl hqy x hx] at hqx
        cases hqx
      rw [List.filter_cons_of_neg hy]
      exact ih (fun newer z older hl => h (y :: newer) z older (by rw [hl, List.cons_append])) hx

theorem Proc.all_of {P : F.Op → Prop} (h : ∀ o, P o) (p : Proc F α) : p.All P := by
  induction p with
  | ret x => trivial
  | ask o k ih => exact ⟨h o, ih⟩

def Monitor.history (may : List (Proc.Exch F) → F.Op → Prop) : Monitor F (List (Proc.Exch F)) where
  next τ x := x :: τ
  may := may

/-- `τ'` goes on from `τ` with operations of `P`. -/
structure Grows (P : F.Op → Prop) (τ τ' : List (Proc.Exch F)) : Prop where
  suffix : τ <:+ τ'
  each : ∀ x ∈ τ', x ∈ τ ∨ P x.op

namespace Grows

variable {P : F.Op → Prop} {τ τ' τ'' : List (Proc.Exch F)}

theorem refl (τ : List (Proc.Exch F)) : Grows P τ τ := ⟨List.suffix_refl τ, fun _ h => .inl h⟩

theorem cons (h : Grows P τ τ') (x : Proc.Exch F) (hx : P x.op) : Grows P τ (x :: τ') where
  suffix := h.suffix.trans (List.suffix_cons x τ')
  each y hy := by
    rcases List.mem_cons.mp hy with rfl | hy
    · exact .inr hx
    · exact h.each y hy

theorem trans (h : Grows P τ τ') (h' : Grows P τ' τ'') : Grows P τ τ'' where
  suffix := h.suffix.trans h'.suffix
  each x hx := (h'.each x hx).elim (h.each x) .inr

theorem mem (h : Grows P τ τ') {x : Proc.Exch F} (hx : x ∈ τ) : x ∈ τ' := h.suffix.subset hx

/-- What neither `τ` nor an operation of `P` has done. -/
theorem none (h : Grows P τ τ') {q : F.Op → Bool} (hq : ∀ o, P o → q o = false)
    (hτ : ∀ x ∈ τ, q x.op = false) : ∀ x ∈ τ', q x.op = false :=
  fun x hx => (h.each x hx).elim (hτ x) (hq x.op)

end Grows

section

variable {P : F.Op → Prop} {L : Proc.Exch F → Prop} {may : List (Proc.Exch F) → F.Op → Prop}

theorem obeys_grows {Q : List (Proc.Exch F) → α → Prop} {p : Proc F α} (hmay : ∀ τ o, P o → may τ o)
    (hp : p.All P) :
    ∀ {τ : List (Proc.Exch F)}, (∀ τ' x, Grows P τ τ' → Q τ' x) → Obeys (.history may) L Q τ p := by
  induction p with
  | ret x => exact fun hq => hq _ x (.refl _)
  | ask o k ih =>
    intro τ hq
    refine ⟨hmay τ o hp.1, fun r _ => ih r (hp.2 r) fun τ' x hτ => hq τ' x ?_⟩
    exact ((Grows.refl τ).cons ⟨o, r⟩ hp.1).trans hτ

/-- One question, whose outcome may be an error. -/
theorem obeys_outcome {τ : List (Proc.Exch F)} {o : F.Op} {p : F.Ans o → Except ε α}
    {Q : List (Proc.Exch F) → Except ε α → Prop} (hmay : may τ o)
    (hq : ∀ r, Q (⟨o, r⟩ :: τ) (p r)) : Obeys (.history may) L Q τ (.ask o fun r => .ret (p r)) :=
  ⟨hmay, fun r _ => hq r⟩

end

/-- What a monitor allows in every state is all that is asked. -/
theorem Obeys.asked {A : Type} {M : Monitor F A} {P : F.Op → Prop} (hmay : ∀ a o, M.may a o → P o)
    {Q : A → α → Prop} {p : Proc F α} {τ : List (Proc.Exch F)} {x : α} (ht : Proc.Trace p τ x)
    (hl : ∀ e ∈ τ, L e) : ∀ {a : A}, Obeys M L Q a p → ∀ e ∈ τ, P e.op := by
  induction ht with
  | ret x => exact fun _ => List.forall_mem_nil _
  | @ask o k τ x r _ ih =>
    intro a hp
    obtain ⟨hr, hrest⟩ := List.forall_mem_cons.mp hl
    exact List.forall_mem_cons.mpr ⟨hmay a o hp.1, ih hrest (hp.2 r hr)⟩

namespace Pool

/-- What call `t` has asked and heard, newest first. -/
def history (t : Nat) (log : List (Event F Fate)) : List (Proc.Exch F) :=
  (log.filter fun e => e.tid = t).map Event.exch

theorem mem_history {t : Nat} {log : List (Event F Fate)} {x : Proc.Exch F} :
    x ∈ history t log ↔ ∃ e ∈ log, e.tid = t ∧ e.exch = x := by
  simp [history, and_assoc]

@[simp] theorem history_cons_self (e : Event F Fate) (log : List (Event F Fate)) :
    history e.tid (e :: log) = e.exch :: history e.tid log := by
  simp [history]

theorem history_cons_other {e : Event F Fate} {t : Nat} (h : e.tid ≠ t)
    (log : List (Event F Fate)) : history t (e :: log) = history t log := by
  simp [history, h]

theorem history_none {t : Nat} {log : List (Event F Fate)} (h : ∀ e ∈ log, e.tid ≠ t) :
    history t log = [] := by
  simpa [history] using h

theorem history_suffix {t : Nat} {log older : List (Event F Fate)} (h : older <:+ log) :
    history t older <:+ history t log := by
  obtain ⟨newer, rfl⟩ := h
  exact ⟨history t newer, by simp [history]⟩

/-- What no call does twice. -/
theorem only_once {q : F.Op → Bool} {log : List (Event F Fate)}
    (h : ∀ newer e older, log = newer ++ e :: older → q e.op = true →
        ∀ x ∈ history e.tid older, q x.op = false) {e e' : Event F Fate} (he : e ∈ log)
    (he' : e' ∈ log) (ht : e.tid = e'.tid) (hq : q e.op = true) (hq' : q e'.op = true) :
    e = e' := by
  refine eq_of_fresh (q := fun x => x.tid = e.tid ∧
    q x.op = true) (fun newer x older hlog hx y hy hqy => ?_) he he' ⟨rfl, hq⟩
    ⟨ht.symm, hq'⟩
  have hnot :=
    h newer x older hlog hx.2 y.exch (mem_history.mpr ⟨y, hy, hqy.1.trans hx.1.symm, rfl⟩)
  exact absurd (hqy.2.symm.trans hnot) (by simp)

theorem mon_history (may : List (Proc.Exch F) → F.Op → Prop) (t : Nat) (log : List (Event F Fate)) :
    mon (.history may) [] t log = history t log := by
  induction log with
  | nil => rfl
  | cons e log ih =>
    by_cases ht : e.tid = t
    · subst ht
      rw [mon_self, ih]
      simp [history, Monitor.history]
    · rw [mon_other ht, ih]
      simp [history, ht]

/-! ## Threads -/

section

variable {Mem C R : Type} {S : System F Mem Fate C R} {s s' : Pool F Mem Fate C R}
  {e : Event F Fate} {c₀ : C}
  {k : F.Ans e.op → Proc F R}

theorem spawned {t : Nat} {c : C} {th : Thread F C R} (h : (s.spawn S c).threads[t]? = some th) :
    s.threads[t]? = some th ∨ t = s.threads.length ∧ th = ⟨c, S.prog c⟩ := by
  by_cases hlt : t < s.threads.length
  · rw [Pool.spawn_lt hlt] at h
    exact .inl h
  · obtain ⟨hle, -⟩ := List.getElem?_eq_some_iff.mp h
    simp only [Pool.spawn, List.length_append, List.length_singleton] at hle
    obtain rfl : t = s.threads.length := by omega
    simp only [Pool.spawn, List.getElem?_concat_length, Option.some.injEq] at h
    exact .inr ⟨rfl, h.symm⟩

/-- After an event, its own thread goes on and no other has changed. -/
theorem Fires.fired (hf : Pool.Fires S s e c₀ k s') {t : Nat} {th : Thread F C R}
    (h : s'.threads[t]? = some th) :
    e.tid = t ∧ th = ⟨c₀, k e.ans⟩ ∨ e.tid ≠ t ∧ s.threads[t]? = some th := by
  rw [hf.threads] at h
  by_cases heq : e.tid = t
  · subst heq
    rw [List.getElem?_set_self (List.getElem?_eq_some_iff.mp hf.thread).1, Option.some.injEq] at h
    exact .inl ⟨rfl, h.symm⟩
  · rw [List.getElem?_set_ne heq] at h
    exact .inr ⟨heq, h⟩

/-- Every event has a thread. -/
def Owned (s : Pool F Mem Fate C R) : Prop := ∀ e ∈ s.log, e.tid < s.threads.length

theorem Owned.spawn (h : s.Owned) (c : C) : (s.spawn S c).Owned := by
  intro e he
  have hlt := h e he
  simp only [Pool.spawn, List.length_append]
  omega

theorem Owned.fires (h : s.Owned) (hf : Pool.Fires S s e c₀ k s') : s'.Owned := by
  intro e' he'
  rw [hf.log] at he'
  rw [hf.threads, List.length_set]
  rcases List.mem_cons.mp he' with rfl | he'
  · exact (List.getElem?_eq_some_iff.mp hf.thread).1
  · exact h e' he'

theorem Owned.history_new (h : s.Owned) : Pool.history s.threads.length s.log = [] :=
  Pool.history_none fun e he => Nat.ne_of_lt (h e he)

/-- No event changes how a call has ended. -/
theorem Fires.ended (hf : Pool.Fires S s e c₀ k s') {t : Nat} {c : C} {x : R}
    (h : s.threads[t]? = some ⟨c, .ret x⟩) : s'.threads[t]? = some ⟨c, .ret x⟩ := by
  have hne : e.tid ≠ t := by
    intro heq
    subst heq
    cases hf.thread.symm.trans h
  rw [hf.threads, List.getElem?_set_ne hne, h]

end

end Pool

namespace System

variable {Mem C R : Type} {S : System F Mem Fate C R} {D : Discipline F Mem Fate C R}
  {may : List (Proc.Exch F) → F.Op → Prop} {Q : C → List (Proc.Exch F) → R → Prop}

/-- What every call's program keeps to by its own history, every event has. -/
structure Remembers (may : List (Proc.Exch F) → F.Op → Prop) (Q : C → List (Proc.Exch F) → R → Prop)
    (s : Pool F Mem Fate C R) : Prop where
  each : ∀ newer e older, s.log = newer ++ e :: older → may (Pool.history e.tid older) e.op
  result : ∀ t c x, s.threads[t]? = some ⟨c, .ret x⟩ → Q c (Pool.history t s.log) x

theorem remembers (hprog : ∀ c, Obeys (.history may) (fun _ => True) (Q c) [] (S.prog c)) :
    (S.lts D).Inductive fun s => Conforms (.history may) (fun _ => True) (fun _ => []) Q s ∧ Allowed
      (.history may) (fun _ => []) s := by
  have h : (S.lts D).Inductive fun s => (∀ e ∈ s.log, True) →
      Conforms (.history may) (fun _ => True) (fun _ => []) Q s ∧
        Allowed (.history may) (fun _ => []) s :=
    conforms_within fun _ c _ => hprog c
  exact ⟨fun s hs => h.init s hs fun _ _ => trivial,
    fun s l s' hj hs => h.step s l s' (fun _ => hj) hs fun _ _ => trivial⟩

theorem Conforms.remembers {s : Pool F Mem Fate C R}
    (h : Conforms (.history may) (fun _ => True) (fun _ => []) Q s)
    (hall : Allowed (.history may) (fun _ => []) s) : Remembers may Q s where
  each newer e older hlog := by
    have hlt := h.tids e (by rw [hlog]; exact List.mem_append_right _ (.head _))
    have hmay := hall newer e older _ hlog (List.getElem?_eq_getElem hlt)
    rw [Pool.mon_history] at hmay
    exact hmay
  result t c x ht := by
    have hresult := h.result ht
    rw [Pool.mon_history] at hresult
    exact hresult

/-! ## Conditions on the call -/

/-- Every event was allowed after its call's own history, and every call that
has ended has done what it should. -/
structure Recalls (rule : C → List (Proc.Exch F) → F.Op → Prop)
    (Q : C → List (Proc.Exch F) → R → Prop) (s : Pool F Mem Fate C R) : Prop where
  owned : s.Owned
  obeys : ∀ t c p, s.threads[t]? = some ⟨c, p⟩ →
    Obeys (.history (rule c)) (fun _ => True) (Q c) (Pool.history t s.log) p
  each : ∀ newer e older c p, s.log = newer ++ e :: older → s.threads[e.tid]? = some ⟨c, p⟩ →
    rule c (Pool.history e.tid older) e.op

section

variable {rule : C → List (Proc.Exch F) → F.Op → Prop}

theorem Recalls.spawn {s : Pool F Mem Fate C R} (h : Recalls rule Q s) {c : C}
    (hc : Obeys (.history (rule c)) (fun _ => True) (Q c) [] (S.prog c)) :
    Recalls rule Q (s.spawn S c) where
  owned := h.owned.spawn c
  obeys t c' p ht := by
    rcases Pool.spawned ht with ht | ⟨rfl, hth⟩
    · exact h.obeys t c' p ht
    · cases hth
      simpa [Pool.spawn, h.owned.history_new] using hc
  each newer e older c' p hlog ht := by
    rw [Pool.spawn_lt (h.owned e (by rw [show s.log = _ from hlog]; simp))] at ht
    exact h.each newer e older c' p hlog ht

theorem Recalls.fires {s s' : Pool F Mem Fate C R} {e : Event F Fate} {c₀ : C}
    {k : F.Ans e.op → Proc F R} (h : Recalls rule Q s) (hf : Pool.Fires S s e c₀ k s') :
    Recalls rule Q s' where
  owned := h.owned.fires hf
  obeys t c p ht := by
    rw [hf.log]
    rcases hf.fired ht with ⟨rfl, hth⟩ | ⟨hne, ht⟩
    · cases hth
      rw [Pool.history_cons_self]
      exact (h.obeys e.tid c₀ _ hf.thread).2 e.ans trivial
    · rw [Pool.history_cons_other hne]
      exact h.obeys t c p ht
  each newer e' older c p hlog ht := by
    obtain ⟨p', hp'⟩ := hf.called ht
    rw [hf.log] at hlog
    cases newer with
    | nil =>
      obtain ⟨rfl, rfl⟩ := List.cons.inj hlog
      cases hf.thread.symm.trans hp'
      exact (h.obeys e.tid _ _ hf.thread).1
    | cons e₁ newer => exact h.each newer e' older c p' (List.cons.inj hlog).2 hp'

theorem recalls_inductive
    (hprog : ∀ c, Obeys (.history (rule c)) (fun _ => True) (Q c) [] (S.prog c)) :
    (S.lts D).Inductive (Recalls rule Q) := by
  refine inductive_of (fun m _ => ⟨fun e he => ?_, fun t c p ht => ?_,
    fun newer e older c p hlog _ => ?_⟩)
    (fun s c h _ => h.spawn (hprog c)) fun s e c₀ k s' h hf _ => h.fires hf
  · simp at he
  · simp at ht
  · simp at hlog

theorem Recalls.result {s : Pool F Mem Fate C R} (h : Recalls rule Q s) {t : Nat} {c : C} {x : R}
    (ht : s.threads[t]? = some ⟨c, .ret x⟩) : Q c (Pool.history t s.log) x := h.obeys t c _ ht

/-- The call of an exchange, and what it came after. -/
theorem Recalls.of_mem {s : Pool F Mem Fate C R} (h : Recalls rule Q s) {t : Nat} {x : Proc.Exch F}
    (hx : x ∈ Pool.history t s.log) :
    ∃ c p τ, s.threads[t]? = some ⟨c, p⟩ ∧ x :: τ <:+ Pool.history t s.log ∧ rule c τ x.op := by
  obtain ⟨e, he, rfl, rfl⟩ := Pool.mem_history.mp hx
  obtain ⟨newer, older, hlog⟩ := List.append_of_mem he
  have ht : s.threads[e.tid]? = some ⟨_, _⟩ := List.getElem?_eq_getElem (h.owned e he)
  refine ⟨_, _, Pool.history e.tid older, ht, ?_, h.each newer e older _ _ hlog ht⟩
  rw [← Pool.history_cons_self, hlog]
  exact Pool.history_suffix (List.suffix_append newer _)

end

/-! ## What allowed a call -/

/-- What allowed a call to start, if no step undoes it, holds of every call. -/
theorem licensed_inductive {L : Pool F Mem Fate C R → C → Prop} (hmay : ∀ s c, D.may s c → L s c)
    (hspawn : ∀ s c c', L s c → L (s.spawn S c') c)
    (hfires : ∀ s e c₀ k s' c, Pool.Fires S s e c₀ k s' → L s c → L s' c) :
    (S.lts D).Inductive fun s => ∀ (t : Nat) (c : C) (p : Proc F R), s.threads[t]? = some ⟨c, p⟩ → L
      s c := by
  refine inductive_of (J := fun s => ∀ (t : Nat) (c : C) (p : Proc F R), s.threads[t]? = some ⟨c,
    p⟩ → L s c)
    (fun m _ t c p ht => ?_)
    (fun s c h hc t c' p ht => ?_) fun s e c₀ k s' h hf _ t c p ht => ?_
  · simp at ht
  · rcases Pool.spawned ht with ht | ⟨rfl, hth⟩
    · exact hspawn s c' c (h t c' p ht)
    · cases hth
      exact hspawn s c c (hmay s c hc)
  · obtain ⟨p', hp'⟩ := hf.called ht
    exact hfires s e c₀ k s' c hf (h t c p' hp')

end System
end RezSdk
