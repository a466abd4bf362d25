import RezSdk.Core.Pool

/-!
# Two parties that share no memory

Two pools of calls side by side. Neither sees the other's memory; what the one
may hear of the other is in the two conditions on events, which are judged
before the event and see both logs.

* `beside_inductive`: an invariant of both from what each party's calls and
  events keep.
* `left_inductive`, `right_inductive`: what one party keeps on its own, it
  keeps beside the other.
* `heard_inductive`: every event had what it needs of the other's past.
* `told_inductive`: what an event of the right party needs of the left one, if
  no step of the left one undoes it, still holds.
* `reachable_of_exec`, `reachable_of_play`: evaluated runs.
-/
namespace RezSdk

section

variable {F G : Iface} {Mem Mem' Fate Fate' C C' R R' : Type}

/-- Calls that share nothing: every answer is the fate's. -/
def System.asking (prog : C → Proc F R) : System F Unit ((o : F.Op) → Option (F.Ans o)) C R :=
  ⟨fun _ _ o f => (f o).map fun r => (r, ()), prog⟩

/-- Any interleaving of such calls. -/
def Discipline.asking : Discipline F Unit ((o : F.Op) → Option (F.Ans o)) C R where
  init _ := True
  may _ _ := True
  ok _ _ := True

/-- The two parties, and what each event needs of the other's past. -/
structure Parties (F G : Iface) (Mem Mem' Fate Fate' C C' R R' : Type) where
  left : System F Mem Fate C R
  right : System G Mem' Fate' C' R'
  leftRule : Discipline F Mem Fate C R
  rightRule : Discipline G Mem' Fate' C' R'
  leftOk : Pool F Mem Fate C R → Pool G Mem' Fate' C' R' → Event F Fate → Prop
  rightOk : Pool F Mem Fate C R → Pool G Mem' Fate' C' R' → Event G Fate' → Prop

namespace Parties

variable (P : Parties F G Mem Mem' Fate Fate' C C' R R')

def beside :
    LTS (Pool F Mem Fate C R × Pool G Mem' Fate' C' R') (Label Fate C ⊕ Label Fate' C') where
  init w := (P.leftRule.init w.1.mem ∧ w.1.threads = [] ∧ w.1.log = []) ∧
    P.rightRule.init w.2.mem ∧ w.2.threads = [] ∧ w.2.log = []
  step w l w' :=
    match l with
    | .inl (.call c) => P.leftRule.may w.1 c ∧ w' = (w.1.spawn P.left c, w.2)
    | .inl (.run t f) =>
      ∃ e, w.1.fire P.left t f = some (e, w'.1) ∧ P.leftRule.ok w.1 e ∧ P.leftOk w.1 w.2 e ∧
      w'.2 = w.2
    | .inr (.call c) => P.rightRule.may w.2 c ∧ w' = (w.1, w.2.spawn P.right c)
    | .inr (.run t f) =>
      ∃ e, w.2.fire P.right t f = some (e, w'.2) ∧ P.rightRule.ok w.2 e ∧ P.rightOk w.1 w.2 e ∧
      w'.1 = w.1

variable {P}

/-- An invariant of both parties from its obligations. -/
theorem beside_inductive {J : Pool F Mem Fate C R → Pool G Mem' Fate' C' R' → Prop}
    (init : ∀ m m', P.leftRule.init m → P.rightRule.init m' → J ⟨m, [], []⟩ ⟨m', [], []⟩)
    (leftSpawn : ∀ s u c, J s u → P.leftRule.may s c → J (s.spawn P.left c) u)
    (leftFires : ∀ s u e c k s', J s u → Pool.Fires P.left s e c k s' → P.leftRule.ok s e →
        P.leftOk s u e → J s' u)
    (rightSpawn : ∀ s u c, J s u → P.rightRule.may u c → J s (u.spawn P.right c))
    (rightFires : ∀ s u e c k u', J s u → Pool.Fires P.right u e c k u' → P.rightRule.ok u e →
        P.rightOk s u e → J s u') : P.beside.Inductive fun w => J w.1 w.2 where
  init := by
    rintro ⟨⟨m, ts, log⟩, ⟨m', ts', log'⟩⟩ ⟨⟨hm, rfl, rfl⟩, hm', rfl, rfl⟩
    exact init m m' hm hm'
  step := by
    rintro ⟨s, u⟩ l ⟨s', u'⟩ hj hstep
    rcases l with (c | ⟨t, f⟩) | (c | ⟨t, f⟩)
    · obtain ⟨hc, he⟩ := hstep
      cases he
      exact leftSpawn s u c hj hc
    · obtain ⟨e, hf, hrule, hok, rfl⟩ := hstep
      obtain ⟨c, k, hfires⟩ := Pool.fire_some hf
      exact leftFires s _ e c k s' hj hfires hrule hok
    · obtain ⟨hc, he⟩ := hstep
      cases he
      exact rightSpawn s u c hj hc
    · obtain ⟨e, hf, hrule, hok, rfl⟩ := hstep
      obtain ⟨c, k, hfires⟩ := Pool.fire_some hf
      exact rightFires _ u e c k u' hj hfires hrule hok

/-- What the left party keeps on its own. -/
theorem left_inductive {J : Pool F Mem Fate C R → Prop} (h : (P.left.lts P.leftRule).Inductive J) :
    P.beside.Inductive fun w => J w.1 where
  init w hw := h.init w.1 hw.1
  step := by
    rintro ⟨s, u⟩ l ⟨s', u'⟩ hj hstep
    rcases l with (c | ⟨t, f⟩) | (c | ⟨t, f⟩)
    · obtain ⟨hc, he⟩ := hstep
      cases he
      exact h.step s (.call c) _ hj ⟨hc, rfl⟩
    · obtain ⟨e, hf, hrule, -, -⟩ := hstep
      exact h.step s (.run t f) s' hj ⟨e, hf, hrule⟩
    · obtain ⟨-, he⟩ := hstep
      cases he
      exact hj
    · obtain ⟨e, -, -, -, rfl⟩ := hstep
      exact hj

/-- What the right party keeps on its own. -/
theorem right_inductive {J : Pool G Mem' Fate' C' R' → Prop}
    (h : (P.right.lts P.rightRule).Inductive J) : P.beside.Inductive fun w => J w.2 where
  init w hw := h.init w.2 hw.2
  step := by
    rintro ⟨s, u⟩ l ⟨s', u'⟩ hj hstep
    rcases l with (c | ⟨t, f⟩) | (c | ⟨t, f⟩)
    · obtain ⟨-, he⟩ := hstep
      cases he
      exact hj
    · obtain ⟨e, -, -, -, rfl⟩ := hstep
      exact hj
    · obtain ⟨hc, he⟩ := hstep
      cases he
      exact h.step u (.call c) _ hj ⟨hc, rfl⟩
    · obtain ⟨e, hf, hrule, -, -⟩ := hstep
      exact h.step u (.run t f) u' hj ⟨e, hf, hrule⟩

/-- Every event had what it needs of the other's past. -/
def Heard (w : Pool F Mem Fate C R × Pool G Mem' Fate' C' R') : Prop :=
  (∀ newer e older, w.1.log = newer ++ e :: older → ∃ s u, s.log = older ∧ u.log <:+ w.2.log ∧
  P.leftOk s u e) ∧
    ∀ newer e older, w.2.log = newer ++ e :: older → ∃ s u, s.log <:+ w.1.log ∧
    u.log = older ∧ P.rightOk s u e

theorem heard_inductive : P.beside.Inductive (Heard (P := P)) := by
  refine beside_inductive (J := fun s u => Heard (P := P) (s, u)) (fun m m' _ _ => ?_)
    (fun s u c h _ => h) ?_ (fun s u c h _ => h) ?_
  · exact ⟨fun newer e older hlog => by simp at hlog, fun newer e older hlog => by simp at hlog⟩
  · intro s u e c k s' h hf _ hok
    refine ⟨fun newer e' older hlog => ?_, fun newer e' older hlog => ?_⟩
    · rw [hf.log] at hlog
      cases newer with
      | nil =>
        obtain ⟨rfl, rfl⟩ := List.cons.inj hlog
        exact ⟨s, u, rfl, List.suffix_refl _, hok⟩
      | cons e₁ newer => exact h.1 newer e' older (List.cons.inj hlog).2
    · obtain ⟨s₀, u₀, hs, hu, hok⟩ := h.2 newer e' older hlog
      exact ⟨s₀, u₀, hs.trans (hf.log ▸ List.suffix_cons e s.log), hu, hok⟩
  · intro s u e c k u' h hf _ hok
    refine ⟨fun newer e' older hlog => ?_, fun newer e' older hlog => ?_⟩
    · obtain ⟨s₀, u₀, hs, hu, hok⟩ := h.1 newer e' older hlog
      exact ⟨s₀, u₀, hs, hu.trans (hf.log ▸ List.suffix_cons e u.log), hok⟩
    · rw [hf.log] at hlog
      cases newer with
      | nil =>
        obtain ⟨rfl, rfl⟩ := List.cons.inj hlog
        exact ⟨s, u, List.suffix_refl _, rfl, hok⟩
      | cons e₁ newer => exact h.2 newer e' older (List.cons.inj hlog).2

/-- What an event of the right party needs of the left one. -/
theorem told_inductive {A : Pool F Mem Fate C R → Event G Fate' → Prop}
    (hok : ∀ s u e, P.rightOk s u e → A s e) (hspawn : ∀ s c e, A s e → A (s.spawn P.left c) e)
    (hfires : ∀ s e' c k s' e, Pool.Fires P.left s e' c k s' → A s e → A s' e) :
    P.beside.Inductive fun w => ∀ e ∈ w.2.log, A w.1 e := by
  refine beside_inductive (J := fun s u => ∀ e ∈ u.log, A s e) (fun m m' _ _ e he => ?_)
    (fun s u c h _ e he => ?_)
    (fun s u e c k s' h hf _ _ e' he' => ?_) (fun s u c h _ =>
    h) fun s u e c k u' h hf _ hrule e' he' => ?_
  · simp at he
  · exact hspawn s c e (h e he)
  · exact hfires s e c k s' e' hf (h e' he')
  · rw [hf.log] at he'
    rcases List.mem_cons.mp he' with rfl | he'
    · exact hok s u e' hrule
    · exact h e' he'

/-! ## Evaluated runs -/

/-- The conditions, decided. -/
structure Judge (P : Parties F G Mem Mem' Fate Fate' C C' R R') where
  left : System.Judge P.leftRule
  right : System.Judge P.rightRule
  leftOk : Pool F Mem Fate C R → Pool G Mem' Fate' C' R' → Event F Fate → Bool
  rightOk : Pool F Mem Fate C R → Pool G Mem' Fate' C' R' → Event G Fate' → Bool
  leftOk_iff : ∀ s u e, leftOk s u e = true → P.leftOk s u e
  rightOk_iff : ∀ s u e, rightOk s u e = true → P.rightOk s u e

/-- One step of the two, where the judge allows it. -/
def judged (P : Parties F G Mem Mem' Fate Fate' C C' R R') (J : Judge P)
    (w : Pool F Mem Fate C R × Pool G Mem' Fate' C' R') :
    Label Fate C ⊕ Label Fate' C' → Option (Pool F Mem Fate C R × Pool G Mem' Fate' C' R')
  | .inl (.call c) => if J.left.may w.1 c then some (w.1.spawn P.left c, w.2) else none
  | .inl (.run t f) =>
    (w.1.fire P.left t f).bind fun x => if J.left.ok w.1 x.1 && J.leftOk w.1 w.2 x.1
    then some (x.2, w.2) else none
  | .inr (.call c) => if J.right.may w.2 c then some (w.1, w.2.spawn P.right c) else none
  | .inr (.run t f) =>
    (w.2.fire P.right t f).bind fun x => if J.right.ok w.2 x.1 && J.rightOk w.1 w.2 x.1
    then some (w.1, x.2) else none

theorem step_of_judged (J : Judge P) {w w' : Pool F Mem Fate C R × Pool G Mem' Fate' C' R'}
    {l : Label Fate C ⊕ Label Fate' C'} (h : P.judged J w l = some w') : P.beside.step w l w' := by
  rcases l with (c | ⟨t, f⟩) | (c | ⟨t, f⟩)
  · simp only [judged, Option.ite_none_right_eq_some, Option.some.injEq] at h
    exact ⟨J.left.may_iff _ c h.1, h.2.symm⟩
  · simp only [judged, Option.bind_eq_some_iff, Option.ite_none_right_eq_some,
      Option.some.injEq, Bool.and_eq_true] at h
    obtain ⟨⟨e, s'⟩, hf, hok, rfl⟩ := h
    exact ⟨e, hf, J.left.ok_iff _ e hok.1, J.leftOk_iff _ _ e hok.2, rfl⟩
  · simp only [judged, Option.ite_none_right_eq_some, Option.some.injEq] at h
    exact ⟨J.right.may_iff _ c h.1, h.2.symm⟩
  · simp only [judged, Option.bind_eq_some_iff, Option.ite_none_right_eq_some,
      Option.some.injEq, Bool.and_eq_true] at h
    obtain ⟨⟨e, u'⟩, hf, hok, rfl⟩ := h
    exact ⟨e, hf, J.right.ok_iff _ e hok.1, J.rightOk_iff _ _ e hok.2, rfl⟩

/-- A run of the two that was evaluated to a state with property `Q`. -/
theorem reachable_of_exec (J : Judge P) (ls : List (Label Fate C ⊕ Label Fate' C')) (m : Mem)
    (m' : Mem') {Q : Pool F Mem Fate C R × Pool G Mem' Fate' C' R' → Bool} (hm : P.leftRule.init m)
    (hm' : P.rightRule.init m')
    (he : (LTS.exec (P.judged J) (⟨m, [], []⟩, ⟨m', [], []⟩) ls).any Q = true) :
    ∃ w, P.beside.Reachable w ∧ Q w = true := by
  obtain ⟨w, hw, hq⟩ := (Option.any_eq_true _ _).mp he
  exact ⟨w, ⟨_, ls, ⟨⟨hm, rfl, rfl⟩, hm', rfl, rfl⟩,
    LTS.run_of_exec (fun _ _ _ h => step_of_judged J h) hw⟩, hq⟩

/-! ## Scripted runs -/

/-- What thread `t` of a party does next under the default fates, which may
depend on how many events it had. -/
def next (left : Nat → F.Op → Fate) (right : Nat → G.Op → Fate')
    (w : Pool F Mem Fate C R × Pool G Mem' Fate' C' R') :
    Nat ⊕ Nat → Option (Label Fate C ⊕ Label Fate' C')
  | .inl t =>
    match w.1.threads[t]? with
    | some ⟨_, .ask o _⟩ => some (.inl (.run t (left w.1.log.length o)))
    | _ => none
  | .inr t =>
    match w.2.threads[t]? with
    | some ⟨_, .ask o _⟩ => some (.inr (.run t (right w.2.log.length o)))
    | _ => none

/-- Let a thread go on until it has ended, for `n` operations at most. -/
def goOn (J : Judge P) (left : Nat → F.Op → Fate) (right : Nat → G.Op → Fate') (t : Nat ⊕ Nat) :
    Nat → Pool F Mem Fate C R × Pool G Mem' Fate' C' R' →
      Option (Pool F Mem Fate C R × Pool G Mem' Fate' C' R')
  | 0, w => some w
  | n + 1, w =>
    match next left right w t with
    | some l => (P.judged J w l).bind (goOn J left right t n)
    | none => some w

theorem run_of_goOn (J : Judge P) {left : Nat → F.Op → Fate} {right : Nat → G.Op → Fate'}
    {t : Nat ⊕ Nat} :
    ∀ {n : Nat} {w w' : Pool F Mem Fate C R × Pool G Mem' Fate' C' R'},
      goOn J left right t n w = some w' → ∃ ls, P.beside.Run w ls w'
  | 0, w, w', h => by
    cases h
    exact ⟨[], .nil _⟩
  | n + 1, w, w', h => by
    unfold goOn at h
    split at h
    · obtain ⟨w₁, h₁, h⟩ := Option.bind_eq_some_iff.mp h
      obtain ⟨ls, hrun⟩ := run_of_goOn J h
      exact ⟨_, .cons (step_of_judged J h₁) hrun⟩
    · cases h
      exact ⟨[], .nil _⟩

/-- One move of a script: a call, or the rest of a thread. -/
inductive Move (C C' : Type)
  | left (c : C)
  | right (c : C')
  | go (t : Nat ⊕ Nat) (n : Nat)

def play (J : Judge P) (left : Nat → F.Op → Fate) (right : Nat → G.Op → Fate') :
    Pool F Mem Fate C R × Pool G Mem' Fate' C' R' → List (Move C C') →
      Option (Pool F Mem Fate C R × Pool G Mem' Fate' C' R')
  | w, [] => some w
  | w, .left c :: ms => (P.judged J w (.inl (.call c))).bind fun w' => play J left right w' ms
  | w, .right c :: ms => (P.judged J w (.inr (.call c))).bind fun w' => play J left right w' ms
  | w, .go t n :: ms => (goOn J left right t n w).bind fun w' => play J left right w' ms

theorem run_of_play (J : Judge P) {left : Nat → F.Op → Fate} {right : Nat → G.Op → Fate'}
    {ms : List (Move C C')} :
    ∀ {w w' : Pool F Mem Fate C R × Pool G Mem' Fate' C' R'}, play J left right w ms = some w' →
      ∃ ls, P.beside.Run w ls w' := by
  induction ms with
  | nil =>
    intro w w' h
    cases h
    exact ⟨[], .nil _⟩
  | cons m ms ih =>
    intro w w' h
    cases m with
    | left c =>
      obtain ⟨w₁, h₁, h⟩ := Option.bind_eq_some_iff.mp h
      obtain ⟨ls, hrun⟩ := ih h
      exact ⟨_, .cons (step_of_judged J h₁) hrun⟩
    | right c =>
      obtain ⟨w₁, h₁, h⟩ := Option.bind_eq_some_iff.mp h
      obtain ⟨ls, hrun⟩ := ih h
      exact ⟨_, .cons (step_of_judged J h₁) hrun⟩
    | go t n =>
      obtain ⟨w₁, h₁, h⟩ := Option.bind_eq_some_iff.mp h
      obtain ⟨ls₁, hrun₁⟩ := run_of_goOn J h₁
      obtain ⟨ls, hrun⟩ := ih h
      exact ⟨_, hrun₁.append hrun⟩

/-- A script that was evaluated to a state with property `Q`. -/
theorem reachable_of_play (J : Judge P) (left : Nat → F.Op → Fate) (right : Nat → G.Op → Fate')
    (ms : List (Move C C')) (m : Mem) (m' : Mem')
    {Q : Pool F Mem Fate C R × Pool G Mem' Fate' C' R' → Bool} (hm : P.leftRule.init m)
    (hm' : P.rightRule.init m')
    (he : (play J left right (⟨m, [], []⟩, ⟨m', [], []⟩) ms).any Q = true) :
    ∃ w, P.beside.Reachable w ∧ Q w = true := by
  obtain ⟨w, hw, hq⟩ := (Option.any_eq_true _ _).mp he
  obtain ⟨ls, hrun⟩ := run_of_play J hw
  exact ⟨w, ⟨_, ls, ⟨⟨hm, rfl, rfl⟩, hm', rfl, rfl⟩, hrun⟩, hq⟩

end Parties
end
end RezSdk
