import RezSdk.Core.Pool

/-!
# One call with nothing in between

`After act Q p m`: whenever `p`, asking a memory that answers by `act` and
that nothing else touches, comes to an end from `m`, its result and the memory
it leaves satisfy `Q`. It is the weakest precondition of `p` for the runs of
`System.solo` (`After.solo_within`, `After.solo_observed`).

* `after_bind`, `after_js_bind`: sequencing.
* `Ends act p m x m'`: one such run, `p` comes to an end with `x` and leaves
  `m'`; `after_iff_ends` says that `After` speaks of all of them.
* `after_keeps`: what every operation of a program keeps, the program keeps.
* `within P`: the same memory where only some fates occur.
* `observe P`: the same memory with a mark that is set once an operation and
  its fate satisfy `P`, for properties that speak of the run's events.
-/
namespace RezSdk

/-- How a memory answers one thread. -/
abbrev Answers (F : Iface) (Mem Fate : Type) : Type := Mem → (o : F.Op) → Fate →
    Option (F.Ans o × Mem)

section

variable {F : Iface} {Mem Fate α β ε : Type} {act : Answers F Mem Fate}

def After (act : Answers F Mem Fate) (Q : α → Mem → Prop) : Proc F α → Mem → Prop
  | .ret x, m => Q x m
  | .ask o k, m => ∀ f r m', act m o f = some (r, m') → After act Q (k r) m'

theorem After.mono {Q Q' : α → Mem → Prop} (h : ∀ x m, Q x m → Q' x m) {p : Proc F α} :
    ∀ {m : Mem}, After act Q p m → After act Q' p m := by
  induction p with
  | ret x => exact fun hp => h _ _ hp
  | ask o k ih => exact fun hp f r m' ha => ih r (hp f r m' ha)

theorem After.and {Q Q' : α → Mem → Prop} {p : Proc F α} :
    ∀ {m : Mem}, After act Q p m → After act Q' p m →
      After act (fun x m => Q x m ∧ Q' x m) p m := by
  induction p with
  | ret x => exact fun hp hp' => ⟨hp, hp'⟩
  | ask o k ih => exact fun hp hp' f r m' ha => ih r (hp f r m' ha) (hp' f r m' ha)

theorem after_bind {Q : β → Mem → Prop} {p : Proc F α} {f : α → Proc F β} :
    ∀ {m : Mem}, After act (fun x m => After act Q (f x) m) p m → After act Q (p.bind f) m := by
  induction p with
  | ret x => exact id
  | ask o k ih => exact fun hp f r m' ha => ih r (hp f r m' ha)

/-- What is left to show after a step that resolved or rejected with `x`. -/
def Then (act : Answers F Mem Fate) (Q : Except ε β → Mem → Prop) (f : α → Js F ε β) :
    Except ε α → Mem → Prop
  | .ok x, m => After act Q (f x) m
  | .error e, m => Q (.error e) m

theorem after_js_bind {Q : Except ε β → Mem → Prop} {p : Js F ε α} {f : α → Js F ε β} {m : Mem}
    (h : After act (Then act Q f) p m) : After act Q (p >>= f : Js F ε β) m :=
  after_bind (h.mono fun x _ hx => by cases x <;> exact hx)

theorem after_orThrow {Q : Except ε α → Mem → Prop} {x : Option α} {e : ε} {m : Mem}
    (hs : ∀ v, x = some v → Q (.ok v) m) (hn : x = none → Q (.error e) m) :
    After act Q (Js.orThrow x e : Js F ε α) m := by
  cases x with
  | none => exact hn rfl
  | some v => exact hs v rfl

theorem after_ensure {Q : Except ε Unit → Mem → Prop} {c : Bool} {e : ε} {m : Mem}
    (ht : c = true → Q (.ok ()) m) (hf : c = false → Q (.error e) m) :
    After act Q (Js.ensure c e : Js F ε Unit) m := by
  cases c with
  | false => exact hf rfl
  | true => exact ht rfl

/-- A value that is known to be there. -/
theorem after_found {Q : Except ε α → Mem → Prop} {x : Option α} {v : α} {e : ε} {m : Mem}
    (h : x = some v) (hq : Q (.ok v) m) : After act Q (Js.orThrow x e : Js F ε α) m := by
  subst h
  exact hq

/-- A check that is known to pass. -/
theorem after_passed {Q : Except ε Unit → Mem → Prop} {c : Bool} {e : ε} {m : Mem} (h : c = true)
    (hq : Q (.ok ()) m) : After act Q (Js.ensure c e : Js F ε Unit) m := by
  subst h
  exact hq

/-- What every operation keeps, the program keeps. -/
theorem after_keeps {J : Mem → Prop} {P : F.Op → Prop} {p : Proc F α} (hp : p.All P)
    (hact : ∀ m o f r m', P o → act m o f = some (r, m') → J m → J m') :
    ∀ {m : Mem}, J m → After act (fun _ m' => J m') p m := by
  induction p with
  | ret x => exact id
  | ask o k ih => exact fun hj f r m' ha => ih r (hp.2 r) (hact _ o f r m' hp.1 ha hj)

/-- What is known of every result, whatever the answers were. -/
theorem After.and_returns {Q : α → Mem → Prop} {P : α → Prop} {p : Proc F α} :
    ∀ {m : Mem}, After act Q p m → p.Returns P → After act (fun x m => Q x m ∧ P x) p m := by
  induction p with
  | ret x => exact fun hp hr => ⟨hp, hr⟩
  | ask o k ih => exact fun hp hr f r m' ha => ih r (hp f r m' ha) (hr r)

/-- What is known of every error, as long as the answers are lawful. -/
theorem after_throws {L : Proc.Exch F → Prop} {P : ε → Prop} {p : Proc F (Except ε α)}
    (hact : ∀ m o f r m', act m o f = some (r, m') → L ⟨o, r⟩) :
    ∀ {m : Mem}, Js.Throws L P p → After act (fun x _ => ∀ e, x = .error e → P e) p m := by
  induction p with
  | ret x => exact id
  | ask o k ih => exact fun hp f r m' ha => ih r (hp r (hact _ o f r m' ha))

/-! ## The runs it speaks of -/

/-- `p`, asking from memory `m` on, comes to an end with `x` and leaves `m'`. -/
inductive Ends (act : Answers F Mem Fate) : Proc F α → Mem → α → Mem → Prop
  | ret (x : α) (m : Mem) : Ends act (.ret x) m x m
  | ask {o : F.Op} {k : F.Ans o → Proc F α} {m m₁ m' : Mem} {f : Fate} {r : F.Ans o} {x : α} :
      act m o f = some (r, m₁) → Ends act (k r) m₁ x m' → Ends act (.ask o k) m x m'

theorem after_iff_ends {Q : α → Mem → Prop} {p : Proc F α} :
    ∀ {m : Mem}, After act Q p m ↔ ∀ x m', Ends act p m x m' → Q x m' := by
  induction p with
  | ret y =>
    intro m
    constructor
    · rintro h x m' ⟨⟩
      exact h
    · exact fun h => h y m (.ret y m)
  | ask o k ih =>
    intro m
    constructor
    · rintro h x m' (_ | ⟨ha, hk⟩)
      exact (ih _).mp (h _ _ _ ha) x m' hk
    · exact fun h f r m₁ ha => (ih r).mpr fun x m' hk => h x m' (.ask ha hk)

theorem Ends.bind {p : Proc F α} {f : α → Proc F β} {m m₁ m' : Mem} {x : α} {y : β}
    (hp : Ends act p m x m₁) (hf : Ends act (f x) m₁ y m') : Ends act (p.bind f) m y m' := by
  induction hp with
  | ret x m => exact hf
  | ask ha _ ih => exact .ask ha (ih hf)

theorem Ends.js_bind {p : Js F ε α} {f : α → Js F ε β} {m m₁ m' : Mem} {x : α} {y : Except ε β}
    (hp : Ends act p m (.ok x) m₁) (hf : Ends act (f x) m₁ y m') :
    Ends act (p >>= f : Js F ε β) m y m' :=
  Ends.bind hp hf

/-! ## Memories with some fates only -/

open Classical in
/-- The same memory, where only fates with `P` occur. -/
noncomputable def within (P : Fate → Prop) (act : Answers F Mem Fate) : Answers F Mem Fate :=
  fun m o f => if P f then act m o f else none

theorem within_some {P : Fate → Prop} {m : Mem} {o : F.Op} {f : Fate} {y : F.Ans o × Mem} :
    within P act m o f = some y ↔ P f ∧ act m o f = some y := by
  unfold within
  split
  · exact ⟨fun h => ⟨‹_›, h⟩, fun h => h.2⟩
  · exact ⟨fun h => (by cases h), fun h => absurd h.1 ‹_›⟩

theorem After.solo_within {C R : Type} {S : System F Mem Fate C R} {t : Nat} {P : Fate → Prop}
    {Q : α → Mem → Prop} {p : Proc F α} :
    ∀ {m m' : Mem} {fs : List Fate} {τ : List (Proc.Exch F)} {x : α},
      After (within P (S.act t)) Q p m → S.solo t m p fs = some (τ, x, m') → (∀ f ∈ fs, P f) →
      Q x m' := by
  induction p with
  | ret y =>
    intro m m' fs τ x hp h _
    cases fs with
    | nil =>
      cases h
      exact hp
    | cons f fs => cases h
  | ask o k ih =>
    intro m m' fs τ x hp h hfs
    cases fs with
    | nil => cases h
    | cons f fs =>
      obtain ⟨⟨r, m₁⟩, ha, h⟩ := Option.bind_eq_some_iff.mp h
      obtain ⟨⟨τ', x', m₂⟩, hz, he⟩ := Option.map_eq_some_iff.mp h
      cases he
      exact ih r (hp f r m₁ (within_some.mpr ⟨hfs f (.head _), ha⟩)) hz fun f' hf' =>
        hfs f' (.tail _ hf')

/-! ## Marked memories -/

variable {P : F.Op → Fate → Bool}

/-- Mark the memory once an operation and its fate satisfy `P`. -/
def observe (P : F.Op → Fate → Bool) (act : Answers F Mem Fate) : Answers F (Mem × Bool) Fate :=
  fun m o f => (act m.1 o f).map fun y => (y.1, y.2, m.2 || P o f)

theorem observe_some {m m' : Mem × Bool} {o : F.Op} {f : Fate} {r : F.Ans o} :
    observe P act m o f = some (r, m') ↔ act m.1 o f = some (r, m'.1) ∧ m'.2 = (m.2 || P o f) := by
  unfold observe
  rw [Option.map_eq_some_iff]
  constructor
  · rintro ⟨y, hy, he⟩
    cases he
    exact ⟨hy, rfl⟩
  · rintro ⟨ha, hm⟩
    exact ⟨(r, m'.1), ha, by rw [← hm]⟩

/-- Some event of the run satisfies `P`. -/
def happened (P : F.Op → Fate → Bool) (τ : List (Proc.Exch F)) (fs : List Fate) : Bool :=
  (τ.zip fs).any fun y => P y.1.op y.2

/-- A postcondition that knows whether such an event happened. -/
theorem After.solo_observed {C R : Type} {S : System F Mem Fate C R} {t : Nat}
    {Q : α → Mem × Bool → Prop} {p : Proc F α} :
    ∀ {m m' : Mem} {b : Bool} {fs : List Fate} {τ : List (Proc.Exch F)} {x : α},
      After (observe P (S.act t)) Q p (m, b) → S.solo t m p fs = some (τ, x, m') →
      Q x (m', b || happened P τ fs) := by
  induction p with
  | ret y =>
    intro m m' b fs τ x hp h
    cases fs with
    | nil =>
      cases h
      rw [happened, List.zip_nil_left, List.any_nil, Bool.or_false]
      exact hp
    | cons f fs => cases h
  | ask o k ih =>
    intro m m' b fs τ x hp h
    cases fs with
    | nil => cases h
    | cons f fs =>
      obtain ⟨⟨r, m₁⟩, ha, h⟩ := Option.bind_eq_some_iff.mp h
      obtain ⟨⟨τ', x', m₂⟩, hz, he⟩ := Option.map_eq_some_iff.mp h
      cases he
      have hnext := ih r (hp f r (m₁, b || P o f) (observe_some.mpr ⟨ha, rfl⟩)) hz
      rw [happened, List.zip_cons_cons, List.any_cons, ← Bool.or_assoc]
      exact hnext

end
end RezSdk
