import RezSdk.Core.Proc

/-!
# Monitors

A monitor watches the exchanges of one program. Its state is whatever a
property needs to remember of the past (which lock is held, which snapshot
the last codec call started from), `next` updates it and `may` says which
operations are allowed in it. `Obeys M L Q a p` is the weakest precondition
of `p` read from monitor state `a`: whatever the answers are, as long as they
are lawful (`L`), every operation `p` asks is allowed and its result
satisfies `Q`. Answers are otherwise arbitrary, so nothing is assumed about
what other programs do meanwhile.

* `obeys_bind`, `obeys_js_bind`, `obeys_attempt`: sequencing.
* `obeys_quiet`: a program whose operations the monitor does not look at
  keeps the monitor's state.
* `Obeys.trace`: what `Obeys` says of one complete trace.
-/
namespace RezSdk

structure Monitor (F : Iface) (A : Type) where
  next : A → Proc.Exch F → A
  may : A → F.Op → Prop

namespace Monitor

variable {F : Iface} {A : Type}

/-- The operation is always allowed and never changes the state. -/
def Quiet (M : Monitor F A) (o : F.Op) : Prop := ∀ a, M.may a o ∧ ∀ r, M.next a ⟨o, r⟩ = a

/-- The state after a history, newest exchange first. -/
def after (M : Monitor F A) (a : A) : List (Proc.Exch F) → A
  | [] => a
  | e :: σ => M.next (M.after a σ) e

theorem after_append (M : Monitor F A) (a : A) (σ τ : List (Proc.Exch F)) :
    M.after a (σ ++ τ) = M.after (M.after a τ) σ := by
  induction σ with
  | nil => rfl
  | cons e σ ih => simp only [List.cons_append, after, ih]

end Monitor

section Obeys

variable {F : Iface} {A α β ε : Type} {M : Monitor F A} {L : Proc.Exch F → Prop}

def Obeys (M : Monitor F A) (L : Proc.Exch F → Prop) (Q : A → α → Prop) : A → Proc F α → Prop
  | a, .ret x => Q a x
  | a, .ask o k => M.may a o ∧ ∀ r, L ⟨o, r⟩ → Obeys M L Q (M.next a ⟨o, r⟩) (k r)

theorem Obeys.mono {Q Q' : A → α → Prop} (h : ∀ a x, Q a x → Q' a x) {p : Proc F α} :
    ∀ {a : A}, Obeys M L Q a p → Obeys M L Q' a p := by
  induction p with
  | ret x => exact fun hp => h _ _ hp
  | ask o k ih => exact fun hp => ⟨hp.1, fun r hr => ih r (hp.2 r hr)⟩

theorem obeys_bind {Q : A → β → Prop} {p : Proc F α} {f : α → Proc F β} :
    ∀ {a : A}, Obeys M L (fun a x => Obeys M L Q a (f x)) a p → Obeys M L Q a (p.bind f) := by
  induction p with
  | ret x => exact id
  | ask o k ih => exact fun hp => ⟨hp.1, fun r hr => ih r (hp.2 r hr)⟩

/-- What is left to show after a step that resolved or rejected with `x`. -/
def Goes (M : Monitor F A) (L : Proc.Exch F → Prop) (Q : A → Except ε β → Prop)
    (f : α → Js F ε β) (a : A) : Except ε α → Prop
  | .ok x => Obeys M L Q a (f x)
  | .error e => Q a (.error e)

theorem obeys_js_bind {Q : A → Except ε β → Prop} {p : Js F ε α} {f : α → Js F ε β} {a : A}
    (h : Obeys M L (Goes M L Q f) a p) : Obeys M L Q a (p >>= f : Js F ε β) :=
  obeys_bind (h.mono fun _ x hx => by cases x <;> exact hx)

theorem obeys_attempt {Q : A → Except ε β → Prop} {p : Js F ε α} {f : Except ε α → Js F ε β}
    {a : A} (h : Obeys M L (fun a x => Obeys M L Q a (f x)) a p) : Obeys M L Q a (p.attempt f) :=
  obeys_bind h

/-- Operations that are allowed in `a` and do not change it. -/
theorem obeys_still {Q : A → α → Prop} {p : Proc F α} {a : A}
    (hp : p.All fun o => M.may a o ∧ ∀ r, M.next a ⟨o, r⟩ = a) (hq : ∀ x, Q a x) :
    Obeys M L Q a p := by
  induction p with
  | ret x => exact hq x
  | ask o k ih =>
    refine ⟨hp.1.1, fun r _ => ?_⟩
    rw [hp.1.2 r]
    exact ih r (hp.2 r)

theorem obeys_quiet {Q : A → α → Prop} {p : Proc F α} {a : A} (hp : p.All M.Quiet)
    (hq : ∀ x, Q a x) : Obeys M L Q a p := obeys_still (hp.mono fun _ h => h a) hq

/-- A quiet step in front of `f`. -/
theorem obeys_quiet_bind {Q : A → Except ε β → Prop} {p : Js F ε α} {f : α → Js F ε β} {a : A}
    (hp : Proc.All M.Quiet p) (he : ∀ e, Q a (.error e)) (hf : ∀ x, Obeys M L Q a (f x)) :
    Obeys M L Q a (p >>= f : Js F ε β) :=
  obeys_js_bind (obeys_quiet hp fun
    | .ok x => hf x
    | .error e => he e)

theorem obeys_orThrow {Q : A → Except ε α → Prop} {x : Option α} {e : ε} {a : A}
    (hs : ∀ v, x = some v → Q a (.ok v)) (hn : x = none → Q a (.error e)) :
    Obeys M L Q a (Js.orThrow x e : Js F ε α) := by
  cases x with
  | none => exact hn rfl
  | some v => exact hs v rfl

theorem obeys_ensure {Q : A → Except ε Unit → Prop} {c : Bool} {e : ε} {a : A}
    (ht : c = true → Q a (.ok ())) (hf : c = false → Q a (.error e)) :
    Obeys M L Q a (Js.ensure c e : Js F ε Unit) := by
  cases c with
  | false => exact hf rfl
  | true => exact ht rfl

theorem obeys_ofExcept {Q : A → Except ε α → Prop} {x : Except ε α} {a : A}
    (hok : ∀ v, x = .ok v → Q a (.ok v)) (he : ∀ e, x = .error e → Q a (.error e)) :
    Obeys M L Q a (Js.ofExcept x : Js F ε α) := by
  cases x with
  | error e => exact he e rfl
  | ok v => exact hok v rfl

/-- The monitor that allows everything: what is left is a postcondition under
lawful answers. -/
def Monitor.free : Monitor F Unit := ⟨fun _ _ => (), fun _ _ => True⟩

theorem obeys_any {p : Proc F α} {u : Unit} : Obeys .free L (fun _ _ => True) u p := by
  induction p with
  | ret x => exact trivial
  | ask o k ih => exact ⟨trivial, fun r _ => ih r⟩

/-- A step whose value does not matter. -/
theorem obeys_skip {Q : Unit → Except ε β → Prop} {p : Js F ε α} {f : α → Js F ε β} {u : Unit}
    (he : ∀ e, Q () (.error e)) (hf : ∀ x, Obeys .free L Q () (f x)) :
    Obeys .free L Q u (p >>= f : Js F ε β) :=
  obeys_js_bind (obeys_any.mono fun _ x _ => by
    cases x with
    | ok v => exact hf v
    | error e => exact he e)

/-- Add what every trace of the program says about its result. -/
theorem Obeys.and_result {Q : A → α → Prop} {P : α → Prop} {p : Proc F α} :
    ∀ {a : A}, Obeys M L Q a p → (∀ τ x, Proc.Trace p τ x → P x) →
      Obeys M L (fun a x => Q a x ∧ P x) a p := by
  induction p with
  | ret x => exact fun hp ht => ⟨hp, ht [] x (.ret x)⟩
  | ask o k ih =>
    exact fun hp ht =>
      ⟨hp.1, fun r hr => ih r (hp.2 r hr) fun τ x h => ht (⟨o, r⟩ :: τ) x (.ask r h)⟩

/-- Add what is known of every value the function resolves with. -/
theorem Obeys.and_ok {Q : A → Except ε α → Prop} {P : α → Prop} {p : Js F ε α} :
    ∀ {a : A}, Obeys M L Q a p → Js.Ok P p →
      Obeys M L (fun a x => Q a x ∧ ∀ v, x = .ok v → P v) a p := by
  induction p with
  | ret x => exact fun hp hok => ⟨hp, hok⟩
  | ask o k ih => exact fun hp hok => ⟨hp.1, fun r hr => ih r (hp.2 r hr) (hok r)⟩

/-- Add what is known of every error. -/
theorem Obeys.and_throws {Q : A → Except ε α → Prop} {P : ε → Prop} {p : Proc F (Except ε α)} :
    ∀ {a : A}, Obeys M L Q a p → Js.Throws L P p →
      Obeys M L (fun a x => Q a x ∧ ∀ e, x = .error e → P e) a p := by
  induction p with
  | ret x => exact fun hp ht => ⟨hp, ht⟩
  | ask o k ih => exact fun hp ht => ⟨hp.1, fun r hr => ih r (hp.2 r hr) (ht r hr)⟩

theorem Obeys.trace {Q : A → α → Prop} {p : Proc F α} {τ : List (Proc.Exch F)} {x : α}
    (ht : Proc.Trace p τ x) (hl : ∀ e ∈ τ, L e) :
    ∀ {a : A}, Obeys M L Q a p → Q (M.after a τ.reverse) x := by
  induction ht with
  | ret x => exact id
  | @ask o k τ x r _ ih =>
    intro a hp
    have := ih (fun e he => hl e (.tail _ he)) (hp.2 r (hl _ (.head _)))
    rw [List.reverse_cons, Monitor.after_append]
    exact this

end Obeys
end RezSdk
