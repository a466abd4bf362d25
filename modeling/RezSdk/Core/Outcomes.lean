import RezSdk.Core.Proc

/-!
# What a function resolves with under lawful answers

`Js.Yields L P p`: whatever lawful answers `p` gets, a value it resolves with
satisfies `P`. `Js.Resolves L v p`: whatever lawful answers `p` gets, it
resolves with `v`. A function of many checks is read off with the first (every
check it passed holds) and run through with the second (every check that
holds is passed), one rule for each kind of step.

`Proc.follow` is the one run in which each question has a given answer.
-/
namespace RezSdk
namespace Js

variable {F : Iface} {ε α β : Type} {L : Proc.Exch F → Prop}

def Yields (L : Proc.Exch F → Prop) (P : α → Prop) : Proc F (Except ε α) → Prop
  | .ret x => ∀ v, x = .ok v → P v
  | .ask o k => ∀ r, L ⟨o, r⟩ → Yields L P (k r)

section

variable {P : α → Prop} {Q : β → Prop}

theorem Yields.mono {P' : α → Prop} (h : ∀ v, P v → P' v) {p : Proc F (Except ε α)}
    (hp : Yields L P p) : Yields L P' p := by
  induction p with
  | ret x => exact fun v hv => h v (hp v hv)
  | ask o k ih => exact fun r hr => ih r (hp r hr)

theorem yields_error {e : ε} : Yields (F := F) L P (.ret (.error e)) := fun _ h => by cases h

theorem yields_pure {v : α} (h : P v) : Yields L P (pure v : Js F ε α) := by
  rintro _ ⟨⟩
  exact h

theorem yields_any {p : Proc F (Except ε α)} : Yields L (fun _ => True) p := by
  induction p with
  | ret x => exact fun _ _ => trivial
  | ask o k ih => exact fun r _ => ih r

theorem yields_bind {p : Js F ε α} {f : α → Js F ε β} (hp : Yields L P p)
    (hf : ∀ a, P a → Yields L Q (f a)) : Yields L Q (p >>= f : Js F ε β) := by
  have h : ∀ p : Proc F (Except ε α), Yields L P p → Yields L Q (p.bind (cont f)) := by
    intro p
    induction p with
    | ret x =>
      intro hp
      cases x with
      | ok a => exact hf a (hp a rfl)
      | error e => exact yields_error
    | ask o k ih => exact fun hp r hr => ih r (hp r hr)
  exact h p hp

theorem yields_orThrow {x : Option α} {e : ε} :
    Yields L (fun v => x = some v) (orThrow x e : Js F ε α) := by
  cases x with
  | none => exact yields_error
  | some v => exact yields_pure rfl

theorem yields_ensure {c : Bool} {e : ε} :
    Yields L (fun _ => c = true) (ensure c e : Js F ε Unit) := by
  cases c with
  | false => exact yields_error
  | true => exact yields_pure rfl

theorem yields_ofExcept {x : Except ε α} : Yields L (fun v => x = .ok v) (ofExcept x : Js F ε α) :=
  fun _ h => h

theorem Yields.trace {p : Proc F (Except ε α)} {τ : List (Proc.Exch F)} {v : α}
    (ht : Proc.Trace p τ (.ok v)) : (∀ e ∈ τ, L e) → Yields L P p → P v := by
  generalize hx : (Except.ok v : Except ε α) = x at ht
  induction ht with
  | ret x => exact fun _ hp => hp v hx.symm
  | ask r _ ih => exact fun hl hp => ih hx (fun e he => hl e (.tail _ he)) (hp r (hl _ (.head _)))

end

def Resolves (L : Proc.Exch F → Prop) (v : α) : Proc F (Except ε α) → Prop
  | .ret x => x = .ok v
  | .ask o k => ∀ r, L ⟨o, r⟩ → Resolves L v (k r)

section

variable {a : α} {b : β}

theorem resolves_pure : Resolves L a (pure a : Js F ε α) := rfl

theorem resolves_bind {p : Js F ε α} {f : α → Js F ε β} (hp : Resolves L a p)
    (hf : Resolves L b (f a)) : Resolves L b (p >>= f : Js F ε β) := by
  have h : ∀ p : Proc F (Except ε α), Resolves L a p → Resolves L b (p.bind (cont f)) := by
    intro p
    induction p with
    | ret x =>
      rintro ⟨⟩
      exact hf
    | ask o k ih => exact fun hp r hr => ih r (hp r hr)
  exact h p hp

theorem resolves_found {x : Option α} {e : ε} (h : x = some a) :
    Resolves L a (orThrow x e : Js F ε α) := by
  subst h
  exact resolves_pure

theorem resolves_passed {c : Bool} {e : ε} (h : c = true) :
    Resolves L () (ensure c e : Js F ε Unit) := by
  subst h
  exact resolves_pure

theorem resolves_ofExcept {x : Except ε α} (h : x = .ok a) : Resolves L a (ofExcept x : Js F ε α) :=
  h

theorem Resolves.trace {p : Proc F (Except ε α)} {τ : List (Proc.Exch F)} {x : Except ε α}
    (ht : Proc.Trace p τ x) : (∀ e ∈ τ, L e) → Resolves L a p → x = .ok a := by
  induction ht with
  | ret x => exact fun _ hp => hp
  | ask r _ ih => exact fun hl hp => ih (fun e he => hl e (.tail _ he)) (hp r (hl _ (.head _)))

theorem Resolves.yields {p : Proc F (Except ε α)} (h : Resolves L a p) :
    Yields L (fun x => x = a) p := by
  induction p with
  | ret x =>
    intro v hv
    exact Except.ok.inj (hv.symm.trans h)
  | ask o k ih => exact fun r hr => ih r (h r hr)

/-- Where every question has a lawful answer, there is such a run. -/
theorem Resolves.run (hans : ∀ o : F.Op, ∃ r, L ⟨o, r⟩) {p : Proc F (Except ε α)}
    (h : Resolves L a p) : ∃ τ, Proc.Trace p τ (.ok a) ∧ ∀ e ∈ τ, L e := by
  induction p with
  | ret x =>
    cases h
    exact ⟨[], .ret _, nofun⟩
  | ask o k ih =>
    obtain ⟨r, hr⟩ := hans o
    obtain ⟨τ, hτ, hl⟩ := ih r (h r hr)
    exact ⟨⟨o, r⟩ :: τ, .ask r hτ, List.forall_mem_cons.mpr ⟨hr, hl⟩⟩

end

end Js

/-! ## The run with given answers -/

namespace Proc

variable {F : Iface} {α : Type} {ans : ∀ o : F.Op, F.Ans o} {p : Proc F α} {τ : List (Exch F)}
  {x : α}

/-- The run in which every question is answered by `ans`, and its result. -/
def follow (ans : ∀ o : F.Op, F.Ans o) : Proc F α → List (Exch F) × α
  | .ret x => ([], x)
  | .ask o k => (⟨o, ans o⟩ :: (follow ans (k (ans o))).1, (follow ans (k (ans o))).2)

theorem trace_follow : Trace p (follow ans p).1 (follow ans p).2 := by
  induction p with
  | ret x => exact .ret x
  | ask o k ih => exact .ask _ (ih _)

theorem forall_follow {L : Exch F → Prop} (h : ∀ o, L ⟨o, ans o⟩) :
    ∀ e ∈ (follow ans p).1, L e := by
  induction p with
  | ret x => exact List.forall_mem_nil _
  | ask o k ih => exact List.forall_mem_cons.mpr ⟨h o, ih _⟩

/-- There is no other run with these answers. -/
theorem eq_follow (h : Trace p τ x) (hτ : ∀ e ∈ τ, e.ans = ans e.op) : (follow ans p).2 = x := by
  induction h with
  | ret x => rfl
  | @ask o k τ x r h ih =>
    obtain ⟨hr, hrest⟩ := List.forall_mem_cons.mp hτ
    have hr : r = ans o := hr
    subst hr
    exact ih hrest

/-- What the run with these answers gives, every run with these answers gives. -/
theorem resolves_follow {ε : Type} {v : α} {q : Proc F (Except ε α)}
    (h : (follow ans q).2 = .ok v) : Js.Resolves (fun e => e.ans = ans e.op) v q := by
  induction q with
  | ret x => exact h
  | ask o k ih =>
    intro r hr
    have hr : r = ans o := hr
    subst hr
    exact ih (ans o) h

end Proc
end RezSdk
