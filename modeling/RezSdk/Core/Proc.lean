import Mathlib.Logic.Basic

/-!
# Programs that ask their environment

A `Proc F α` is a finite tree: it returns a value, or it asks an operation of
the interface `F` and goes on with the answer. An asynchronous function of the
source is such a tree, one question for each `await` (or for each access to
state shared between calls), so an interleaving of calls at their await points
is an interleaving of the questions of their trees.

* `Proc.All P p`: every operation `p` can ever ask satisfies `P`, whatever the
  answers were.
* `Proc.Returns P p`, `Js.Ok P p`: every result, every resolved value of `p`
  satisfies `P`.
* `Proc.Trace p τ a`: `p` returns `a` after exchanging the questions and
  answers `τ`; `trace_bind` splits a trace at a sequencing point.
* `Js F ε`: programs that may throw (`Proc F (Except ε α)`), with `attempt`
  for `try`/`catch` and `finally`.
-/
namespace RezSdk

/-- The operations a program may ask, and the type of each answer. -/
structure Iface where
  Op : Type
  Ans : Op → Type

inductive Proc (F : Iface) (α : Type) where
  | ret (a : α)
  | ask (o : F.Op) (k : F.Ans o → Proc F α)

namespace Proc

variable {F : Iface} {α β γ : Type}

def bind : Proc F α → (α → Proc F β) → Proc F β
  | .ret a, f => f a
  | .ask o k, f => .ask o fun r => (k r).bind f

@[simp] theorem bind_ret (p : Proc F α) : p.bind .ret = p := by
  induction p with
  | ret a => rfl
  | ask o k ih => simp only [bind, ih]

theorem bind_assoc (p : Proc F α) (f : α → Proc F β) (g : β → Proc F γ) :
    (p.bind f).bind g = p.bind fun a => (f a).bind g := by
  induction p with
  | ret a => rfl
  | ask o k ih => simp only [bind, ih]

/-! ## Footprints -/

def All (P : F.Op → Prop) : Proc F α → Prop
  | .ret _ => True
  | .ask o k => P o ∧ ∀ r, (k r).All P

theorem all_bind {P : F.Op → Prop} {p : Proc F α} {f : α → Proc F β} (hp : p.All P)
    (hf : ∀ a, (f a).All P) : (p.bind f).All P := by
  induction p with
  | ret a => exact hf a
  | ask o k ih => exact ⟨hp.1, fun r => ih r (hp.2 r)⟩

theorem All.mono {P Q : F.Op → Prop} (h : ∀ o, P o → Q o) {p : Proc F α} (hp : p.All P) :
    p.All Q := by
  induction p with
  | ret a => trivial
  | ask o k ih => exact ⟨h o hp.1, fun r => ih r (hp.2 r)⟩

/-! ## Results -/

/-- Every result of the program satisfies `P`, whatever the answers were. -/
def Returns (P : α → Prop) : Proc F α → Prop
  | .ret x => P x
  | .ask _ k => ∀ r, (k r).Returns P

theorem Returns.mono {P Q : α → Prop} (h : ∀ x, P x → Q x) {p : Proc F α} (hp : p.Returns P) :
    p.Returns Q := by
  induction p with
  | ret x => exact h x hp
  | ask o k ih => exact fun r => ih r (hp r)

theorem returns_bind {P : β → Prop} {p : Proc F α} {f : α → Proc F β}
    (hp : p.Returns fun x => (f x).Returns P) : (p.bind f).Returns P := by
  induction p with
  | ret x => exact hp
  | ask o k ih => exact fun r => ih r (hp r)

/-! ## Traces -/

/-- A question and its answer. -/
structure Exch (F : Iface) where
  op : F.Op
  ans : F.Ans op

inductive Trace : Proc F α → List (Exch F) → α → Prop
  | ret (a : α) : Trace (.ret a) [] a
  | ask {o : F.Op} {k : F.Ans o → Proc F α} {τ : List (Exch F)} {a : α} (r : F.Ans o) :
      Trace (k r) τ a → Trace (.ask o k) (⟨o, r⟩ :: τ) a

theorem trace_ret {a b : α} {τ : List (Exch F)} : Trace (.ret a) τ b ↔ τ = [] ∧ b = a := by
  constructor
  · rintro ⟨⟩; exact ⟨rfl, rfl⟩
  · rintro ⟨rfl, rfl⟩; exact .ret _

theorem trace_ask {o : F.Op} {k : F.Ans o → Proc F α} {τ : List (Exch F)} {b : α} :
    Trace (.ask o k) τ b ↔ ∃ r τ', τ = ⟨o, r⟩ :: τ' ∧ Trace (k r) τ' b := by
  constructor
  · intro h
    cases h with
    | ask r h => exact ⟨r, _, rfl, h⟩
  · rintro ⟨r, τ', rfl, h⟩; exact .ask r h

theorem trace_bind {p : Proc F α} {f : α → Proc F β} {τ : List (Exch F)} {b : β} :
    Trace (p.bind f) τ b ↔ ∃ τ₁ τ₂ a, τ = τ₁ ++ τ₂ ∧ Trace p τ₁ a ∧ Trace (f a) τ₂ b := by
  induction p generalizing τ with
  | ret a =>
    simp only [bind]
    constructor
    · exact fun h => ⟨[], τ, a, rfl, .ret a, h⟩
    · rintro ⟨τ₁, τ₂, a', rfl, h₁, h₂⟩
      obtain ⟨rfl, rfl⟩ := trace_ret.mp h₁
      exact h₂
  | ask o k ih =>
    simp only [bind, trace_ask]
    constructor
    · rintro ⟨r, τ', rfl, h⟩
      obtain ⟨τ₁, τ₂, a, rfl, h₁, h₂⟩ := (ih r).mp h
      exact ⟨⟨o, r⟩ :: τ₁, τ₂, a, rfl, ⟨r, τ₁, rfl, h₁⟩, h₂⟩
    · rintro ⟨τ₁, τ₂, a, rfl, ⟨r, τ', rfl, h₁⟩, h₂⟩
      exact ⟨r, τ' ++ τ₂, rfl, (ih r).mpr ⟨τ', τ₂, a, rfl, h₁, h₂⟩⟩

end Proc

/-! ## Programs that may throw -/

/-- An asynchronous function: it resolves with a value or rejects with an
error. -/
def Js (F : Iface) (ε α : Type) : Type := Proc F (Except ε α)

namespace Js

variable {F : Iface} {ε α β : Type}

/-- What follows a step: go on with its value, or pass its error up. -/
def cont (f : α → Js F ε β) : Except ε α → Proc F (Except ε β)
  | .ok a => f a
  | .error e => .ret (.error e)

def bind (p : Js F ε α) (f : α → Js F ε β) : Js F ε β := Proc.bind p (cont f)

instance : Monad (Js F ε) where
  pure a := Proc.ret (.ok a)
  bind := bind

/-- Run `p` and hand its outcome, value or error, to `f`: the body of a
`try` with what its `catch` or `finally` does. -/
def attempt (p : Js F ε α) (f : Except ε α → Js F ε β) : Js F ε β := Proc.bind p f

instance : MonadExcept ε (Js F ε) where
  throw e := Proc.ret (.error e)
  tryCatch p h := p.attempt fun
    | .ok a => Proc.ret (.ok a)
    | .error e => h e

/-- `if (!x) throw e`, keeping `x`. -/
def orThrow (x : Option α) (e : ε) : Js F ε α :=
  match x with
  | some a => pure a
  | none => throw e

/-- `if (!c) throw e`. -/
def ensure (c : Bool) (e : ε) : Js F ε Unit := if c then pure () else throw e

/-- A computation that resolves or rejects without waiting. -/
def ofExcept (x : Except ε α) : Js F ε α := .ret x

theorem pure_bind (a : α) (f : α → Js F ε β) : (pure a >>= f : Js F ε β) = f a := rfl

theorem bind_assoc {γ : Type} (p : Js F ε α) (f : α → Js F ε β) (g : β → Js F ε γ) :
    ((p >>= f) >>= g : Js F ε γ) = p >>= fun a => f a >>= g := by
  refine (Proc.bind_assoc p (cont f) (cont g)).trans (congrArg (Proc.bind p) (funext fun x => ?_))
  cases x <;> rfl

theorem trace_bind_ok {p : Js F ε α} {f : α → Js F ε β} {τ : List (Proc.Exch F)} {b : β} :
    Proc.Trace (p >>= f : Js F ε β) τ (.ok b) ↔
      ∃ τ₁ τ₂ a, τ = τ₁ ++ τ₂ ∧ Proc.Trace p τ₁ (.ok a) ∧ Proc.Trace (f a) τ₂ (.ok b) := by
  refine Proc.trace_bind.trans ⟨?_, ?_⟩
  · rintro ⟨τ₁, τ₂, a | a, rfl, h₁, h₂⟩
    · cases h₂
    · exact ⟨τ₁, τ₂, a, rfl, h₁, h₂⟩
  · rintro ⟨τ₁, τ₂, a, rfl, h₁, h₂⟩
    exact ⟨τ₁, τ₂, .ok a, rfl, h₁, h₂⟩

theorem trace_bind_error {p : Js F ε α} {f : α → Js F ε β} {τ : List (Proc.Exch F)} {e : ε} :
    Proc.Trace (p >>= f : Js F ε β) τ (.error e) ↔
      Proc.Trace p τ (.error e) ∨
      ∃ τ₁ τ₂ a, τ = τ₁ ++ τ₂ ∧ Proc.Trace p τ₁ (.ok a) ∧ Proc.Trace (f a) τ₂ (.error e) := by
  refine Proc.trace_bind.trans ⟨?_, ?_⟩
  · rintro ⟨τ₁, τ₂, a | a, rfl, h₁, h₂⟩
    · obtain ⟨rfl, h⟩ := Proc.trace_ret.mp h₂
      cases h
      exact .inl (by rwa [List.append_nil])
    · exact .inr ⟨τ₁, τ₂, a, rfl, h₁, h₂⟩
  · rintro (h | ⟨τ₁, τ₂, a, rfl, h₁, h₂⟩)
    · exact ⟨τ, [], .error e, (List.append_nil τ).symm, h, .ret _⟩
    · exact ⟨τ₁, τ₂, .ok a, rfl, h₁, h₂⟩

theorem all_bind {P : F.Op → Prop} {p : Js F ε α} {f : α → Js F ε β} (hp : Proc.All P p)
    (hf : ∀ a, Proc.All P (f a)) : Proc.All P (p >>= f : Js F ε β) :=
  Proc.all_bind hp fun
    | .ok a => hf a
    | .error _ => trivial

theorem all_attempt {P : F.Op → Prop} {p : Js F ε α} {f : Except ε α → Js F ε β}
    (hp : Proc.All P p) (hf : ∀ x, Proc.All P (f x)) : Proc.All P (p.attempt f) :=
  Proc.all_bind hp hf

theorem all_orThrow (P : F.Op → Prop) (x : Option α) (e : ε) :
    Proc.All P (orThrow x e : Js F ε α) := by
  cases x <;> trivial

theorem all_ensure (P : F.Op → Prop) (c : Bool) (e : ε) :
    Proc.All P (ensure c e : Js F ε Unit) := by
  cases c <;> trivial

/-- Every value the function resolves with satisfies `P`. -/
def Ok (P : α → Prop) (p : Js F ε α) : Prop := Proc.Returns (fun x => ∀ a, x = .ok a → P a) p

theorem ok_bind {P : α → Prop} {Q : β → Prop} {p : Js F ε α} {f : α → Js F ε β} (hp : Ok P p)
    (hf : ∀ a, P a → Ok Q (f a)) : Ok Q (p >>= f : Js F ε β) := by
  refine Proc.returns_bind (Proc.Returns.mono (fun x hx => ?_) hp)
  cases x with
  | ok a => exact hf a (hx a rfl)
  | error e => exact fun _ h => by cases h

theorem ok_pure {P : α → Prop} {a : α} (h : P a) : Ok P (pure a : Js F ε α) := by
  rintro _ ⟨⟩
  exact h

theorem ok_throw {P : α → Prop} {e : ε} : Ok P (throw e : Js F ε α) := fun _ h => by cases h

theorem ok_any {p : Js F ε α} : Ok (fun _ => True) p := by
  induction p with
  | ret x => exact fun _ _ => trivial
  | ask o k ih => exact ih

/-- A step whose value does not matter. -/
theorem ok_skip {Q : β → Prop} {p : Js F ε α} {f : α → Js F ε β} (hf : ∀ a, Ok Q (f a)) :
    Ok Q (p >>= f : Js F ε β) := ok_bind ok_any fun a _ => hf a

theorem ok_orThrow {P : α → Prop} {x : Option α} {e : ε} (h : ∀ a, x = some a → P a) :
    Ok P (orThrow x e : Js F ε α) := by
  cases x with
  | none => exact ok_throw
  | some a => exact ok_pure (h a rfl)

/-- Every error the function rejects with satisfies `P`, as long as the
answers are lawful. -/
def Throws (L : Proc.Exch F → Prop) (P : ε → Prop) : Proc F (Except ε α) → Prop
  | .ret x => ∀ e, x = .error e → P e
  | .ask o k => ∀ r, L ⟨o, r⟩ → Throws L P (k r)

section

variable {L : Proc.Exch F → Prop} {P : ε → Prop}

theorem throws_pure {a : α} : Throws L P (pure a : Js F ε α) := fun _ h => by cases h

theorem throws_throw {e : ε} (h : P e) : Throws L P (throw e : Js F ε α) := by
  rintro _ ⟨⟩
  exact h

theorem throws_proc_bind {ε' : Type} {P' : ε' → Prop} {p : Proc F (Except ε' α)}
    {f : Except ε' α → Proc F (Except ε β)} (hp : Throws L P' p)
    (hf : ∀ x, (∀ e, x = .error e → P' e) → Throws L P (f x)) : Throws L P (p.bind f) := by
  induction p with
  | ret x => exact hf x hp
  | ask o k ih => exact fun r hr => ih r (hp r hr)

theorem throws_bind {p : Js F ε α} {f : α → Js F ε β} (hp : Throws L P p)
    (hf : ∀ a, Throws L P (f a)) : Throws L P (p >>= f : Js F ε β) := by
  refine throws_proc_bind hp fun x hx => ?_
  cases x with
  | ok a => exact hf a
  | error e => exact fun _ h => by cases h; exact hx e rfl

/-- A step whose value is known something about. -/
theorem throws_ok_bind {R : α → Prop} {p : Js F ε α} {f : α → Js F ε β} (hp : Throws L P p)
    (hr : Ok R p) (hf : ∀ a, R a → Throws L P (f a)) : Throws L P (p >>= f : Js F ε β) := by
  have hboth : ∀ p : Proc F (Except ε α), Throws L P p → Ok R p → Throws L P (p.bind (cont f)) := by
    intro p
    induction p with
    | ret x =>
      intro hp hr
      cases x with
      | ok a => exact hf a (hr a rfl)
      | error e => exact fun _ h => by cases h; exact hp e rfl
    | ask o k ih => exact fun hp hr r hl => ih r (hp r hl) (hr r)
  exact hboth p hp hr

/-- The handler of a `catch` decides. -/
theorem throws_attempt {p : Js F ε α} {f : Except ε α → Js F ε β} (hf : ∀ x, Throws L P (f x)) :
    Throws L P (p.attempt f) := by
  have hany : ∀ p : Proc F (Except ε α), Throws L P (p.bind f) := by
    intro p
    induction p with
    | ret x => exact hf x
    | ask o k ih => exact fun r _ => ih r
  exact hany p

theorem throws_orThrow {x : Option α} {e : ε} (h : P e) : Throws L P (orThrow x e : Js F ε α) := by
  cases x with
  | none => exact throws_throw h
  | some a => exact throws_pure

theorem throws_ensure {c : Bool} {e : ε} (h : P e) : Throws L P (ensure c e : Js F ε Unit) := by
  cases c with
  | false => exact throws_throw h
  | true => exact throws_pure

/-- A check that is known to pass. -/
theorem throws_passed {c : Bool} {e : ε} (h : c = true) :
    Throws L P (ensure c e : Js F ε Unit) := by
  subst h
  exact throws_pure

end

end Js
end RezSdk
