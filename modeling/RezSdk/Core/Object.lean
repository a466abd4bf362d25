import RezSdk.Core.Pool

/-!
# Objects with asynchronous methods

The methods of an object run without interruption from one `await` to the
next. A program over `object σ I Λ E` therefore has two kinds of operations:
`run l g` is one such stretch of code, named `l`; it reads the object's fields
and the synchronous inputs of this moment (the clock, a random value) and
leaves the fields `g` computes. `await o` is the outcome of an asynchronous
call of the interface `E`. What an outcome does to the state, and which
outcomes are possible in it, is the `Environment`'s.

* `stretch`: a stretch that may throw; what it has written stays written.
* `System.ofObject`: any number of method calls on one object. A fate gives
  the synchronous inputs, and an answer for what may be awaited.
* `object_fires`: what one event can do.
-/
namespace RezSdk

inductive ObjOp (σ I Λ : Type) (E : Iface)
  | run (l : Λ) (g : I → σ → σ)
  | await (o : E.Op)

section

variable {σ I Λ ε α C R : Type} {E : Iface}

/-- A stretch sees the inputs and the fields as they were. -/
abbrev ObjOp.Ans : ObjOp σ I Λ E → Type
  | .run _ _ => I × σ
  | .await o => E.Ans o

abbrev object (σ I Λ : Type) (E : Iface) : Iface := ⟨ObjOp σ I Λ E, ObjOp.Ans⟩

/-- A method of the object. -/
abbrev Method (σ I Λ : Type) (E : Iface) (ε α : Type) : Type := Js (object σ I Λ E) ε α

def stretch (l : Λ) (f : I → σ → Except ε α × σ) : Method σ I Λ E ε α :=
  .ask (.run l fun i s => (f i s).2) fun x => .ret (f x.1 x.2).1

structure Environment (σ : Type) (E : Iface) where
  /-- the outcome is possible now -/
  allows : σ → (o : E.Op) → E.Ans o → Bool
  effect : σ → (o : E.Op) → E.Ans o → σ

/-- Callbacks that may answer anything at any time, and do nothing to the
object. -/
def Environment.callbacks : Environment σ E where
  allows _ _ _ := true
  effect s _ _ := s

structure ObjFate (I : Type) (E : Iface) where
  input : I
  answer : (o : E.Op) → Option (E.Ans o)

def objAct (W : Environment σ E) (s : σ) : (o : ObjOp σ I Λ E) → ObjFate I E → Option (o.Ans × σ)
  | .run _ g, f => some ((f.input, s), g f.input s)
  | .await o, f =>
    (f.answer o).bind fun r => if W.allows s o r then some (r, W.effect s o r) else none

def System.ofObject (W : Environment σ E) (prog : C → Proc (object σ I Λ E) R) :
    System (object σ I Λ E) σ (ObjFate I E) C R :=
  ⟨fun _ => objAct W, prog⟩

/-- What an event of an object does: a stretch sees the state it found and
leaves what it computes, an outcome is one the world allows. -/
theorem object_fires {W : Environment σ E} {prog : C → Proc (object σ I Λ E) R}
    {s s' : Pool (object σ I Λ E) σ (ObjFate I E) C R} {e : Event (object σ I Λ E) (ObjFate I E)}
    {c : C} {k : (object σ I Λ E).Ans e.op → Proc (object σ I Λ E) R}
    (hf : Pool.Fires (.ofObject W prog) s e c k s') :
    (∃ l g i, e.exch = ⟨.run l g, (i, s.mem)⟩ ∧ s'.mem = g i s.mem) ∨
    ∃ o r, e.exch = ⟨.await o, r⟩ ∧ W.allows s.mem o r = true ∧ s'.mem = W.effect s.mem o r := by
  have hact := hf.act
  obtain ⟨t, op, ans, fate⟩ := e
  dsimp only [System.ofObject] at hact
  cases op with
  | run l g =>
    rw [objAct, Option.some.injEq, Prod.mk.injEq] at hact
    obtain ⟨rfl, hs⟩ := hact
    exact .inl ⟨l, g, fate.input, rfl, hs.symm⟩
  | await o =>
    obtain ⟨r, -, hr⟩ := Option.bind_eq_some_iff.mp hact
    split at hr
    · rw [Option.some.injEq, Prod.mk.injEq] at hr
      obtain ⟨rfl, hs⟩ := hr
      exact .inr ⟨o, r, rfl, ‹_›, hs.symm⟩
    · cases hr

end
end RezSdk
