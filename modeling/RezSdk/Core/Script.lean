import RezSdk.Core.Object

/-!
# Scripts

A script says of each stretch of an object's methods what it does to the
fields, from where a call may run it and where the call stands afterwards, and
likewise of what is awaited. It is a monitor, and what one event of a pool can
do is then one of two turns.

* `Script.turn`: an event runs a legal stretch, or an outcome is heard.
-/
namespace RezSdk

structure Script (σ I Λ : Type) (E : Iface) (A : Type) where
  apply : Λ → I → σ → σ
  legal : A → Λ → Prop
  follow : A → I → σ → Λ → A
  asks : A → E.Op → Prop
  hears : A → (o : E.Op) → E.Ans o → A

section

variable {σ I Λ C R A : Type} {E : Iface}

namespace Script

def monitor (S : Script σ I Λ E A) : Monitor (object σ I Λ E) A where
  next
    | a, ⟨.run l _, (i, s)⟩ => S.follow a i s l
    | a, ⟨.await o, r⟩ => S.hears a o r
  may a
    | .run l g => g = S.apply l ∧ S.legal a l
    | .await o => S.asks a o

abbrev view (S : Script σ I Λ E A) (start : C → A) (s : Pool (object σ I Λ E) σ (ObjFate I E) C R)
    (t : Nat) : Option A :=
  System.view S.monitor start s t

/-- The stretch that an event ran. -/
def ran (e : Event (object σ I Λ E) (ObjFate I E)) : Option Λ :=
  match e.op with
  | .run l _ => some l
  | .await _ => none

/-- What an event does to the fields and to its own call. -/
inductive Turn (S : Script σ I Λ E A) (W : Environment σ E) (start : C → A)
    (s s' : Pool (object σ I Λ E) σ (ObjFate I E) C R)
    (e : Event (object σ I Λ E) (ObjFate I E)) : Prop
  | runs (l : Λ) (i : I) (a : A) (exch : e.exch = ⟨.run l (S.apply l), (i, s.mem)⟩)
      (mem : s'.mem = S.apply l i s.mem)
      (before : S.view start s e.tid = some a) (legal : S.legal a l)
      (after : S.view start s' e.tid = some (S.follow a i s.mem l))
  | hears (o : E.Op) (r : E.Ans o) (a : A) (exch : e.exch = ⟨.await o, r⟩)
      (allowed : W.allows s.mem o r = true)
      (mem : s'.mem = W.effect s.mem o r) (before : S.view start s e.tid = some a)
      (asks : S.asks a o)
      (after : S.view start s' e.tid = some (S.hears a o r))

section

variable {S : Script σ I Λ E A} {W : Environment σ E} {prog : C → Proc (object σ I Λ E) R}
  {L : Proc.Exch (object σ I Λ E) → Prop}
  {start : C → A} {Q : C → A → R → Prop} {s s' : Pool (object σ I Λ E) σ (ObjFate I E) C R}
  {e : Event (object σ I Λ E) (ObjFate I E)} {c : C} {k : (object σ I Λ E).Ans e.op →
  Proc (object σ I Λ E) R}

theorem turn (hc : System.Conforms S.monitor L start Q s)
    (hf : Pool.Fires (.ofObject W prog) s e c k s') : Turn S W start s s' e := by
  have hmay := hc.may hf
  have hafter : S.view start s' e.tid = some _ := System.view_self hf
  have hbefore : S.view start s e.tid = some _ := System.view_fired hf
  generalize Pool.mon S.monitor (start c) e.tid s.log = a at hmay hafter hbefore
  obtain ⟨l, g, i, hx, hmem⟩ | ⟨o, r, hx, hallowed, hmem⟩ := object_fires hf
  · have hop : e.op = .run l g := congrArg Proc.Exch.op hx
    rw [hop] at hmay
    obtain ⟨rfl, hlegal⟩ := hmay
    rw [hx] at hafter
    exact .runs l i a hx hmem hbefore hlegal hafter
  · have hop : e.op = .await o := congrArg Proc.Exch.op hx
    rw [hop] at hmay
    rw [hx] at hafter
    exact .hears o r a hx hallowed hmem hbefore hmay hafter

theorem ran_eq_some {l : Λ} (h : ran e = some l) : ∃ g x, e.exch = ⟨.run l g, x⟩ := by
  obtain ⟨t, op, ans, fate⟩ := e
  cases op with
  | run l' g =>
    cases h
    exact ⟨g, ans, rfl⟩
  | await o => cases h

theorem ran_run {l : Λ} {g : I → σ → σ} {x : I × σ} (h : e.exch = ⟨.run l g, x⟩) :
    ran e = some l := by
  have hop : e.op = .run l g := congrArg Proc.Exch.op h
  unfold ran
  rw [hop]

theorem ran_await {o : E.Op} {r : E.Ans o} (h : e.exch = ⟨.await o, r⟩) : ran e = none := by
  have hop : e.op = .await o := congrArg Proc.Exch.op h
  unfold ran
  rw [hop]

end

end Script
end
end RezSdk
