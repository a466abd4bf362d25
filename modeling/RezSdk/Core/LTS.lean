import Mathlib.Logic.Relation

/-!
# Labelled transition systems

A system is a predicate of initial states and a labelled step relation.
`Run` follows a list of labels, `Reachable` is the end of some run from an
initial state, and `Inductive` is an invariant together with its two proof
obligations. `exec` follows a partial step function along a list of labels.
-/
namespace RezSdk

structure LTS (S L : Type) where
  init : S → Prop
  step : S → L → S → Prop

namespace LTS

variable {S L : Type}

inductive Run (T : LTS S L) : S → List L → S → Prop
  | nil (s : S) : Run T s [] s
  | cons {s s₁ s' : S} {l : L} {ls : List L} : T.step s l s₁ → Run T s₁ ls s' → Run T s (l :: ls) s'

def Reachable (T : LTS S L) (s : S) : Prop := ∃ s₀ ls, T.init s₀ ∧ T.Run s₀ ls s

/-- An invariant with its obligations: it holds initially and every step
keeps it. -/
structure Inductive (T : LTS S L) (J : S → Prop) : Prop where
  init : ∀ s, T.init s → J s
  step : ∀ s l s', J s → T.step s l s' → J s'

theorem Run.append {T : LTS S L} {s s₁ s' : S} {ls ls' : List L} (h : T.Run s ls s₁)
    (h' : T.Run s₁ ls' s') : T.Run s (ls ++ ls') s' := by
  induction h with
  | nil s => exact h'
  | cons hs _ ih => exact .cons hs (ih h')

/-- What every step keeps, a run keeps. -/
theorem Run.keeps {T : LTS S L} {J : S → Prop} (h : ∀ s l s', J s → T.step s l s' → J s')
    {s s' : S} {ls : List L} (hr : T.Run s ls s') : J s → J s' := by
  induction hr with
  | nil s => exact id
  | cons hs _ ih => exact fun hj => ih (h _ _ _ hj hs)

theorem Inductive.reachable {T : LTS S L} {J : S → Prop} (h : T.Inductive J) (s : S)
    (hr : T.Reachable s) : J s := by
  obtain ⟨s₀, ls, hi, hrun⟩ := hr
  exact hrun.keeps h.step (h.init s₀ hi)

/-- Follow a partial step function along a list of labels. -/
def exec (f : S → L → Option S) : S → List L → Option S
  | s, [] => some s
  | s, l :: ls => (f s l).bind fun s' => exec f s' ls

theorem run_of_exec {T : LTS S L} {f : S → L → Option S}
    (hf : ∀ s l s', f s l = some s' → T.step s l s') :
    ∀ {s : S} {ls : List L} {s' : S}, exec f s ls = some s' → T.Run s ls s'
  | s, [], s', h => by
    simp only [exec, Option.some.injEq] at h
    subst h; exact .nil s
  | s, l :: ls, s', h => by
    simp only [exec, Option.bind_eq_some_iff] at h
    obtain ⟨s₁, h₁, h₂⟩ := h
    exact .cons (hf s l s₁ h₁) (run_of_exec hf h₂)

end LTS
end RezSdk
