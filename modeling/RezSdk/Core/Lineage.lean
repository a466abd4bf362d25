import Mathlib.Logic.Relation

/-!
# Write histories of one cell

A cell holds a value that only moves along a relation `R` (a ratchet, a
version, a generation). Each write is made by someone, from a base value, and
stores a value. `History R x₀ ws` says how the writes `ws` of a cell with
initial value `x₀` came about, newest first:

* `advance`: from the value the cell holds now, one step of `R` or none;
* `again`: the writer repeats a write whose value the cell still holds;
* `reset`: a value that leads to nothing written before.

If `R` has no cycle, such a history never goes back (`no_rollback`) and no
base is stepped from twice by different writers (`no_reuse`).
-/
namespace RezSdk.Lineage

open Relation

structure Write (S : Type) where
  who : Nat
  base : S
  snap : S
deriving DecidableEq

variable {S : Type} {R : S → S → Prop} {x₀ : Option S}

/-- The value the cell holds after the writes `ws`. -/
def current (x₀ : Option S) : List (Write S) → Option S
  | [] => x₀
  | w :: _ => some w.snap

inductive History (R : S → S → Prop) (x₀ : Option S) : List (Write S) → Prop
  | nil : History R x₀ []
  | advance {ws : List (Write S)} {w : Write S} : History R x₀ ws →
      current x₀ ws = some w.base → ReflGen R w.base w.snap → History R x₀ (w :: ws)
  | again {ws : List (Write S)} {w : Write S} : History R x₀ ws →
      current x₀ ws = some w.snap → w ∈ ws → History R x₀ (w :: ws)
  | reset {ws : List (Write S)} {w : Write S} : History R x₀ ws →
      w.base = w.snap → (∀ v ∈ ws, ¬ ReflTransGen R w.snap v.snap) → History R x₀ (w :: ws)

def NoCycle (R : S → S → Prop) : Prop := ∀ s, ¬ TransGen R s s

theorem ReflGen.trans_transGen {a b c : S} (h : ReflGen R a b) (h' : TransGen R b c) :
    TransGen R a c := by
  cases h with
  | refl => exact h'
  | single h => exact .head h h'

/-- The current value does not lead to any value written so far. -/
theorem not_before (hR : NoCycle R) {ws : List (Write S)} (h : History R x₀ ws) :
    ∀ x, current x₀ ws = some x → ∀ w ∈ ws, ¬ TransGen R x w.snap := by
  induction h with
  | nil => exact fun _ _ _ hw => absurd hw List.not_mem_nil
  | @advance ws w _ hcur hstep ih =>
    rintro x hx v hv ht
    cases hx
    rcases List.mem_cons.mp hv with rfl | hv
    · exact hR _ ht
    · exact ih _ hcur v hv (ReflGen.trans_transGen hstep ht)
  | @again ws w _ hcur hw ih =>
    rintro x hx v hv ht
    cases hx
    rcases List.mem_cons.mp hv with rfl | hv
    · exact hR _ ht
    · exact ih _ hcur v hv ht
  | @reset ws w _ _ hnew _ =>
    rintro x hx v hv ht
    cases hx
    rcases List.mem_cons.mp hv with rfl | hv
    · exact hR _ ht
    · exact hnew v hv ht.to_reflTransGen

/-- When the current value leads to an earlier write's, the cell has not
moved since that write. -/
theorem still_since (hR : NoCycle R) {ws : List (Write S)} (h : History R x₀ ws) :
    ∀ x (newer : List (Write S)) w older, current x₀ ws = some x → ws = newer ++ w :: older →
      ReflTransGen R x w.snap → ∀ v ∈ newer, v.snap = w.snap := by
  induction h with
  | nil =>
    intro x newer w older _ heq
    exact absurd heq.symm (by simp)
  | @advance ws h' hist hcur hstep ih =>
    intro x newer w older hx heq hle v hv
    cases hx
    cases newer with
    | nil => exact absurd hv List.not_mem_nil
    | cons n newer =>
      obtain ⟨rfl, rfl⟩ := List.cons.inj heq
      have hw : w ∈ newer ++ w :: older := List.mem_append_right _ (.head _)
      have heqsnap : h'.snap = w.snap := by
        rcases (reflTransGen_iff_eq_or_transGen.mp hle) with he | ht
        · exact he.symm
        · exact absurd (ReflGen.trans_transGen hstep ht) (not_before hR hist _ hcur w hw)
      rcases List.mem_cons.mp hv with rfl | hv
      · exact heqsnap
      · exact ih _ newer w older hcur rfl (hstep.to_reflTransGen.trans hle) v hv
  | @again ws h' hist hcur _ ih =>
    intro x newer w older hx heq hle v hv
    cases hx
    cases newer with
    | nil => exact absurd hv List.not_mem_nil
    | cons n newer =>
      obtain ⟨rfl, rfl⟩ := List.cons.inj heq
      have hw : w ∈ newer ++ w :: older := List.mem_append_right _ (.head _)
      rcases List.mem_cons.mp hv with rfl | hv
      · rcases (reflTransGen_iff_eq_or_transGen.mp hle) with he | ht
        · exact he.symm
        · exact absurd ht (not_before hR hist _ hcur w hw)
      · exact ih _ newer w older hcur rfl hle v hv
  | @reset ws h' _ _ hnew _ =>
    intro x newer w older hx heq hle v hv
    cases hx
    cases newer with
    | nil => exact absurd hv List.not_mem_nil
    | cons n newer =>
      obtain ⟨rfl, rfl⟩ := List.cons.inj heq
      exact absurd hle (hnew w (List.mem_append_right _ (.head _)))

/-- A write never stores, over another value, something made from a base that
is older than that value. -/
theorem no_rollback (hR : NoCycle R) {ws : List (Write S)} (h : History R x₀ ws) :
    ∀ (newer : List (Write S)) w older, ws = newer ++ w :: older → ∀ v ∈ older,
      v.snap = w.snap ∨ ¬ TransGen R w.base v.snap := by
  induction h with
  | nil =>
    intro newer w older heq
    exact absurd heq.symm (by simp)
  | @advance ws h' hist hcur hstep ih =>
    intro newer w older heq v hv
    cases newer with
    | nil =>
      obtain ⟨rfl, rfl⟩ := List.cons.inj heq
      exact .inr (not_before hR hist _ hcur v hv)
    | cons n newer => exact ih newer w older (List.cons.inj heq).2 v hv
  | @again ws h' hist hcur hmem ih =>
    intro newer w older heq v hv
    cases newer with
    | nil =>
      obtain ⟨rfl, rfl⟩ := List.cons.inj heq
      -- look at the write that is repeated: `v` came before it, is it, or came after it
      obtain ⟨between, before, rfl⟩ := List.append_of_mem hmem
      rcases List.mem_append.mp hv with hv | hv
      · exact .inl (still_since hR hist _ between h' before hcur rfl .refl v hv)
      · rcases List.mem_cons.mp hv with rfl | hv
        · exact .inl rfl
        · exact ih between h' before rfl v hv
    | cons n newer => exact ih newer w older (List.cons.inj heq).2 v hv
  | @reset ws h' _ hb hnew ih =>
    intro newer w older heq v hv
    cases newer with
    | nil =>
      obtain ⟨rfl, rfl⟩ := List.cons.inj heq
      exact .inr fun ht => hnew v hv (hb ▸ ht.to_reflTransGen)
    | cons n newer => exact ih newer w older (List.cons.inj heq).2 v hv

theorem History.tail {w : Write S} {ws : List (Write S)} (h : History R x₀ (w :: ws)) :
    History R x₀ ws := by
  cases h with
  | advance h => exact h
  | again h => exact h
  | reset h => exact h

def OneWriter (R : S → S → Prop) (w v : Write S) : Prop :=
  R w.base w.snap → R v.base v.snap → w.base = v.base → w.who = v.who

theorem OneWriter.symm {w v : Write S} (h : OneWriter R w v) : OneWriter R v w :=
  fun hv hw heq => (h hw hv heq.symm).symm

/-- The newest write against an older one. -/
theorem newest_oneWriter (hR : NoCycle R) {w : Write S} {ws : List (Write S)}
    (h : History R x₀ (w :: ws)) (ih : ∀ u ∈ ws, ∀ v ∈ ws, OneWriter R u v) :
    ∀ v ∈ ws, OneWriter R w v := by
  intro v hv hw hrv heq
  cases h with
  | advance hist hcur _ =>
    exact absurd (heq ▸ TransGen.single hrv) (not_before hR hist _ hcur v hv)
  | again _ _ hmem => exact ih w hmem v hv hw hrv heq
  | reset _ hb _ => exact absurd (.single (hb ▸ hw)) (hR w.snap)

/-- Two writes that step from one base have the same writer. -/
theorem no_reuse (hR : NoCycle R) {ws : List (Write S)} (h : History R x₀ ws) :
    ∀ w ∈ ws, ∀ v ∈ ws, OneWriter R w v := by
  induction ws with
  | nil => exact fun _ hw => absurd hw List.not_mem_nil
  | cons u ws ih =>
    have hold := ih h.tail
    have hnew := newest_oneWriter hR h hold
    intro w hw v hv
    rcases List.mem_cons.mp hw with rfl | hw' <;> rcases List.mem_cons.mp hv with rfl | hv'
    · exact fun _ _ _ => rfl
    · exact hnew v hv'
    · exact (hnew w hw').symm
    · exact hold w hw' v hv'

end RezSdk.Lineage
