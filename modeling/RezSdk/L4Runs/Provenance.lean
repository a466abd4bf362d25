import RezSdk.Core.Histories
import RezSdk.L4Runs.Filing

/-!
# Where stored values come from

Any programs over the memory of one service (`L2Storage/Machine`).

* `traced_inductive`: what a write keeps, if every value that was read had it, every
  stored value and every value that is ever read has.
* `Drawn.once`: no two calls draw one id.
-/
namespace RezSdk.L4.Provenance

open RezSdk.L1 RezSdk.L2 RezSdk.L3

variable {Snap C R : Type}

abbrev Run (Snap C R : Type) := Pool (sdk Snap) (Mem Snap) Fate C R

section

variable {core : Core Snap} {prog : C → Proc (sdk Snap) R}
  {D : Discipline (sdk Snap) (Mem Snap) Fate C R} {s s' : Run Snap C R}
  {e : Event (sdk Snap) Fate} {c : C} {next : (sdk Snap).Ans e.op → Proc (sdk Snap) R}

/-! ## Values -/

/-- The value is stored under `k`, or was read there. -/
inductive Seen (s : Run Snap C R) (k : Key) (v : Val Snap k) : Prop
  | stored : s.mem.kv.lookup k = some v → Seen s k v
  | read {e : Event (sdk Snap) Fate} : e ∈ s.log → e.exch = ⟨.get k, .ok (some v)⟩ → Seen s k v

def Traced (P : Run Snap C R → (k : Key) → Val Snap k → Prop) (s : Run Snap C R) : Prop :=
  ∀ k v, Seen s k v → P s k v

/-- What was seen before an event, or was written by it. -/
theorem Seen.fires {k : Key} {v : Val Snap k} (h : Seen s' k v)
    (hf : Pool.Fires ⟨act core, prog⟩ s e c next s') : Seen s k v ∨ e.op = .set k v := by
  cases h with
  | stored hv =>
    rw [act_kv hf.act] at hv
    rcases lookup_effect hv with hv | ⟨hop, -⟩
    · exact .inl (.stored hv)
    · exact .inr hop
  | @read e' he' hx =>
    rw [hf.log] at he'
    rcases List.mem_cons.mp he' with rfl | he'
    · obtain ⟨t, op, r, f⟩ := e'
      simp only [Event.exch, Proc.Exch.mk.injEq] at hx
      obtain ⟨rfl, hr⟩ := hx
      cases hr
      exact .inl (.stored (act_get_ok hf.act))
    · exact .inl (.read he' hx)

theorem Seen.spawn {k : Key} {v : Val Snap k} (h : Seen (s.spawn ⟨act core, prog⟩ c) k v) :
    Seen s k v := by
  cases h with
  | stored hv => exact .stored hv
  | read he hx => exact .read he hx

/-- What a step must keep. -/
structure Traces (core : Core Snap) (prog : C → Proc (sdk Snap) R) (J : Run Snap C R → Prop)
    (P : Run Snap C R → (k : Key) → Val Snap k → Prop) : Prop where
  spawn : ∀ s c k v, P s k v → P (s.spawn ⟨act core, prog⟩ c) k v
  fires : ∀ s e c next s' k v, Pool.Fires ⟨act core, prog⟩ s e c next s' → P s k v → P s' k v
  set : ∀ s e c next s' k v, Pool.Fires ⟨act core, prog⟩ s e c next s' → J s →
    Traced P s → e.op = .set k v → P s' k v

variable {J : Run Snap C R → Prop} {P : Run Snap C R → (k : Key) → Val Snap k → Prop}

theorem traced_inductive (hP : Traces core prog J P)
    (hJ : ((⟨act core, prog⟩ : System _ _ _ _ _).lts D).Inductive J)
    (hinit : ∀ m, D.init m → ∀ k v, m.kv.lookup k = some v → P ⟨m, [], []⟩ k v) :
    ((⟨act core, prog⟩ : System _ _ _ _ _).lts D).Inductive fun s => J s ∧ Traced P s where
  init s hs := by
    obtain ⟨m, threads, log⟩ := s
    refine ⟨hJ.init _ hs, fun k v hv => ?_⟩
    obtain ⟨hm, rfl, rfl⟩ := hs
    cases hv with
    | stored hv => exact hinit m hm k v hv
    | read he _ => cases he
  step s l s' h hs := by
    obtain ⟨hj, ht⟩ := h
    refine ⟨hJ.step s l s' hj hs, fun k v hv => ?_⟩
    obtain ⟨c, hc, rfl⟩ | ⟨e, c, next, hf, hok⟩ := System.step_cases hs
    · exact hP.spawn s c k v (ht k v hv.spawn)
    · rcases hv.fires hf with hv | hop
      · exact hP.fires _ _ _ _ _ k v hf (ht k v hv)
      · exact hP.set _ _ _ _ _ k v hf hj ht hop

/-- What is written and never deleted stays. -/
theorem stays_inductive {k : Key} (hJ : ((⟨act core, prog⟩ : System _ _ _ _ _).lts D).Inductive J)
    (hdelete :
        ∀ s e c next s', J s → Pool.Fires ⟨act core, prog⟩ s e c next s' → e.op ≠ .delete k) :
    ((⟨act core, prog⟩ : System _ _ _ _ _).lts D).Inductive fun s => J s ∧ ∀ e ∈ s.log, ∀ v, e.exch
      = ⟨.set k v, .ok ()⟩ → (s.mem.kv.lookup k).isSome = true where
  init s hs := by
    refine ⟨hJ.init s hs, fun e he => ?_⟩
    rw [hs.2.2] at he
    cases he
  step s l s' h hs := by
    obtain ⟨hj, hstays⟩ := h
    refine ⟨hJ.step s l s' hj hs, ?_⟩
    obtain ⟨c, hc, rfl⟩ | ⟨e, c, next, hf, hok⟩ := System.step_cases hs
    · exact hstays
    · intro e' he' v hx
      rw [act_kv hf.act]
      rw [hf.log] at he'
      rcases List.mem_cons.mp he' with rfl | he'
      · obtain ⟨t, op, r, f⟩ := e'
        simp only [Event.exch, Proc.Exch.mk.injEq] at hx
        obtain ⟨rfl, hr⟩ := hx
        cases hr
        simp [effect, act_set_ok hf.act]
      · exact isSome_effect (hstays e' he' v hx) fun hop => absurd hop (hdelete _ _ _ _ _ hj hf)

/-! ## Ids -/

/-- The id that is drawn here. -/
def drawnId : Proc.Exch (sdk Snap) → Option Id
  | ⟨.runtimeUuid, i⟩ => some i
  | ⟨.stableId _, i⟩ => some i
  | _ => none

theorem act_drawn {t : Nat} {m m' : Mem Snap} {o : Op Snap} {f : Fate} {r : o.Ans} {i : Id}
    (h : act core t m o f = some (r, m')) (hi : drawnId ⟨o, r⟩ = some i) :
    i ∉ m.used ∧ i ∈ m'.used := by
  cases o with
  | runtimeUuid =>
    cases hi
    exact act_uuid h
  | stableId kind =>
    cases hi
    exact act_stableId h
  | _ => cases hi

/-- What was drawn is in use, and was not before. -/
structure Drawn (s : Run Snap C R) : Prop where
  used : ∀ e ∈ s.log, ∀ i, drawnId e.exch = some i → i ∈ s.mem.used
  fresh : ∀ newer e older, s.log = newer ++ e :: older → ∀ i, drawnId e.exch = some i →
    ∀ y ∈ older, drawnId y.exch ≠ some i

theorem Drawn.once (h : Drawn s) {t t' : Nat} {x x' : Proc.Exch (sdk Snap)} {i : Id}
    (hx : x ∈ Pool.history t s.log) (hx' : x' ∈ Pool.history t' s.log) (hi : drawnId x = some i)
    (hi' : drawnId x' = some i) : t = t' := by
  obtain ⟨e, he, rfl, rfl⟩ := Pool.mem_history.mp hx
  obtain ⟨e', he', rfl, rfl⟩ := Pool.mem_history.mp hx'
  have hsame : e = e' := by
    refine eq_of_fresh (q := fun e : Event (sdk Snap) Fate => drawnId e.exch = some i)
      (fun newer x older hlog hdrawn => ?_) he he' hi hi'
    exact h.fresh newer x older hlog i hdrawn
  rw [hsame]

theorem Drawn.fires (h : Drawn s) (hf : Pool.Fires ⟨act core, prog⟩ s e c next s') : Drawn s' where
  used e' he' i hi := by
    rw [hf.log] at he'
    rcases List.mem_cons.mp he' with rfl | he'
    · exact (act_drawn hf.act hi).2
    · exact act_used hf.act (h.used e' he' i hi)
  fresh newer e' older hlog i hi := by
    rw [hf.log] at hlog
    cases newer with
    | nil =>
      obtain ⟨rfl, rfl⟩ := List.cons.inj hlog
      intro y hy hdrawn
      exact (act_drawn hf.act hi).1 (h.used y hy i hdrawn)
    | cons e₁ newer => exact h.fresh newer e' older (List.cons.inj hlog).2 i hi

theorem drawn_inductive : ((⟨act core, prog⟩ : System _ _ _ _ _).lts D).Inductive Drawn := by
  refine System.inductive_of (fun m hm => ⟨fun e he => ?_, fun newer e older hlog => ?_⟩)
    (fun s c h _ => ⟨h.used, h.fresh⟩) fun s e c next s' h hf _ => h.fires hf
  · simp at he
  · simp at hlog

end

end RezSdk.L4.Provenance
