import RezSdk.L2Storage.Machine

/-!
# Read-modify-write windows

A store operation that reads a key, works out a new value and writes it back
is two separate operations of the key-value store. `undisturbed k t log` says
that the window of call `t` on key `k` is still clean: nothing was written
under `k` since `t` last read it, so `k` still holds what `t` has read
(`undisturbed_step`).
-/
namespace RezSdk.L4

open RezSdk.L2

variable {Snap C R : Type}

/-- The operation reads `k`. -/
def reads (k : Key) : Op Snap → Bool
  | .get k' => k' = k
  | _ => false

/-- The operation, with this fate, writes or deletes `k`. -/
def alters (k : Key) : Op Snap → Fate → Bool
  | .set k' _, f => k' = k && f.lands
  | .delete k', f => k' = k && f.lands
  | _, _ => false

/-- Nothing was written under `k` since call `t` last read it. -/
def undisturbed (k : Key) (t : Nat) : List (Event (sdk Snap) Fate) → Bool
  | [] => false
  | e :: log => (e.tid = t && reads k e.op) || (!alters k e.op e.fate && undisturbed k t log)

theorem lookup_unaltered {kv : Store Snap} {k : Key} {o : Op Snap} {f : Fate}
    (h : alters k o f = false) : (effect kv o f).lookup k = kv.lookup k := by
  cases o with
  | set k' v =>
    simp only [effect]
    split
    · rename_i hl
      have hne : k ≠ k' := by
        rintro rfl
        simp [alters, hl] at h
      exact AList.lookup_insert_ne hne
    · rfl
  | delete k' =>
    simp only [effect]
    split
    · rename_i hl
      have hne : k ≠ k' := by
        rintro rfl
        simp [alters, hl] at h
      exact AList.lookup_erase_ne hne
    · rfl
  | _ => rfl

theorem alters_cases {k : Key} {o : Op Snap} {f : Fate} (h : alters k o f = true) :
    f.lands = true ∧ ((∃ v, o = .set k v) ∨ o = .delete k) := by
  cases o with
  | set k' v =>
    simp only [alters, Bool.and_eq_true, decide_eq_true_eq] at h
    obtain ⟨rfl, hl⟩ := h
    exact ⟨hl, .inl ⟨v, rfl⟩⟩
  | delete k' =>
    simp only [alters, Bool.and_eq_true, decide_eq_true_eq] at h
    obtain ⟨rfl, hl⟩ := h
    exact ⟨hl, .inr rfl⟩
  | _ => cases h

section

variable {S : System (sdk Snap) (Mem Snap) Fate C R} {core : L1.Core Snap}
  {s s' : Pool (sdk Snap) (Mem Snap) Fate C R}
  {e : Event (sdk Snap) Fate} {c : C} {p : (sdk Snap).Ans e.op → Proc (sdk Snap) R}

theorem kv_of_fires (hS : S.act = act core) (hf : Pool.Fires S s e c p s') :
    s'.mem.kv = effect s.mem.kv e.op e.fate := by
  have h := hf.act
  rw [hS] at h
  exact act_kv h

theorem lookup_kept (hS : S.act = act core) (hf : Pool.Fires S s e c p s') {k : Key}
    (h : alters k e.op e.fate = false) : s'.mem.kv.lookup k = s.mem.kv.lookup k := by
  rw [kv_of_fires hS hf]
  exact lookup_unaltered h

theorem lookup_set (hS : S.act = act core) (hf : Pool.Fires S s e c p s') {k : Key} {v : Val Snap k}
    (hop : e.op = .set k v) (hl : e.fate.lands = true) : s'.mem.kv.lookup k = some v := by
  rw [kv_of_fires hS hf, hop, effect, if_pos hl]
  exact AList.lookup_insert _

/-- A step that is no read of `k` by `t` and leaves the window clean found it
clean and does not change what `k` holds. -/
theorem undisturbed_step (hS : S.act = act core) (hf : Pool.Fires S s e c p s') {k : Key} {t : Nat}
    (hread : ¬ (e.tid = t ∧ reads k e.op = true)) (h : undisturbed k t s'.log = true) :
    undisturbed k t s.log = true ∧ s'.mem.kv.lookup k = s.mem.kv.lookup k := by
  rw [hf.log, undisturbed, Bool.or_eq_true, Bool.and_eq_true, Bool.and_eq_true,
    decide_eq_true_iff] at h
  rcases h with h | ⟨halt, h⟩
  · exact absurd h hread
  · refine ⟨h, ?_⟩
    rw [kv_of_fires hS hf]
    exact lookup_unaltered (by simpa using halt)

end

end RezSdk.L4
