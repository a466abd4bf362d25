import RezSdk.Core.Lineage
import RezSdk.L3Service.Footprints

/-!
# The ratchet of a stored session over a whole run

`seen t log` is what call `t` has done with ratchets so far: the last codec
call (the snapshot it started from and the one it returned), the snapshots it
sealed from, and its session writes that returned. `writes cell log` lists
the writes of one session record that landed, newest first, each with the
snapshot its call had started from.

* `Inv`: the writes of every session record form a `Lineage.History` whose
  current value is the stored ratchet.
* `Inv.fires`: one event keeps it, if a landing write extends the history.
-/
namespace RezSdk.L4.Ratchet

open RezSdk.L1 RezSdk.L2 RezSdk.L3 RezSdk.Lineage

variable {Snap : Type}

structure Seen (Snap : Type) where
  codec : Option (Snap × Snap)
  seals : List Snap
  /-- session record, the snapshot the call started from, the stored one -/
  puts : List ((Id × Id) × Snap × Snap)

def Seen.start : Seen Snap := ⟨none, [], []⟩

/-- What a write of snapshot `s` is made from: the base of the last codec
call, or `s` itself when the call only passes a loaded snapshot on. -/
def Seen.base (a : Seen Snap) (s : Snap) : Snap :=
  match a.codec with
  | some (b, _) => b
  | none => s

def watch (a : Seen Snap) : Proc.Exch (sdk Snap) → Seen Snap
  | ⟨.core (.encryptForPeer b _ _), .ok (_, s)⟩ =>
    { a with codec := some (b, s), seals := b :: a.seals }
  | ⟨.core (.decryptIncoming b _), .ok (_, s)⟩ => { a with codec := some (b, s) }
  | ⟨.set (.session o i) r, .ok _⟩ =>
    { a with puts := ((o, i), a.base r.ratchetSnapshot, r.ratchetSnapshot) :: a.puts }
  | _ => a

def seen (t : Nat) (log : List (Ev Snap)) : Seen Snap :=
  Pool.mon ⟨watch, fun _ _ => True⟩ .start t log

/-- A session write that takes effect: the record and the snapshot. -/
def landed : Ev Snap → Option ((Id × Id) × Snap)
  | ⟨_, .set (.session o i) r, _, f⟩ => if f.lands then some ((o, i), r.ratchetSnapshot) else none
  | _ => none

/-- The write of snapshot `s` by call `t` after `log`. -/
def writeOf (log : List (Ev Snap)) (t : Nat) (s : Snap) : Write Snap := ⟨t, (seen t log).base s, s⟩

def writes (cell : Id × Id) : List (Ev Snap) → List (Write Snap)
  | [] => []
  | e :: log =>
    match landed e with
    | some (c, s) => if c = cell then writeOf log e.tid s :: writes cell log else writes cell log
    | none => writes cell log

/-- The stored ratchet of a session record. -/
def stored (kv : Store Snap) (cell : Id × Id) : Option Snap :=
  (kv.lookup (.session cell.1 cell.2)).map (·.ratchetSnapshot)

/-! ## The properties -/

/-- No snapshot is overwritten by one made from an older snapshot. -/
def NoRollback (core : Core Snap) (log : List (Ev Snap)) : Prop :=
  ∀ cell (newer : List (Write Snap)) w older, writes cell log = newer ++ w :: older → ∀ v ∈ older,
    v.snap = w.snap ∨ ¬ Relation.TransGen (Adv core) w.base v.snap

/-- What a returned packet says: the call sealed once, and the advanced
snapshot was stored by a write that returned. -/
def Sealed (core : Core Snap) (owner sid : Id) (a : Seen Snap) : Prop :=
  ∃ b s, a.codec = some (b, s) ∧ a.seals = [b] ∧ Adv core b s ∧ ((owner, sid), b, s) ∈ a.puts

/-- What a returned packet or plaintext says: the snapshot of the call's last
codec step was stored by a write that returned. -/
def Kept (core : Core Snap) (owner sid : Id) (a : Seen Snap) : Prop :=
  ∃ b s, a.codec = some (b, s) ∧ Adv core b s ∧ ((owner, sid), b, s) ∈ a.puts

theorem Sealed.kept {core : Core Snap} {owner sid : Id} {a : Seen Snap}
    (h : Sealed core owner sid a) : Kept core owner sid a := by
  obtain ⟨b, s, hc, -, ha, hp⟩ := h
  exact ⟨b, s, hc, ha, hp⟩

/-! ## The invariant -/

structure Inv (core : Core Snap) (kv : Store Snap) (log : List (Ev Snap)) : Prop where
  history : ∀ cell, ∃ x₀, History (Adv core) x₀ (writes cell log) ∧
    current x₀ (writes cell log) = stored kv cell
  puts : ∀ t p, p ∈ (seen t log).puts → ⟨t, p.2.1, p.2.2⟩ ∈ writes p.1 log

theorem inv_init (core : Core Snap) (kv : Store Snap) : Inv core kv [] where
  history cell := ⟨stored kv cell, .nil, rfl⟩
  puts _ _ h := absurd h List.not_mem_nil

theorem Inv.noRollback {core : Core Snap} {kv : Store Snap} {log : List (Ev Snap)}
    (h : Inv core kv log) (hc : Codec core) : NoRollback core log := by
  intro cell newer w older heq v hv
  obtain ⟨x₀, hist, -⟩ := h.history cell
  exact no_rollback hc.forward hist newer w older heq v hv

/-- Calls that sealed from one snapshot and stored the result are the same. -/
theorem Inv.noReuse {core : Core Snap} {kv : Store Snap} {log : List (Ev Snap)}
    (h : Inv core kv log) (hc : Codec core) {t₁ t₂ : Nat} {cell : Id × Id} {b s₁ s₂ : Snap}
    (h₁ : (cell, b, s₁) ∈ (seen t₁ log).puts) (h₂ : (cell, b, s₂) ∈ (seen t₂ log).puts)
    (ha₁ : Adv core b s₁) (ha₂ : Adv core b s₂) : t₁ = t₂ := by
  obtain ⟨x₀, hist, -⟩ := h.history cell
  exact no_reuse hc.forward hist _ (h.puts t₁ _ h₁) _ (h.puts t₂ _ h₂) ha₁ ha₂ rfl

/-! ## One event -/

/-- No session record is deleted. -/
def NoDelete : Op Snap → Prop
  | .delete (.session ..) => False
  | _ => True

theorem stored_insert_ne {kv : Store Snap} {k : Key} {v : Val Snap k} {cell : Id × Id}
    (h : Key.session cell.1 cell.2 ≠ k) : stored (kv.insert k v) cell = stored kv cell := by
  simp only [stored, AList.lookup_insert_ne h]

theorem stored_insert (kv : Store Snap) (o i : Id) (r : SessionRecord Snap) :
    stored (kv.insert (.session o i) r) (o, i) = some r.ratchetSnapshot := by
  simp only [stored, AList.lookup_insert, Option.map_some]

theorem stored_erase_ne {kv : Store Snap} {k : Key} {cell : Id × Id}
    (h : Key.session cell.1 cell.2 ≠ k) : stored (kv.erase k) cell = stored kv cell := by
  simp only [stored, AList.lookup_erase_ne h]

theorem stored_effect (kv : Store Snap) {e : Ev Snap} (hd : NoDelete e.op) (cell : Id × Id) :
    stored (effect kv e.op e.fate) cell = stored kv cell ∧ (∀ s, landed e ≠ some (cell, s)) ∨
      ∃ s, landed e = some (cell, s) ∧ stored (effect kv e.op e.fate) cell = some s := by
  obtain ⟨t, o, r, f⟩ := e
  cases o with
  | set k v =>
    cases hf : f.lands with
    | false =>
      refine .inl ⟨by simp only [effect, hf, Bool.false_eq_true, if_false], fun s hs => ?_⟩
      cases k <;> simp [landed, hf] at hs
    | true =>
      by_cases hk : Key.session cell.1 cell.2 = k
      · subst hk
        refine .inr ⟨v.ratchetSnapshot, by simp [landed, hf], ?_⟩
        simp only [effect, hf, if_true]
        exact stored_insert kv cell.1 cell.2 v
      · refine .inl ⟨?_, fun s hs => ?_⟩
        · simp only [effect, hf, if_true]
          exact stored_insert_ne hk
        · cases k with
          | session o i =>
            simp only [landed, hf, if_true, Option.some.injEq, Prod.mk.injEq] at hs
            obtain ⟨rfl, -⟩ := hs
            exact hk rfl
          | _ => cases hs
  | delete k =>
    refine .inl ⟨?_, fun s hs => by cases hs⟩
    have hk : Key.session cell.1 cell.2 ≠ k := by rintro rfl; exact hd
    simp only [effect]
    split
    · exact stored_erase_ne hk
    · rfl
  | _ => exact .inl ⟨rfl, fun s hs => by cases hs⟩

theorem writes_cons_of_landed {cell : Id × Id} {e : Ev Snap} {log : List (Ev Snap)} {s : Snap}
    (h : landed e = some (cell, s)) :
    writes cell (e :: log) = writeOf log e.tid s :: writes cell log := by
  simp only [writes, h, if_true]

theorem writes_cons_of_not {cell : Id × Id} {e : Ev Snap} {log : List (Ev Snap)}
    (h : ∀ s, landed e ≠ some (cell, s)) : writes cell (e :: log) = writes cell log := by
  simp only [writes]
  split
  · rename_i c s hl
    rw [if_neg]
    rintro rfl
    exact h s hl
  · rfl

theorem mem_writes_cons {cell : Id × Id} {e : Ev Snap} {log : List (Ev Snap)} {w : Write Snap}
    (h : w ∈ writes cell log) : w ∈ writes cell (e :: log) := by
  simp only [writes]
  split
  · split
    · exact .tail _ h
    · exact h
  · exact h

/-- What one exchange adds to the returned writes. -/
theorem watch_puts (a : Seen Snap) (x : Proc.Exch (sdk Snap)) {p : (Id × Id) × Snap × Snap}
    (h : p ∈ (watch a x).puts) :
    p ∈ a.puts ∨ ∃ r, x = ⟨.set (.session p.1.1 p.1.2) r, .ok ()⟩ ∧
      p.2 = (a.base r.ratchetSnapshot, r.ratchetSnapshot) := by
  unfold watch at h
  split at h
  · exact .inl h
  · exact .inl h
  · rcases List.mem_cons.mp h with rfl | h
    · exact .inr ⟨_, rfl, rfl⟩
    · exact .inl h
  · exact .inl h

/-- **One event keeps the invariant**, provided a landing write extends the
history of its record. -/
theorem Inv.fires [DecidableEq Snap] {svc : Service Snap} {s s' : State Snap} {e : Ev Snap}
    {c : Call} {k : (sdk Snap).Ans e.op → Proc (sdk Snap) (Except Err Reply)}
    (h : Inv svc.core s.mem.kv s.log) (hf : Pool.Fires (system svc) s e c k s') (hd : NoDelete e.op)
    (hw : ∀ cell snap, landed e = some (cell, snap) →
        ∀ x₀, History (Adv svc.core) x₀ (writes cell s.log) →
          current x₀ (writes cell s.log) = stored s.mem.kv cell →
          History (Adv svc.core) x₀ (writeOf s.log e.tid snap :: writes cell s.log)) :
    Inv svc.core s'.mem.kv s'.log := by
  rw [kv_fires hf, hf.log]
  constructor
  · intro cell
    obtain ⟨x₀, hist, hcur⟩ := h.history cell
    rcases stored_effect s.mem.kv hd cell with ⟨hst, hno⟩ | ⟨snap, hl, hst⟩
    · rw [hst, writes_cons_of_not hno]
      exact ⟨x₀, hist, hcur⟩
    · rw [hst, writes_cons_of_landed hl]
      exact ⟨x₀, hw cell snap hl x₀ hist hcur, rfl⟩
  · intro t p hp
    by_cases ht : e.tid = t
    · subst ht
      rw [seen, Pool.mon_self] at hp
      rcases watch_puts _ _ hp with hp | ⟨r, hx, hp2⟩
      · exact mem_writes_cons (h.puts _ p hp)
      · obtain ⟨t, o, a, f⟩ := e
        simp only [Event.exch, Proc.Exch.mk.injEq] at hx
        obtain ⟨rfl, hx⟩ := hx
        cases hx
        have hl : f.lands = true := act_set_ok hf.act
        have : landed (⟨t, .set (.session p.1.1 p.1.2) r, .ok (), f⟩ : Ev Snap) =
            some (p.1, r.ratchetSnapshot) := by simp only [landed, hl, if_true]
        rw [writes_cons_of_landed this, hp2]
        exact .head _
    · rw [seen, Pool.mon_other ht] at hp
      exact mem_writes_cons (h.puts t p hp)

end RezSdk.L4.Ratchet
