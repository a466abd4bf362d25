import RezSdk.L4Runs.ClaimCalls

/-!
# The writes of the claim store

Every call writes the whole table, so a call's snapshot holds the changes of
others that are not durable yet, and a rollback restores what its own call
found. Both go wrong when calls overlap.

`orderly` is the condition under which they do not: writes land in the order
they were issued; a write fails only while the claims are as its own call left
them; nobody changes a claim between a failed write and its rollback; and
`remintGeneration` commits onto the record that is still its inbox's claim.

* `undo_restores`: a rollback that finds the claims as its call left them
  leaves them as its call found them.
* `Ledger`: how memory, storage, the outstanding writes and the suspended calls
  fit together in an orderly run.
* `Ledger.fires`: what one event does to it.
-/
namespace RezSdk.L4.ClaimWrites

open RezSdk.L1 RezSdk.L2.InboxClaims RezSdk.L4.ClaimShape RezSdk.L4.ClaimCalls

variable {Cap : Type} {lib : Lib Cap}

/-! ## The contents of the map -/

/-- The claim of an inbox. -/
def record (s : Store Cap) (inboxId : String) : Option (Record Cap) :=
  (OMap.get inboxId s.claims).bind fun ref => s.heap[ref]?

section

variable {s s' : Store Cap}

/-- The contents, key by key. -/
theorem table_eq (h : Sound s) :
    s.table = (s.claims.map Prod.fst).filterMap fun k => (record s k).map fun r => (k, r) := by
  rw [List.filterMap_map]
  refine List.filterMap_congr fun p hp => ?_
  dsimp only [Function.comp]
  unfold record
  rw [OMap.get_of_mem h.nodup hp]
  rfl

theorem table_congr (h : Sound s) (h' : Sound s')
    (hkeys : s'.claims.map Prod.fst = s.claims.map Prod.fst)
    (hrecord : ∀ k, record s' k = record s k) : s'.table = s.table := by
  rw [table_eq h, table_eq h', hkeys]
  exact List.filterMap_congr fun k _ => by rw [hrecord]

theorem record_append (h : Sound s) {r : Record Cap} {claims : List (String × Nat)} (k : String)
    (hget : OMap.get k claims = OMap.get k s.claims) :
    record { s with heap := s.heap ++ [r], claims } k = record s k := by
  unfold record
  dsimp only
  rw [hget]
  cases hk : OMap.get k s.claims with
  | none => rfl
  | some ref =>
    obtain ⟨r', hr', -⟩ := h.refs _ (OMap.mem_of_get hk)
    obtain ⟨hlt, -⟩ := List.getElem?_eq_some_iff.mp hr'
    exact List.getElem?_append_left hlt

/-- Only the heap and the map count. -/
theorem table_same (hheap : s'.heap = s.heap) (hclaims : s'.claims = s.claims) :
    s'.table = s.table := by
  unfold Store.table
  rw [hheap, hclaims]

end

/-! ## What takes a change back -/

theorem persistUndo_restores {b s : Store Cap} (h : Sound b) {r : Record Cap} (hs : Sound s)
    (hheap : s.heap = b.heap ++ [r])
    (hclaims : s.claims = OMap.set r.inboxId b.heap.length b.claims)
    (hp : Proper s (.persistUndo r.inboxId (OMap.get r.inboxId b.claims))) :
    (s.persistUndo r.inboxId (OMap.get r.inboxId b.claims)).table = b.table := by
  have hback : (s.persistUndo r.inboxId (OMap.get r.inboxId b.claims)).claims = b.claims := by
    unfold Store.persistUndo
    cases hget : OMap.get r.inboxId b.claims with
    | some ref =>
      dsimp only
      rw [hclaims, OMap.set_set, OMap.set_get hget]
    | none =>
      dsimp only
      rw [hclaims, OMap.delete_set hget]
  have hheap' : (s.persistUndo r.inboxId (OMap.get r.inboxId b.claims)).heap = b.heap ++ [r] := by
    unfold Store.persistUndo
    cases OMap.get r.inboxId b.claims <;> exact hheap
  refine table_congr h (sound_persistUndo hs hp) (by rw [hback]) fun k => ?_
  have hsame : record (s.persistUndo r.inboxId (OMap.get r.inboxId b.claims)) k =
      record { b with heap := b.heap ++ [r], claims := b.claims } k := by
    unfold record
    rw [hback, hheap']
  rw [hsame]
  exact record_append h k rfl

theorem leaseUndo_restores {b s : Store Cap} {ref : Nat} {found : Record Cap} {lease : Lease}
    (hfound : b.heap[ref]? = some found)
    (hheap : s.heap = b.heap.modify ref fun r => { r with lease := some lease })
    (hclaims : s.claims = b.claims) : (s.leaseUndo ref found.lease).table = b.table := by
  refine table_same ?_ hclaims
  change s.heap.modify ref _ = b.heap
  rw [hheap]
  refine List.ext_getElem? fun n => ?_
  rw [List.getElem?_modify, List.getElem?_modify]
  by_cases hn : ref = n
  · subst hn
    rw [hfound]
    obtain ⟨_, _, _, _, _, _, _, _, _, _⟩ := found
    simp
  · cases b.heap[n]? with
    | none => rfl
    | some r => simp [hn]

theorem remintUndo_restores {b s : Store Cap} (h : Sound b) {m : Reminting} {minted : Minted}
    {found : Record Cap} (hfound : b.heap[m.ref]? = some found) (hid : found.inboxId = m.inboxId)
    (hget : OMap.get m.inboxId b.claims = some m.ref)
    (hheap : s.heap = b.heap.modify m.ref minted.into) (hclaims : s.claims = b.claims)
    (hs : Sound (s.remintUndo m.inboxId (some found))) :
    (s.remintUndo m.inboxId (some found)).table = b.table := by
  have hlength : s.heap.length = b.heap.length := by rw [hheap, List.length_modify]
  refine table_congr h hs ?_ fun k => ?_
  · change (OMap.set m.inboxId s.heap.length s.claims).map Prod.fst = _
    rw [hclaims, OMap.keys_set, if_pos (List.mem_map.mpr ⟨_, OMap.mem_of_get hget, rfl⟩)]
  · unfold record
    change (OMap.get k (OMap.set m.inboxId s.heap.length s.claims)).bind
        (fun ref => (s.heap ++ [found])[ref]?) = _
    rw [hclaims, OMap.get_set]
    by_cases hk : m.inboxId = k
    · subst hk
      rw [if_pos rfl, hget]
      change (s.heap ++ [found])[s.heap.length]? = b.heap[m.ref]?
      rw [List.getElem?_append_right (Nat.le_refl _), Nat.sub_self, hfound]
      rfl
    · rw [if_neg hk]
      cases hkref : OMap.get k b.claims with
      | none => rfl
      | some ref =>
        obtain ⟨r, hr, hrid⟩ := h.refs _ (OMap.mem_of_get hkref)
        obtain ⟨hlt, -⟩ := List.getElem?_eq_some_iff.mp hr
        -- the re-minted object is another inbox's
        have hne : m.ref ≠ ref := by
          rintro rfl
          rw [hfound, Option.some.injEq] at hr
          subst hr
          exact hk (hid.symm.trans hrid)
        change (s.heap ++ [found])[ref]? = b.heap[ref]?
        rw [List.getElem?_append_left (by rw [hlength]; exact hlt), hheap, List.getElem?_modify, hr]
        simp [hne]

/-- A re-mint writes into the record that is its inbox's claim. -/
def Attached (b : Store Cap) : Stretch Cap → Prop
  | .remintCommit m _ => OMap.get m.inboxId b.claims = some m.ref
  | _ => True

/-- The stretch `l` changes the store `b`. -/
structure Change (lib : Lib Cap) (l : Stretch Cap) (b : Store Cap) : Prop where
  sound : Sound b
  attached : Attached b l
  changes : changes lib b l = true

theorem Change.undo {l : Stretch Cap} {b : Store Cap} (h : Change lib l b) :
    ∃ u, undoOf lib b l = some u :=
  Option.isSome_iff_exists.mp h.changes

/-- A change writes the table it leaves. -/
structure Writes (s s' : Store Cap) : Prop where
  queue : s'.queue = s.queue ++ [(s.tickets, s'.table)]
  stored : s'.stored = s.stored
  tickets : s'.tickets = s.tickets + 1

theorem writes_persistAll {s s₁ : Store Cap} (hq : s₁.queue = s.queue) (hs : s₁.stored = s.stored)
    (ht : s₁.tickets = s.tickets) : Writes s s₁.persistAll where
  queue := by
    change s₁.queue ++ [(s₁.tickets, s₁.table)] = s.queue ++ [(s.tickets, s₁.table)]
    rw [hq, ht]
  stored := hs
  tickets := congrArg (· + 1) ht

theorem Change.writes {l : Stretch Cap} {b : Store Cap} (h : Change lib l b) :
    Writes b (l.apply lib b) := by
  obtain ⟨u, hu⟩ := h.undo
  cases l with
  | persist claim =>
    change Writes b (b.persist lib claim).2
    obtain ⟨-, hnone⟩ | ⟨r, -, -, hs⟩ := persist_cases lib h.sound claim
    · rw [hnone] at hu
      cases hu
    · rw [hs]
      exact writes_persistAll rfl rfl rfl
  | lease a =>
    change Writes b (b.recordAcceptedLease lib a).2
    obtain ⟨-, hnone⟩ | ⟨ref, found, lease, -, -, -, hs⟩ := lease_cases lib b a
    · rw [hnone] at hu
      cases hu
    · rw [hs]
      exact writes_persistAll rfl rfl rfl
  | remintCommit m minted => exact writes_persistAll rfl rfl rfl
  | _ => cases hu

/-- A rollback that finds the claims as its call left them leaves them as its
call found them. -/
theorem undo_restores {l u : Stretch Cap} {b s : Store Cap} (h : Change lib l b)
    (hu : undoOf lib b l = some u) (hs : Sound s) (hp : Proper s u)
    (hheap : s.heap = (l.apply lib b).heap) (hclaims : s.claims = (l.apply lib b).claims) :
    (u.apply lib s).table = b.table := by
  have hsound : Sound (u.apply lib s) := (sound_apply hs hp).1
  cases l with
  | persist claim =>
    change s.heap = (b.persist lib claim).2.heap at hheap
    change s.claims = (b.persist lib claim).2.claims at hclaims
    obtain ⟨-, hnone⟩ | ⟨r, -, hundo, hafter⟩ := persist_cases lib h.sound claim
    · rw [hnone] at hu
      cases hu
    · cases hundo.symm.trans hu
      rw [hafter] at hheap hclaims
      exact persistUndo_restores h.sound hs hheap hclaims hp
  | lease a =>
    change s.heap = (b.recordAcceptedLease lib a).2.heap at hheap
    change s.claims = (b.recordAcceptedLease lib a).2.claims at hclaims
    obtain ⟨-, hnone⟩ | ⟨ref, found, lease, hfind, -, hundo, hafter⟩ := lease_cases lib b a
    · rw [hnone] at hu
      cases hu
    · cases hundo.symm.trans hu
      rw [hafter] at hheap hclaims
      exact leaseUndo_restores (h.sound.find hfind).2.1 hheap hclaims
  | remintCommit m minted =>
    cases hu
    have hget : OMap.get m.inboxId b.claims = some m.ref := h.attached
    obtain ⟨found, hfound, hid⟩ := h.sound.refs _ (OMap.mem_of_get hget)
    change (s.remintUndo m.inboxId b.heap[m.ref]?).table = b.table
    change Sound (s.remintUndo m.inboxId b.heap[m.ref]?) at hsound
    rw [hfound] at hsound ⊢
    exact remintUndo_restores h.sound hfound hid hget hheap hclaims hsound
  | _ => cases hu

/-- A stretch that neither changes nor takes back leaves the store alone. -/
theorem apply_idle {l : Stretch Cap} {s : Store Cap} (hs : Sound s) (hl : changes lib s l = false)
    (hu : ¬ IsUndo l) : l.apply lib s = s := by
  have hnone : undoOf lib s l = none := by
    unfold changes at hl
    exact Option.not_isSome_iff_eq_none.mp (by rw [hl]; nofun)
  cases l with
  | persist claim =>
    obtain ⟨hsame, -⟩ | ⟨r, -, hundo, -⟩ := persist_cases lib hs claim
    · exact hsame
    · rw [hnone] at hundo
      cases hundo
  | lease a =>
    obtain ⟨hsame, -⟩ | ⟨ref, found, lease, -, -, hundo, -⟩ := lease_cases lib s a
    · exact hsame
    · rw [hnone] at hundo
      cases hundo
  | remintCommit m minted => cases hnone
  | persistUndo inboxId existing => exact absurd trivial hu
  | leaseUndo ref previous => exact absurd trivial hu
  | remintUndo inboxId previous => exact absurd trivial hu
  | _ => rfl

/-- A rollback touches neither the outstanding writes nor what is stored. -/
theorem undo_apart {u : Stretch Cap} (hu : IsUndo u) (s : Store Cap) :
    (u.apply lib s).queue = s.queue ∧ (u.apply lib s).stored = s.stored ∧
    (u.apply lib s).tickets = s.tickets := by
  cases u with
  | persistUndo inboxId existing => cases existing <;> exact ⟨rfl, rfl, rfl⟩
  | leaseUndo ref previous => exact ⟨rfl, rfl, rfl⟩
  | remintUndo inboxId previous => cases previous <;> exact ⟨rfl, rfl, rfl⟩
  | _ => exact hu.elim

/-! ## The queue -/

section

variable {q q₁ q₂ : List (Nat × Table Cap)} {x : Nat × Table Cap} {D : Table Cap}

/-- What the claims are once the outstanding writes have landed. -/
def lastTable (D : Table Cap) (q : List (Nat × Table Cap)) : Table Cap :=
  (q.getLast?.map Prod.snd).getD D

theorem lastTable_concat : lastTable D (q ++ [x]) = x.2 := by
  unfold lastTable
  rw [List.getLast?_append, List.getLast?_singleton]
  rfl

theorem lastTable_cons : lastTable D (x :: q) = lastTable x.2 q := by
  unfold lastTable
  cases q with
  | nil => rfl
  | cons y q =>
    rw [List.getLast?_cons_cons, List.getLast?_eq_some_getLast (List.cons_ne_nil _ _)]
    rfl

theorem filter_ticket (h : ((q₁ ++ x :: q₂).map Prod.fst).Nodup) :
    (q₁ ++ x :: q₂).filter (fun w => w.1 ≠ x.1) = q₁ ++ q₂ := by
  rw [List.map_append, List.map_cons, List.nodup_append, List.nodup_cons] at h
  obtain ⟨-, ⟨hnot, -⟩, hdisjoint⟩ := h
  have h₁ : q₁.filter (fun w => w.1 ≠ x.1) = q₁ := by
    refine List.filter_eq_self.mpr fun y hy => decide_eq_true fun heq => ?_
    exact hdisjoint y.1 (List.mem_map_of_mem hy) x.1 (.head _) heq
  have h₂ : q₂.filter (fun w => w.1 ≠ x.1) = q₂ := by
    refine List.filter_eq_self.mpr fun y hy => decide_eq_true fun heq => ?_
    exact hnot (heq ▸ List.mem_map_of_mem hy)
  rw [List.filter_append, List.filter_cons_of_neg (by simp), h₁, h₂]

theorem find_ticket (h : ((q₁ ++ x :: q₂).map Prod.fst).Nodup) :
    (q₁ ++ x :: q₂).find? (fun w => w.1 = x.1) = some x := by
  rw [List.map_append, List.map_cons, List.nodup_append] at h
  have h₁ : q₁.find? (fun w => w.1 = x.1) = none := by
    refine List.find?_eq_none.mpr fun y hy heq => ?_
    exact h.2.2 y.1 (List.mem_map_of_mem hy) x.1 (.head _) (of_decide_eq_true heq)
  rw [List.find?_append, h₁, Option.none_or, List.find?_cons_of_pos (by simp)]

/-- The oldest write. -/
theorem oldest (h : ((q₁ ++ x :: q₂).map Prod.fst).Nodup)
    (hhead : (q₁ ++ x :: q₂).head?.map Prod.fst = some x.1) : q₁ = [] := by
  cases q₁ with
  | nil => rfl
  | cons y q₁ =>
    rw [List.map_append, List.map_cons, List.map_cons, List.nodup_append] at h
    exact absurd (Option.some.inj hhead) (h.2.2 y.1 (.head _) x.1 (.head _))

/-- The newest write. -/
theorem newest (h : ((q₁ ++ x :: q₂).map Prod.fst).Nodup)
    (hlast : (q₁ ++ x :: q₂).getLast?.map Prod.fst = some x.1) : q₂ = [] := by
  cases List.eq_nil_or_concat q₂ with
  | inl h => exact h
  | inr hc =>
    obtain ⟨q, y, rfl⟩ := hc
    rw [List.map_append, List.map_cons, List.nodup_append, List.nodup_cons] at h
    rw [List.concat_eq_append, ← List.cons_append, ← List.append_assoc, List.getLast?_append,
      List.getLast?_singleton] at hlast
    refine absurd ?_ h.2.1.1
    rw [← Option.some.inj hlast]
    exact List.mem_map_of_mem (by simp)

theorem answer_queue {s : Store Cap} {ok : Bool} (h : (s.queue.map Prod.fst).Nodup)
    (hq : s.queue = q₁ ++ x :: q₂) : (s.answer lib x.1 ok).queue = q₁ ++ q₂ := by
  change s.queue.filter (fun w => w.1 ≠ x.1) = _
  rw [hq] at h ⊢
  exact filter_ticket h

theorem answer_stored {s : Store Cap} (h : (s.queue.map Prod.fst).Nodup)
    (hq : s.queue = q₁ ++ x :: q₂) : (s.answer lib x.1 true).stored = some (tableJson lib x.2) := by
  change ((s.queue.find? fun w => w.1 = x.1).map fun w => tableJson lib w.2).or s.stored = _
  rw [hq] at h ⊢
  rw [find_ticket h]
  rfl

end

/-! ## Order -/

/-- A write has failed whose call has not taken its change back yet. -/
def RollbackOwed (lib : Lib Cap) (s : ClaimState Cap) : Prop :=
  ∃ t l b, watch lib s t = some (.failed l b)

/-- Writes land oldest first; a write fails only as the newest and while the
claims are as its own call left them; nobody changes a claim while a rollback
is owed; and a re-mint commits onto the record that is its inbox's claim. -/
def InOrder (lib : Lib Cap) (s : ClaimState Cap) (t : Nat) : Exch Cap → Prop
  | ⟨.await (.set ticket), .ok ()⟩ => s.mem.queue.head?.map Prod.fst = some ticket
  | ⟨.await (.set ticket), .error _⟩ =>
    s.mem.queue.getLast?.map Prod.fst = some ticket ∧ ¬ RollbackOwed lib s ∧
      ∀ l b, watch lib s t = some (.changed l b) → s.mem.heap = (l.apply lib b).heap ∧
      s.mem.claims = (l.apply lib b).claims
  | ⟨.run l _, (_, m)⟩ => changes lib m l = true → ¬ RollbackOwed lib s ∧ Attached m l
  | _ => True

def orderly (lib : Lib Cap) : ClaimRules Cap where
  init := Fresh lib
  may _ _ := True
  ok s e := clockReads e.exch ∧ InOrder lib s e.tid e.exch

/-! ## The ledger -/

/-- What is stored is `D`, and every outstanding write goes from what the writes
before it will have made of `D` to what its own call has made of that. -/
structure Ledger (lib : Lib Cap) (D : Table Cap) (s : ClaimState Cap) : Prop where
  stored : hydrate lib s.mem.stored = .ok D
  kept : ∀ x ∈ s.mem.queue, WellKept x.2
  tickets : ∀ x ∈ s.mem.queue, x.1 < s.mem.tickets
  sorted : (s.mem.queue.map Prod.fst).Pairwise (· < ·)
  owner : ∀ x ∈ s.mem.queue, ∃ t l b, watch lib s t = some (.changed l b) ∧ b.tickets = x.1
  changed : ∀ t l b, watch lib s t = some (.changed l b) → Change lib l b ∧
    ∃ q₁ q₂, s.mem.queue = q₁ ++ (b.tickets, (l.apply lib b).table) :: q₂ ∧ b.table = lastTable D q₁
  distinct : ∀ t t' l l' b b', watch lib s t = some (.changed l b) →
    watch lib s t' = some (.changed l' b') →
    b.tickets = b'.tickets → t = t'
  failed : ∀ t l b, watch lib s t = some (.failed l b) → Change lib l b ∧
    s.mem.heap = (l.apply lib b).heap ∧
    s.mem.claims = (l.apply lib b).claims ∧ b.table = lastTable D s.mem.queue ∧
      b.tickets < s.mem.tickets ∧
    ∀ x ∈ s.mem.queue, x.1 < b.tickets
  single : ∀ t t' l l' b b', watch lib s t = some (.failed l b) →
    watch lib s t' = some (.failed l' b') → t = t'
  memory : ¬ RollbackOwed lib s → s.mem.table = lastTable D s.mem.queue

/-- The same writes are outstanding and the same rollbacks are owed. -/
structure SameDebts (lib : Lib Cap) (s s' : ClaimState Cap) : Prop where
  mem : s'.mem = s.mem
  changed : ∀ t l b, watch lib s' t = some (.changed l b) ↔ watch lib s t = some (.changed l b)
  failed : ∀ t l b, watch lib s' t = some (.failed l b) ↔ watch lib s t = some (.failed l b)

section

variable {D : Table Cap} {s s' : ClaimState Cap}

theorem SameDebts.owed (h : SameDebts lib s s') : RollbackOwed lib s' ↔ RollbackOwed lib s :=
  ⟨fun ⟨t, l, b, hw⟩ => ⟨t, l, b, (h.failed t l b).mp hw⟩,
  fun ⟨t, l, b, hw⟩ => ⟨t, l, b, (h.failed t l b).mpr hw⟩⟩

theorem Ledger.same (h : Ledger lib D s) (hs : SameDebts lib s s') : Ledger lib D s' where
  stored := by
    rw [hs.mem]
    exact h.stored
  kept := by
    rw [hs.mem]
    exact h.kept
  tickets := by
    rw [hs.mem]
    exact h.tickets
  sorted := by
    rw [hs.mem]
    exact h.sorted
  owner := by
    rw [hs.mem]
    intro x hx
    obtain ⟨t, l, b, hw, hb⟩ := h.owner x hx
    exact ⟨t, l, b, (hs.changed t l b).mpr hw, hb⟩
  changed := by
    rw [hs.mem]
    intro t l b hw
    exact h.changed t l b ((hs.changed t l b).mp hw)
  distinct t t' l l' b b' hw hw' :=
    h.distinct t t' l l' b b' ((hs.changed t l b).mp hw) ((hs.changed t' l' b').mp hw')
  failed := by
    rw [hs.mem]
    intro t l b hw
    exact h.failed t l b ((hs.failed t l b).mp hw)
  single t t' l l' b b' hw hw' :=
    h.single t t' l l' b b' ((hs.failed t l b).mp hw) ((hs.failed t' l' b').mp hw')
  memory := by
    rw [hs.mem, hs.owed]
    exact h.memory

theorem Ledger.init {m : Store Cap} (h : Fresh lib m) : ∃ D, Ledger lib D ⟨m, [], []⟩ := by
  obtain ⟨stored, table, htable, rfl⟩ := h
  have hnone : ∀ t w, watch lib (⟨.hydrated stored table, [], []⟩ : ClaimState Cap) t ≠ some w := by
    intro t w hw
    rw [watch, System.view_init] at hw
    cases hw
  exact ⟨table,
    { stored := htable
      kept := fun x hx => absurd hx List.not_mem_nil
      tickets := fun x hx => absurd hx List.not_mem_nil
      sorted := List.Pairwise.nil
      owner := fun x hx => absurd hx List.not_mem_nil
      changed := fun t l b hw => absurd hw (hnone t _)
      distinct := fun t _ l _ b _ hw => absurd hw (hnone t _)
      failed := fun t l b hw => absurd hw (hnone t _)
      single := fun t _ l _ b _ hw => absurd hw (hnone t _)
      memory := fun _ => table_hydrated }⟩

theorem sameDebts_spawn (h : Conforms lib s) (c : Call Cap) :
    SameDebts lib s (s.spawn (claims lib) c) := by
  refine ⟨rfl, fun t l b => ⟨fun hw => ?_, h.view_kept⟩, fun t l b => ⟨fun hw => ?_, h.view_kept⟩⟩
  all_goals
    obtain ⟨-, hstart⟩ | hold := h.view_spawned hw
    · cases hstart
    · exact hold

end

section

variable {D : Table Cap} {s s' : ClaimState Cap} {e : ClaimEvent Cap} {c : Call Cap}
  {k : (claimStore Cap).Ans e.op → Proc (claimStore Cap) (Except Err Result)} {w w' : Watch Cap}

/-- Only the call that acts moves. -/
theorem watch_cases (hf : Pool.Fires (claims lib) s e c k s') (hw' : watch lib s' e.tid = some w')
    {t : Nat} {v : Watch Cap} (hv : watch lib s' t = some v) :
    t = e.tid ∧ v = w' ∨ t ≠ e.tid ∧ watch lib s t = some v :=
  (System.view_cases hf hw' hv).imp_right (And.imp_left Ne.symm)

theorem watch_other (hf : Pool.Fires (claims lib) s e c k s') (hw : watch lib s e.tid = some w)
    {t : Nat} {v : Watch Cap} (hv : watch lib s t = some v) :
    t = e.tid ∧ v = w ∨ t ≠ e.tid ∧ watch lib s' t = some v :=
  (System.view_stays hf hw hv).imp_right (And.imp_left Ne.symm)

/-- A call that owes nothing, before and after. -/
def Owes : Watch Cap → Prop
  | .changed .. => True
  | .failed .. => True
  | _ => False

theorem sameDebts_idle (hf : Pool.Fires (claims lib) s e c k s') (hw : watch lib s e.tid = some w)
    (hw' : watch lib s' e.tid = some w') (hmem : s'.mem = s.mem)
    (h : w' = w ∨ ¬ Owes w ∧ ¬ Owes w') : SameDebts lib s s' := by
  have hback : ∀ t v, Owes v → watch lib s' t = some v → watch lib s t = some v := by
    intro t v hv hview
    obtain ⟨rfl, rfl⟩ | ⟨-, hold⟩ := watch_cases hf hw' hview
    · rcases h with rfl | h
      · exact hw
      · exact absurd hv h.2
    · exact hold
  have hforth : ∀ t v, Owes v → watch lib s t = some v → watch lib s' t = some v := by
    intro t v hv hview
    obtain ⟨rfl, rfl⟩ | ⟨-, hnew⟩ := watch_other hf hw hview
    · rcases h with rfl | h
      · exact hw'
      · exact absurd hv h.1
    · exact hnew
  exact ⟨hmem, fun t l b => ⟨hback t _ trivial, hforth t _ trivial⟩,
    fun t l b => ⟨hback t _ trivial, hforth t _ trivial⟩⟩

theorem Ledger.nodup (h : Ledger lib D s) : (s.mem.queue.map Prod.fst).Nodup :=
  h.sorted.imp Nat.ne_of_lt

/-- A change, on claims that no rollback is owed for. -/
theorem Ledger.change (h : Ledger lib D s) (hs : Sound s.mem) (hs' : Sound s'.mem)
    (hf : Pool.Fires (claims lib) s e c k s') (hw : watch lib s e.tid = some w) (howes : ¬ Owes w)
    {l : Stretch Cap} (hl : changes lib s.mem l = true) (hattached : Attached s.mem l)
    (hclear : ¬ RollbackOwed lib s) (hmem : s'.mem = l.apply lib s.mem)
    (hw' : watch lib s' e.tid = some (.changed l s.mem)) : Ledger lib D s' := by
  have hchange : Change lib l s.mem := ⟨hs, hattached, hl⟩
  have hwrites : Writes s.mem s'.mem := hmem ▸ hchange.writes
  have hnone : ∀ t l b, watch lib s' t ≠ some (.failed l b) := by
    intro t l' b hv
    obtain ⟨-, hsame⟩ | ⟨-, hold⟩ := watch_cases hf hw' hv
    · cases hsame
    · exact hclear ⟨t, l', b, hold⟩
  have hmember : ∀ x ∈ s'.mem.queue, x ∈ s.mem.queue ∨ x = (s.mem.tickets, s'.mem.table) := by
    intro x hx
    rw [hwrites.queue] at hx
    rcases List.mem_append.mp hx with hx | hx
    · exact .inl hx
    · exact .inr (List.mem_singleton.mp hx)
  refine ⟨hwrites.stored ▸ h.stored, fun x hx => ?_, fun x hx => ?_, ?_, fun x hx => ?_,
    fun t l' b hv => ?_,
    fun t t' l₁ l₂ b b' hv hv' heq => ?_, fun t l' b hv => absurd hv (hnone t l' b),
      fun t _ l' _ b _ hv => absurd hv (hnone t l' b),
    fun _ => ?_⟩
  · rcases hmember x hx with hx | rfl
    · exact h.kept x hx
    · exact wellKept_table hs'
  · rw [hwrites.tickets]
    rcases hmember x hx with hx | rfl
    · exact Nat.lt_succ_of_lt (h.tickets x hx)
    · exact Nat.lt_succ_self _
  · rw [hwrites.queue, List.map_append, List.pairwise_append]
    refine ⟨h.sorted, List.pairwise_singleton _ _, fun n hn n' hn' => ?_⟩
    obtain ⟨x, hx, rfl⟩ := List.mem_map.mp hn
    rw [List.mem_singleton.mp hn']
    exact h.tickets x hx
  · rcases hmember x hx with hx | rfl
    · obtain ⟨t, l', b, hv, hb⟩ := h.owner x hx
      obtain ⟨-, rfl⟩ | ⟨-, hnew⟩ := watch_other hf hw hv
      · exact absurd trivial howes
      · exact ⟨t, l', b, hnew, hb⟩
    · exact ⟨e.tid, l, s.mem, hw', rfl⟩
  · rw [hwrites.queue]
    obtain ⟨-, hsame⟩ | ⟨-, hold⟩ := watch_cases hf hw' hv
    · cases hsame
      exact ⟨hchange, s.mem.queue, [], by rw [hmem], h.memory hclear⟩
    · obtain ⟨hch, q₁, q₂, hq, htable⟩ := h.changed t l' b hold
      exact ⟨hch, q₁, q₂ ++
        [(s.mem.tickets, s'.mem.table)], by rw [hq, List.append_assoc, List.cons_append], htable⟩
  · have hlt : ∀ t l' b, watch lib s t = some (.changed l' b) → b.tickets < s.mem.tickets := by
      intro t l' b hold
      obtain ⟨-, q₁, q₂, hq, -⟩ := h.changed t l' b hold
      exact h.tickets (b.tickets, (l'.apply lib b).table) (by rw [hq]; simp)
    obtain ⟨rfl, hsame⟩ | ⟨-, hold⟩ := watch_cases hf hw' hv
    · obtain ⟨rfl, -⟩ | ⟨-, hold'⟩ := watch_cases hf hw' hv'
      · rfl
      · cases hsame
        exact absurd (hlt t' l₂ b' hold') (by omega)
    · obtain ⟨rfl, hsame'⟩ | ⟨-, hold'⟩ := watch_cases hf hw' hv'
      · cases hsame'
        exact absurd (hlt t l₁ b hold) (by omega)
      · exact h.distinct t t' l₁ l₂ b b' hold hold' heq
  · rw [hwrites.queue, lastTable_concat]

/-- A rollback that finds the claims as its own call left them. -/
theorem Ledger.undone (h : Ledger lib D s) (hf : Pool.Fires (claims lib) s e c k s')
    {l u : Stretch Cap} {b : Store Cap} (hw : watch lib s e.tid = some (.failed l b))
    (hu : IsUndo u) (hmem : s'.mem = u.apply lib s.mem)
    (hback : (u.apply lib s.mem).table = b.table) (hw' : watch lib s' e.tid = some .ended) :
    Ledger lib D s' := by
  obtain ⟨hqueue, hstored, htickets⟩ : (u.apply lib s.mem).queue = s.mem.queue ∧
    (u.apply lib s.mem).stored = s.mem.stored ∧
      (u.apply lib s.mem).tickets = s.mem.tickets := undo_apart hu s.mem
  rw [← hmem] at hqueue hstored htickets hback
  have hnone : ∀ t l b, watch lib s' t ≠ some (.failed l b) := by
    intro t l' b' hv
    obtain ⟨-, hsame⟩ | ⟨hne, hold⟩ := watch_cases hf hw' hv
    · cases hsame
    · exact hne (h.single t e.tid l' l b' b hold hw)
  have hchanged : ∀ t l b, watch lib s' t = some (.changed l b) →
      watch lib s t = some (.changed l b) := by
    intro t l' b' hv
    obtain ⟨-, hsame⟩ | ⟨-, hold⟩ := watch_cases hf hw' hv
    · cases hsame
    · exact hold
  refine ⟨hstored ▸ h.stored, hqueue ▸ h.kept, ?_, hqueue ▸ h.sorted, fun x hx => ?_,
    fun t l' b' hv => ?_,
    fun t t' l₁ l₂ b₁ b₂ hv hv' =>
      h.distinct t t' l₁ l₂ b₁ b₂ (hchanged t _ _ hv) (hchanged t' _ _ hv'),
    fun t l' b' hv => absurd hv (hnone t l' b'), fun t _ l' _ b' _ hv => absurd hv (hnone t l' b'),
      fun _ => ?_⟩
  · rw [hqueue, htickets]
    exact h.tickets
  · rw [hqueue] at hx
    obtain ⟨t, l', b', hv, hb⟩ := h.owner x hx
    obtain ⟨-, hsame⟩ | ⟨-, hnew⟩ := watch_other hf hw hv
    · cases hsame
    · exact ⟨t, l', b', hnew, hb⟩
  · rw [hqueue]
    exact h.changed t l' b' (hchanged t l' b' hv)
  · rw [hqueue, hback]
    exact (h.failed e.tid l b hw).2.2.2.1

/-- The oldest write lands. -/
theorem Ledger.landed (hlib : LawfulLib lib) (h : Ledger lib D s)
    (hf : Pool.Fires (claims lib) s e c k s') {l : Stretch Cap} {b : Store Cap}
    (hw : watch lib s e.tid = some (.changed l b))
    (holdest : s.mem.queue.head?.map Prod.fst = some b.tickets)
    (hmem : s'.mem = s.mem.answer lib b.tickets true)
    (hw' : watch lib s' e.tid = some (.landed l b)) : Ledger lib (l.apply lib b).table s' := by
  obtain ⟨-, q₁, q, hq, -⟩ := h.changed e.tid l b hw
  have hnodup := h.nodup
  have hfirst : q₁ = [] := by
    rw [hq] at hnodup holdest
    exact oldest hnodup holdest
  subst hfirst
  have hqueue : s'.mem.queue = q := by
    rw [hmem]
    exact answer_queue hnodup hq
  have hstored : s'.mem.stored = some (tableJson lib (l.apply lib b).table) := by
    rw [hmem]
    exact answer_stored hnodup hq
  have hlast : lastTable D s.mem.queue = lastTable (l.apply lib b).table q := by
    rw [hq]
    exact lastTable_cons
  have hmember : ∀ x ∈ q, x ∈ s.mem.queue := by
    intro x hx
    rw [hq]
    exact .tail _ hx
  have hchanged : ∀ t l' b', watch lib s' t = some (.changed l' b') →
      t ≠ e.tid ∧ watch lib s t = some (.changed l' b') := by
    intro t l' b' hv
    obtain ⟨-, hsame⟩ | hold := watch_cases hf hw' hv
    · cases hsame
    · exact hold
  have hfailed : ∀ t l' b', watch lib s' t = some (.failed l' b') ↔
      watch lib s t = some (.failed l' b') := by
    intro t l' b'
    refine ⟨fun hv => ?_, fun hv => ?_⟩
    · obtain ⟨-, hsame⟩ | ⟨-, hold⟩ := watch_cases hf hw' hv
      · cases hsame
      · exact hold
    · obtain ⟨-, hsame⟩ | ⟨-, hnew⟩ := watch_other hf hw hv
      · cases hsame
      · exact hnew
  have htickets : s'.mem.tickets = s.mem.tickets := by rw [hmem]; rfl
  refine ⟨?_, ?_, ?_, ?_, ?_, fun t l' b' hv => ?_, fun t t' l₁ l₂ b₁ b₂ hv hv' =>
    h.distinct t t' l₁ l₂ b₁ b₂ (hchanged t _ _ hv).2 (hchanged t' _ _ hv').2,
      fun t l' b' hv => ?_, fun t t' l₁ l₂ b₁ b₂ hv hv' =>
    h.single t t' l₁ l₂ b₁ b₂ ((hfailed t _ _).mp hv) ((hfailed t' _ _).mp hv'), fun hclear => ?_⟩
  · rw [hstored]
    exact hydrate_table hlib (h.kept (b.tickets, (l.apply lib b).table) (by rw [hq]; exact .head _))
  · rw [hqueue]
    exact fun x hx => h.kept x (hmember x hx)
  · rw [hqueue, htickets]
    exact fun x hx => h.tickets x (hmember x hx)
  · have hsorted := h.sorted
    rw [hq, List.nil_append, List.map_cons, List.pairwise_cons] at hsorted
    rw [hqueue]
    exact hsorted.2
  · rw [hqueue]
    intro x hx
    obtain ⟨t, l', b', hv, hb⟩ := h.owner x (hmember x hx)
    obtain ⟨-, hsame⟩ | ⟨-, hnew⟩ := watch_other hf hw hv
    · cases hsame
      rw [hq, List.nil_append, List.map_cons, List.nodup_cons] at hnodup
      exact absurd (List.mem_map.mpr ⟨x, hx, hb.symm⟩) hnodup.1
    · exact ⟨t, l', b', hnew, hb⟩
  · obtain ⟨hne, hold⟩ := hchanged t l' b' hv
    obtain ⟨hch, q₁, q₂, hq', htable⟩ := h.changed t l' b' hold
    refine ⟨hch, ?_⟩
    rw [hqueue]
    rw [hq] at hq'
    cases q₁ with
    | nil =>
      -- the landed write is another call's
      rw [List.nil_append, List.nil_append, List.cons.injEq, Prod.mk.injEq] at hq'
      exact absurd (h.distinct t e.tid l' l b' b hold hw hq'.1.1.symm) hne
    | cons y q₁ =>
      rw [List.nil_append, List.cons_append, List.cons.injEq] at hq'
      obtain ⟨rfl, rfl⟩ := hq'
      exact ⟨q₁, q₂, rfl, htable.trans lastTable_cons⟩
  · obtain ⟨hch, hheap, hclaims, htable, hlt, hall⟩ := h.failed t l' b' ((hfailed t l' b').mp hv)
    refine ⟨hch, ?_, ?_, ?_, ?_, ?_⟩
    · rw [hmem]
      exact hheap
    · rw [hmem]
      exact hclaims
    · rw [hqueue, htable, hlast]
    · rw [htickets]
      exact hlt
    · rw [hqueue]
      exact fun x hx => hall x (hmember x hx)
  · rw [hqueue, ← hlast, hmem]
    exact h.memory fun ⟨t, l', b', hv⟩ => hclear ⟨t, l', b', (hfailed t l' b').mpr hv⟩

/-- The newest write fails. -/
theorem Ledger.writeFails (h : Ledger lib D s) (hf : Pool.Fires (claims lib) s e c k s')
    {l : Stretch Cap} {b : Store Cap} (hw : watch lib s e.tid = some (.changed l b))
    (hnewest : s.mem.queue.getLast?.map Prod.fst = some b.tickets) (hclear : ¬ RollbackOwed lib s)
    (hheap : s.mem.heap = (l.apply lib b).heap) (hclaims : s.mem.claims = (l.apply lib b).claims)
    (hmem : s'.mem = s.mem.answer lib b.tickets false)
    (hw' : watch lib s' e.tid = some (.failed l b)) : Ledger lib D s' := by
  obtain ⟨hchange, q, q₂, hq, hbefore⟩ := h.changed e.tid l b hw
  have hnodup := h.nodup
  have hlast : q₂ = [] := by
    rw [hq] at hnodup hnewest
    exact newest hnodup hnewest
  subst hlast
  have hqueue : s'.mem.queue = q := by
    rw [hmem]
    exact (answer_queue hnodup hq).trans (List.append_nil q)
  have hmember : ∀ x ∈ q, x ∈ s.mem.queue := by
    intro x hx
    rw [hq]
    exact List.mem_append_left _ hx
  have hsorted := h.sorted
  rw [hq, List.map_append, List.pairwise_append] at hsorted
  have hbelow : ∀ x ∈ q, x.1 < b.tickets :=
    fun x hx => hsorted.2.2 x.1 (List.mem_map_of_mem hx) b.tickets (.head _)
  have hchanged : ∀ t l' b', watch lib s' t = some (.changed l' b') →
      t ≠ e.tid ∧ watch lib s t = some (.changed l' b') := by
    intro t l' b' hv
    obtain ⟨-, hsame⟩ | hold := watch_cases hf hw' hv
    · cases hsame
    · exact hold
  have hfailed :
      ∀ t l' b', watch lib s' t = some (.failed l' b') → t = e.tid ∧ l' = l ∧ b' = b := by
    intro t l' b' hv
    obtain ⟨rfl, hsame⟩ | ⟨-, hold⟩ := watch_cases hf hw' hv
    · cases hsame
      exact ⟨rfl, rfl, rfl⟩
    · exact absurd ⟨t, l', b', hold⟩ hclear
  have htickets : s'.mem.tickets = s.mem.tickets := by rw [hmem]; rfl
  refine ⟨?_, ?_, ?_, ?_, ?_, fun t l' b' hv => ?_, fun t t' l₁ l₂ b₁ b₂ hv hv' =>
    h.distinct t t' l₁ l₂ b₁ b₂ (hchanged t _ _ hv).2 (hchanged t' _ _ hv').2,
      fun t l' b' hv => ?_, fun t t' l₁ l₂ b₁ b₂ hv hv' =>
    (hfailed t _ _ hv).1.trans (hfailed t' _ _ hv').1.symm,
    fun hnot => absurd ⟨e.tid, l, b, hw'⟩ hnot⟩
  · rw [hmem]
    exact h.stored
  · rw [hqueue]
    exact fun x hx => h.kept x (hmember x hx)
  · rw [hqueue, htickets]
    exact fun x hx => h.tickets x (hmember x hx)
  · rw [hqueue]
    exact hsorted.1
  · rw [hqueue]
    intro x hx
    obtain ⟨t, l', b', hv, hb⟩ := h.owner x (hmember x hx)
    obtain ⟨-, hsame⟩ | ⟨-, hnew⟩ := watch_other hf hw hv
    · cases hsame
      exact absurd (hbelow x hx) (by omega)
    · exact ⟨t, l', b', hnew, hb⟩
  · obtain ⟨hne, hold⟩ := hchanged t l' b' hv
    obtain ⟨hch, q₁, q₂, hq', htable⟩ := h.changed t l' b' hold
    refine ⟨hch, ?_⟩
    rw [hqueue]
    rw [hq] at hq'
    rcases List.eq_nil_or_concat q₂ with rfl | ⟨q₃, y, rfl⟩
    · -- the failed write is another call's
      obtain ⟨-, hsame⟩ := List.append_inj' hq' rfl
      rw [List.cons.injEq, Prod.mk.injEq] at hsame
      exact absurd (h.distinct t e.tid l' l b' b hold hw hsame.1.1.symm) hne
    · rw [List.concat_eq_append, ← List.cons_append, ← List.append_assoc] at hq'
      obtain ⟨rfl, -⟩ := List.append_inj' hq' rfl
      exact ⟨q₁, q₃, rfl, htable⟩
  · obtain ⟨rfl, rfl, rfl⟩ := hfailed t l' b' hv
    refine ⟨hchange, ?_, ?_, ?_, ?_, ?_⟩
    · rw [hmem]
      exact hheap
    · rw [hmem]
      exact hclaims
    · rw [hqueue]
      exact hbefore
    · rw [htickets]
      exact h.tickets (b'.tickets, (l'.apply lib b').table) (by rw [hq]; simp)
    · rw [hqueue]
      exact hbelow

/-! ## One event -/

/-- A call that owes a write or a rollback runs nothing but the rollback. -/
theorem legal_undo {l : Stretch Cap} (h : Legal lib w l) (hl : IsUndo l) :
    ∃ l' b, w = .failed l' b ∧ undoOf lib b l' = some l := by
  cases w with
  | failed l' b => exact ⟨l', b, rfl, h⟩
  | _ =>
    cases l with
    | persistUndo inboxId existing => exact h.elim
    | leaseUndo ref previous => exact h.elim
    | remintUndo inboxId previous => exact h.elim
    | _ => exact hl.elim

theorem legal_free {l : Stretch Cap} (h : Legal lib w l) (hl : ¬ IsUndo l) : ¬ Owes w := by
  cases w with
  | changed l' b => exact h.elim
  | failed l' b => exact absurd (isUndo_undoOf h) hl
  | _ => exact id

theorem follow_idle {m : Store Cap} {i : Input} {l : Stretch Cap} (hw : ¬ Owes w)
    (hl : changes lib m l = false) : ¬ Owes (follow lib w m i l) := by
  by_cases hlooks : Looks l
  · cases l with
    | remintCheck a =>
      cases hm : m.remintCheck lib a with
      | error e =>
        rw [follow_unchecked i hm]
        exact id
      | ok r =>
        rw [follow_check i hm]
        exact id
    | remintSign r => exact id
    | leaseRead ref => exact hw
    | _ => exact hlooks.elim
  · rw [follow_rest hlooks, hl]
    exact id

/-- What one orderly event does; `D` is what a fresh store would hydrate before
it, `D'` after it. -/
inductive Turn (lib : Lib Cap) (s s' : ClaimState Cap) (e : ClaimEvent Cap) (D : Table Cap) :
    Table Cap → Prop
  | idle (same : SameDebts lib s s') (looks : ∀ l g i m, e.exch = ⟨.run l g, (i, m)⟩ →
      changes lib m l = false ∧ ¬ IsUndo l)
      (apart : ∀ n r, e.exch ≠ ⟨.await (.set n), r⟩)
      (stays : ∀ l b, watch lib s' e.tid = some (.landed l b) ↔
      watch lib s e.tid = some (.landed l b)) : Turn lib s s' e D D
  | change (l : Stretch Cap) (i : Input) (exch : e.exch = ⟨.run l fun _ s => l.apply lib s,
      (i, s.mem)⟩)
      (change : Change lib l s.mem) (free : ∀ w, watch lib s e.tid = some w →
      ¬ Owes w ∧ Legal lib w l)
      (clear : ¬ RollbackOwed lib s) (mem : s'.mem = l.apply lib s.mem)
      (next : watch lib s' e.tid = some (.changed l s.mem)) : Turn lib s s' e D D
  | undone (l u : Stretch Cap) (b : Store Cap) (i : Input)
      (exch : e.exch = ⟨.run u fun _ s => u.apply lib s, (i, s.mem)⟩)
      (owed : watch lib s e.tid = some (.failed l b)) (undo : undoOf lib b l = some u)
      (found : s.mem.table = (l.apply lib b).table) (left : (u.apply lib s.mem).table = b.table)
      (mem : s'.mem = u.apply lib s.mem)
      (next : watch lib s' e.tid = some .ended) : Turn lib s s' e D D
  | landed (l : Stretch Cap) (b : Store Cap) (exch : e.exch = ⟨.await (.set b.tickets), .ok ()⟩)
      (owed : watch lib s e.tid = some (.changed l b)) (before : b.table = D)
      (change : Change lib l b)
      (oldest : ∀ x ∈ s'.mem.queue, b.tickets < x.1) (mem : s'.mem =
      s.mem.answer lib b.tickets true) (next : watch lib s' e.tid = some (.landed l b)) :
      Turn lib s s' e D (l.apply lib b).table
  | failed (l : Stretch Cap) (b : Store Cap) (err : Err)
      (exch : e.exch = ⟨.await (.set b.tickets), .error err⟩)
      (owed : watch lib s e.tid = some (.changed l b))
      (mem : s'.mem = s.mem.answer lib b.tickets false)
      (next : watch lib s' e.tid = some (.failed l b)) : Turn lib s s' e D D

theorem legal_over {l : Stretch Cap} (h : Legal lib w l) (hl : ¬ IsUndo l) {m : Store Cap}
    (hchanges : changes lib m l = false) (i : Input) {l' : Stretch Cap} {b : Store Cap} :
    follow lib w m i l = .landed l' b ↔ w = .landed l' b := by
  refine ⟨fun hfollow => ?_, fun hw => ?_⟩
  · by_cases hlooks : Looks l
    · cases l with
      | remintCheck a =>
        cases hm : m.remintCheck lib a with
        | error e =>
          rw [follow_unchecked i hm] at hfollow
          cases hfollow
        | ok r =>
          rw [follow_check i hm] at hfollow
          cases hfollow
      | remintSign r => cases hfollow
      | leaseRead ref => exact hfollow
      | _ => exact hlooks.elim
    · rw [follow_rest hlooks, hchanges] at hfollow
      cases hfollow
  · subst hw
    cases l with
    | leaseRead ref => rfl
    | _ => exact h.elim

theorem Ledger.fires (hlib : LawfulLib lib) (h : Ledger lib D s) (hinv : Inv lib s)
    (hinv' : Inv lib s') (hf : Pool.Fires (claims lib) s e c k s')
    (horder : InOrder lib s e.tid e.exch) : ∃ D', Turn lib s s' e D D' ∧ Ledger lib D' s' := by
  obtain ⟨w, hw, hw', heffect⟩ := hinv.effect hf
  cases heffect with
  | stretch l i hx hlegal hmem hnext =>
    rw [hnext] at hw'
    rw [hx] at horder
    have horder : changes lib s.mem l = true → ¬ RollbackOwed lib s ∧ Attached s.mem l := horder
    by_cases hundo : IsUndo l
    · obtain ⟨l', b, rfl, hu⟩ := legal_undo hlegal hundo
      rw [follow_undo hu] at hw'
      obtain ⟨hchange, hheap, hclaims, -⟩ := h.failed e.tid l' b hw
      have hback := undo_restores hchange hu hinv.sound
          (proper_of_legal hlegal (hinv.held _ _ hw)) hheap hclaims
      exact ⟨D, .undone l' l b i hx hw hu (table_same hheap hclaims) hback hmem hw',
        h.undone hf hw hundo hmem hback hw'⟩
    · have hfree := legal_free hlegal hundo
      cases hchanges : changes lib s.mem l with
      | true =>
        obtain ⟨hclear, hattached⟩ := horder hchanges
        obtain ⟨u, hu⟩ := Option.isSome_iff_exists.mp hchanges
        rw [follow_changed i hu] at hw'
        refine ⟨D,
          .change l i hx ⟨hinv.sound, hattached, hchanges⟩ (fun v hv => ?_) hclear hmem hw',
          h.change hinv.sound hinv'.sound hf hw hfree hchanges hattached hclear hmem hw'⟩
        cases hw.symm.trans hv
        exact ⟨hfree, hlegal⟩
      | false =>
        rw [apply_idle hinv.sound hchanges hundo] at hmem
        have hsame := sameDebts_idle hf hw hw' hmem (.inr ⟨hfree, follow_idle hfree hchanges⟩)
        refine ⟨D, .idle hsame (fun l' g i' m hx' => ?_) (fun n r hx' => ?_) (fun l' b => ?_),
          h.same hsame⟩
        · rw [hx] at hx'
          cases hx'
          exact ⟨hchanges, hundo⟩
        · rw [hx] at hx'
          cases hx'
        · rw [hw', hw, Option.some.injEq, Option.some.injEq]
          exact legal_over hlegal hundo hchanges i
  | landed l b hat hx _ hmem hnext =>
    subst hat
    rw [hnext] at hw'
    rw [hx] at horder
    have hlanded := h.landed hlib hf hw horder hmem hw'
    obtain ⟨hchange, q₁, q, hq, hbefore⟩ := h.changed e.tid l b hw
    have hnodup := h.nodup
    have horder : s.mem.queue.head?.map Prod.fst = some b.tickets := horder
    have hsorted := h.sorted
    rw [hq] at hnodup horder hsorted
    cases oldest hnodup horder
    rw [List.nil_append, List.map_cons, List.pairwise_cons] at hsorted
    refine ⟨_, .landed l b hx hw hbefore hchange (fun x hx => ?_) hmem hw', hlanded⟩
    rw [hmem, answer_queue h.nodup hq] at hx
    exact hsorted.1 x.1 (List.mem_map_of_mem hx)
  | failed l b err hat hx _ hmem hnext =>
    subst hat
    rw [hnext] at hw'
    rw [hx] at horder
    obtain ⟨hnewest, hclear, hsame⟩ := horder
    obtain ⟨hheap, hclaims⟩ := hsame l b hw
    exact ⟨D, .failed l b err hx hw hmem hw',
      h.writeFails hf hw hnewest hclear hheap hclaims hmem hw'⟩
  | still hother hrun hmem hnext =>
    rw [hnext] at hw'
    have hsame := sameDebts_idle hf hw hw' hmem (.inl rfl)
    exact ⟨D, .idle hsame (fun l g i m hx => absurd hx (hrun l g (i, m))) hother
      (fun l b => by rw [hw', hw]), h.same hsame⟩

end

/-- The runs are orderly. -/
structure Ordered (lib : Lib Cap) (R : ClaimRules Cap) : Prop where
  init : ∀ s, R.init s → Fresh lib s
  ok : ∀ s e, R.ok s e → clockReads e.exch ∧ InOrder lib s e.tid e.exch

theorem ordered_orderly : Ordered lib (orderly lib) := ⟨fun _ h => h, fun _ _ h => h⟩

end RezSdk.L4.ClaimWrites
