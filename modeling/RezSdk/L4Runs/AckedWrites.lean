import RezSdk.L2Storage.IndexedDbTransactions

/-!
# Acknowledged writes

A `set` or `delete` that has resolved should stay done. The promise is resolved
by `onsuccess` of the request, and the transaction may abort after that, which
takes the write back.

* `acked_kept`: in every run where no writing transaction aborts after its
  request has succeeded, no resolved write is in an aborted transaction, and every later
  `get` shows it unless the key was written in between.
* `acked_lost`: a resolved `set` whose transaction aborts.
-/
namespace RezSdk.L4.AckedWrites

open RezSdk.L1 RezSdk.L2.IndexedDb

abbrev Exch := Proc.Exch idb
abbrev StoreEvent := Event idb (ObjFate Unit outside)

/-! ## The property -/

/-- The transaction's promise has resolved. -/
def Resolved (tx : Tx) : Prop := ∃ v, tx.promise = some (.ok v)

/-- What a `get` gives after a write that left `w` under its key. -/
def Shows (lib : Lib) (w : Option Json) (v : Json) : Prop := cloneJson lib (w.getD .null) = .ok v

/-- The call is a write of this key. -/
def StoreCall.writes : StoreCall → Option String
  | .set key _ => some key
  | .delete key => some key
  | _ => none

/-- The call `t` has opened transaction `i` for the request `r`. -/
def Opened (log : List StoreEvent) (t i : Nat) (r : Request) : Prop :=
  ∃ e ∈ log, e.tid = t ∧ ∃ g u m, e.exch = ⟨.run (.request r) g, (u, m)⟩ ∧ m.txs.length = i

/-- The call `t` has decrypted what it read. -/
def Decrypted (log : List StoreEvent) (t : Nat) (physicalKey : String) (stored v : Json) : Prop :=
  ∃ e ∈ log, e.tid = t ∧ e.exch = ⟨.await (.decrypt physicalKey stored), .ok v⟩

/-- What a `get` returns after it has read `stored`. -/
def Reads (cfg : StoreConfig) (log : List StoreEvent) (t : Nat) (physicalKey : String)
    (stored : Json) (x : Option Json) : Prop :=
  if isNull stored then x = none
  else if cfg.encrypted then ∃ v, x = some v ∧ Decrypted log t physicalKey stored v
  else x = some stored

/-- Transactions are numbered as they are opened, so a call that starts after
another one has returned has the higher number. -/
structure Acked (cfg : StoreConfig) (s : StoreState) : Prop where
  /-- a write that has returned has a resolved transaction -/
  told : ∀ t c key y, s.threads[t]? = some ⟨c, .ret (.ok y)⟩ → StoreCall.writes c = some key →
    ∃ i r tx w, Opened s.log t i r ∧ s.mem.txs[i]? = some tx ∧ tx.request = r ∧
    r.write = some (cfg.keyPrefix ++ key, w) ∧ Resolved tx
  /-- a `get` that has returned gives what its transaction resolved with -/
  heard : ∀ t key y, s.threads[t]? = some ⟨.get key, .ret (.ok y)⟩ →
    ∃ j tx v x, Opened s.log t j (.get (cfg.keyPrefix ++ key)) ∧
    s.mem.txs[j]? = some tx ∧ tx.request = .get (cfg.keyPrefix ++ key) ∧ tx.promise = some (.ok v) ∧
      y = .value x ∧
    Reads cfg s.log t (cfg.keyPrefix ++ key) v x
  kept : ∀ (i : Nat) (tx : Tx), s.mem.txs[i]? = some tx → tx.request.write.isSome →
    Resolved tx → tx.phase ≠ .aborted
  seen : ∀ (i j : Nat) (ti tj : Tx) (key : String) (w : Option Json) (v : Json), i < j →
    s.mem.txs[i]? = some ti →
    ti.request.write = some (key, w) → Resolved ti → s.mem.txs[j]? = some tj →
      tj.request = .get key → tj.promise = some (.ok v) →
    (∀ (m : Nat) (tm : Tx), i < m → m < j → s.mem.txs[m]? = some tm →
    tm.request.write.map Prod.fst ≠ some key) → Shows cfg.lib w v

/-- No transaction of a write aborts after its request has succeeded. -/
def steadfast : StoreRules where
  init s := s.txs = []
  may _ _ := True
  ok s e := ∀ i err g u m, e.exch = ⟨.run (.idb (.abort i err)) g, (u, m)⟩ →
    ∀ tx : Tx, s.mem.txs[i]? = some tx → tx.request.write.isSome → tx.phase ≠ .succeeded

/-! ## The database -/

/-- A committed transaction's write, on the database. -/
def applyTx (db : Db) (tx : Tx) : Db :=
  if tx.phase = .committed then applyWrite db tx.request.write else db

/-- What is committed, from what was there at the start. -/
def applied (db₀ : Db) (txs : List Tx) : Db := txs.foldl applyTx db₀

/-- The request has been carried out. -/
def Phase.executed : Phase → Bool
  | .succeeded | .failed | .committed => true
  | _ => false

structure Sound (lib : Lib) (db₀ : Db) (s : Idb) : Prop where
  db : s.db = applied db₀ s.txs
  /-- conflicting transactions run one after the other -/
  order : ∀ (a b : Nat) (ta tb : Tx), a < b → s.txs[a]? = some ta → s.txs[b]? = some tb →
    Phase.executed tb.phase = true →
    ta.phase.finished = true ∨ ta.request.write = none ∧ tb.request.write = none
  acked : ∀ (i : Nat) (tx : Tx), s.txs[i]? = some tx → tx.request.write.isSome →
    Resolved tx → tx.phase = .succeeded ∨ tx.phase = .committed
  gets : ∀ (j : Nat) (tx : Tx) (key : String) (v : Json), s.txs[j]? = some tx →
    tx.request = .get key → tx.promise = some (.ok v) →
    Shows lib (OMap.get key (applied db₀ (s.txs.take j))) v ∧
      ∀ (a : Nat) (ta : Tx), a < j → s.txs[a]? = some ta → ta.request.write.isSome →
      ta.phase.finished = true
  waiting : ∀ (i : Nat) (tx : Tx), s.txs[i]? = some tx → tx.phase = .queued → tx.promise = none

section

variable {lib : Lib} {db₀ : Db} {s : Idb}

theorem applyTx_idle {db : Db} {tx : Tx} (h : tx.phase = .committed → tx.request.write = none) :
    applyTx db tx = db := by
  unfold applyTx
  split
  · rw [h ‹_›]
    rfl
  · rfl

theorem applied_idle {db : Db} {txs : List Tx}
    (h : ∀ tx ∈ txs, tx.phase = .committed → tx.request.write = none) : applied db txs = db := by
  induction txs with
  | nil => rfl
  | cons tx txs ih =>
    change applied (applyTx db tx) txs = db
    rw [applyTx_idle (h tx (.head _))]
    exact ih fun tx' htx' => h tx' (.tail _ htx')

theorem applied_append (db : Db) (txs txs' : List Tx) :
    applied db (txs ++ txs') = applied (applied db txs) txs' :=
  List.foldl_append

/-- Transactions from `n` on that have committed no write do not matter. -/
theorem applied_take {txs : List Tx} {n : Nat}
    (h : ∀ (i : Nat) (tx : Tx), n ≤ i → txs[i]? = some tx → tx.phase = .committed →
        tx.request.write = none) : applied db₀ txs = applied db₀ (txs.take n) := by
  have hsplit := applied_append db₀ (txs.take n) (txs.drop n)
  rw [List.take_append_drop] at hsplit
  rw [hsplit]
  refine applied_idle fun tx htx => ?_
  obtain ⟨i, hi⟩ := List.mem_iff_getElem?.mp htx
  rw [List.getElem?_drop] at hi
  exact h _ tx (Nat.le_add_right n i) hi

/-- Replacing a transaction by one with the same effect. -/
theorem applied_set {txs : List Tx} {i : Nat} {tx tx' : Tx} (hi : txs[i]? = some tx)
    (h : ∀ db, applyTx db tx' = applyTx db tx) : applied db₀ (txs.set i tx') = applied db₀ txs := by
  obtain ⟨hlt, hget⟩ := List.getElem?_eq_some_iff.mp hi
  have hold : txs = txs.set i tx := by
    rw [← hget]
    exact (List.set_getElem_self hlt).symm
  conv_rhs => rw [hold]
  rw [List.set_eq_take_append_cons_drop, List.set_eq_take_append_cons_drop, if_pos hlt, if_pos hlt]
  rw [applied_append, applied_append]
  change applied (applyTx _ tx') _ = applied (applyTx _ tx) _
  rw [h]

theorem getElem?_set_some {txs : List Tx} {i j : Nat} {tx tx' t : Tx} (hi : txs[i]? = some tx)
    (h : (txs.set i tx')[j]? = some t) : j = i ∧ t = tx' ∨ j ≠ i ∧ txs[j]? = some t := by
  rw [List.getElem?_set] at h
  split at h
  · rename_i heq
    rw [if_pos (List.getElem?_eq_some_iff.mp hi).1] at h
    exact .inl ⟨heq.symm, (Option.some.inj h).symm⟩
  · exact .inr ⟨Ne.symm ‹_›, h⟩

theorem take_set_of_le {txs : List Tx} {i j : Nat} {tx' : Tx} (h : j ≤ i) :
    (txs.set i tx').take j = txs.take j := by
  rw [List.take_set, List.set_eq_of_length_le]
  rw [List.length_take]
  omega

theorem applied_take_set {txs : List Tx} {i j : Nat} {tx tx' : Tx} (hi : txs[i]? = some tx)
    (h : ∀ db, applyTx db tx' = applyTx db tx) :
    applied db₀ ((txs.set i tx').take j) = applied db₀ (txs.take j) := by
  by_cases hlt : i < j
  · rw [List.take_set]
    exact applied_set (by rw [List.getElem?_take_of_lt hlt, hi]) h
  · rw [take_set_of_le (by omega)]

theorem ready_iff {i : Nat} {tx : Tx} :
    s.ready i tx = true ↔
    ∀ (a : Nat) (ta : Tx), a < i → s.txs[a]? = some ta →
      ta.phase.finished = true ∨ ta.request.write = none ∧ tx.request.write = none := by
  unfold Idb.ready
  rw [List.all_eq_true]
  constructor
  · intro h a ta ha hta
    have hmem : ta ∈ s.txs.take i :=
      List.mem_iff_getElem?.mpr ⟨a, by rw [List.getElem?_take_of_lt ha, hta]⟩
    have hor := h ta hmem
    rw [Bool.or_eq_true, Bool.and_eq_true, Option.isNone_iff_eq_none, Option.isNone_iff_eq_none]
      at hor
    exact hor
  · intro h ta hmem
    obtain ⟨a, ha⟩ := List.mem_iff_getElem?.mp hmem
    have hlt : a < i := by
      have hlen := (List.getElem?_eq_some_iff.mp ha).1
      rw [List.length_take] at hlen
      omega
    rw [List.getElem?_take_of_lt hlt] at ha
    rw [Bool.or_eq_true, Bool.and_eq_true, Option.isNone_iff_eq_none, Option.isNone_iff_eq_none]
    exact h a ta hlt ha

/-- A transaction goes on to its next phase: what it commits is the same, or it
was a write that had not finished, so that nobody has read past it. -/
theorem Sound.replace {i : Nat} {tx tx' : Tx} {db' : Db} (h : Sound lib db₀ s)
    (hi : s.txs[i]? = some tx) (hreq : tx'.request = tx.request)
    (hdb : db' = applied db₀ (s.txs.set i tx'))
    (heffect :
        (∀ db, applyTx db tx' = applyTx db tx) ∨
        tx.request.write.isSome ∧ tx.phase.finished = false)
    (hfinished : tx.phase.finished = true → tx'.phase.finished = true)
    (horder :
        Phase.executed tx'.phase = true → Phase.executed tx.phase = true ∨ s.ready i tx = true)
    (hacked :
        tx.request.write.isSome → Resolved tx' → tx'.phase = .succeeded ∨ tx'.phase = .committed)
    (hget : ∀ key v, tx.request = .get key → tx'.promise = some (.ok v) →
        tx.promise = some (.ok v) ∨
        Shows lib (OMap.get key (applied db₀ (s.txs.take i))) v ∧ s.ready i tx = true)
    (hwaiting : tx'.phase = .queued → tx'.promise = none) :
    Sound lib db₀ { db := db', txs := s.txs.set i tx' } where
  db := hdb
  order a b ta tb hab ha hb hexec := by
    rcases getElem?_set_some hi ha with ⟨hai, hta⟩ | ⟨-, ha'⟩
    · rcases getElem?_set_some hi hb with ⟨hbi, -⟩ | ⟨-, hb'⟩
      · omega
      · rw [hta, hreq]
        rw [hai] at hab
        exact (h.order i b tx tb hab hi hb' hexec).imp_left hfinished
    · rcases getElem?_set_some hi hb with ⟨hbi, htb⟩ | ⟨-, hb'⟩
      · rw [htb] at hexec
        rw [htb, hreq]
        rw [hbi] at hab
        rcases horder hexec with hexec' | hready
        · exact h.order a i ta tx hab ha' hi hexec'
        · exact ready_iff.mp hready a ta hab ha'
      · exact h.order a b ta tb hab ha' hb' hexec
  acked j t hj hwrite hres := by
    rcases getElem?_set_some hi hj with ⟨-, rfl⟩ | ⟨-, hj⟩
    · rw [hreq] at hwrite
      exact hacked hwrite hres
    · exact h.acked j t hj hwrite hres
  gets j t key v hj hkey hv := by
    -- what was read before is read still, and what was finished is finished
    have hkeep (t₀ : Tx) (ht₀ : s.txs[j]? = some t₀) (hkey₀ : t₀.request = .get key)
        (hv₀ : t₀.promise = some (.ok v)) :
        Shows lib (OMap.get key (applied db₀ ((s.txs.set i tx').take j))) v ∧
          ∀ (a : Nat) (ta : Tx), a < j →
          (s.txs.set i tx')[a]? = some ta → ta.request.write.isSome → ta.phase.finished = true := by
      obtain ⟨hshows, hdone⟩ := h.gets j t₀ key v ht₀ hkey₀ hv₀
      constructor
      · rcases heffect with hsame | ⟨hwrite, hopen⟩
        · rw [applied_take_set hi hsame]
          exact hshows
        · by_cases hlt : i < j
          · rw [hdone i tx hlt hi hwrite] at hopen
            cases hopen
          · rw [take_set_of_le (by omega)]
            exact hshows
      · intro a ta ha hta hwrite
        rcases getElem?_set_some hi hta with ⟨rfl, rfl⟩ | ⟨-, hta⟩
        · rw [hreq] at hwrite
          exact hfinished (hdone a tx ha hi hwrite)
        · exact hdone a ta ha hta hwrite
    rcases getElem?_set_some hi hj with ⟨rfl, rfl⟩ | ⟨-, hj⟩
    · rw [hreq] at hkey
      rcases hget key v hkey hv with hold | ⟨hshows, hready⟩
      · exact hkeep tx hi hkey hold
      · dsimp only
        rw [take_set_of_le (Nat.le_refl j)]
        refine ⟨hshows, fun a ta ha hta hwrite => ?_⟩
        rcases getElem?_set_some hi hta with ⟨rfl, -⟩ | ⟨-, hta⟩
        · exact absurd ha (Nat.lt_irrefl _)
        · rcases ready_iff.mp hready a ta ha hta with hdone | ⟨hnone, -⟩
          · exact hdone
          · rw [hnone] at hwrite
            cases hwrite
    · exact hkeep t hj hkey hv
  waiting j t hj hq := by
    rcases getElem?_set_some hi hj with ⟨-, rfl⟩ | ⟨-, hj⟩
    · exact hwaiting hq
    · exact h.waiting j t hj hq

/-- Past a transaction that has not finished, no write has been carried out. -/
theorem Sound.idle_after {i j : Nat} {tx t : Tx} (h : Sound lib db₀ s) (hi : s.txs[i]? = some tx)
    (hopen : tx.phase.finished = false) (hlt : i < j) (hj : s.txs[j]? = some t)
    (hphase : t.phase = .committed) : t.request.write = none := by
  rcases h.order i j tx t hlt hi hj (by rw [hphase]; rfl) with hdone | ⟨-, hnone⟩
  · rw [hdone] at hopen
    cases hopen
  · exact hnone

/-- What is committed comes from before the first transaction that has not
finished. -/
theorem Sound.db_take {i : Nat} {tx : Tx} (h : Sound lib db₀ s) (hi : s.txs[i]? = some tx)
    (hopen : tx.phase.finished = false) : s.db = applied db₀ (s.txs.take i) := by
  rw [h.db]
  refine applied_take fun j t hle hj hphase => ?_
  rcases Nat.eq_or_lt_of_le hle with rfl | hlt
  · rw [hi] at hj
    cases hj
    rw [hphase] at hopen
    cases hopen
  · exact h.idle_after hi hopen hlt hj hphase

theorem Sound.success {i : Nat} {tx : Tx} (h : Sound lib db₀ s) (hi : s.txs[i]? = some tx)
    (hqueued : tx.phase = .queued) (hready : s.ready i tx = true) :
    Sound lib db₀ { s with
      txs := s.txs.set i { tx with
        phase := .succeeded
        promise := tx.promise.or (s.outcome lib tx.request) } } := by
  have hsame (db : Db) :
      applyTx db { tx with
        phase := .succeeded
        promise := tx.promise.or (s.outcome lib tx.request) } = applyTx db tx := by
    simp [applyTx, hqueued]
  refine h.replace hi rfl (h.db.trans (applied_set hi hsame).symm) (.inl hsame) ?_
    (fun _ => .inr hready) (fun _ _ => .inl rfl) ?_ nofun
  · intro hfin
    rw [hqueued] at hfin
    cases hfin
  · intro key v hkey hv
    right
    refine ⟨?_, hready⟩
    rw [h.waiting i tx hi hqueued, hkey] at hv
    rw [← h.db_take hi (by rw [hqueued]; rfl)]
    change s.outcome lib (.get key) = some (.ok v) at hv
    unfold Idb.outcome at hv
    dsimp only at hv
    unfold Shows
    split at hv
    · rename_i w hw
      cases hv
      exact hw
    · cases hv

theorem Sound.error {i : Nat} {tx : Tx} {e : Err} (h : Sound lib db₀ s) (hi : s.txs[i]? = some tx)
    (hqueued : tx.phase = .queued) (hready : s.ready i tx = true) :
    Sound lib db₀ { s with txs := s.txs.set i (tx.settle .failed (.error e)) } := by
  have hnone := h.waiting i tx hi hqueued
  have hsame (db : Db) : applyTx db (tx.settle .failed (.error e)) = applyTx db tx := by
    simp [applyTx, Tx.settle, hqueued]
  refine h.replace hi rfl (h.db.trans (applied_set hi hsame).symm) (.inl hsame) ?_
    (fun _ => .inr hready) ?_ ?_ nofun
  · intro hfin
    rw [hqueued] at hfin
    cases hfin
  · rintro - ⟨v, hv⟩
    simp [Tx.settle, hnone] at hv
  · intro key v hkey hv
    simp [Tx.settle, hnone] at hv

theorem Sound.abort {i : Nat} {tx : Tx} {e : Err} (h : Sound lib db₀ s) (hi : s.txs[i]? = some tx)
    (hopen : tx.phase.finished = false)
    (hsteady : tx.request.write.isSome → tx.phase ≠ .succeeded) :
    Sound lib db₀ { s with txs := s.txs.set i (tx.settle .aborted (.error e)) } := by
  have hsame (db : Db) : applyTx db (tx.settle .aborted (.error e)) = applyTx db tx := by
    have hne : tx.phase ≠ .committed := by
      intro heq
      rw [heq] at hopen
      cases hopen
    simp [applyTx, Tx.settle, hne]
  -- a promise that was settled stays as it was
  have hold (v : Json) (hv : (tx.settle .aborted (.error e)).promise = some (.ok v)) :
      tx.promise = some (.ok v) := by
    cases hp : tx.promise with
    | none => simp [Tx.settle, hp] at hv
    | some o =>
      simp only [Tx.settle, hp, Option.getD_some] at hv
      exact hv
  refine h.replace hi rfl (h.db.trans (applied_set hi hsame).symm) (.inl hsame)
    (fun _ => rfl) nofun ?_ ?_ nofun
  · rintro hwrite ⟨v, hv⟩
    rcases h.acked i tx hi hwrite ⟨v, hold v hv⟩ with hphase | hphase
    · exact absurd hphase (hsteady hwrite)
    · rw [hphase] at hopen
      cases hopen
  · intro key v hkey hv
    exact .inl (hold v hv)

theorem Sound.complete {i : Nat} {tx : Tx} (h : Sound lib db₀ s) (hi : s.txs[i]? = some tx)
    (hphase : tx.phase = .succeeded) :
    Sound lib db₀
      { db := applyWrite s.db tx.request.write
        txs := s.txs.set i { tx with phase := .committed } } := by
  have hopen : tx.phase.finished = false := by rw [hphase]; rfl
  refine h.replace hi rfl ?_ ?_ (fun _ => rfl) ?_ (fun _ _ => .inr rfl)
    (fun _ _ _ hv => .inl hv) nofun
  · -- the write comes last: nothing after it has been carried out
    have hlt := (List.getElem?_eq_some_iff.mp hi).1
    rw [h.db_take hi hopen]
    rw [List.set_eq_take_append_cons_drop, if_pos hlt, applied_append]
    refine (applied_idle fun t ht hcommitted => ?_).symm
    obtain ⟨k, hk⟩ := List.mem_iff_getElem?.mp ht
    rw [List.getElem?_drop] at hk
    exact h.idle_after hi hopen (by omega) hk hcommitted
  · cases hw : tx.request.write with
    | some w => exact .inr ⟨rfl, hopen⟩
    | none =>
      left
      intro db
      simp [applyTx, hphase, hw, applyWrite]
  · intro _
    left
    rw [hphase]
    rfl

theorem Sound.init {m : Idb} (h : m.txs = []) : Sound lib m.db m := by
  have hno (i : Nat) (tx : Tx) : ¬ m.txs[i]? = some tx := by simp [h]
  refine ⟨?_, fun a b ta tb _ ha => absurd ha (hno a ta), fun i tx hi => absurd hi (hno i tx),
    fun j tx key v hj => absurd hj (hno j tx), fun i tx hi => absurd hi (hno i tx)⟩
  rw [h]
  rfl

theorem getElem?_push {txs : List Tx} {i : Nat} {tx t : Tx} (h : (txs ++ [tx])[i]? = some t) :
    i = txs.length ∧ t = tx ∨ txs[i]? = some t := by
  rcases Nat.lt_trichotomy i txs.length with hlt | heq | hgt
  · rw [List.getElem?_append_left hlt] at h
    exact .inr h
  · subst heq
    rw [List.getElem?_append_right (Nat.le_refl _), Nat.sub_self] at h
    exact .inl ⟨rfl, (Option.some.inj h).symm⟩
  · rw [List.getElem?_eq_none (by simp; omega)] at h
    cases h

theorem Sound.request (h : Sound lib db₀ s) (r : Request) :
    Sound lib db₀ { s with txs := s.txs ++ [⟨r, .queued, none⟩] } where
  db := by
    rw [applied_append]
    exact h.db
  order a b ta tb hab ha hb hexec := by
    rcases getElem?_push hb with ⟨-, rfl⟩ | hb'
    · cases hexec
    · rcases getElem?_push ha with ⟨rfl, -⟩ | ha'
      · have hlt := (List.getElem?_eq_some_iff.mp hb').1
        omega
      · exact h.order a b ta tb hab ha' hb' hexec
  acked i tx hi hwrite hres := by
    rcases getElem?_push hi with ⟨-, rfl⟩ | hi'
    · obtain ⟨v, hv⟩ := hres
      cases hv
    · exact h.acked i tx hi' hwrite hres
  gets j tx key v hj hkey hv := by
    rcases getElem?_push hj with ⟨-, rfl⟩ | hj'
    · cases hv
    · have hlt := (List.getElem?_eq_some_iff.mp hj').1
      dsimp only
      rw [List.take_append_of_le_length (Nat.le_of_lt hlt)]
      obtain ⟨hshows, hdone⟩ := h.gets j tx key v hj' hkey hv
      refine ⟨hshows, fun a ta ha hta => ?_⟩
      rw [List.getElem?_append_left (ha.trans hlt)] at hta
      exact hdone a ta ha hta
  waiting i tx hi hq := by
    rcases getElem?_push hi with ⟨-, rfl⟩ | hi'
    · rfl
    · exact h.waiting i tx hi' hq

/-- What an event of the database does. -/
inductive Happens (lib : Lib) (s : Idb) : IdbEvent → Idb → Prop
  | nothing (ev : IdbEvent) : Happens lib s ev s
  | success {i : Nat} {tx : Tx} (hi : s.txs[i]? = some tx) (queued : tx.phase = .queued)
      (ready : s.ready i tx = true) :
      Happens lib s (.success i)
        { s with
          txs := s.txs.set i { tx with
            phase := .succeeded
            promise := tx.promise.or (s.outcome lib tx.request) } }
  | error {i : Nat} {tx : Tx} (e : Err) (hi : s.txs[i]? = some tx) (queued : tx.phase = .queued)
      (ready : s.ready i tx = true) :
      Happens lib s (.error i e) { s with txs := s.txs.set i (tx.settle .failed (.error e)) }
  | complete {i : Nat} {tx : Tx} (hi : s.txs[i]? = some tx) (succeeded : tx.phase = .succeeded) :
      Happens lib s (.complete i)
        { db := applyWrite s.db tx.request.write
          txs := s.txs.set i { tx with phase := .committed } }
  | abort {i : Nat} {tx : Tx} (e : Err) (hi : s.txs[i]? = some tx)
      (underWay : tx.phase.finished = false) :
      Happens lib s (.abort i e) { s with txs := s.txs.set i (tx.settle .aborted (.error e)) }

theorem event_happens (ev : IdbEvent) : Happens lib s ev (s.event lib ev) := by
  cases ev with
  | success i =>
    unfold Idb.event
    dsimp only
    split
    · split
      · rename_i hi hnow
        exact .success hi hnow.1 hnow.2
      · exact .nothing _
    · exact .nothing _
  | error i e =>
    unfold Idb.event
    dsimp only
    split
    · split
      · rename_i hi hnow
        exact .error e hi hnow.1 hnow.2
      · exact .nothing _
    · exact .nothing _
  | complete i =>
    unfold Idb.event
    dsimp only
    split
    · split
      · rename_i hi hphase
        exact .complete hi hphase
      · exact .nothing _
    · exact .nothing _
  | abort i e =>
    unfold Idb.event
    dsimp only
    split
    · split
      · exact .nothing _
      · rename_i hi hopen
        exact .abort e hi (Bool.eq_false_iff.mpr hopen)
    · exact .nothing _

theorem Sound.event {ev : IdbEvent} (h : Sound lib db₀ s)
    (hsteady : ∀ i e, ev = .abort i e →
        ∀ tx : Tx, s.txs[i]? = some tx → tx.request.write.isSome → tx.phase ≠ .succeeded) :
    Sound lib db₀ (s.event lib ev) := by
  generalize hs' : s.event lib ev = s'
  have hmove : Happens lib s ev s' := hs' ▸ event_happens ev
  cases hmove with
  | nothing => exact h
  | success hi queued ready => exact h.success hi queued ready
  | error e hi queued ready => exact h.error hi queued ready
  | complete hi succeeded => exact h.complete hi succeeded
  | abort e hi underWay => exact h.abort hi underWay (hsteady _ e rfl _ hi)

/-- What a write leaves under its key, and what others leave alone. -/
theorem get_applyWrite {db : Db} {key : String} {w : Option Json} :
    OMap.get key (applyWrite db (some (key, w))) = w := by
  cases w with
  | none =>
    change OMap.get key (OMap.delete key db) = none
    rw [OMap.get_delete, if_pos rfl]
  | some payload => exact OMap.get_set_self key payload db

theorem get_applyWrite_other {db : Db} {key : String} {write : Option (String × Option Json)}
    (h : write.map Prod.fst ≠ some key) : OMap.get key (applyWrite db write) = OMap.get key db := by
  match write with
  | none => rfl
  | some (key', w) =>
    have hne : key' ≠ key := fun heq => h (congrArg some heq)
    cases w with
    | none =>
      change OMap.get key (OMap.delete key' db) = _
      rw [OMap.get_delete, if_neg hne]
    | some payload => exact OMap.get_set_ne hne payload db

theorem get_applied_other {db : Db} {key : String} {txs : List Tx}
    (h : ∀ tx ∈ txs, tx.request.write.map Prod.fst ≠ some key) :
    OMap.get key (applied db txs) = OMap.get key db := by
  induction txs generalizing db with
  | nil => rfl
  | cons tx txs ih =>
    change OMap.get key (applied (applyTx db tx) txs) = OMap.get key db
    rw [ih fun tx' htx' => h tx' (.tail _ htx')]
    unfold applyTx
    split
    · exact get_applyWrite_other (h tx (.head _))
    · rfl

/-- What is under a key is what the last committed write left there. -/
theorem get_applied {i j : Nat} {txs : List Tx} {tx : Tx} {key : String} {w : Option Json}
    (hlt : i < j) (hi : txs[i]? = some tx) (hphase : tx.phase = .committed)
    (hwrite : tx.request.write = some (key, w))
    (hbetween : ∀ (m : Nat) (tm : Tx), i < m → m < j → txs[m]? = some tm →
        tm.request.write.map Prod.fst ≠ some key) :
    OMap.get key (applied db₀ (txs.take j)) = w := by
  have hsplit := applied_append db₀ ((txs.take j).take (i + 1)) ((txs.take j).drop (i + 1))
  rw [List.take_append_drop, List.take_take, Nat.min_eq_left hlt] at hsplit
  rw [hsplit, get_applied_other]
  · rw [List.take_add_one, hi, applied_append]
    change OMap.get key (applyTx _ tx) = w
    rw [applyTx, if_pos hphase, hwrite]
    exact get_applyWrite
  · intro tm htm
    obtain ⟨k, hk⟩ := List.mem_iff_getElem?.mp htm
    rw [List.getElem?_drop] at hk
    have hlen := (List.getElem?_eq_some_iff.mp hk).1
    rw [List.length_take] at hlen
    rw [List.getElem?_take_of_lt (by omega)] at hk
    exact hbetween _ tm (by omega) (by omega) hk

/-- A resolved write is in the database by the time a later `get` is carried
out. -/
theorem Sound.seen {i j : Nat} {ti tj : Tx} {key : String} {w : Option Json} {v : Json}
    (h : Sound lib db₀ s) (hlt : i < j) (hi : s.txs[i]? = some ti)
    (hwrite : ti.request.write = some (key, w)) (hres : Resolved ti) (hj : s.txs[j]? = some tj)
    (hget : tj.request = .get key) (hv : tj.promise = some (.ok v))
    (hbetween : ∀ (m : Nat) (tm : Tx), i < m → m < j → s.txs[m]? = some tm →
        tm.request.write.map Prod.fst ≠ some key) : Shows lib w v := by
  have hsome : ti.request.write.isSome := by rw [hwrite]; rfl
  obtain ⟨hshows, hdone⟩ := h.gets j tj key v hj hget hv
  have hfinished := hdone i ti hlt hi hsome
  have hphase : ti.phase = .committed := by
    rcases h.acked i ti hi hsome hres with hphase | hphase
    · rw [hphase] at hfinished
      cases hfinished
    · exact hphase
  rw [get_applied hlt hi hphase hwrite hbetween] at hshows
  exact hshows

/-- A transaction keeps its request and, once it is settled, its promise. -/
def Carries (s s' : Idb) : Prop := ∀ (i : Nat) (tx : Tx), s.txs[i]? = some tx →
  ∃ tx', s'.txs[i]? = some tx' ∧ tx'.request = tx.request ∧ ∀ o, tx.promise = some o →
  tx'.promise = some o

theorem Carries.refl (s : Idb) : Carries s s := fun _ tx hi => ⟨tx, hi, rfl, fun _ ho => ho⟩

theorem carries_set {i : Nat} {tx tx' : Tx} {db' : Db} (hi : s.txs[i]? = some tx)
    (hreq : tx'.request = tx.request) (hpromise : ∀ o, tx.promise = some o → tx'.promise = some o) :
    Carries s { db := db', txs := s.txs.set i tx' } := by
  intro j t hj
  by_cases hji : i = j
  · subst hji
    rw [hi] at hj
    cases hj
    exact ⟨tx', List.getElem?_set_self (List.getElem?_eq_some_iff.mp hi).1, hreq, hpromise⟩
  · exact ⟨t, by rw [← hj]; exact List.getElem?_set_ne hji, rfl, fun _ ho => ho⟩

theorem settle_kept {tx : Tx} {phase : Phase} {outcome o : Except Err Json}
    (h : tx.promise = some o) : (tx.settle phase outcome).promise = some o := by
  unfold Tx.settle
  rw [h]
  rfl

theorem carries_event (ev : IdbEvent) : Carries s (s.event lib ev) := by
  generalize hs' : s.event lib ev = s'
  have hmove : Happens lib s ev s' := hs' ▸ event_happens ev
  cases hmove with
  | nothing => exact .refl s
  | success hi queued ready =>
    refine carries_set hi rfl fun o ho => ?_
    change Option.or _ _ = some o
    rw [ho]
    rfl
  | error e hi queued ready => exact carries_set hi rfl fun o ho => settle_kept ho
  | complete hi succeeded => exact carries_set hi rfl fun o ho => ho
  | abort e hi underWay => exact carries_set hi rfl fun o ho => settle_kept ho

theorem carries_request (r : Request) :
    Carries s { s with txs := s.txs ++ [⟨r, .queued, none⟩] } := by
  intro i tx hi
  refine ⟨tx, ?_, rfl, fun _ ho => ho⟩
  dsimp only
  rw [List.getElem?_append_left (List.getElem?_eq_some_iff.mp hi).1]
  exact hi

end

/-! ## The calls -/

inductive Watch
  | start
  /-- has opened the transaction -/
  | opened (tx : Nat) (r : Request)
  /-- has heard how its promise was settled -/
  | resumed (tx : Nat) (r : Request) (x : Except Err Json)
  | decrypted (tx : Nat) (physicalKey : String) (stored v : Json)

def monitor (lib : Lib) : Monitor idb Watch where
  next
    | _, ⟨.run (.request r) _, (_, s)⟩ => .opened s.txs.length r
    | .opened tx r, ⟨.run (.resume _) _, (_, s)⟩ =>
      .resumed tx r ((s.txs[tx]?.bind Tx.promise).getD (.error neverSettled))
    | .resumed tx (.get _) (.ok _), ⟨.await (.decrypt physicalKey stored), .ok v⟩ =>
      .decrypted tx physicalKey stored v
    | w, _ => w
  may w
    | .run (.request r) g => g = fun _ s => { s with txs := s.txs ++ [⟨r, .queued, none⟩] }
    | .run (.resume tx) g => (g = fun _ s => s) ∧ ∃ r, w = .opened tx r
    | .run (.idb ev) g => g = fun _ s => s.event lib ev
    | .await (.decrypt physicalKey stored) => ∃ tx, w = .resumed tx (.get physicalKey) (.ok stored)
    | .await _ => True

/-- How a `get` that returns `x` ends. -/
def Got (cfg : StoreConfig) (physicalKey : String) (w : Watch) (x : Option Json) : Prop :=
  (∃ tx stored, w = .resumed tx (.get physicalKey) (.ok stored) ∧
    if isNull stored then x = none else cfg.encrypted = false ∧ x = some stored) ∨
  ∃ tx stored v, w = .decrypted tx physicalKey stored v ∧ isNull stored = false ∧
  cfg.encrypted = true ∧ x = some v

/-- How a call ends. -/
def Ends (cfg : StoreConfig) (c : StoreCall) (w : Watch) : Except Err Reply → Prop
  | .error _ => True
  | .ok y => match c with
    | .set key _ => ∃ tx payload v, w = .resumed tx (.put (cfg.keyPrefix ++ key) payload) (.ok v)
    | .delete key => ∃ tx v, w = .resumed tx (.del (cfg.keyPrefix ++ key)) (.ok v)
    | .get key => ∃ x, y = .value x ∧ Got cfg (cfg.keyPrefix ++ key) w x
    | .idb _ => True

section

variable {lib : Lib} {α : Type}

theorem obeys_openDb {Q : Watch → Except Err α → Prop} {f : Unit → Storing α} {w : Watch}
    (herror : ∀ e, Q w (.error e)) (hok : Obeys (monitor lib) (fun _ => True) Q w (f ())) :
    Obeys (monitor lib) (fun _ => True) Q w (openDb >>= f : Storing α) := by
  refine obeys_js_bind ⟨trivial, fun r _ => ?_⟩
  match r with
  | .ok () => exact hok
  | .error e => exact herror e

theorem obeys_awaitRequest {Q : Watch → Except Err Json → Prop} {r : Request} {w : Watch}
    (hQ : ∀ tx x, Q (.resumed tx r x) x) :
    Obeys (monitor lib) (fun _ => True) Q w (awaitRequest r) := by
  refine obeys_js_bind ⟨rfl, fun x _ => ?_⟩
  refine ⟨trivial, fun _ _ => ⟨⟨rfl, r, rfl⟩, fun y _ => ?_⟩⟩
  exact hQ x.2.txs.length _

theorem obeys_getAsync {Q : Watch → Except Err Json → Prop} {key : String} {w : Watch}
    (herror : ∀ w e, Q w (.error e)) (hok : ∀ tx v, Q (.resumed tx (.get key) (.ok v)) (.ok v)) :
    Obeys (monitor lib) (fun _ => True) Q w (getAsync key) := by
  refine obeys_openDb (herror w) (obeys_awaitRequest fun tx x => ?_)
  cases x with
  | ok v => exact hok tx v
  | error e => exact herror _ e

theorem obeys_putAsync {Q : Watch → Except Err Json → Prop} {key : String} {value : Json}
    {w : Watch} (herror : ∀ w e, Q w (.error e))
    (hok : ∀ tx payload v, Q (.resumed tx (.put key payload) (.ok v)) (.ok v)) :
    Obeys (monitor lib) (fun _ => True) Q w (putAsync lib key value) := by
  refine obeys_openDb (herror w) (obeys_js_bind ?_)
  cases cloneJson lib value with
  | error e => exact herror w e
  | ok payload =>
    refine obeys_awaitRequest fun tx x => ?_
    cases x with
    | ok v => exact hok tx payload v
    | error e => exact herror _ e

theorem obeys_delAsync {Q : Watch → Except Err Json → Prop} {key : String} {w : Watch}
    (herror : ∀ w e, Q w (.error e)) (hok : ∀ tx v, Q (.resumed tx (.del key) (.ok v)) (.ok v)) :
    Obeys (monitor lib) (fun _ => True) Q w (delAsync key) := by
  refine obeys_openDb (herror w) (obeys_awaitRequest fun tx x => ?_)
  cases x with
  | ok v => exact hok tx v
  | error e => exact herror _ e

end

theorem obeys_set {cfg : StoreConfig} {key : String} {value : Json} :
    Obeys (monitor cfg.lib) (fun _ => True) (Ends cfg (.set key value)) .start
      (runStore cfg (.set key value)) := by
  refine obeys_js_bind ?_
  unfold storeSet
  dsimp only
  have hput (stored : Json) : Goes (monitor cfg.lib) (fun _ => True)
      (Goes (monitor cfg.lib) (fun _ => True) (Ends cfg (.set key value)) fun _ =>
      (pure .done : Storing Reply))
      (fun stored => do let _ ← putAsync cfg.lib (cfg.keyPrefix ++ key) stored; return)
      .start (.ok stored) := by
    refine obeys_js_bind (obeys_putAsync (fun w e => ?_) fun tx payload v => ?_)
    · exact trivial
    · exact ⟨tx, payload, v, rfl⟩
  split
  · refine obeys_js_bind ⟨trivial, fun r _ => ?_⟩
    match r with
    | .ok stored => exact hput stored
    | .error e => exact trivial
  · exact obeys_js_bind (hput value)

theorem obeys_get {cfg : StoreConfig} {key : String} :
    Obeys (monitor cfg.lib) (fun _ => True) (Ends cfg (.get key)) .start
      (runStore cfg (.get key)) := by
  refine obeys_js_bind ?_
  unfold storeGet
  refine obeys_js_bind (obeys_getAsync (fun w e => ?_) fun tx stored => ?_)
  · exact trivial
  · dsimp only [Goes]
    cases hnull : isNull stored with
    | true => exact ⟨none, rfl, .inl ⟨tx, stored, rfl, by rw [if_pos hnull]⟩⟩
    | false =>
      cases henc : cfg.encrypted with
      | false =>
        exact ⟨some stored, rfl,
          .inl ⟨tx, stored, rfl, by rw [if_neg (by rw [hnull]; decide)]; exact ⟨henc, rfl⟩⟩⟩
      | true =>
        refine ⟨⟨tx, rfl⟩, fun r _ => ?_⟩
        match r with
        | .ok v => exact ⟨some v, rfl, .inr ⟨tx, stored, v, rfl, hnull, henc, rfl⟩⟩
        | .error e => exact trivial

theorem obeys_delete {cfg : StoreConfig} {key : String} :
    Obeys (monitor cfg.lib) (fun _ => True) (Ends cfg (.delete key)) .start
      (runStore cfg (.delete key)) := by
  refine obeys_js_bind ?_
  unfold storeDelete
  refine obeys_js_bind (obeys_getAsync (fun w e => ?_) fun tx stored => ?_)
  · exact trivial
  · refine obeys_js_bind (obeys_delAsync (fun w e => ?_) fun tx v => ?_)
    · exact trivial
    · exact ⟨tx, v, rfl⟩

theorem obeys_run {cfg : StoreConfig} (c : StoreCall) :
    Obeys (monitor cfg.lib) (fun _ => True) (Ends cfg c) .start (runStore cfg c) := by
  cases c with
  | set key value => exact obeys_set
  | get key => exact obeys_get
  | delete key => exact obeys_delete
  | idb ev => exact ⟨rfl, fun _ _ => trivial⟩

/-! ## Every run -/

/-- What is known of the transaction of a call. -/
def Standing (m : Idb) (log : List StoreEvent) (t : Nat) : Watch → Prop
  | .start => True
  | .opened i r => Opened log t i r ∧ ∃ tx : Tx, m.txs[i]? = some tx ∧ tx.request = r
  | .resumed i r x =>
    Opened log t i r ∧ ∃ tx : Tx, m.txs[i]? = some tx ∧ tx.request = r ∧ ∀ v, x = .ok v →
      tx.promise = some (.ok v)
  | .decrypted i physicalKey stored v => Opened log t i (.get physicalKey) ∧
      (∃ tx : Tx, m.txs[i]? = some tx ∧ tx.request = .get physicalKey ∧
      tx.promise = some (.ok stored)) ∧
      Decrypted log t physicalKey stored v

section

variable {m m' : Idb} {log : List StoreEvent} {e : StoreEvent} {t i : Nat} {r : Request}

theorem Opened.cons (h : Opened log t i r) : Opened (e :: log) t i r := by
  obtain ⟨e', he', hopen⟩ := h
  exact ⟨e', .tail _ he', hopen⟩

theorem Decrypted.cons {physicalKey : String} {stored v : Json}
    (h : Decrypted log t physicalKey stored v) : Decrypted (e :: log) t physicalKey stored v := by
  obtain ⟨e', he', hx⟩ := h
  exact ⟨e', .tail _ he', hx⟩

theorem Standing.kept {w : Watch} (h : Standing m log t w) (hm : Carries m m') :
    Standing m' (e :: log) t w := by
  cases w with
  | start => trivial
  | opened i r =>
    obtain ⟨hopen, tx, hi, hreq⟩ := h
    obtain ⟨tx', hi', hreq', -⟩ := hm i tx hi
    exact ⟨hopen.cons, tx', hi', hreq'.trans hreq⟩
  | resumed i r x =>
    obtain ⟨hopen, tx, hi, hreq, hx⟩ := h
    obtain ⟨tx', hi', hreq', hpromise⟩ := hm i tx hi
    exact ⟨hopen.cons, tx', hi', hreq'.trans hreq, fun v hv => hpromise _ (hx v hv)⟩
  | decrypted i physicalKey stored v =>
    obtain ⟨hopen, ⟨tx, hi, hreq, hstored⟩, hdec⟩ := h
    obtain ⟨tx', hi', hreq', hpromise⟩ := hm i tx hi
    exact ⟨hopen.cons, ⟨tx', hi', hreq'.trans hreq, hpromise _ hstored⟩, hdec.cons⟩

end

abbrev watch (cfg : StoreConfig) : StoreState → Nat → Option Watch :=
  System.view (monitor cfg.lib) fun _ => .start

structure Inv (cfg : StoreConfig) (s : StoreState) : Prop where
  conforms : System.Conforms (monitor cfg.lib) (fun _ => True) (fun _ => .start) (Ends cfg) s
  sound : ∃ db₀, Sound cfg.lib db₀ s.mem
  standing : ∀ t w, watch cfg s t = some w → Standing s.mem s.log t w

section

variable {cfg : StoreConfig} {s s' : StoreState} {e : StoreEvent} {c : StoreCall}
  {k : idb.Ans e.op → Proc idb (Except Err Reply)}

theorem next_idb (lib : Lib) (w : Watch) (ev : IdbEvent) (g : Unit → Idb → Idb) (x : Unit × Idb) :
    (monitor lib).next w ⟨.run (.idb ev) g, x⟩ = w := by
  unfold monitor
  dsimp only

/-- An outcome of an awaited call changes where a call stands only when it is
what `decrypt` gives. -/
theorem next_await {lib : Lib} {w : Watch} {o : Outside} {r : o.Ans}
    (hmay : (monitor lib).may w (.await o)) :
    (monitor lib).next w ⟨.await o, r⟩ = w ∨
    ∃ tx physicalKey stored v, w = .resumed tx (.get physicalKey) (.ok stored) ∧
      (⟨.await o, r⟩ : Exch) = ⟨.await (.decrypt physicalKey stored), .ok v⟩ ∧
      (monitor lib).next w ⟨.await o, r⟩ = .decrypted tx physicalKey stored v := by
  cases o with
  | decrypt physicalKey stored =>
    obtain ⟨tx, rfl⟩ := hmay
    match r with
    | .ok v => exact .inr ⟨tx, physicalKey, stored, v, rfl, rfl, rfl⟩
    | .error err => exact .inl rfl
  | _ =>
    left
    unfold monitor
    dsimp only

/-- What an event does to the database and to its own call. -/
theorem turn (h : Inv cfg s) (hf : Pool.Fires (stores cfg) s e c k s') (hok : steadfast.ok s e) :
    Carries s.mem s'.mem ∧ (∃ db₀, Sound cfg.lib db₀ s'.mem) ∧
      ∀ w, watch cfg s' e.tid = some w → Standing s'.mem s'.log e.tid w := by
  obtain ⟨db₀, hsound⟩ := h.sound
  have hmay := h.conforms.may hf
  have hself : watch cfg s' e.tid = some _ := System.view_self hf
  have hstand := h.standing e.tid _ (System.view_fired hf)
  generalize Pool.mon (monitor cfg.lib) .start e.tid s.log = w at hmay hself hstand
  rw [hf.log]
  obtain ⟨l, g, i, hx, hmem⟩ | ⟨o, r, hx, -, hmem⟩ := object_fires hf
  · have hop : e.op = .run l g := congrArg Proc.Exch.op hx
    rw [hop] at hmay
    rw [hx] at hself
    cases l with
    | request r =>
      have hg : g = fun _ s => { s with txs := s.txs ++ [⟨r, .queued, none⟩] } := hmay
      rw [hg] at hmem
      refine ⟨hmem ▸ carries_request r, ⟨db₀, hmem ▸ hsound.request r⟩, fun w' hw' => ?_⟩
      cases hself.symm.trans hw'
      refine ⟨⟨e, .head _, rfl, g, i, s.mem, hx, rfl⟩, ⟨r, .queued, none⟩, ?_, rfl⟩
      rw [hmem]
      exact List.getElem?_concat_length
    | resume tx =>
      obtain ⟨hg, r, rfl⟩ := hmay
      rw [hg] at hmem
      refine ⟨hmem ▸ .refl s.mem, ⟨db₀, hmem ▸ hsound⟩, fun w' hw' => ?_⟩
      cases hself.symm.trans hw'
      obtain ⟨hopen, t, hi, hreq⟩ := hstand
      refine ⟨hopen.cons, t, by rw [hmem]; exact hi, hreq, fun v hv => ?_⟩
      rw [hi, Option.bind_some] at hv
      cases hp : t.promise with
      | none =>
        rw [hp] at hv
        cases hv
      | some o =>
        rw [hp] at hv
        exact congrArg some hv
    | idb ev =>
      have hg : g = fun _ s => s.event cfg.lib ev := hmay
      rw [hg] at hmem
      have hcarries : Carries s.mem s'.mem := hmem ▸ carries_event ev
      have hsteady : ∀ n err, ev = .abort n err →
          ∀ tx : Tx, s.mem.txs[n]? = some tx → tx.request.write.isSome → tx.phase ≠ .succeeded := by
        rintro n err rfl
        exact hok n err g i s.mem hx
      refine ⟨hcarries, ⟨db₀, hmem ▸ hsound.event hsteady⟩, fun w' hw' => ?_⟩
      rw [next_idb] at hself
      cases hself.symm.trans hw'
      exact hstand.kept hcarries
  · have hop : e.op = .await o := congrArg Proc.Exch.op hx
    rw [hop] at hmay
    rw [hx] at hself
    have hcarries : Carries s.mem s'.mem := hmem ▸ .refl s.mem
    refine ⟨hcarries, ⟨db₀, hmem ▸ hsound⟩, fun w' hw' => ?_⟩
    rcases next_await hmay with hsame | ⟨tx, physicalKey, stored, v, rfl, hdec, hnext⟩
    · rw [hsame] at hself
      cases hself.symm.trans hw'
      exact hstand.kept hcarries
    · rw [hnext] at hself
      cases hself.symm.trans hw'
      obtain ⟨hopen, t, hi, hreq, hpromise⟩ := hstand
      exact ⟨hopen.cons, ⟨t, by rw [hmem]; exact hi, hreq, hpromise stored rfl⟩,
        e, .head _, rfl, hx.trans hdec⟩

theorem inv_inductive (cfg : StoreConfig) : ((stores cfg).lts steadfast).Inductive (Inv cfg) := by
  refine System.inductive_of (fun m hm => ?_) (fun s c h _ => ?_) fun s e c k s' h hf hok => ?_
  · refine ⟨System.conforms_init m, ⟨m.db, .init hm⟩, fun t w hw => ?_⟩
    rw [watch, System.view_init] at hw
    cases hw
  · refine ⟨System.conforms_spawn h.conforms (obeys_run c), h.sound, fun t w hw => ?_⟩
    rcases h.conforms.view_spawned hw with ⟨-, rfl⟩ | hold
    · trivial
    · exact h.standing t w hold
  · obtain ⟨hcarries, hsound, hself⟩ := turn h hf hok
    refine ⟨System.conforms_fires h.conforms hf trivial, hsound, fun t w hw => ?_⟩
    by_cases ht : e.tid = t
    · subst ht
      exact hself w hw
    · rw [watch, System.view_other hf ht] at hw
      rw [hf.log]
      exact (h.standing t w hw).kept hcarries

end

/-- In every run in which no writing transaction aborts after its request has
succeeded, what was acknowledged stays done. -/
theorem acked_kept (cfg : StoreConfig) :
    ∀ s, ((stores cfg).lts steadfast).Reachable s → Acked cfg s := by
  intro s hr
  have hinv := (inv_inductive cfg).reachable s hr
  obtain ⟨db₀, hsound⟩ := hinv.sound
  refine ⟨fun t c key y ht hkey => ?_, fun t key y ht => ?_, fun i tx hi hwrite hres => ?_, ?_⟩
  · have hends := hinv.conforms.result ht
    have hstand := hinv.standing t _ (System.view_thread ht)
    cases c with
    | set key' value =>
      cases hkey
      obtain ⟨i, payload, v, hw⟩ := hends
      rw [hw] at hstand
      obtain ⟨hopen, tx, hi, hreq, hv⟩ := hstand
      exact ⟨i, _, tx, some payload, hopen, hi, hreq, rfl, v, hv v rfl⟩
    | delete key' =>
      cases hkey
      obtain ⟨i, v, hw⟩ := hends
      rw [hw] at hstand
      obtain ⟨hopen, tx, hi, hreq, hv⟩ := hstand
      exact ⟨i, _, tx, none, hopen, hi, hreq, rfl, v, hv v rfl⟩
    | _ => cases hkey
  · obtain ⟨x, hy, hgot⟩ := hinv.conforms.result ht
    have hstand := hinv.standing t _ (System.view_thread ht)
    rcases hgot with ⟨j, stored, hw, hx⟩ | ⟨j, stored, v, hw, hnull, henc, rfl⟩
    · rw [hw] at hstand
      obtain ⟨hopen, tx, hj, hreq, hv⟩ := hstand
      refine ⟨j, tx, stored, x, hopen, hj, hreq, hv stored rfl, hy, ?_⟩
      unfold Reads
      split at hx
      · rw [if_pos ‹_›]
        exact hx
      · rw [if_neg ‹_›, if_neg (by rw [hx.1]; decide)]
        exact hx.2
    · rw [hw] at hstand
      obtain ⟨hopen, ⟨tx, hj, hreq, hstored⟩, hdec⟩ := hstand
      refine ⟨j, tx, stored, some v, hopen, hj, hreq, hstored, hy, ?_⟩
      unfold Reads
      rw [if_neg (by rw [hnull]; decide), if_pos henc]
      exact ⟨v, rfl, hdec⟩
  · rcases hsound.acked i tx hi hwrite hres with hphase | hphase
    · rw [hphase]
      nofun
    · rw [hphase]
      nofun
  · intro i j ti tj key w v hlt hi hwrite hres hj hget hv hbetween
    exact hsound.seen hlt hi hwrite hres hj hget hv hbetween

namespace Example

/-- The texts of `true` and `null`. -/
def platform : Lib where
  stringify
    | .bool true => [116, 114, 117, 101]
    | _ => [110, 117, 108, 108]
  parse
    | [116, 114, 117, 101] => .ok (.bool true)
    | [110, 117, 108, 108] => .ok .null
    | _ => .error { message := "Unexpected token" }
  bytesToBase64 b := .ofList (b.map fun x => Char.ofNat x.toNat)
  base64ToBytes s := s.toList.map fun c => UInt8.ofNat c.toNat
  recordJson n c := .obj [("nonceB64", .str n), ("ciphertextB64", .str c)]
  aeadEncrypt _ _ plaintext _ := 0 :: plaintext
  aeadDecrypt _ _ ciphertext _ := .ok ciphertext.tail

def plain : StoreConfig := ⟨platform, "root/", false⟩

def empty : Idb := ⟨[], []⟩

/-- Whatever is awaited goes well. -/
def smooth : Nat → idb.Op → ObjFate Unit outside := fun _ _ =>
  { input := ()
    answer := fun
      | .openDb => some (.ok ())
      | .settled _ => some ()
      | .encrypt _ value => some (.ok value)
      | .decrypt _ stored => some (.ok stored) }

def anyJudge : System.Judge anyOrder where
  may _ _ := true
  ok _ _ := true
  may_iff _ _ _ := trivial
  ok_iff _ _ _ := trivial

/-- No abort at all. -/
def noAbort (x : Exch) : Bool :=
  match x with
  | ⟨.run (.idb (.abort ..)) _, _⟩ => false
  | _ => true

def steadfastJudge : System.Judge steadfast where
  may _ _ := true
  ok _ e := noAbort e.exch
  may_iff _ _ _ := trivial
  ok_iff s e h := by
    intro i err g u m hx
    rw [hx] at h
    cases h

/-- `set` has returned, and `get` has returned this. -/
def setThenGot (s : StoreState) (v : Option Bool) : Bool :=
  match s.threads with
  | ⟨.set "k" (.bool true), .ret (.ok .done)⟩ :: _ :: _ :: ⟨.get "k", .ret (.ok (.value x))⟩ :: _ =>
    match x, v with
    | some (.bool b), some b' => b == b'
    | none, none => true
    | _, _ => false
  | _ => false

/-- A resolved `put` whose transaction has aborted. -/
def undone (s : StoreState) : Bool :=
  match s.mem.txs with
  | ⟨.put _ _, .aborted, some (.ok _)⟩ :: _ => true
  | _ => false

theorem not_acked_of_undone {cfg : StoreConfig} {s : StoreState} (h : undone s = true) :
    ¬ Acked cfg s := by
  unfold undone at h
  split at h
  · rename_i key payload v txs htxs
    intro hacked
    exact hacked.kept 0 _ (by rw [htxs]; rfl) rfl ⟨v, rfl⟩ rfl
  · cases h

/-- A value is set and then read; meanwhile the database goes on with the first
transaction. -/
def script (next : IdbEvent) : List (System.Move (ObjFate Unit outside) StoreCall) :=
  [.call (.set "k" (.bool true)), .go 0 2, .call (.idb (.success 0)), .go 1 1,
  .go 0 2, .call (.idb next), .go 2 1,
    .call (.get "k"), .go 3 2, .call (.idb (.success 1)), .go 4 1, .go 3 2]

end Example

open Example in
theorem acked_kept_read :
    ∃ s, ((stores plain).lts steadfast).Reachable s ∧ setThenGot s (some true) = true ∧
      Acked plain s := by
  obtain ⟨s, hr, hs⟩ :=
    System.reachable_of_play (S := stores plain) steadfastJudge smooth (script (.complete 0))
    (m := empty) (P := fun s => setThenGot s (some true)) rfl (by decide +kernel)
  exact ⟨s, hr, hs, acked_kept plain s hr⟩

open Example in
/-- `set` resolves when its request has succeeded; its transaction aborts then,
and `get` finds nothing. -/
theorem acked_lost :
    ∃ s, ((stores plain).lts anyOrder).Reachable s ∧ setThenGot s none = true ∧
      ¬ Acked plain s := by
  obtain ⟨s, hr, hs⟩ := System.reachable_of_play (S := stores plain) anyJudge smooth
    (script (.abort 0 { message := "IndexedDB transaction aborted" }))
    (m := empty) (P := fun s => setThenGot s none && undone s) rfl (by decide +kernel)
  rw [Bool.and_eq_true] at hs
  exact ⟨s, hr, hs.1, not_acked_of_undone hs.2⟩

end RezSdk.L4.AckedWrites
