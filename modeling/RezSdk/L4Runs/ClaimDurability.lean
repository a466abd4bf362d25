import RezSdk.L4Runs.ClaimWrites

/-!
# Durability of the claim store

* `durable_kept`: in every orderly run the claims in memory are those a fresh
  store would hydrate whenever no call is in flight, every failed call has
  taken its change back, and a rollback takes back nothing but its own call's
  change.
* `phantom_claim`: two calls of `persist` overlap, the first one's write fails
  and the second one's lands, so the claim that was refused comes back on the
  next start.
-/
namespace RezSdk.L4.ClaimDurability

open RezSdk.L1 RezSdk.L2.InboxClaims RezSdk.L4.ClaimShape RezSdk.L4.ClaimCalls RezSdk.L4.ClaimWrites

variable {Cap : Type} {lib : Lib Cap}

/-! ## What the log tells -/

/-- Call `t` has run the stretch `l` on the store `b`. -/
def Did (log : List (ClaimEvent Cap)) (t : Nat) (l : Stretch Cap) (b : Store Cap) : Prop :=
  ∃ e ∈ log, e.tid = t ∧ ∃ g i, e.exch = ⟨.run l g, (i, b)⟩

/-- The write with this number has landed. -/
def Landed (log : List (ClaimEvent Cap)) (ticket : Nat) : Prop :=
  ∃ e ∈ log, e.exch = ⟨.await (.set ticket), .ok ()⟩

/-- Call `t` has taken its change of `b` back: it found the claims as it had left
them, and left them as it had found them. -/
structure TakenBack (lib : Lib Cap) (log : List (ClaimEvent Cap)) (t : Nat)
    (l u : Stretch Cap) (b m : Store Cap) : Prop where
  change : Did log t l b
  undo : undoOf lib b l = some u
  found : m.table = (l.apply lib b).table
  left : (u.apply lib m).table = b.table

section

variable {log : List (ClaimEvent Cap)} {e : ClaimEvent Cap} {t : Nat} {l u : Stretch Cap}
  {b m : Store Cap}

theorem Did.cons (h : Did log t l b) : Did (e :: log) t l b := by
  obtain ⟨e', he', hdid⟩ := h
  exact ⟨e', .tail _ he', hdid⟩

theorem did_cons (h : Did (e :: log) t l b) :
    (e.tid = t ∧ ∃ g i, e.exch = ⟨.run l g, (i, b)⟩) ∨ Did log t l b := by
  obtain ⟨e', he', hdid⟩ := h
  rcases List.mem_cons.mp he' with rfl | he'
  · exact .inl hdid
  · exact .inr ⟨e', he', hdid⟩

theorem TakenBack.cons (h : TakenBack lib log t l u b m) : TakenBack lib (e :: log) t l u b m :=
  ⟨h.change.cons, h.undo, h.found, h.left⟩

theorem landed_cons {n : Nat} (h : Landed (e :: log) n) :
    e.exch = ⟨.await (.set n), .ok ()⟩ ∨ Landed log n := by
  obtain ⟨e', he', hx⟩ := h
  rcases List.mem_cons.mp he' with rfl | he'
  · exact .inl hx
  · exact .inr ⟨e', he', hx⟩

theorem changes_undo (hu : IsUndo u) : changes lib m u = false := by
  cases u with
  | persistUndo inboxId existing => rfl
  | leaseUndo ref previous => rfl
  | remintUndo inboxId previous => rfl
  | _ => exact hu.elim

end

structure Told (lib : Lib Cap) (s : ClaimState Cap) : Prop where
  idle : ∀ t l b, Did s.log t l b → changes lib b l = false → ¬ IsUndo l → l.apply lib b = b
  made : ∀ t l b, Did s.log t l b → changes lib b l = true → watch lib s t = some (.changed l b) ∨
    watch lib s t = some (.failed l b) ∨
    watch lib s t = some (.landed l b) ∨ ∃ u m, TakenBack lib s.log t l u b m ∧ Did s.log t u m
  changed : ∀ t l b, watch lib s t = some (.changed l b) → Did s.log t l b
  failed : ∀ t l b, watch lib s t = some (.failed l b) → Did s.log t l b
  landed : ∀ n, Landed s.log n → n < s.mem.tickets ∧ (∀ x ∈ s.mem.queue, n < x.1) ∧
    ∀ t l b, watch lib s t = some (.failed l b) → n < b.tickets
  rolled : ∀ newer e older, s.log = newer ++ e :: older → ∀ u g i m, e.exch = ⟨.run u g, (i, m)⟩ →
    IsUndo u →
    ∃ l b, TakenBack lib older e.tid l u b m ∧ ∀ n, Landed older n → n < b.tickets

section

variable {D D' : Table Cap} {s s' : ClaimState Cap} {e : ClaimEvent Cap} {c : Call Cap}
  {k : (claimStore Cap).Ans e.op → Proc (claimStore Cap) (Except Err Result)}

theorem Told.init (m : Store Cap) : Told lib ⟨m, [], []⟩ := by
  have hdid : ∀ t (l : Stretch Cap) b, ¬ Did [] t l b := by
    rintro t l b ⟨e, he, -⟩
    exact absurd he List.not_mem_nil
  have hwatch : ∀ t w, watch lib (⟨m, [], []⟩ : ClaimState Cap) t ≠ some w := by
    intro t w hw
    rw [watch, System.view_init] at hw
    cases hw
  refine ⟨fun t l b h => absurd h (hdid t l b), fun t l b h => absurd h (hdid t l b),
    fun t l b h => absurd h (hwatch t _),
    fun t l b h => absurd h (hwatch t _), ?_, ?_⟩
  · rintro n ⟨e, he, -⟩
    exact absurd he List.not_mem_nil
  · intro newer e older h
    simp at h

theorem Told.spawn (h : Told lib s) (hc : Conforms lib s) (c : Call Cap) :
    Told lib (s.spawn (claims lib) c) := by
  have hsame := sameDebts_spawn hc c
  refine ⟨h.idle, fun t l b hdid hl => ?_,
    fun t l b hw => h.changed t l b ((hsame.changed t l b).mp hw),
    fun t l b hw => h.failed t l b ((hsame.failed t l b).mp hw), fun n hn => ?_, h.rolled⟩
  · rcases h.made t l b hdid hl with hw | hw | hw | hback
    · exact .inl (hc.view_kept hw)
    · exact .inr (.inl (hc.view_kept hw))
    · exact .inr (.inr (.inl (hc.view_kept hw)))
    · exact .inr (.inr (.inr hback))
  · obtain ⟨hlt, hqueue, hfailed⟩ := h.landed n hn
    exact ⟨hlt, hqueue, fun t l b hw => hfailed t l b ((hsame.failed t l b).mp hw)⟩

theorem Told.made_fires (h : Told lib s) (hf : Pool.Fires (claims lib) s e c k s')
    (hturn : Turn lib s s' e D D') {t : Nat} {l : Stretch Cap} {b : Store Cap}
    (hdid : Did s'.log t l b) (hl : changes lib b l = true) :
    watch lib s' t = some (.changed l b) ∨ watch lib s' t = some (.failed l b) ∨
    watch lib s' t = some (.landed l b) ∨
    ∃ u m, TakenBack lib s'.log t l u b m ∧ Did s'.log t u m := by
  rw [hf.log] at hdid ⊢
  have hold : ∀ u m, TakenBack lib s.log t l u b m ∧ Did s.log t u m →
      ∃ u m, TakenBack lib (e :: s.log) t l u b m ∧ Did (e :: s.log) t u m :=
    fun u m hback => ⟨u, m, hback.1.cons, hback.2.cons⟩
  obtain ⟨rfl, g, i, hx⟩ | hdid := did_cons hdid
  · -- the change itself
    cases hturn with
    | idle same looks apart stays => exact absurd hl (by rw [(looks l g i b hx).1]; nofun)
    | change l' i' hx' _ _ _ _ next =>
      rw [hx] at hx'
      cases hx'
      exact .inl next
    | undone l' u b' i' hx' owed undo found left mem next =>
      rw [hx] at hx'
      cases hx'
      exact absurd hl (by rw [changes_undo (isUndo_undoOf undo)]; nofun)
    | landed l' b' hx' => rw [hx] at hx'; cases hx'
    | failed l' b' err hx' => rw [hx] at hx'; cases hx'
  · by_cases ht : e.tid = t
    · subst ht
      rcases h.made e.tid l b hdid hl with hw | hw | hw | ⟨u, m, hback⟩
      · cases hturn with
        | idle same looks apart stays => exact .inl ((same.changed _ l b).mpr hw)
        | change l' i' hx' _ free => exact absurd trivial (free _ hw).1
        | undone l' u b' i' hx' owed => cases owed.symm.trans hw
        | landed l' b' hx' owed before change oldest mem next =>
          cases owed.symm.trans hw
          exact .inr (.inr (.inl next))
        | failed l' b' err hx' owed mem next =>
          cases owed.symm.trans hw
          exact .inr (.inl next)
      · cases hturn with
        | idle same looks apart stays => exact .inr (.inl ((same.failed _ l b).mpr hw))
        | change l' i' hx' _ free => exact absurd trivial (free _ hw).1
        | undone l' u b' i' hx' owed undo found left mem next =>
          cases owed.symm.trans hw
          exact .inr (.inr (.inr ⟨u, s.mem, ⟨hdid.cons, undo, found, left⟩,
            e, .head _, rfl, _, i', hx'⟩))
        | landed l' b' hx' owed => cases owed.symm.trans hw
        | failed l' b' err hx' owed => cases owed.symm.trans hw
      · cases hturn with
        | idle same looks apart stays => exact .inr (.inr (.inl ((stays l b).mpr hw)))
        | change l' i' hx' change free =>
          -- after its write has landed a call only reads
          have hlegal := (free _ hw).2
          have hchanges := change.changes
          cases l' with
          | leaseRead ref => cases hchanges
          | _ => exact hlegal.elim
        | undone l' u b' i' hx' owed => cases owed.symm.trans hw
        | landed l' b' hx' owed => cases owed.symm.trans hw
        | failed l' b' err hx' owed => cases owed.symm.trans hw
      · exact .inr (.inr (.inr (hold u m hback)))
    · rw [watch, System.view_other hf ht]
      rcases h.made t l b hdid hl with hw | hw | hw | ⟨u, m, hback⟩
      · exact .inl hw
      · exact .inr (.inl hw)
      · exact .inr (.inr (.inl hw))
      · exact .inr (.inr (.inr (hold u m hback)))

theorem Told.changed_fires (h : Told lib s) (hf : Pool.Fires (claims lib) s e c k s')
    (hturn : Turn lib s s' e D D') {t : Nat} {l : Stretch Cap} {b : Store Cap}
    (hw : watch lib s' t = some (.changed l b)) : Did s'.log t l b := by
  rw [hf.log]
  by_cases ht : e.tid = t
  · subst ht
    cases hturn with
    | idle same => exact (h.changed _ l b ((same.changed _ l b).mp hw)).cons
    | change l' i' hx _ _ _ _ next =>
      cases next.symm.trans hw
      exact ⟨e, .head _, rfl, _, i', hx⟩
    | undone _ _ _ _ _ _ _ _ _ _ next => cases next.symm.trans hw
    | landed _ _ _ _ _ _ _ _ next => cases next.symm.trans hw
    | failed _ _ _ _ _ _ next => cases next.symm.trans hw
  · rw [watch, System.view_other hf ht] at hw
    exact (h.changed t l b hw).cons

theorem Told.failed_fires (h : Told lib s) (hf : Pool.Fires (claims lib) s e c k s')
    (hturn : Turn lib s s' e D D') {t : Nat} {l : Stretch Cap} {b : Store Cap}
    (hw : watch lib s' t = some (.failed l b)) : Did s'.log t l b := by
  rw [hf.log]
  by_cases ht : e.tid = t
  · subst ht
    cases hturn with
    | idle same => exact (h.failed _ l b ((same.failed _ l b).mp hw)).cons
    | change l' i' hx _ _ _ _ next => cases next.symm.trans hw
    | undone _ _ _ _ _ _ _ _ _ _ next => cases next.symm.trans hw
    | landed _ _ _ _ _ _ _ _ next => cases next.symm.trans hw
    | failed l' b' err hx owed mem next =>
      cases next.symm.trans hw
      exact (h.changed _ l b owed).cons
  · rw [watch, System.view_other hf ht] at hw
    exact (h.failed t l b hw).cons

theorem answer_mem {m : Store Cap} {n : Nat} {ok : Bool} {x : Nat × Table Cap}
    (hx : x ∈ (m.answer lib n ok).queue) : x ∈ m.queue :=
  List.mem_of_mem_filter hx

theorem Told.landed_fires (h : Told lib s) (hledger : Ledger lib D s)
    (hf : Pool.Fires (claims lib) s e c k s') (hturn : Turn lib s s' e D D') {n : Nat}
    (hn : Landed s'.log n) :
    n < s'.mem.tickets ∧ (∀ x ∈ s'.mem.queue, n < x.1) ∧
    ∀ t l b, watch lib s' t = some (.failed l b) → n < b.tickets := by
  rw [hf.log] at hn
  have hother : ∀ {w' : Watch Cap}, watch lib s' e.tid = some w' → (∀ l b, w' ≠ .failed l b) →
      ∀ t l b,
      watch lib s' t = some (.failed l b) → watch lib s t = some (.failed l b) := by
    intro w' hw' hne t l b hv
    obtain ⟨-, hsame⟩ | ⟨-, hold⟩ := watch_cases hf hw' hv
    · exact absurd hsame.symm (hne l b)
    · exact hold
  cases hturn with
  | idle same looks apart stays =>
    obtain hx | hn := landed_cons hn
    · exact absurd hx (apart n _)
    · obtain ⟨hlt, hqueue, hfailed⟩ := h.landed n hn
      rw [same.mem]
      exact ⟨hlt, hqueue, fun t l b hv => hfailed t l b ((same.failed t l b).mp hv)⟩
  | change l i hx change free clear mem next =>
    obtain hx' | hn := landed_cons hn
    · rw [hx] at hx'
      cases hx'
    · obtain ⟨hlt, hqueue, hfailed⟩ := h.landed n hn
      have hwrites : Writes s.mem s'.mem := mem ▸ change.writes
      rw [hwrites.tickets, hwrites.queue]
      refine ⟨Nat.lt_succ_of_lt hlt, fun x hx => ?_,
        fun t l' b hv => hfailed t l' b (hother next (fun _ _ h => by cases h) t l' b hv)⟩
      rcases List.mem_append.mp hx with hx | hx
      · exact hqueue x hx
      · rw [List.mem_singleton.mp hx]
        exact hlt
  | undone l u b i hx owed undo found left mem next =>
    obtain hx' | hn := landed_cons hn
    · rw [hx] at hx'
      cases hx'
    · obtain ⟨hlt, hqueue, hfailed⟩ := h.landed n hn
      obtain ⟨hq, -, htickets⟩ : (u.apply lib s.mem).queue = s.mem.queue ∧
        (u.apply lib s.mem).stored = s.mem.stored ∧
          (u.apply lib s.mem).tickets = s.mem.tickets := undo_apart (isUndo_undoOf undo) s.mem
      rw [mem, hq, htickets]
      exact ⟨hlt, hqueue,
        fun t l' b hv => hfailed t l' b (hother next (fun _ _ h => by cases h) t l' b hv)⟩
  | landed l b hx owed before change oldest mem next =>
    obtain ⟨-, q₁, q₂, hq, -⟩ := hledger.changed e.tid l b owed
    have hqueued : (b.tickets, (l.apply lib b).table) ∈ s.mem.queue := by rw [hq]; simp
    have htickets : s'.mem.tickets = s.mem.tickets := by rw [mem]; rfl
    rw [htickets]
    obtain hx' | hn := landed_cons hn
    · rw [hx] at hx'
      cases hx'
      refine ⟨hledger.tickets _ hqueued, oldest, fun t l' b' hv => ?_⟩
      exact (hledger.failed t l' b' (hother next (fun _ _ h => by cases h) t l' b' hv)).2.2.2.2.2
        _ hqueued
    · obtain ⟨hlt, hqueue, hfailed⟩ := h.landed n hn
      refine ⟨hlt, fun x hx => hqueue x ?_,
        fun t l' b hv => hfailed t l' b (hother next (fun _ _ h => by cases h) t l' b hv)⟩
      rw [mem] at hx
      exact answer_mem hx
  | failed l b err hx owed mem next =>
    obtain ⟨-, q₁, q₂, hq, -⟩ := hledger.changed e.tid l b owed
    have hqueued : (b.tickets, (l.apply lib b).table) ∈ s.mem.queue := by rw [hq]; simp
    have htickets : s'.mem.tickets = s.mem.tickets := by rw [mem]; rfl
    rw [htickets]
    obtain hx' | hn := landed_cons hn
    · rw [hx] at hx'
      cases hx'
    · obtain ⟨hlt, hqueue, hfailed⟩ := h.landed n hn
      refine ⟨hlt, fun x hx => hqueue x ?_, fun t l' b' hv => ?_⟩
      · rw [mem] at hx
        exact answer_mem hx
      · obtain ⟨-, hsame⟩ | ⟨-, hold⟩ := watch_cases hf next hv
        · cases hsame
          exact hqueue _ hqueued
        · exact hfailed t l' b' hold

theorem Told.fires (h : Told lib s) (hsound : Sound s.mem) (hledger : Ledger lib D s)
    (hf : Pool.Fires (claims lib) s e c k s') (hturn : Turn lib s s' e D D') : Told lib s' where
  idle t l b hdid hl hu := by
    rw [hf.log] at hdid
    obtain ⟨-, g, i, hx⟩ | hdid := did_cons hdid
    · obtain ⟨l', g', i', hx', -⟩ | ⟨o, r, hx', -⟩ := object_fires hf
      · rw [hx] at hx'
        cases hx'
        exact apply_idle hsound hl hu
      · rw [hx] at hx'
        cases hx'
    · exact h.idle t l b hdid hl hu
  made t l b := h.made_fires hf hturn
  changed t l b := h.changed_fires hf hturn
  failed t l b := h.failed_fires hf hturn
  landed n := h.landed_fires hledger hf hturn
  rolled newer e' older hlog u g i m hx hu := by
    rw [hf.log] at hlog
    cases newer with
    | cons e₁ newer =>
      rw [List.cons_append, List.cons.injEq] at hlog
      exact h.rolled newer e' older hlog.2 u g i m hx hu
    | nil =>
      rw [List.nil_append, List.cons.injEq] at hlog
      obtain ⟨rfl, rfl⟩ := hlog
      cases hturn with
      | idle same looks => exact absurd hu (looks u g i m hx).2
      | change l i' hx' change =>
        rw [hx] at hx'
        cases hx'
        exact absurd change.changes (by rw [changes_undo hu]; nofun)
      | undone l u' b i' hx' owed undo found left mem next =>
        rw [hx] at hx'
        cases hx'
        exact ⟨l, b, ⟨h.failed e.tid l b owed, undo, found, left⟩,
          fun n hn => (h.landed n hn).2.2 e.tid l b owed⟩
      | landed l b hx' => rw [hx] at hx'; cases hx'
      | failed l b err hx' => rw [hx] at hx'; cases hx'

end

/-! ## Every run -/

structure Booked (lib : Lib Cap) (s : ClaimState Cap) : Prop where
  inv : Inv lib s
  ledger : ∃ D, Ledger lib D s
  told : Told lib s

theorem booked_inductive (hlib : LawfulLib lib) {R : ClaimRules Cap} (hR : Ordered lib R) :
    ((claims lib).lts R).Inductive (Booked lib) := by
  refine System.inductive_of (fun m hm => ?_) (fun s c h _ => ?_) fun s e c k s' h hf hok => ?_
  · exact ⟨.init (hR.init m hm), Ledger.init (hR.init m hm), .init m⟩
  · obtain ⟨D, hledger⟩ := h.ledger
    exact ⟨h.inv.spawn hlib c, ⟨D, hledger.same (sameDebts_spawn h.inv.conforms c)⟩,
      h.told.spawn h.inv.conforms c⟩
  · obtain ⟨hclock, horder⟩ := hR.ok s e hok
    obtain ⟨D, hledger⟩ := h.ledger
    have hinv' := h.inv.fires hf hclock
    obtain ⟨D', hturn, hledger'⟩ := hledger.fires hlib h.inv hinv' hf horder
    exact ⟨hinv', ⟨D', hledger'⟩, h.told.fires h.inv.sound hledger hf hturn⟩

/-- No call is in flight. -/
def Settled (s : ClaimState Cap) : Prop :=
  ∀ (t : Nat) (c : Call Cap) (p : Proc (claimStore Cap) (Except Err Result)),
  s.threads[t]? = some ⟨c, p⟩ → ∃ x, p = .ret x

/-- What the store claims is durable: with no call in flight the claims in
memory are those a fresh store would hydrate; every change of a failed call was
taken back by it; and a rollback finds the claims as its own call's change left
them, leaves them as that change found them, and no write issued after that
change has landed. -/
structure Durable (lib : Lib Cap) (s : ClaimState Cap) : Prop where
  settled : Settled s → hydrate lib s.mem.stored = .ok s.mem.table
  failed : ∀ t c err l b, s.threads[t]? = some ⟨c, .ret (.error err)⟩ → Did s.log t l b →
    (l.apply lib b).table = b.table ∨ IsUndo l ∨ ∃ u m, TakenBack lib s.log t l u b m ∧
    Did s.log t u m
  rollback : ∀ newer e older, s.log = newer ++ e :: older → ∀ u g i m, e.exch = ⟨.run u g, (i, m)⟩ →
    IsUndo u →
    ∃ l b, TakenBack lib older e.tid l u b m ∧ ∀ n, Landed older n → n < b.tickets

theorem Booked.settles {s : ClaimState Cap} (h : Booked lib s) {t : Nat} {c : Call Cap}
    {x : Except Err Result} (ht : s.threads[t]? = some ⟨c, .ret x⟩) {w : Watch Cap}
    (hw : watch lib s t = some w) : Settles w x := by
  rw [watch, System.view_thread ht, Option.some.injEq] at hw
  rw [← hw]
  exact h.inv.conforms.result ht

theorem Booked.owes_nothing {s : ClaimState Cap} (h : Booked lib s) (hs : Settled s) {t : Nat}
    {w : Watch Cap} (hw : watch lib s t = some w) : ¬ Owes w := by
  have hthread := hw
  unfold watch System.view at hthread
  obtain ⟨⟨c, p⟩, ht, -⟩ := Option.map_eq_some_iff.mp hthread
  obtain ⟨x, rfl⟩ := hs t c p ht
  have hsettles := h.settles ht hw
  cases w with
  | changed l b => exact hsettles.elim
  | failed l b => exact hsettles.elim
  | _ => exact id

/-- **Durability**, in every orderly run. -/
theorem durable_kept (hlib : LawfulLib lib) (s : ClaimState Cap)
    (hr : ((claims lib).lts (orderly lib)).Reachable s) : Durable lib s := by
  have hbooked := (booked_inductive hlib ordered_orderly).reachable s hr
  refine ⟨fun hsettled => ?_, fun t c err l b ht hdid => ?_, hbooked.told.rolled⟩
  · obtain ⟨D, hledger⟩ := hbooked.ledger
    have hclear : ¬ RollbackOwed lib s :=
      fun ⟨t, l, b, hw⟩ => hbooked.owes_nothing hsettled hw trivial
    have hqueue : s.mem.queue = [] := by
      refine List.eq_nil_iff_forall_not_mem.mpr fun x hx => ?_
      obtain ⟨t, l, b, hw, -⟩ := hledger.owner x hx
      exact hbooked.owes_nothing hsettled hw trivial
    have hmemory := hledger.memory hclear
    rw [hqueue] at hmemory
    rw [hmemory]
    exact hledger.stored
  · by_cases hundo : IsUndo l
    · exact .inr (.inl hundo)
    · cases hl : changes lib b l with
      | false => exact .inl (by rw [hbooked.told.idle t l b hdid hl hundo])
      | true =>
        rcases hbooked.told.made t l b hdid hl with hw | hw | hw | hback
        · exact (hbooked.settles ht hw).elim
        · exact (hbooked.settles ht hw).elim
        · have hsettles := hbooked.settles ht hw
          cases l with
          | remintCommit m minted => cases hsettles
          | _ => exact hsettles.elim
        · exact .inr (.inr hback)

namespace Example

open ClaimCalls.Example

def owed (s : ClaimState String) : Bool :=
  (List.range s.threads.length).any fun t => match watch textLib s t with
    | some (.failed ..) => true
    | _ => false

theorem not_owed {s : ClaimState String} (h : owed s = false) : ¬ RollbackOwed textLib s := by
  rintro ⟨t, l, b, hw⟩
  have hlt : t < s.threads.length := by
    by_contra hge
    unfold watch System.view at hw
    rw [List.getElem?_eq_none (Nat.not_lt.mp hge)] at hw
    cases hw
  have hany := List.any_eq_false.mp h t (List.mem_range.mpr hlt)
  rw [hw] at hany
  exact hany rfl

def attached (m : Store String) : Stretch String → Bool
  | .remintCommit r _ => OMap.get r.inboxId m.claims = some r.ref
  | _ => true

def asLeft (s : ClaimState String) (t : Nat) : Bool :=
  match watch textLib s t with
  | some (.changed l b) =>
    s.mem.heap = (l.apply textLib b).heap ∧ s.mem.claims = (l.apply textLib b).claims
  | _ => true

def inOrder (s : ClaimState String) (t : Nat) : Exch String → Bool
  | ⟨.await (.set n), .ok ()⟩ => s.mem.queue.head?.map Prod.fst = some n
  | ⟨.await (.set n), .error _⟩ =>
    s.mem.queue.getLast?.map Prod.fst = some n && !owed s && asLeft s t
  | ⟨.run l _, (_, m)⟩ => !changes textLib m l || (!owed s && attached m l)
  | _ => true

theorem inOrder_iff {s : ClaimState String} {t : Nat} {x : Exch String} (h : inOrder s t x = true) :
    InOrder textLib s t x := by
  obtain ⟨op, ans⟩ := x
  cases op with
  | run l g =>
    obtain ⟨i, m⟩ := ans
    have h : (!changes textLib m l || (!owed s && attached m l)) = true := h
    intro hl
    rw [hl, Bool.not_true, Bool.false_or, Bool.and_eq_true, Bool.not_eq_true'] at h
    refine ⟨not_owed h.1, ?_⟩
    have hattached := h.2
    cases l with
    | remintCommit r minted =>
      have hget : OMap.get r.inboxId m.claims = some r.ref := of_decide_eq_true hattached
      exact hget
    | _ => trivial
  | await o =>
    cases o with
    | set n =>
      match ans with
      | .ok () =>
        have holdest : s.mem.queue.head?.map Prod.fst = some n := of_decide_eq_true h
        exact holdest
      | .error err =>
        have h : (decide (s.mem.queue.getLast?.map Prod.fst = some n) && !owed s && asLeft s t) =
            true := h
        rw [Bool.and_eq_true, Bool.and_eq_true, Bool.not_eq_true', decide_eq_true_iff] at h
        refine ⟨h.1.1, not_owed h.1.2, fun l b hw => ?_⟩
        have hleft := h.2
        unfold asLeft at hleft
        rw [hw] at hleft
        exact of_decide_eq_true hleft
    | _ => trivial

def orderlyJudge : System.Judge (orderly textLib) where
  may _ _ := true
  ok s e := judge.ok s e && inOrder s e.tid e.exch
  may_iff _ _ _ := trivial
  ok_iff s e h := by
    rw [Bool.and_eq_true] at h
    exact ⟨judge.ok_iff s e h.1, inOrder_iff h.2⟩

/-- The write is refused. -/
def refused : ObjFate Input outside where
  input := ⟨.fin 2000⟩
  answer
    | .set _ => some (.error { message := "quota exceeded" })
    | _ => none

def returned (s : ClaimState String) : Bool :=
  s.threads.all fun th => match th.proc with
    | .ret _ => true
    | _ => false

theorem settled_of_returned {s : ClaimState String} (h : returned s = true) : Settled s := by
  intro t c p ht
  have hp := List.all_eq_true.mp h _ (List.mem_of_getElem? ht)
  cases p with
  | ret x => exact ⟨x, rfl⟩
  | ask o k => cases hp

end Example

open ClaimCalls.Example Example in
/-- A second claim is refused by the key-value store. -/
theorem durable_kept_refused :
    ∃ s, ((claims textLib).lts (orderly textLib)).Reachable s ∧ Settled s ∧
      s.mem.table.map Prod.fst = ["inbox:a"] ∧ Durable textLib s := by
  obtain ⟨s, hr, hs⟩ := System.reachable_of_play (S := claims textLib) orderlyJudge (smooth 2000)
    [.call (.persist (claim "inbox:a" 1 "k1" "s1")), .go 0 2,
    .call (.persist (claim "inbox:b" 1 "k2" "s2")), .go 1 1, .run 1 refused, .go 1 1]
    (m := empty) (P := fun s => returned s && s.mem.table.map Prod.fst = ["inbox:a"]) fresh_empty
    (by decide +kernel)
  rw [Bool.and_eq_true, decide_eq_true_iff] at hs
  exact ⟨s, hr, settled_of_returned hs.1, hs.2, durable_kept lawful s hr⟩

open ClaimCalls.Example Example in
/-- Two calls of `persist` overlap; the first one's write fails, the second
one's lands with the first one's claim in it. -/
theorem phantom_claim :
    ∃ s, ((claims textLib).lts (anyCalls textLib)).Reachable s ∧ Settled s ∧
      s.mem.table.map Prod.fst = ["inbox:b"] ∧
      (hydrate textLib s.mem.stored).map (fun table => table.map Prod.fst) =
        .ok ["inbox:a", "inbox:b"] ∧
      ¬ Durable textLib s := by
  obtain ⟨s, hr, hs⟩ := System.reachable_of_play (S := claims textLib) anyJudge (smooth 2000)
    [.call (.persist (claim "inbox:a" 1 "k1" "s1")), .call (.persist (claim "inbox:b" 1 "k2" "s2")),
    .go 0 1, .go 1 1, .run 0 refused,
      .go 0 1, .go 1 1]
    (m := empty) (P := fun s => returned s && s.mem.table.map Prod.fst = ["inbox:b"] &&
      (hydrate textLib s.mem.stored).map (fun table => table.map Prod.fst) = .ok ["inbox:a",
      "inbox:b"]) fresh_empty (by decide +kernel)
  rw [Bool.and_eq_true, Bool.and_eq_true, decide_eq_true_iff, decide_eq_true_iff] at hs
  obtain ⟨⟨hreturned, htable⟩, hstored⟩ := hs
  refine ⟨s, hr, settled_of_returned hreturned, htable, hstored, fun h => ?_⟩
  rw [h.settled (settled_of_returned hreturned)] at hstored
  have hkeys : s.mem.table.map Prod.fst = ["inbox:a", "inbox:b"] := Except.ok.inj hstored
  rw [htable] at hkeys
  exact absurd hkeys (by decide)

end RezSdk.L4.ClaimDurability
