import RezSdk.L4Runs.ClaimDurability

/-!
# Generations of an inbox

`remintGeneration` checks the generation, waits for a key and a signature, and
then writes into the record without looking again; `persist` replaces a claim
whatever its generation. `lineal` is the condition under which the lineage of
an inbox holds: the run is orderly, a re-mint still finds the generation it has
checked (and one that it can count on from), and no claim is persisted over
one it does not succeed.

* `advances_apply`: under it every change moves every claim forward.
* `generation_lineage`: so what is stored never goes back, a re-mint that has
  returned stays, and no two of them return one generation.
* `two_remints`: two calls for one closed generation both return the next one.
-/
namespace RezSdk.L4.ClaimLineage

open RezSdk.L1 RezSdk.L2.InboxClaims RezSdk.L4.ClaimShape RezSdk.L4.ClaimCalls
  RezSdk.L4.ClaimWrites RezSdk.L4.ClaimDurability

variable {Cap : Type} {lib : Lib Cap}

/-! ## Forward -/

/-- The claim `new` may take the place of `old`: its generation is a later one,
or it is the same with the same keys. -/
inductive Succeeds (old new : Record Cap) : Prop
  | legacy (none : old.generation = none)
  | later (g g' : JsNumber) (old : old.generation = some g) (new : new.generation = some g')
      (lt : g.lt g' = true)
  | same (generation : new.generation = old.generation)
      (closePublic : new.closePublicKeyB64 = old.closePublicKeyB64)
      (closePrivate : new.closePrivateKeyB64 = old.closePrivateKeyB64)
      (signature : new.claimSignatureB64 = old.claimSignatureB64)

/-- The claim carries on the re-mint: a later generation, or this one with the
keys and the signature it has minted. -/
inductive Carries (minted : Minted) (r : Record Cap) : Prop
  | later (g : JsNumber) (generation : r.generation = some g) (lt : minted.generation.lt g = true)
  | same (generation : r.generation = some minted.generation)
      (closePublic : r.closePublicKeyB64 = some minted.closePublicKeyB64)
      (closePrivate : r.closePrivateKeyB64 = some minted.closePrivateKeyB64)
      (signature : r.claimSignatureB64 = minted.claimSignatureB64)

theorem lt_trans {a b c : JsNumber} (h : a.lt b = true) (h' : b.lt c = true) : a.lt c = true := by
  cases a <;> cases b <;> cases c <;> simp [JsNumber.lt] at h h' ⊢
  exact h.trans h'

theorem lt_irrefl (a : JsNumber) : a.lt a = false := by
  cases a <;> simp [JsNumber.lt]

theorem Succeeds.refl (r : Record Cap) : Succeeds r r := .same rfl rfl rfl rfl

theorem Succeeds.trans {a b c : Record Cap} (h : Succeeds a b) (h' : Succeeds b c) :
    Succeeds a c := by
  cases h with
  | legacy hnone => exact .legacy hnone
  | later g g' ha hb hlt =>
    cases h' with
    | legacy hnone =>
      rw [hb] at hnone
      cases hnone
    | later g₁ g₂ hb' hc hlt' =>
      cases hb.symm.trans hb'
      exact .later g g₂ ha hc (lt_trans hlt hlt')
    | same hg => exact .later g g' ha (hg.trans hb) hlt
  | same hg hpublic hprivate hsignature =>
    cases h' with
    | legacy hnone => exact .legacy (hg.symm.trans hnone)
    | later g₁ g₂ hb hc hlt => exact .later g₁ g₂ (hg.symm.trans hb) hc hlt
    | same hg' hpublic' hprivate' hsignature' =>
      exact .same (hg'.trans hg) (hpublic'.trans hpublic) (hprivate'.trans hprivate)
        (hsignature'.trans hsignature)

theorem Carries.trans {minted : Minted} {r r' : Record Cap} (h : Carries minted r)
    (h' : Succeeds r r') : Carries minted r' := by
  cases h with
  | later g hg hlt =>
    cases h' with
    | legacy hnone =>
      rw [hg] at hnone
      cases hnone
    | later g₁ g₂ hr hr' hlt' =>
      cases hg.symm.trans hr
      exact .later g₂ hr' (lt_trans hlt hlt')
    | same hsame => exact .later g (hsame.trans hg) hlt
  | same hg hpublic hprivate hsignature =>
    cases h' with
    | legacy hnone =>
      rw [hg] at hnone
      cases hnone
    | later g₁ g₂ hr hr' hlt' =>
      cases hg.symm.trans hr
      exact .later g₂ hr' hlt'
    | same hsame hpublic' hprivate' hsignature' =>
      exact .same (hsame.trans hg) (hpublic'.trans hpublic) (hprivate'.trans hprivate)
        (hsignature'.trans hsignature)

/-- No claim is lost, and every claim is succeeded by the one in its place. -/
def Advances (before after : Table Cap) : Prop :=
  ∀ inboxId r, OMap.get inboxId before = some r → ∃ r', OMap.get inboxId after = some r' ∧
  Succeeds r r'

theorem Advances.refl (table : Table Cap) : Advances table table := fun _ r hr => ⟨r, hr, .refl r⟩

theorem Advances.trans {a b c : Table Cap} (h : Advances a b) (h' : Advances b c) :
    Advances a c := by
  intro inboxId r hr
  obtain ⟨r₁, hr₁, hs₁⟩ := h inboxId r hr
  obtain ⟨r₂, hr₂, hs₂⟩ := h' inboxId r₁ hr₁
  exact ⟨r₂, hr₂, hs₁.trans hs₂⟩

/-! ## The condition -/

/-- A persisted claim succeeds the one in its place, and a re-mint finds the
generation it has checked, with a next one to count to. -/
def Advancing (lib : Lib Cap) (m : Store Cap) : Stretch Cap → Prop
  | .persist claim =>
    ∀ r old, normalizeStored lib claim = .ok (some r) → m.find r.inboxId = some old →
    Succeeds old.2 r
  | .remintCommit q _ => (m.heap[q.ref]?.bind Record.generation) = some q.finalGeneration ∧
      q.finalGeneration.lt q.finalGeneration.addOne = true
  | _ => True

def Advanced (lib : Lib Cap) : Exch Cap → Prop
  | ⟨.run l _, (_, m)⟩ => Advancing lib m l
  | _ => True

def lineal (lib : Lib Cap) : ClaimRules Cap where
  init := Fresh lib
  may _ _ := True
  ok s e := (clockReads e.exch ∧ InOrder lib s e.tid e.exch) ∧ Advanced lib e.exch

/-! ## What a change does to the claims -/

/-- The contents of the map, by inbox. -/
theorem get_table {s : Store Cap} (h : Sound s) (inboxId : String) :
    OMap.get inboxId s.table = record s inboxId := by
  have hkept := wellKept_table h
  cases hr : record s inboxId with
  | none =>
    refine OMap.get_eq_none.mpr fun hmem => ?_
    obtain ⟨p, hp, rfl⟩ := List.mem_map.mp hmem
    obtain ⟨ref, hclaim, hheap, -⟩ := table_mem h hp
    unfold record at hr
    rw [OMap.get_of_mem h.nodup hclaim] at hr
    exact absurd (hr.symm.trans hheap) (by nofun)
  | some r =>
    refine OMap.get_of_mem hkept.nodup ?_
    rw [table_eq h]
    obtain ⟨ref, hget, -⟩ := Option.bind_eq_some_iff.mp hr
    exact List.mem_filterMap.mpr ⟨inboxId,
      List.mem_map.mpr ⟨_, OMap.mem_of_get hget, rfl⟩, by rw [hr]; rfl⟩

/-- The contents change by what each record changes by. -/
theorem advances_of_record {s s' : Store Cap} (h : Sound s) (h' : Sound s')
    (hall :
        ∀ inboxId r, record s inboxId = some r →
          ∃ r', record s' inboxId = some r' ∧ Succeeds r r') : Advances s.table s'.table := by
  intro inboxId r hr
  rw [get_table h] at hr
  rw [get_table h']
  exact hall inboxId r hr

theorem record_find {s : Store Cap} {inboxId : String} {r : Record Cap}
    (h : record s inboxId = some r) : ∃ ref, s.find inboxId = some (ref, r) := by
  obtain ⟨ref, hget, hr⟩ := Option.bind_eq_some_iff.mp h
  refine ⟨ref, ?_⟩
  unfold Store.find
  rw [hget]
  change s.heap[ref]?.map _ = _
  rw [hr]
  rfl

theorem persist_record {s : Store Cap} {claim : Material Cap} {u : Stretch Cap}
    (h : undoOf lib s (.persist claim) = some u) :
    ∃ n lease, normalizeStored lib claim = .ok (some n) ∧
      (s.persist lib claim).2 =
        { s with
          heap := s.heap ++ [{ n with lease }]
          claims := OMap.set n.inboxId s.heap.length s.claims }.persistAll := by
  rw [undoOf_persist] at h
  unfold Store.persist at h ⊢
  cases hnormal : normalizeStored lib claim with
  | error e =>
    rw [hnormal] at h
    cases h
  | ok normalized =>
    cases normalized with
    | none =>
      rw [hnormal] at h
      cases h
    | some n => exact ⟨n, _, rfl, rfl⟩

/-- A re-mint goes from the claim it has checked to the one it has minted. -/
def Mints (lib : Lib Cap) (b : Store Cap) : Stretch Cap → Prop
  | .remintCommit m minted =>
    (∃ r g, OMap.get m.inboxId b.table = some r ∧ r.generation = some g ∧
    g.lt minted.generation = true) ∧
      ∃ r, OMap.get m.inboxId ((Stretch.remintCommit m minted).apply lib b).table = some r ∧
      Carries minted r
  | _ => True

structure Forward (lib : Lib Cap) (l : Stretch Cap) (b : Store Cap) : Prop where
  advances : Advances b.table (l.apply lib b).table
  mints : Mints lib b l

/-- What a re-mint was signed for. -/
def Counts : Stretch Cap → Prop
  | .remintCommit m minted => minted.generation = m.finalGeneration.addOne
  | _ => True

theorem record_commit {b : Store Cap} (h : Sound b) {m : Reminting} {minted : Minted}
    (hget : OMap.get m.inboxId b.claims = some m.ref) {r : Record Cap}
    (hr : b.heap[m.ref]? = some r) (hid : r.inboxId = m.inboxId) (inboxId : String) :
    record (b.remintCommit m.ref minted) inboxId =
      if m.inboxId = inboxId then some (minted.into r) else record b inboxId := by
  change (OMap.get inboxId b.claims).bind (fun ref => (b.heap.modify m.ref minted.into)[ref]?) = _
  by_cases hk : m.inboxId = inboxId
  · subst hk
    rw [if_pos rfl, hget]
    change (b.heap.modify m.ref minted.into)[m.ref]? = _
    rw [List.getElem?_modify, hr]
    simp
  · rw [if_neg hk]
    unfold record
    cases hother : OMap.get inboxId b.claims with
    | none => rfl
    | some ref =>
      obtain ⟨r', hr', hid'⟩ := h.refs _ (OMap.mem_of_get hother)
      -- the re-minted object is another inbox's
      have hne : m.ref ≠ ref := by
        rintro rfl
        rw [hr, Option.some.injEq] at hr'
        subst hr'
        exact hk (hid.symm.trans hid')
      change (b.heap.modify m.ref minted.into)[ref]? = b.heap[ref]?
      rw [List.getElem?_modify, hr']
      simp [hne]

theorem forward_apply {l : Stretch Cap} {b : Store Cap} (h : Change lib l b)
    (h' : Sound (l.apply lib b)) (hl : Advancing lib b l) (hcounts : Counts l) :
    Forward lib l b := by
  obtain ⟨u, hu⟩ := h.undo
  cases l with
  | persist claim =>
    refine ⟨advances_of_record h.sound h' fun inboxId r hr => ?_, trivial⟩
    obtain ⟨n, lease, hnormal, hafter⟩ := persist_record hu
    change ∃ r', record (b.persist lib claim).2 inboxId = some r' ∧ Succeeds r r'
    rw [hafter]
    by_cases hk : n.inboxId = inboxId
    · subst hk
      refine ⟨{ n with lease }, ?_, ?_⟩
      · change (OMap.get n.inboxId (OMap.set n.inboxId b.heap.length b.claims)).bind
            (fun ref => (b.heap ++ [{ n with lease }])[ref]?) = _
        rw [OMap.get_set_self]
        change (b.heap ++ [{ n with lease }])[b.heap.length]? = _
        rw [List.getElem?_append_right (Nat.le_refl _), Nat.sub_self]
        rfl
      · obtain ⟨ref, hfind⟩ := record_find hr
        have hsucceeds := hl n (ref, r) hnormal hfind
        cases hsucceeds with
        | legacy hnone => exact .legacy hnone
        | later g g' hg hg' hlt => exact .later g g' hg hg' hlt
        | same hg hpublic hprivate hsignature => exact .same hg hpublic hprivate hsignature
    · have hother := OMap.get_set_ne hk b.heap.length b.claims
      have hsame := record_append (r := { n with lease }) h.sound inboxId hother
      exact ⟨r, hsame.trans hr, .refl r⟩
  | lease a =>
    refine ⟨advances_of_record h.sound h' fun inboxId r hr => ?_, trivial⟩
    obtain ⟨-, hnone⟩ | ⟨ref, found, lease, -, -, -, hafter⟩ := lease_cases lib b a
    · rw [hnone] at hu
      cases hu
    · change ∃ r', record (b.recordAcceptedLease lib a).2 inboxId = some r' ∧ Succeeds r r'
      rw [hafter]
      obtain ⟨ref', hget, hheap⟩ := Option.bind_eq_some_iff.mp hr
      change ∃ r', (OMap.get inboxId b.claims).bind
          (fun ref' => (b.heap.modify ref fun r => { r with lease := some lease })[ref']?) =
        some r' ∧ Succeeds r r'
      rw [hget]
      change ∃ r', (b.heap.modify ref fun r => { r with lease := some lease })[ref']? = some r' ∧
          Succeeds r r'
      rw [List.getElem?_modify, hheap]
      by_cases href : ref = ref'
      · exact ⟨{ r with lease := some lease }, by simp [href], .same rfl rfl rfl rfl⟩
      · exact ⟨r, by simp [href], .refl r⟩
  | remintCommit m minted =>
    obtain ⟨hgeneration, hlt⟩ := hl
    have hget : OMap.get m.inboxId b.claims = some m.ref := h.attached
    obtain ⟨found, hfound, hid⟩ := h.sound.refs _ (OMap.mem_of_get hget)
    dsimp only at hfound hid
    rw [hfound] at hgeneration
    have hgeneration : found.generation = some m.finalGeneration := hgeneration
    have hcounts : minted.generation = m.finalGeneration.addOne := hcounts
    rw [← hcounts] at hlt
    have hrecord (x : String) : record (b.remintCommit m.ref minted) x = if m.inboxId = x
        then some (minted.into found) else record b x :=
      record_commit h.sound hget hfound hid x
    have hbefore : record b m.inboxId = some found := by
      unfold record
      rw [hget]
      exact hfound
    refine ⟨advances_of_record h.sound h' fun inboxId r hr => ?_,
      ⟨found, m.finalGeneration, ?_, hgeneration, hlt⟩, minted.into found, ?_, ?_⟩
    · change ∃ r', record (b.remintCommit m.ref minted) inboxId = some r' ∧ Succeeds r r'
      rw [hrecord]
      by_cases hk : m.inboxId = inboxId
      · subst hk
        rw [hbefore, Option.some.injEq] at hr
        subst hr
        exact ⟨minted.into found, if_pos rfl, .later _ _ hgeneration rfl hlt⟩
      · exact ⟨r, (if_neg hk).trans hr, .refl r⟩
    · rw [get_table h.sound, hbefore]
    · rw [get_table h']
      exact (hrecord m.inboxId).trans (if_pos rfl)
    · exact .same rfl rfl rfl rfl
  | _ => cases hu

/-! ## Every run -/

/-- What has landed stays: the stored claim carries on every re-mint that has
landed, and no two of them have the same generation. -/
structure Line (lib : Lib Cap) (D : Table Cap) (s : ClaimState Cap) : Prop where
  changed : ∀ t l b, watch lib s t = some (.changed l b) → Forward lib l b
  carried : ∀ t m minted b, watch lib s t = some (.landed (.remintCommit m minted) b) →
    ∃ r, OMap.get m.inboxId D = some r ∧ Carries minted r
  distinct :
    ∀ t t' m m' minted minted' b b', watch lib s t = some (.landed (.remintCommit m minted) b) →
    watch lib s t' = some (.landed (.remintCommit m' minted') b') → m.inboxId = m'.inboxId →
      minted.generation = minted'.generation → t = t'

section

variable {D D' : Table Cap} {s s' : ClaimState Cap} {e : ClaimEvent Cap} {c : Call Cap}
  {k : (claimStore Cap).Ans e.op → Proc (claimStore Cap) (Except Err Result)}

/-- Nothing has landed and nothing new waits to. -/
theorem Line.same (h : Line lib D s)
    (hchanged : ∀ t l b, watch lib s' t = some (.changed l b) →
        watch lib s t = some (.changed l b) ∨ Forward lib l b)
    (hlanded : ∀ t l b, watch lib s' t = some (.landed l b) → watch lib s t = some (.landed l b)) :
    Line lib D s' where
  changed t l b hw := by
    rcases hchanged t l b hw with hw | hforward
    · exact h.changed t l b hw
    · exact hforward
  carried t m minted b hw := h.carried t m minted b (hlanded t _ b hw)
  distinct t t' m m' minted minted' b b' hw hw' :=
    h.distinct t t' m m' minted minted' b b' (hlanded t _ b hw) (hlanded t' _ b' hw')

theorem Carries.bound {minted : Minted} {r : Record Cap} {g g' : JsNumber} (h : Carries minted r)
    (hr : r.generation = some g) (hlt : g.lt g' = true) : minted.generation.lt g' = true := by
  cases h with
  | later g₁ hg hlt' =>
    cases hg.symm.trans hr
    exact lt_trans hlt' hlt
  | same hg =>
    cases hg.symm.trans hr
    exact hlt

/-- The oldest write lands. -/
theorem Line.landed (h : Line lib D s) (hf : Pool.Fires (claims lib) s e c k s') {l : Stretch Cap}
    {b : Store Cap} (hw : watch lib s e.tid = some (.changed l b)) (hbefore : b.table = D)
    (hw' : watch lib s' e.tid = some (.landed l b)) : Line lib (l.apply lib b).table s' := by
  obtain ⟨hadvances, hmints⟩ := h.changed e.tid l b hw
  rw [hbefore] at hadvances
  -- what landed before is below a generation that lands now
  have hbelow : ∀ t m m' minted minted' b', l = .remintCommit m minted →
      watch lib s t = some (.landed (.remintCommit m' minted') b') →
      m'.inboxId = m.inboxId → minted'.generation.lt minted.generation = true := by
    intro t m m' minted minted' b' hl hv hid
    subst hl
    obtain ⟨⟨r, g, hr, hg, hlt⟩, -⟩ := hmints
    obtain ⟨r', hr', hcarries⟩ := h.carried t m' minted' b' hv
    rw [hid] at hr'
    rw [hbefore, hr', Option.some.injEq] at hr
    subst hr
    exact hcarries.bound hg hlt
  refine ⟨fun t l' b' hv => ?_, fun t m minted b' hv => ?_,
    fun t t' m m' minted minted' b₁ b₂ hv hv' hid heq => ?_⟩
  · obtain ⟨-, hsame⟩ | ⟨-, hold⟩ := watch_cases hf hw' hv
    · cases hsame
    · exact h.changed t l' b' hold
  · obtain ⟨-, hsame⟩ | ⟨-, hold⟩ := watch_cases hf hw' hv
    · cases hsame
      exact hmints.2
    · obtain ⟨r, hr, hcarries⟩ := h.carried t m minted b' hold
      obtain ⟨r', hr', hsucceeds⟩ := hadvances m.inboxId r hr
      exact ⟨r', hr', hcarries.trans hsucceeds⟩
  · obtain ⟨rfl, hsame⟩ | ⟨-, hold⟩ := watch_cases hf hw' hv
    · obtain ⟨rfl, -⟩ | ⟨-, hold'⟩ := watch_cases hf hw' hv'
      · rfl
      · cases hsame
        have hlt := hbelow t' m m' minted minted' b₂ rfl hold' hid.symm
        rw [heq, lt_irrefl] at hlt
        cases hlt
    · obtain ⟨rfl, hsame'⟩ | ⟨-, hold'⟩ := watch_cases hf hw' hv'
      · cases hsame'
        have hlt := hbelow t m' m minted' minted b₁ rfl hold hid
        rw [heq, lt_irrefl] at hlt
        cases hlt
      · exact h.distinct t t' m m' minted minted' b₁ b₂ hold hold' hid heq

theorem legal_counts {w : Watch Cap} {l : Stretch Cap} (h : Legal lib w l) (hw : ¬ Owes w) :
    Counts l := by
  cases l with
  | remintCommit m minted =>
    cases w with
    | signing m' nowMs =>
      obtain ⟨rfl, hgeneration, -⟩ := h
      exact hgeneration
    | failed l' b => exact absurd trivial hw
    | _ => exact h.elim
  | _ => trivial

theorem Line.fires (h : Line lib D s) (hinv : Inv lib s) (hinv' : Inv lib s')
    (hf : Pool.Fires (claims lib) s e c k s') (hturn : Turn lib s s' e D D')
    (hadvanced : Advanced lib e.exch) : Line lib D' s' ∧ Advances D D' := by
  have hother : ∀ {w' v : Watch Cap} {t : Nat}, watch lib s' e.tid = some w' →
      w' ≠ v → watch lib s' t = some v → watch lib s t = some v := by
    intro w' v t hw' hne hv
    obtain ⟨-, hsame⟩ | ⟨-, hold⟩ := watch_cases hf hw' hv
    · exact absurd hsame.symm hne
    · exact hold
  cases hturn with
  | idle same looks apart stays =>
    refine ⟨h.same (fun t l b hw => .inl ((same.changed t l b).mp hw)) fun t l b hw => ?_, .refl D⟩
    by_cases ht : e.tid = t
    · subst ht
      exact (stays l b).mp hw
    · rwa [watch, System.view_other hf ht] at hw
  | change l i hx change free clear mem next =>
    refine ⟨h.same (fun t l' b hw => ?_) fun t l' b hw => hother next (fun h => by cases h) hw,
      .refl D⟩
    obtain ⟨-, hsame⟩ | ⟨-, hold⟩ := watch_cases hf next hw
    · cases hsame
      rw [hx] at hadvanced
      obtain ⟨w, hw, -⟩ := hinv.effect hf
      obtain ⟨howes, hlegal⟩ := free w hw
      exact .inr (forward_apply change (mem ▸ hinv'.sound) hadvanced (legal_counts hlegal howes))
    · exact .inl hold
  | undone l u b i hx owed undo found left mem next =>
    exact ⟨h.same (fun t l' b hw => .inl (hother next (fun h => by cases h) hw)) fun t l' b hw =>
      hother next (fun h => by cases h) hw, .refl D⟩
  | landed l b hx owed before change oldest mem next =>
    exact ⟨h.landed hf owed before next, before ▸ (h.changed e.tid l b owed).advances⟩
  | failed l b err hx owed mem next =>
    exact ⟨h.same (fun t l' b hw => .inl (hother next (fun h => by cases h) hw)) fun t l' b hw =>
      hother next (fun h => by cases h) hw, .refl D⟩

end

/-- The invariant, for what a fresh store would hydrate. -/
structure Lined (lib : Lib Cap) (D : Table Cap) (s : ClaimState Cap) : Prop where
  inv : Inv lib s
  ledger : Ledger lib D s
  line : Line lib D s

/-- From `D₀` on what is stored has only advanced. -/
def LinedFrom (lib : Lib Cap) (D₀ : Table Cap) (s : ClaimState Cap) : Prop :=
  ∃ D, Lined lib D s ∧ Advances D₀ D

theorem lined_init {m : Store Cap} (h : Fresh lib m) : ∃ D, Lined lib D ⟨m, [], []⟩ := by
  obtain ⟨D, hledger⟩ := Ledger.init h
  have hnone : ∀ t w, watch lib (⟨m, [], []⟩ : ClaimState Cap) t ≠ some w := by
    intro t w hw
    rw [watch, System.view_init] at hw
    cases hw
  exact ⟨D, .init h, hledger, fun t l b hw => absurd hw (hnone t _),
    fun t m minted b hw => absurd hw (hnone t _),
    fun t t' m m' minted minted' b b' hw => absurd hw (hnone t _)⟩

theorem linedFrom_step (hlib : LawfulLib lib) {D₀ : Table Cap} {s s' : ClaimState Cap}
    {a : Label (ObjFate Input outside) (Call Cap)} (h : LinedFrom lib D₀ s)
    (hs : ((claims lib).lts (lineal lib)).step s a s') : LinedFrom lib D₀ s' := by
  refine System.keeps_of (J := LinedFrom lib D₀) (fun s c h _ => ?_)
    (fun s e c k s' h hf hok => ?_) s a s' h hs
  · obtain ⟨D, ⟨hinv, hledger, hline⟩, hadvances⟩ := h
    have hsame := sameDebts_spawn hinv.conforms c
    refine ⟨D, ⟨hinv.spawn hlib c, hledger.same hsame, hline.same
      (fun t l b hw => .inl ((hsame.changed t l b).mp hw)) fun t l b hw => ?_⟩, hadvances⟩
    obtain ⟨-, hstart⟩ | hold := hinv.conforms.view_spawned hw
    · cases hstart
    · exact hold
  · obtain ⟨D, ⟨hinv, hledger, hline⟩, hadvances⟩ := h
    obtain ⟨⟨hclock, horder⟩, hadvanced⟩ := hok
    have hinv' := hinv.fires hf hclock
    obtain ⟨D', hturn, hledger'⟩ := hledger.fires hlib hinv hinv' hf horder
    obtain ⟨hline', hforward⟩ := hline.fires hinv hinv' hf hturn hadvanced
    exact ⟨D', ⟨hinv', hledger', hline'⟩, hadvances.trans hforward⟩

theorem lined_reachable (hlib : LawfulLib lib) {s : ClaimState Cap}
    (hr : ((claims lib).lts (lineal lib)).Reachable s) : ∃ D, Lined lib D s := by
  obtain ⟨s₀, ls, ⟨hinit, hthreads, hlog⟩, hrun⟩ := hr
  obtain ⟨m, threads, log⟩ := s₀
  dsimp only at hthreads hlog hinit
  subst hthreads hlog
  obtain ⟨D₀, hlined⟩ := lined_init hinit
  obtain ⟨D, hD, -⟩ := hrun.keeps (J := LinedFrom lib D₀) (fun s l s' h hs =>
    linedFrom_step hlib h hs) ⟨D₀, hlined, .refl D₀⟩
  exact ⟨D, hD⟩

/-- A re-mint that has returned: the stored claim carries on what it has minted,
and no other one has returned the same generation for the inbox. -/
structure Lineage (lib : Lib Cap) (s : ClaimState Cap) : Prop where
  carried : ∀ (t : Nat) (c : Call Cap) (inboxId : String) (g g' : JsNumber), s.threads[t]? =
    some ⟨c, .ret (.ok (.reminted inboxId g g'))⟩ → ∃ m minted b D r,
    Did s.log t (.remintCommit m minted) b ∧ m.inboxId = inboxId ∧ minted.generation = g' ∧
    hydrate lib s.mem.stored = .ok D ∧ OMap.get inboxId D = some r ∧ Carries minted r
  distinct : ∀ (t t' : Nat) (c c' : Call Cap) (inboxId : String) (g₁ g₁' g₂ g₂' : JsNumber),
    s.threads[t]? = some ⟨c, .ret (.ok (.reminted inboxId g₁ g₁'))⟩ →
    s.threads[t']? = some ⟨c', .ret (.ok (.reminted inboxId g₂ g₂'))⟩ → t ≠ t' → g₁' ≠ g₂'

/-- Where a re-mint that has returned stands. -/
theorem returned_landed {s : ClaimState Cap} (h : Inv lib s) {t : Nat} {c : Call Cap}
    {inboxId : String} {g g' : JsNumber}
    (ht : s.threads[t]? = some ⟨c, .ret (.ok (.reminted inboxId g g'))⟩) :
    ∃ m minted b, watch lib s t = some (.landed (.remintCommit m minted) b) ∧ m.inboxId = inboxId ∧
      minted.generation = g' := by
  have hsettles : Settles (Pool.mon (monitor lib) .start t s.log) (.ok (.reminted inboxId g g')) :=
    h.conforms.result ht
  have hview : watch lib s t = some (Pool.mon (monitor lib) .start t s.log) := System.view_thread ht
  rw [hview]
  generalize Pool.mon (monitor lib) .start t s.log = w at hsettles
  cases w with
  | landed l b =>
    cases l with
    | remintCommit m minted =>
      cases hsettles
      exact ⟨m, minted, b, rfl, rfl, rfl⟩
    | _ => exact hsettles.elim
  | _ => exact hsettles.elim

/-- Only its own stretch brings a call to a change. -/
theorem changed_by {l : Stretch Cap} {b : Store Cap} (w : Watch Cap) (x : Exch Cap)
    (h : (monitor lib).next w x = .changed l b ∨ (monitor lib).next w x = .landed l b) :
    (w = .changed l b ∨ w = .landed l b) ∨ ∃ g i, x = ⟨.run l g, (i, b)⟩ := by
  obtain ⟨op, ans⟩ := x
  cases op with
  | run l' g =>
    obtain ⟨i, m⟩ := ans
    change follow lib w m i l' = _ ∨ follow lib w m i l' = _ at h
    by_cases hlooks : Looks l'
    · cases l' with
      | remintCheck a =>
        cases hm : m.remintCheck lib a with
        | error err =>
          rw [follow_unchecked i hm] at h
          rcases h with h | h <;> cases h
        | ok q =>
          rw [follow_check i hm] at h
          rcases h with h | h <;> cases h
      | remintSign q => rcases h with h | h <;> cases h
      | leaseRead ref => exact .inl h
      | _ => exact hlooks.elim
    · rw [follow_rest hlooks] at h
      cases hl : changes lib m l' with
      | true =>
        rw [hl, if_pos rfl] at h
        rcases h with h | h
        · cases h
          exact .inr ⟨g, i, rfl⟩
        · cases h
      | false =>
        rw [hl] at h
        rcases h with h | h <;> cases h
  | await o =>
    left
    cases o with
    | set n =>
      match ans with
      | .ok () =>
        cases w with
        | changed l' b' =>
          rcases h with h | h
          · cases h
          · cases h
            exact .inl rfl
        | _ => exact h
      | .error err =>
        cases w with
        | changed l' b' => rcases h with h | h <;> cases h
        | _ => exact h
    | _ => cases w <;> exact h

/-- A landed change is in the log. -/
theorem landed_did {s : ClaimState Cap} {t : Nat} {l : Stretch Cap} {b : Store Cap}
    (hw : watch lib s t = some (.landed l b)) : Did s.log t l b := by
  unfold watch System.view at hw
  obtain ⟨th, -, hmon⟩ := Option.map_eq_some_iff.mp hw
  exact Pool.mon_event (M := monitor lib) (P := fun w => w = .changed l b ∨ w = .landed l b)
    (R := fun x : Exch Cap => ∃ g i, x = ⟨.run l g, (i, b)⟩) changed_by
    (by rintro (h | h) <;> cases h) (.inr hmon)

/-- **The lineage of an inbox**, in every run in which every change advances. -/
theorem generation_lineage (hlib : LawfulLib lib) (s : ClaimState Cap)
    (hr : ((claims lib).lts (lineal lib)).Reachable s) :
    Lineage lib s ∧
    ∀ ls s' D, ((claims lib).lts (lineal lib)).Run s ls s' → hydrate lib s.mem.stored = .ok D →
      ∃ D', hydrate lib s'.mem.stored = .ok D' ∧ Advances D D' := by
  obtain ⟨D, hlined⟩ := lined_reachable hlib hr
  refine ⟨⟨fun t c inboxId g g' ht => ?_, fun t t' c c' inboxId g₁ g₁' g₂ g₂' ht ht' hne heq => ?_⟩,
    fun ls s' D₁ hrun hD₁ => ?_⟩
  · obtain ⟨m, minted, b, hw, rfl, rfl⟩ := returned_landed hlined.inv ht
    obtain ⟨r, hr, hcarries⟩ := hlined.line.carried t m minted b hw
    exact ⟨m, minted, b, D, r, landed_did hw, rfl, rfl, hlined.ledger.stored, hr, hcarries⟩
  · obtain ⟨m, minted, b, hw, hid, hg⟩ := returned_landed hlined.inv ht
    obtain ⟨m', minted', b', hw', hid', hg'⟩ := returned_landed hlined.inv ht'
    exact hne (hlined.line.distinct t t' m m' minted minted' b b' hw hw' (hid.trans hid'.symm)
      (hg.trans (heq.trans hg'.symm)))
  · rw [hlined.ledger.stored, Except.ok.injEq] at hD₁
    subst hD₁
    obtain ⟨D', hlined', hadvances⟩ := hrun.keeps (J := LinedFrom lib D)
      (fun s l s' h hs => linedFrom_step hlib h hs) ⟨D, hlined, .refl D⟩
    exact ⟨D', hlined'.ledger.stored, hadvances⟩

namespace Example

open ClaimCalls.Example

def succeeds (old new : Record String) : Bool :=
  match old.generation, new.generation with
  | none, _ => true
  | some g, some g' => g.lt g'
  | some _, none => false

theorem succeeds_iff {old new : Record String} (h : succeeds old new = true) :
    Succeeds old new := by
  unfold succeeds at h
  split at h
  · exact .legacy ‹_›
  · exact .later _ _ ‹_› ‹_› h
  · cases h

def advancing (m : Store String) : Stretch String → Bool
  | .persist c => match normalizeStored textLib c with
    | .ok (some r) => (m.find r.inboxId).all fun old => succeeds old.2 r
    | _ => true
  | .remintCommit q _ =>
    (m.heap[q.ref]?.bind Record.generation) = some q.finalGeneration ∧
    q.finalGeneration.lt q.finalGeneration.addOne = true
  | _ => true

theorem advancing_iff {m : Store String} {l : Stretch String} (h : advancing m l = true) :
    Advancing textLib m l := by
  cases l with
  | persist c =>
    intro r old hnormal hfind
    unfold advancing at h
    dsimp only at h
    rw [hnormal] at h
    dsimp only at h
    rw [hfind] at h
    exact succeeds_iff h
  | remintCommit q minted =>
    have hboth : (m.heap[q.ref]?.bind Record.generation) = some q.finalGeneration ∧
        q.finalGeneration.lt q.finalGeneration.addOne = true :=
      of_decide_eq_true h
    exact hboth
  | _ => trivial

def linealJudge : System.Judge (lineal textLib) where
  may _ _ := true
  ok s e := ClaimDurability.Example.orderlyJudge.ok s e && match e.exch with
    | ⟨.run l _, (_, m)⟩ => advancing m l
    | _ => true
  may_iff _ _ _ := trivial
  ok_iff s e h := by
    rw [Bool.and_eq_true] at h
    refine ⟨ClaimDurability.Example.orderlyJudge.ok_iff s e h.1, ?_⟩
    have hadvancing := h.2
    obtain ⟨t, op, ans, fate⟩ := e
    cases op with
    | run l g => exact advancing_iff hadvancing
    | await o => trivial

def results (s : ClaimState String) : List (Option Result) :=
  s.threads.map fun th => match th.proc with
    | .ret (.ok r) => some r
    | _ => none

theorem thread_of_results {s : ClaimState String} {t : Nat} {r : Result}
    (h : (results s)[t]? = some (some r)) : ∃ c, s.threads[t]? = some ⟨c, .ret (.ok r)⟩ := by
  unfold results at h
  rw [List.getElem?_map] at h
  obtain ⟨⟨c, p⟩, ht, hr⟩ := Option.map_eq_some_iff.mp h
  dsimp only at hr
  split at hr
  · cases hr
    exact ⟨c, ht⟩
  · cases hr

/-- A claim of generation 1 is persisted and then re-minted twice. -/
def script : List (System.Move (ObjFate Input outside) (Call String)) :=
  [.call (.persist (claim "inbox:a" 1 "k1" "s1")), .go 0 2, .call (remint "inbox:a" 1),
  .go 1 6, .call (remint "inbox:a" 2), .go 2 6]

/-- Both re-mints check the generation before one of them commits. -/
def overlapping : List (System.Move (ObjFate Input outside) (Call String)) :=
  [.call (.persist (claim "inbox:a" 1 "k1" "s1")), .go 0 2, .call (remint "inbox:a" 1),
  .call (remint "inbox:a" 1), .go 1 4, .go 2 4,
    .go 1 2, .go 2 2]

end Example

open ClaimCalls.Example Example in
/-- An inbox that is re-minted twice. -/
theorem generation_lineage_twice : ∃ s, ((claims textLib).lts (lineal textLib)).Reachable s ∧
    (results s)[2]? = some (some (.reminted "inbox:a" (.fin 2) (.fin 3))) ∧ Lineage textLib s := by
  obtain ⟨s, hr, hs⟩ :=
    System.reachable_of_play (S := claims textLib) linealJudge (smooth 2000) script (m := empty)
    (P := fun s => (results s)[2]? = some (some (.reminted "inbox:a" (.fin 2) (.fin 3))))
    fresh_empty (by decide +kernel)
  exact ⟨s, hr, of_decide_eq_true hs, (generation_lineage lawful s hr).1⟩

open ClaimCalls.Example Example in
/-- Two calls for the closed generation 1 both return generation 2. -/
theorem two_remints :
    ∃ s, ((claims textLib).lts (anyCalls textLib)).Reachable s ∧
      (results s)[1]? = some (some (.reminted "inbox:a" (.fin 1) (.fin 2))) ∧
      (results s)[2]? = some (some (.reminted "inbox:a" (.fin 1) (.fin 2))) ∧
      ¬ Lineage textLib s := by
  obtain ⟨s, hr, hs⟩ :=
    System.reachable_of_play (S := claims textLib) anyJudge (smooth 2000) overlapping (m := empty)
    (P := fun s => (results s)[1]? = some (some (.reminted "inbox:a" (.fin 1) (.fin 2))) &&
      (results s)[2]? =
      some (some (.reminted "inbox:a" (.fin 1) (.fin 2)))) fresh_empty (by decide +kernel)
  rw [Bool.and_eq_true, decide_eq_true_iff, decide_eq_true_iff] at hs
  obtain ⟨hfirst, hsecond⟩ := hs
  refine ⟨s, hr, hfirst, hsecond, fun h => ?_⟩
  obtain ⟨c, ht⟩ := thread_of_results hfirst
  obtain ⟨c', ht'⟩ := thread_of_results hsecond
  exact h.distinct 1 2 c c' _ _ _ _ _ ht ht' (by decide) rfl

end RezSdk.L4.ClaimLineage
