import RezSdk.L3Service.Counting
import RezSdk.L4Runs.SessionCalls

/-!
# The sessions stay at home

The invariant behind `SessionCalls`: there is an assignment `H` of homes to
session ids that the store and everything the calls have read and written so
far agree with (`Agreed`). It grows when a call stores a session under an id
it has drawn, and no other write goes against it.
-/
namespace RezSdk.L4.SessionHomes

open RezSdk.L1 RezSdk.L2 RezSdk.L3
open RezSdk.L4.LinkPeers (HasPeer Rows)

variable {Snap : Type}

/-- The store agrees with the homes, and their ids are in use. -/
structure Placed (made : Snap → Id → Prop) (H : Homes) (m : Mem Snap) : Prop where
  session : ∀ o i r, m.kv.lookup (.session o i) = some r → H o i = some (home r) ∧
    Owned made m.kv o r
  byLink : ∀ o l i, m.kv.lookup (.sessionByLink o l) = some i → H o i = some (l, none)
  byDevice : ∀ o l d i, m.kv.lookup (.sessionByDevice o l d) = some i → H o i = some (l, some d)
  used : ∀ o i h, H o i = some h → i ∈ m.used

theorem Placed.whose {made : Snap → Id → Prop} {H : Homes} {m : Mem Snap} (h : Placed made H m) :
    Placed Whose H m where
  session o i r hr := ⟨(h.session o i r hr).1, trivial, (h.session o i r hr).2.link⟩
  byLink := h.byLink
  byDevice := h.byDevice
  used := h.used

/-- A session that the index of a link names is one of that link. -/
theorem Placed.ofLink {made : Snap → Id → Prop} {H : Homes} {m : Mem Snap} (h : Placed made H m)
    {o l i : Id} {r : SessionRecord Snap} (hi : m.kv.lookup (.sessionByLink o l) = some i)
    (hr : m.kv.lookup (.session o i) = some r) : home r = (l, none) :=
  Option.some.inj ((h.session o i r hr).1.symm.trans (h.byLink o l i hi))

/-- No session is stored under an id that is not in use. -/
theorem Placed.unused {made : Snap → Id → Prop} {H : Homes} {m : Mem Snap} (h : Placed made H m)
    {o i : Id} (hi : i ∉ m.used) : m.kv.lookup (.session o i) = none := by
  cases hr : m.kv.lookup (.session o i) with
  | none => rfl
  | some r => exact absurd (h.used o i _ (h.session o i r hr).1) hi

/-- Every session has one home. -/
def Homed (made : Snap → Id → Prop) (m : Mem Snap) : Prop := ∃ H, Placed made H m

/-- Any calls, over a store of filed records with sessions at home. -/
def homedCalls (made : Snap → Id → Prop) (rows : Rows) : Rules Snap where
  init m := (LinkPeers.anyCalls rows).init m ∧ Homed made m
  may := (LinkPeers.anyCalls rows).may
  ok := (LinkPeers.anyCalls rows).ok

/-- The same, where every ratchet is its peer's. -/
abbrev anyCalls (peerOf : Snap → Id) (rows : Rows) : Rules Snap := homedCalls (Is peerOf) rows

/-- The id call `t` may store a new session under. -/
def drawn (t : Nat) (log : List (Ev Snap)) : Option Id :=
  Pool.mon ⟨drawnNext, fun _ _ => True⟩ none t log

/-- Only call `t` can store a session under `i`, and none is. -/
structure Reserved (H : Homes) (s : State Snap) (t : Nat) (i : Id) : Prop where
  used : i ∈ s.mem.used
  free : ∀ o, H o i = none
  own : ∀ t', drawn t' s.log = some i → t' = t

structure Agreed (made : Snap → Id → Prop) (core : Core Snap) (H : Homes) (s : State Snap) :
    Prop where
  placed : Placed made H s.mem
  law : ∀ e ∈ s.log, Law made core s.mem.kv H e.exch
  drawn : ∀ t i, drawn t s.log = some i → Reserved H s t i

structure Inv [DecidableEq Snap] (svc : Service Snap) (made : Snap → Id → Prop)
    (rows : Rows) (s : State Snap) : Prop where
  peers : LinkPeers.Inv rows s
  filed : FiledRun s
  calls : ∀ kv H, (∀ e ∈ s.log, Law made svc.core kv H e.exch) →
    System.Conforms (monitor made kv H) (Law made svc.core kv H) (fun _ => none)
      (fun _ _ _ => True) s
  homes : ∃ H, Agreed made svc.core H s

theorem mon_drawn {made : Snap → Id → Prop} {kv : Store Snap} {H : Homes} {t : Nat}
    {log : List (Ev Snap)} : Pool.mon (monitor made kv H) none t log = drawn t log :=
  Pool.mon_map (M := monitor made kv H) (N := ⟨drawnNext, fun _ _ => True⟩) id
    (fun _ _ => rfl) none t log

theorem drawn_self (e : Ev Snap) (log : List (Ev Snap)) :
    drawn e.tid (e :: log) = drawnNext (drawn e.tid log) e.exch := Pool.mon_self

theorem drawn_other {t : Nat} {e : Ev Snap} {log : List (Ev Snap)} (h : e.tid ≠ t) :
    drawn t (e :: log) = drawn t log := Pool.mon_other h

/-- What an exchange leaves drawn. -/
theorem drawn_cases {a : Option Id} {x : Proc.Exch (sdk Snap)} {i : Id}
    (h : drawnNext a x = some i) :
    (∃ kind, x = ⟨.stableId kind, i⟩) ∨ x = ⟨.runtimeUuid, i⟩ ∨
    a = some i ∧ ∀ o j r, x.op ≠ .set (.session o j) r := by
  unfold drawnNext at h
  split at h
  · rename_i kind j
    cases h
    exact .inl ⟨kind, rfl⟩
  · cases h
    exact .inr (.inl rfl)
  · cases h
  · rename_i hno
    refine .inr (.inr ⟨h, fun o j r hop => ?_⟩)
    obtain ⟨op, ans⟩ := x
    cases hop
    exact hno o j r ans rfl

/-! ## One event -/

/-- A session that is stored makes its place its home. -/
def grow (H : Homes) : Op Snap → Homes
  | .set (.session o i) r => fun o' i' => if o' = o ∧ i' = i then some (home r) else H o' i'
  | _ => H

theorem grow_self {H : Homes} {o i : Id} {r : SessionRecord Snap} :
    grow H (.set (.session o i) r : Op Snap) o i = some (home r) := if_pos ⟨rfl, rfl⟩

theorem grow_cases {H : Homes} {op : Op Snap} {o i : Id} {h : Home} (hg : grow H op o i = some h) :
    H o i = some h ∨ ∃ r, op = .set (.session o i) r ∧ h = home r := by
  unfold grow at hg
  split at hg
  · split at hg
    · rename_i heq
      obtain ⟨rfl, rfl⟩ := heq
      exact .inr ⟨_, rfl, (Option.some.inj hg).symm⟩
    · exact .inl hg
  · exact .inl hg

theorem grow_none {H : Homes} {op : Op Snap} {o i : Id} (hg : grow H op o i = none) :
    H o i = none := by
  unfold grow at hg
  split at hg
  · split at hg
    · cases hg
    · exact hg
  · exact hg

theorem Owned.mono {made : Snap → Id → Prop} {kv kv' : Store Snap} {o : Id} {r : SessionRecord Snap}
    (hkv : ∀ o l p, HasPeer kv o l p → HasPeer kv' o l p) (h : Owned made kv o r) :
    Owned made kv' o r :=
  ⟨h.ratchet, fun hd => hkv _ _ _ (h.link hd)⟩

theorem Places.mono {made : Snap → Id → Prop} {kv kv' : Store Snap} {H H' : Homes}
    {x : Proc.Exch (sdk Snap)} (hkv : ∀ o l p, HasPeer kv o l p → HasPeer kv' o l p)
    (hH : ∀ o i h, H o i = some h → H' o i = some h) (hx : Places made kv H x) :
    Places made kv' H' x := by
  obtain ⟨op, ans⟩ := x
  cases op with
  | get k =>
    cases k with
    | session o i =>
      match ans with
      | .error _ => trivial
      | .ok none => trivial
      | .ok (some r) => exact ⟨hH _ _ _ hx.1, hx.2.mono hkv⟩
    | sessionByLink o l =>
      match ans with
      | .error _ => trivial
      | .ok none => trivial
      | .ok (some i) => exact hH _ _ _ hx
    | sessionByDevice o l d =>
      match ans with
      | .error _ => trivial
      | .ok none => trivial
      | .ok (some i) => exact hH _ _ _ hx
    | _ => trivial
  | set k v =>
    cases k with
    | session o i => exact hH _ _ _ hx
    | peerLink o l =>
      match ans with
      | .error _ => trivial
      | .ok () => exact hkv _ _ _ hx
    | _ => trivial
  | _ => trivial

section

variable [DecidableEq Snap] {svc : Service Snap} {made : Snap → Id → Prop} {rows : Rows}
  {s s' : State Snap} {e : Ev Snap}
  {c : Call} {next : (sdk Snap).Ans e.op → Proc (sdk Snap) (Except Err Reply)} {H : Homes}

theorem Inv.may (h : Inv svc made rows s) (ha : Agreed made svc.core H s)
    (hf : Pool.Fires (system svc) s e c next s') :
    (monitor made s.mem.kv H).may (drawn e.tid s.log) e.op := by
  have hmay := (h.calls s.mem.kv H ha.law).may hf
  rwa [mon_drawn] at hmay

theorem Inv.grows (h : Inv svc made rows s) (ha : Agreed made svc.core H s)
    (hf : Pool.Fires (system svc) s e c next s') {o i : Id} {k : Home} (hk : H o i = some k) :
    grow H e.op o i = some k := by
  have hmay := h.may ha hf
  cases hg : grow H e.op o i with
  | none =>
    rw [grow_none hg] at hk
    cases hk
  | some k' =>
    rcases grow_cases hg with hg | ⟨r, hop, rfl⟩
    · rw [← hg, hk]
    · rw [hop] at hmay
      rcases hmay.1 with hd | hd
      · rw [(ha.drawn _ i hd).free o] at hk
        cases hk
      · rw [← hd, hk]

theorem Inv.placed_fires (h : Inv svc made rows s) (ha : Agreed made svc.core H s)
    (hf : Pool.Fires (system svc) s e c next s') : Placed made (grow H e.op) s'.mem where
  session o i r hr := by
    rw [kv_fires hf] at hr
    rcases lookup_effect hr with hr | ⟨hop, -⟩
    · obtain ⟨hhome, howned⟩ := ha.placed.session o i r hr
      exact ⟨h.grows ha hf hhome, howned.mono fun _ _ _ => h.peers.hasPeer_fires hf⟩
    · have hmay := h.may ha hf
      rw [hop] at hmay ⊢
      exact ⟨grow_self, hmay.2.mono fun _ _ _ => h.peers.hasPeer_fires hf⟩
  byLink o l i hi := by
    rw [kv_fires hf] at hi
    rcases lookup_effect hi with hi | ⟨hop, -⟩
    · exact h.grows ha hf (ha.placed.byLink o l i hi)
    · have hmay := h.may ha hf
      rw [hop] at hmay ⊢
      exact hmay
  byDevice o l d i hi := by
    rw [kv_fires hf] at hi
    rcases lookup_effect hi with hi | ⟨hop, -⟩
    · exact h.grows ha hf (ha.placed.byDevice o l d i hi)
    · have hmay := h.may ha hf
      rw [hop] at hmay ⊢
      exact hmay
  used o i k hk := by
    refine act_used hf.act ?_
    rcases grow_cases hk with hk | ⟨r, hop, -⟩
    · exact ha.placed.used o i k hk
    · have hmay := h.may ha hf
      rw [hop] at hmay
      rcases hmay.1 with hd | hd
      · exact (ha.drawn _ i hd).used
      · exact ha.placed.used o i _ hd

theorem Inv.places_now (h : Inv svc made rows s) (ha : Agreed made svc.core H s)
    (hf : Pool.Fires (system svc) s e c next s') : Places made s'.mem.kv (grow H e.op) e.exch := by
  obtain ⟨t, op, ans, f⟩ := e
  cases op with
  | get k =>
    cases k with
    | session o i =>
      match ans with
      | .error _ => trivial
      | .ok none => trivial
      | .ok (some r) =>
        obtain ⟨hhome, howned⟩ := ha.placed.session o i r (act_get_ok hf.act)
        exact ⟨hhome, howned.mono fun _ _ _ => h.peers.hasPeer_fires hf⟩
    | sessionByLink o l =>
      match ans with
      | .error _ => trivial
      | .ok none => trivial
      | .ok (some i) => exact ha.placed.byLink o l i (act_get_ok hf.act)
    | sessionByDevice o l d =>
      match ans with
      | .error _ => trivial
      | .ok none => trivial
      | .ok (some i) => exact ha.placed.byDevice o l d i (act_get_ok hf.act)
    | _ => trivial
  | set k v =>
    cases k with
    | session o i => exact grow_self
    | peerLink o l =>
      match ans with
      | .error _ => trivial
      | .ok () =>
        refine ⟨v, ?_, rfl⟩
        rw [kv_fires hf]
        simp only [effect, act_set_ok hf.act, if_true, AList.lookup_insert]
    | _ => trivial
  | _ => trivial

theorem Inv.law_fires (h : Inv svc made rows s) (ha : Agreed made svc.core H s)
    (hf : Pool.Fires (system svc) s e c next s') :
    ∀ e' ∈ s'.log, Law made svc.core s'.mem.kv (grow H e.op) e'.exch := by
  intro e' he
  rw [hf.log] at he
  rcases List.mem_cons.mp he with rfl | he
  · exact ⟨lawful_fires hf, h.filed.store.keyed hf, h.peers.agrees_now hf, h.places_now ha hf⟩
  · have hlaw := ha.law e' he
    exact ⟨hlaw.lawful, hlaw.keyed, h.peers.agrees_mono hf hlaw.agrees,
      hlaw.places.mono (fun _ _ _ => h.peers.hasPeer_fires hf) fun _ _ _ => h.grows ha hf⟩

/-- A new id has no home yet. -/
theorem reserved_new (ha : Agreed made svc.core H s) (hf : Pool.Fires (system svc) s e c next s')
    {i : Id} (hnew : i ∉ s.mem.used) (hused : i ∈ s'.mem.used) (hop : grow H e.op = H) :
    Reserved (grow H e.op) s' e.tid i := by
  refine ⟨hused, fun o => ?_, fun t' hd => ?_⟩
  · rw [hop]
    cases hk : H o i with
    | none => rfl
    | some k => exact absurd (ha.placed.used o i k hk) hnew
  · by_contra hne
    rw [hf.log, drawn_other (Ne.symm hne)] at hd
    exact hnew (ha.drawn t' i hd).used

/-- A reserved id stays reserved until its call stores the session. -/
theorem Inv.reserved_fires (h : Inv svc made rows s) (ha : Agreed made svc.core H s)
    (hf : Pool.Fires (system svc) s e c next s') {t : Nat} {i : Id} (hd : drawn t s.log = some i)
    (hown : e.tid = t → ∀ o j r, e.op ≠ .set (.session o j) r) : Reserved (grow H e.op) s' t i := by
  have hres := ha.drawn t i hd
  refine ⟨act_used hf.act hres.used, fun o => ?_, fun t' hd' => ?_⟩
  · cases hk : grow H e.op o i with
    | none => rfl
    | some k =>
      rcases grow_cases hk with hk | ⟨r, hop, -⟩
      · rw [hres.free o] at hk
        cases hk
      · have hmay := h.may ha hf
        rw [hop] at hmay
        rcases hmay.1 with hd' | hd'
        · exact absurd hop (hown (hres.own _ hd') o i r)
        · rw [hres.free o] at hd'
          cases hd'
  · rw [hf.log] at hd'
    by_cases ht : e.tid = t'
    · subst ht
      rw [drawn_self] at hd'
      obtain ⟨t₁, op, ans, f⟩ := e
      rcases drawn_cases hd' with ⟨kind, hx⟩ | hx | ⟨hd', -⟩
      · cases hx
        exact absurd hres.used (act_stableId hf.act).1
      · cases hx
        exact absurd hres.used (act_uuid hf.act).1
      · exact hres.own _ hd'
    · rw [drawn_other ht] at hd'
      exact hres.own _ hd'

theorem Inv.drawn_fires (h : Inv svc made rows s) (ha : Agreed made svc.core H s)
    (hf : Pool.Fires (system svc) s e c next s') {t : Nat} {i : Id} (hd : drawn t s'.log = some i) :
    Reserved (grow H e.op) s' t i := by
  rw [hf.log] at hd
  by_cases ht : e.tid = t
  · subst ht
    rw [drawn_self] at hd
    rcases drawn_cases hd with ⟨kind, hx⟩ | hx | ⟨hd, hno⟩
    · obtain ⟨t, op, ans, f⟩ := e
      cases hx
      exact reserved_new ha hf (act_stableId hf.act).1 (act_stableId hf.act).2 rfl
    · obtain ⟨t, op, ans, f⟩ := e
      cases hx
      exact reserved_new ha hf (act_uuid hf.act).1 (act_uuid hf.act).2 rfl
    · exact h.reserved_fires ha hf hd fun _ => hno
  · rw [drawn_other ht] at hd
    exact h.reserved_fires ha hf hd fun heq => absurd heq ht

/-! ## Whole runs -/

theorem Inv.fires (h : Inv svc made rows s) (hf : Pool.Fires (system svc) s e c next s') :
    Inv svc made rows s' where
  peers := h.peers.fires hf
  filed := h.filed.fires hf
  calls kv H hlaw := by
    rw [hf.log] at hlaw
    exact System.conforms_fires (h.calls kv H fun e' he => hlaw e' (.tail _ he)) hf
      (hlaw e (.head _))
  homes := by
    obtain ⟨H, ha⟩ := h.homes
    exact ⟨grow H e.op, h.placed_fires ha hf, h.law_fires ha hf,
      fun t i hd => h.drawn_fires ha hf hd⟩

theorem Inv.spawn (hc : Makes svc.core made) (h : Inv svc made rows s)
    (hm : LinkPeers.Replicates rows c) : Inv svc made rows (s.spawn (system svc) c) where
  peers := h.peers.spawn hm
  filed := h.filed.spawn c
  calls kv H hlaw := System.conforms_spawn (h.calls kv H hlaw) (fine_program hc c none)
  homes := by
    obtain ⟨H, ha⟩ := h.homes
    exact ⟨H, ha.placed, ha.law, fun t i hd =>
      ⟨(ha.drawn t i hd).used, (ha.drawn t i hd).free, (ha.drawn t i hd).own⟩⟩

theorem inv_inductive (hc : Makes svc.core made) (rows : Rows) :
    ((system svc).lts (homedCalls made rows)).Inductive (Inv svc made rows) := by
  refine System.inductive_of (fun m hm => ?_) (fun _ _ h hm => h.spawn hc hm)
    fun _ _ _ _ _ h hf _ => h.fires hf
  obtain ⟨⟨hfiled, hsound⟩, H, hplaced⟩ := hm
  exact ⟨LinkPeers.inv_init hsound, .init hfiled, fun kv H _ => System.conforms_init m,
    H, hplaced, fun e he => absurd he List.not_mem_nil, fun t i hd => by cases hd⟩

/-- In every run the sessions are at home. -/
theorem homed_reachable (hc : Makes svc.core made)
    (hr : ((system svc).lts (homedCalls made rows)).Reachable s) : Homed made s.mem := by
  obtain ⟨H, ha⟩ := ((inv_inductive hc rows).reachable s hr).homes
  exact ⟨H, ha.placed⟩

end

/-! ## Concrete stores -/

/-- `Placed`, but for the ids in use. -/
def atHome (peerOf : Snap → Id) (H : Homes) (kv : Store Snap) : Bool :=
  kv.entries.all fun
    | ⟨.session o i, r⟩ => H o i = some (home r) && peerOf r.ratchetSnapshot = r.peerAccountId &&
        (r.peerDeviceId.isSome ||
        (kv.lookup (.peerLink o r.peerLinkId)).any (·.peerAccountId = r.peerAccountId))
    | ⟨.sessionByLink o l, i⟩ => H o i = some (l, none)
    | ⟨.sessionByDevice o l d, i⟩ => H o i = some (l, some d)
    | _ => true

theorem placed_of_atHome {peerOf : Snap → Id} {H : Homes} {m : Mem Snap}
    (h : atHome peerOf H m.kv = true) (hused : ∀ o i k, H o i = some k → i ∈ m.used) :
    Placed (Is peerOf) H m := by
  have hentry : ∀ k v, m.kv.lookup k = some v → _ := fun k v hk =>
    List.all_eq_true.mp h ⟨k, v⟩ (AList.mem_lookup_iff.mp hk)
  refine ⟨fun o i r hr => ?_, fun o l i hi => ?_, fun o l d i hi => ?_, hused⟩
  · have hkept := hentry _ _ hr
    simp only [Bool.and_eq_true, Bool.or_eq_true, decide_eq_true_eq] at hkept
    refine ⟨hkept.1.1, hkept.1.2, fun hd => ?_⟩
    rcases hkept.2 with hdev | hlink
    · rw [hd] at hdev
      cases hdev
    · obtain ⟨r', hr', hp⟩ := (Option.any_eq_true _ _).mp hlink
      exact ⟨r', hr', of_decide_eq_true hp⟩
  · exact of_decide_eq_true (hentry _ _ hi)
  · exact of_decide_eq_true (hentry _ _ hi)

theorem attributed_peerCore : Attributed Counting.peerCore Prod.fst where
  sealed b p m n pkt s h := by
    cases h
    rfl
  kept b pkt n o s h := by
    simp only [Counting.peerCore, Counting.peerAnswer] at h
    split at h <;> cases h <;> rfl
  opened b pkt n o s h ho := by
    simp only [Counting.peerCore, Counting.peerAnswer] at h
    split at h <;> cases h
    · rfl
    · cases ho
  initiated i n h s ha := by
    cases ha
    rfl
  responded i n k s ha := by
    cases ha
    rfl

end RezSdk.L4.SessionHomes
