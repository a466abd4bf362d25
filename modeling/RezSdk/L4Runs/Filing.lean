import RezSdk.L3Service.Blocks

/-!
# Records lie under their own ids

Every call writes a peer link, a session or an invite under the ids the
record itself carries (`filed_program`). So a store that starts out like that
stays like that (`FiledStore.fires`), and a record that is read has the ids
it was looked up by (`Keyed`).
-/
namespace RezSdk.L4

open RezSdk.L1 RezSdk.L2 RezSdk.L3

variable {Snap : Type}

/-! ## The programs -/

theorem filed_blocks : Blocks fun (α : Type) (p : Proc (sdk Snap) α) => p.All Filed where
  ret _ := trivial
  bind := Proc.all_bind
  plain {o} ho := by
    refine ⟨?_, fun _ => trivial⟩
    cases o with
    | set k v => cases k <;> trivial
    | _ => trivial
  update _ _ := foot_linkUpdate.filed
  create _ _ _ _ hf := ⟨trivial, fun i => Proc.all_bind foot_linkCreate.filed (hf i)⟩
  put _ := foot_put.filed
  save _ := foot_inviteSave.filed

theorem filed_upsert (a : RelationshipArgs) :
    Proc.All Filed (upsertPeerRelationship a : Sdk Snap _) := by
  refine Js.all_bind (Js.all_orThrow _ _ _) fun _ => Js.all_bind (Js.all_orThrow _ _ _) fun _ =>
    Js.all_bind (Js.all_orThrow _ _ _) fun _ => Js.all_bind (Js.all_orThrow _ _ _) fun _ =>
    Js.all_bind foot_getByPair.filed fun existing => ?_
  cases existing with
  | some e => trivial
  | none => exact Js.all_bind ⟨trivial, fun _ => trivial⟩ fun _ => foot_linkCreate.filed

theorem filed_program [DecidableEq Snap] (svc : Service Snap) (c : Call) :
    Proc.All Filed (program svc c) := by
  cases hc : namesLink c with
  | false => exact blocks_program filed_blocks svc hc
  | true =>
    cases c with
    | upsert a => exact Js.all_bind (filed_upsert a) fun _ => trivial
    | _ => cases hc

/-! ## The store -/

structure FiledStore (kv : Store Snap) : Prop where
  links : ∀ o i r, kv.lookup (.peerLink o i) = some r → r.localAccountId = o ∧ r.peerLinkId = i
  sessions : ∀ o i r, kv.lookup (.session o i) = some r → r.localAccountId = o ∧ r.sessionId = i
  invites : ∀ o i r, kv.lookup (.invite o i) = some r → r.ownerAccountId = o ∧ r.inviteId = i

/-- What a filed store answers. -/
def Keyed : Proc.Exch (sdk Snap) → Prop
  | ⟨.get (.peerLink o i), .ok (some r)⟩ => r.localAccountId = o ∧ r.peerLinkId = i
  | ⟨.get (.session o i), .ok (some r)⟩ => r.localAccountId = o ∧ r.sessionId = i
  | ⟨.get (.invite o i), .ok (some r)⟩ => r.ownerAccountId = o ∧ r.inviteId = i
  | _ => True

/-- What an event does to one key. -/
theorem effect_cases (kv : Store Snap) (o : Op Snap) (f : Fate) (k : Key) :
    (effect kv o f).lookup k = kv.lookup k ∨
      (∃ v, o = .set k v ∧ f.lands = true ∧ (effect kv o f).lookup k = some v) ∨
      o = .delete k ∧ f.lands = true ∧ (effect kv o f).lookup k = none := by
  cases o with
  | set k' v' =>
    simp only [effect]
    split
    · rename_i hl
      by_cases hk : k = k'
      · subst hk
        exact .inr (.inl ⟨v', rfl, hl, AList.lookup_insert _⟩)
      · exact .inl (AList.lookup_insert_ne hk)
    · exact .inl rfl
  | delete k' =>
    simp only [effect]
    split
    · rename_i hl
      by_cases hk : k = k'
      · subst hk
        exact .inr (.inr ⟨rfl, hl, AList.lookup_erase _ _⟩)
      · exact .inl (AList.lookup_erase_ne hk)
    · exact .inl rfl
  | _ => exact .inl rfl

/-- What is stored under a key after an event: what was stored there before,
or what the event wrote. -/
theorem lookup_effect {kv : Store Snap} {o : Op Snap} {f : Fate} {k : Key} {v : Val Snap k}
    (h : (effect kv o f).lookup k = some v) :
    kv.lookup k = some v ∨ o = .set k v ∧ f.lands = true := by
  rcases effect_cases kv o f k with hk | ⟨v', ho, hl, hk⟩ | ⟨-, -, hk⟩
  · exact .inl (hk ▸ h)
  · rw [hk, Option.some.injEq] at h
    exact .inr ⟨h ▸ ho, hl⟩
  · rw [hk] at h
    cases h

/-- What is stored stays stored until it is deleted. -/
theorem isSome_effect {kv : Store Snap} {o : Op Snap} {f : Fate} {k : Key}
    (h : (kv.lookup k).isSome = true) (hd : o = .delete k → f.lands = false) :
    ((effect kv o f).lookup k).isSome = true := by
  rcases effect_cases kv o f k with hk | ⟨v', -, -, hk⟩ | ⟨ho, hl, -⟩
  · rwa [hk]
  · rw [hk]
    rfl
  · rw [hd ho] at hl
    cases hl

/-- A write that returned has landed. -/
def Told (s : State Snap) : Prop :=
  ∀ e ∈ s.log, ∀ k v, e.exch = ⟨.set k v, .ok ()⟩ → e.fate.lands = true

/-- A record that was written and not deleted since is stored. -/
def Stays (s : State Snap) : Prop :=
  ∀ k (newer : List (Ev Snap)) e older v, s.log = newer ++ e :: older → e.op = .set k v →
    e.fate.lands = true → (∀ e' ∈ newer, e'.op = .delete k → e'.fate.lands = false) →
    (s.mem.kv.lookup k).isSome = true

theorem FiledStore.effect {kv : Store Snap} (h : FiledStore kv) {o : Op Snap} (ho : Filed o)
    (f : Fate) : FiledStore (effect kv o f) where
  links ow i r hr := by
    rcases lookup_effect hr with hr | ⟨rfl, -⟩
    · exact h.links ow i r hr
    · exact ho
  sessions ow i r hr := by
    rcases lookup_effect hr with hr | ⟨rfl, -⟩
    · exact h.sessions ow i r hr
    · exact ho
  invites ow i r hr := by
    rcases lookup_effect hr with hr | ⟨rfl, -⟩
    · exact h.invites ow i r hr
    · exact ho

theorem FiledStore.empty : FiledStore (∅ : Store Snap) where
  links _ _ _ h := by cases h
  sessions _ _ _ h := by cases h
  invites _ _ _ h := by cases h

theorem FiledStore.insert {kv : Store Snap} (h : FiledStore kv) {k : Key} {v : Val Snap k}
    (hv : Filed (.set k v : Op Snap)) : FiledStore (kv.insert k v) := h.effect hv .ok

section

variable [DecidableEq Snap] {svc : Service Snap} {s s' : State Snap} {e : Ev Snap} {c : Call}
  {next : (sdk Snap).Ans e.op → Proc (sdk Snap) (Except Err Reply)}

theorem FiledStore.keyed (h : FiledStore s.mem.kv) (hf : Pool.Fires (system svc) s e c next s') :
    Keyed e.exch := by
  obtain ⟨t, o, r, f⟩ := e
  cases o with
  | get k =>
    cases k with
    | peerLink o i =>
      match r with
      | .error _ => trivial
      | .ok none => trivial
      | .ok (some rec) => exact h.links o i rec (act_get_ok hf.act)
    | session o i =>
      match r with
      | .error _ => trivial
      | .ok none => trivial
      | .ok (some rec) => exact h.sessions o i rec (act_get_ok hf.act)
    | invite o i =>
      match r with
      | .error _ => trivial
      | .ok none => trivial
      | .ok (some rec) => exact h.invites o i rec (act_get_ok hf.act)
    | _ => trivial
  | _ => trivial

theorem FiledStore.fires (h : FiledStore s.mem.kv) (hf : Pool.Fires (system svc) s e c next s')
    (ho : Filed e.op) : FiledStore s'.mem.kv := kv_fires hf ▸ h.effect ho e.fate

/-- The store is filed, and no call that runs will write otherwise. -/
structure FiledRun (s : State Snap) : Prop where
  store : FiledStore s.mem.kv
  rest : ∀ (t : Nat) (th : Thread (sdk Snap) Call (Except Err Reply)), s.threads[t]? = some th →
    th.proc.All Filed

omit [DecidableEq Snap] in
theorem FiledRun.init {m : Mem Snap} (h : FiledStore m.kv) : FiledRun ⟨m, [], []⟩ :=
  ⟨h, fun _ _ ht => by simp at ht⟩

theorem FiledRun.spawn (h : FiledRun s) (c : Call) : FiledRun (s.spawn (system svc) c) := by
  refine ⟨h.store, fun t th ht => ?_⟩
  rw [Pool.spawn, List.getElem?_append] at ht
  split at ht
  · exact h.rest t th ht
  · have hmem := List.mem_of_getElem? ht
    rw [List.mem_singleton] at hmem
    subst hmem
    exact filed_program svc c

theorem FiledRun.op (h : FiledRun s) (hf : Pool.Fires (system svc) s e c next s') : Filed e.op :=
  (h.rest _ _ hf.thread).1

theorem FiledRun.fires (h : FiledRun s) (hf : Pool.Fires (system svc) s e c next s') :
    FiledRun s' := by
  refine ⟨h.store.fires hf (h.op hf), fun t th ht => ?_⟩
  rw [hf.threads] at ht
  by_cases heq : e.tid = t
  · subst heq
    obtain ⟨hlt, -⟩ := List.getElem?_eq_some_iff.mp hf.thread
    rw [List.getElem?_set_self hlt, Option.some.injEq] at ht
    subst ht
    exact (h.rest _ _ hf.thread).2 e.ans
  · rw [List.getElem?_set_ne heq] at ht
    exact h.rest t th ht

theorem FiledRun.inductive (svc : Service Snap) {D : Rules Snap}
    (hinit : ∀ m, D.init m → FiledStore m.kv) : ((system svc).lts D).Inductive FiledRun :=
  System.inductive_of (fun m hm => .init (hinit m hm)) (fun _ c h _ => h.spawn c)
    (fun _ _ _ _ _ h hf _ => h.fires hf)

theorem Told.fires (h : Told s) (hf : Pool.Fires (system svc) s e c next s') : Told s' := by
  intro e' he k v hx
  rw [hf.log] at he
  rcases List.mem_cons.mp he with rfl | he
  · obtain ⟨t, op, ans, f⟩ := e'
    simp only [Event.exch, Proc.Exch.mk.injEq] at hx
    obtain ⟨rfl, hx⟩ := hx
    cases hx
    exact act_set_ok hf.act
  · exact h e' he k v hx

theorem Stays.fires (h : Stays s) (hf : Pool.Fires (system svc) s e c next s') : Stays s' := by
  intro k newer e' older v hlog hop hl hno
  rw [hf.log] at hlog
  rw [kv_fires hf]
  cases newer with
  | nil =>
    cases hlog
    rw [hop, L2.effect, hl, if_pos rfl, AList.lookup_insert]
    rfl
  | cons e'' newer =>
    rw [List.cons_append, List.cons.injEq] at hlog
    obtain ⟨rfl, hlog⟩ := hlog
    exact isSome_effect (h k newer e' older v hlog hop hl fun x hx => hno x (.tail _ hx))
      (hno e (.head _))

omit [DecidableEq Snap] in
/-- A link that is looked up by its pair is the owner's. -/
theorem obeys_getByPair {A : Type} {M : Monitor (sdk Snap) A} {owner peer : Id}
    (hpair : M.Quiet (.get (.pair owner peer))) (hlink : ∀ l, M.Quiet (.get (.peerLink owner l)))
    {a : A} {Q : A → Except Err (Option PeerLinkRecord) → Prop}
    (hsome : ∀ r, r.localAccountId = owner → Q a (.ok (some r))) (hnone : Q a (.ok none))
    (herr : ∀ e, Q a (.error e)) : Obeys M Keyed Q a (PeerLinks.getByPair owner peer) := by
  refine obeys_js_bind ⟨(hpair a).1, fun x _ => ?_⟩
  rw [(hpair a).2]
  match x with
  | .error e => exact herr e
  | .ok none => exact hnone
  | .ok (some link) =>
    refine ⟨(hlink link a).1, fun y hy => ?_⟩
    rw [(hlink link a).2]
    match y with
    | .error e => exact herr e
    | .ok none => exact hnone
    | .ok (some r) => exact hsome r hy.1

end

end RezSdk.L4
