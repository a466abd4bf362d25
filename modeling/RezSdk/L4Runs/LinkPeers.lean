import RezSdk.L4Runs.Filing

/-!
# A link has one peer

`PeerLinks.create` checks that its key is free and writes later, and
`PeerLinks.update` compares the account pair with the record it has read. So
what a call knows of a link may be out of date, but never its peer: a link is
created under an id drawn for it, or under a sibling device's id, which names
one row there (`Rows`); and a call that updates a link has read it. Hence in
every run the link found under a pair is that pair's link (`Inv.pairs`), and
what a call has read of a link's peer stays true (`Inv.agrees`).
-/
namespace RezSdk.L4.LinkPeers

open RezSdk.L1 RezSdk.L2 RezSdk.L3

variable {Snap : Type}

/-- The peer of a link in the sibling devices' tables, by owner and link id. -/
abbrev Rows := Id → Id → Option Id

/-- A replicated relationship is a row of these tables. -/
def Replicates (rows : Rows) : Call → Prop
  | .upsert a => ∀ link, a.peerLinkId = some link → rows a.owner link = some a.peer
  | _ => True

/-- The link is stored, with this peer. -/
def HasPeer (kv : Store Snap) (o l p : Id) : Prop :=
  ∃ r, kv.lookup (.peerLink o l) = some r ∧ r.peerAccountId = p

theorem HasPeer.unique {kv : Store Snap} {o l p q : Id} (hp : HasPeer kv o l p)
    (hq : HasPeer kv o l q) : p = q := by
  obtain ⟨r, hr, rfl⟩ := hp
  obtain ⟨r', hr', rfl⟩ := hq
  rw [hr, Option.some.injEq] at hr'
  rw [hr']

/-! ## What the calls do -/

/-- `drawn`: the id the call may create a link under; `known`: the links it
has read or written, with their peers. -/
structure View where
  drawn : Option Id
  known : List ((Id × Id) × Id)

def View.next (a : View) : Proc.Exch (sdk Snap) → View
  | ⟨.stableId _, i⟩ => { a with drawn := some i }
  | ⟨.get (.peerLink o l), .ok (some r)⟩ => { a with known := ((o, l), r.peerAccountId) :: a.known }
  | ⟨.set (.peerLink o l) r, .ok ()⟩ => ⟨none, ((o, l), r.peerAccountId) :: a.known⟩
  | ⟨.set (.peerLink _ _) _, .error _⟩ => { a with drawn := none }
  | _ => a

/-- The call may write a link `l` of `o` with peer `p`. -/
def View.Creates (rows : Rows) (a : View) (o l p : Id) : Prop :=
  a.drawn = some l ∨ ((o, l), p) ∈ a.known ∨ rows o l = some p

def monitor (rows : Rows) : Monitor (sdk Snap) View where
  next := View.next
  may a
    | .set (.peerLink o l) r => a.Creates rows o l r.peerAccountId
    | .set (.pair o p) l => ((o, l), p) ∈ a.known
    | .delete (.peerLink _ _) => False
    | .delete (.pair _ _) => False
    | _ => True

section

variable {rows : Rows} {a : View} {α : Type} {L : Proc.Exch (sdk Snap) → Prop}

/-- The writes the monitor looks at. -/
def linkWrites : List OpClass := [.set .peerLink, .set .pair, .delete .peerLink, .delete .pair]

theorem may_of_class {o : Op Snap} (ho : linkWrites.contains (classOf o) = false) :
    (monitor rows).may a o := by
  unfold monitor
  dsimp only
  split
  · cases ho
  · cases ho
  · cases ho
  · cases ho
  · trivial

theorem obeys_plain {l : List OpClass} {p : Proc (sdk Snap) α} (hp : Foot l p)
    (hl : l.all (fun c => !linkWrites.contains c) = true) :
    ∀ {a : View}, Obeys (monitor rows) L (fun _ _ => True) a p := by
  induction p with
  | ret x => exact trivial
  | ask o next ih =>
    intro a
    have hc := List.all_eq_true.mp hl _ (List.contains_iff_mem.mp hp.1.1)
    exact ⟨may_of_class (by simpa using hc), fun r _ => ih r (hp.2 r)⟩

/-- A link is written under its id, then its pair. -/
theorem obeys_write {r : PeerLinkRecord} {e : PeerLinkRecord}
    (h : a.Creates rows r.localAccountId r.peerLinkId r.peerAccountId)
    (he : e.localAccountId = r.localAccountId ∧ e.peerLinkId = r.peerLinkId ∧
      e.peerAccountId = r.peerAccountId) :
    Obeys (monitor rows) L (fun _ _ => True) a (do
      kvSet (.peerLink r.localAccountId r.peerLinkId) e
      kvSet (.pair r.localAccountId r.peerAccountId) r.peerLinkId
      return e : Sdk Snap PeerLinkRecord) := by
  obtain ⟨-, -, hpeer⟩ := he
  refine obeys_js_bind ⟨?_, fun x _ => ?_⟩
  · show a.Creates rows _ _ e.peerAccountId
    rwa [hpeer]
  · cases x with
    | error e => trivial
    | ok u =>
      refine obeys_js_bind ⟨?_, fun y _ => ?_⟩
      · show _ ∈ ((r.localAccountId, r.peerLinkId), e.peerAccountId) :: a.known
        rw [hpeer]
        exact .head _
      · cases y <;> trivial

theorem obeys_update (r : PeerLinkRecord) (v : Nat) :
    ∀ {a : View},
      Obeys (monitor rows) L (fun _ _ => True) a (PeerLinks.update r v : Sdk Snap _) := by
  intro a
  refine obeys_js_bind ⟨trivial, fun x _ => ?_⟩
  match x with
  | .error _ => trivial
  | .ok none => trivial
  | .ok (some current) =>
    refine obeys_js_bind (obeys_orThrow (fun _ h => ?_) fun _ => trivial)
    cases h
    refine obeys_js_bind (obeys_ensure (fun _ => ?_) fun _ => trivial)
    refine obeys_js_bind (obeys_ensure (fun _ => ?_) fun _ => trivial)
    refine obeys_js_bind (obeys_ensure (fun _ => ?_) fun _ => trivial)
    refine obeys_js_bind (obeys_ensure (fun hpeer => ?_) fun _ => trivial)
    refine obeys_write (.inr (.inl ?_)) ⟨rfl, rfl, rfl⟩
    rw [decide_eq_true_eq] at hpeer
    rw [← hpeer]
    exact .head _

/-- A link is created under the drawn id, or under one of the tables'. -/
theorem obeys_create (r : PeerLinkRecord)
    (h : a.drawn = some r.peerLinkId ∨ rows r.localAccountId r.peerLinkId = some r.peerAccountId) :
    Obeys (monitor rows) L (fun _ _ => True) a (PeerLinks.create r : Sdk Snap _) := by
  have hrest : ∀ {b : View}, b.drawn = a.drawn → Obeys (monitor rows) L (fun _ _ => True) b (do
      let indexed ← kvGet (.pair r.localAccountId r.peerAccountId)
      Js.ensure (indexed.all (· = r.peerLinkId))
        { message := "Peer link already exists for pair " ++ r.localAccountId.val ++
        "::" ++ r.peerAccountId.val }
      let next := { r with version := normalizeVersion r.version }
      kvSet (.peerLink r.localAccountId r.peerLinkId) next
      kvSet (.pair r.localAccountId r.peerAccountId) r.peerLinkId
      return next : Sdk Snap PeerLinkRecord) := by
    intro b hb
    refine obeys_js_bind ⟨trivial, fun x _ => ?_⟩
    match x with
    | .error _ => trivial
    | .ok indexed =>
      refine obeys_js_bind (obeys_ensure (fun _ => ?_) fun _ => trivial)
      refine obeys_write ?_ ⟨rfl, rfl, rfl⟩
      rcases h with h | h
      · exact .inl (hb.trans h)
      · exact .inr (.inr h)
  refine obeys_js_bind ⟨trivial, fun x _ => ?_⟩
  match x with
  | .error _ => trivial
  | .ok none => exact obeys_js_bind (obeys_ensure (fun _ => hrest rfl) fun _ => trivial)
  | .ok (some e) => exact obeys_js_bind (obeys_ensure (fun _ => hrest rfl) fun _ => trivial)

theorem obeys_blocks : Blocks fun (α : Type) (p : Proc (sdk Snap) α) =>
    ∀ {a : View}, Obeys (monitor rows) L (fun _ _ => True) a p where
  ret _ := trivial
  bind hp hf := obeys_bind (hp.mono fun _ x _ => hf x)
  plain {o} ho := by
    refine ⟨may_of_class ?_, fun _ _ => trivial⟩
    simp only [recordWrites, linkWrites, List.contains_cons, List.contains_nil,
      Bool.or_eq_false_iff] at ho ⊢
    exact ⟨ho.1, ho.2.1, ho.2.2.2.2⟩
  update r v := obeys_update r v
  create kind r f hr hf :=
    ⟨trivial, fun i _ => obeys_bind ((obeys_create (r i) (.inl (by rw [hr i]; rfl))).mono
    fun _ x _ => hf i x)⟩
  put r := obeys_plain foot_put rfl
  save r := obeys_plain foot_inviteSave rfl

theorem obeys_upsert {args : RelationshipArgs} (h : Replicates rows (.upsert args)) :
    Obeys (monitor rows) L (fun _ _ => True) a (upsertPeerRelationship args : Sdk Snap _) := by
  refine obeys_js_bind (obeys_orThrow (fun link hlink => ?_) fun _ => trivial)
  refine obeys_js_bind (obeys_orThrow (fun _ _ => ?_) fun _ => trivial)
  refine obeys_js_bind (obeys_orThrow (fun _ _ => ?_) fun _ => trivial)
  refine obeys_js_bind (obeys_orThrow (fun _ _ => ?_) fun _ => trivial)
  refine obeys_js_bind ((obeys_plain foot_getByPair rfl).mono fun _ x _ => ?_)
  match x with
  | .error _ => trivial
  | .ok (some e) => trivial
  | .ok none =>
    refine obeys_js_bind ⟨trivial, fun now _ => ?_⟩
    exact obeys_create _ (.inr (h link hlink))

theorem obeys_program [DecidableEq Snap] {svc : Service Snap} {c : Call} (h : Replicates rows c) :
    Obeys (monitor rows) L (fun _ _ => True) a (program svc c) := by
  cases hc : namesLink c with
  | false => exact blocks_program obeys_blocks svc hc
  | true =>
    cases c with
    | upsert args => exact obeys_js_bind ((obeys_upsert h).mono fun _ x _ => by cases x <;> trivial)
    | _ => cases hc

end

/-! ## The invariant -/

/-- A store in which every link has one peer, and no id is free that names a
link here or in a sibling's table. -/
structure Sound (rows : Rows) (m : Mem Snap) : Prop where
  used : ∀ o l p, HasPeer m.kv o l p → l ∈ m.used
  told : ∀ o l p q, HasPeer m.kv o l p → rows o l = some q → p = q
  pairs : ∀ o p l, m.kv.lookup (.pair o p) = some l → HasPeer m.kv o l p
  taken : ∀ o l p, rows o l = some p → l ∈ m.used

/-- Any calls, over a store of filed records. -/
def anyCalls (rows : Rows) : Rules Snap where
  init m := FiledStore m.kv ∧ Sound rows m
  may _ c := Replicates rows c
  ok _ _ := True

/-- What call `t` knows. -/
def view (t : Nat) (log : List (Ev Snap)) : View :=
  Pool.mon (monitor fun _ _ => none) ⟨none, []⟩ t log

/-- What a call has read of a link's peer. -/
def Agrees (kv : Store Snap) : Proc.Exch (sdk Snap) → Prop
  | ⟨.get (.pair o p), .ok (some l)⟩ => HasPeer kv o l p
  | ⟨.get (.peerLink o l), .ok (some r)⟩ => HasPeer kv o l r.peerAccountId
  | _ => True

/-- Only call `t` can write a link under `l`. -/
structure Reserved (rows : Rows) (s : State Snap) (t : Nat) (l : Id) : Prop where
  used : l ∈ s.mem.used
  untold : ∀ o, rows o l = none
  empty : ∀ o, s.mem.kv.lookup (.peerLink o l) = none
  own : ∀ t', (view t' s.log).drawn = some l → t' = t

structure Inv (rows : Rows) (s : State Snap) : Prop where
  conforms :
    System.Conforms (monitor rows) (fun _ => True) (fun _ => ⟨none, []⟩) (fun _ _ _ => True) s
  sound : Sound rows s.mem
  known : ∀ t o l p, ((o, l), p) ∈ (view t s.log).known → HasPeer s.mem.kv o l p
  drawn : ∀ t l, (view t s.log).drawn = some l → Reserved rows s t l
  agrees : ∀ e ∈ s.log, Agrees s.mem.kv e.exch

theorem mon_view {rows : Rows} {t : Nat} {log : List (Ev Snap)} :
    Pool.mon (monitor rows) ⟨none, []⟩ t log = view t log :=
  Pool.mon_map (M := monitor rows) (N := monitor fun _ _ => none) id (fun _ _ => rfl) ⟨none,
    []⟩ t log

/-- What an event adds to what its call knows. -/
theorem view_self (e : Ev Snap) (log : List (Ev Snap)) :
    view e.tid (e :: log) = (view e.tid log).next e.exch := Pool.mon_self

theorem view_other {t : Nat} {e : Ev Snap} {log : List (Ev Snap)} (h : e.tid ≠ t) :
    view t (e :: log) = view t log := Pool.mon_other h

theorem known_cases {a : View} {x : Proc.Exch (sdk Snap)} {k : (Id × Id) × Id}
    (h : k ∈ (a.next x).known) :
    k ∈ a.known ∨
    (∃ o l r, x = ⟨.get (.peerLink o l), .ok (some r)⟩ ∧ k = ((o, l), r.peerAccountId)) ∨
    ∃ o l r, x = ⟨.set (.peerLink o l) r, .ok ()⟩ ∧ k = ((o, l), r.peerAccountId) := by
  unfold View.next at h
  split at h
  · exact .inl h
  · rename_i o l r
    rcases List.mem_cons.mp h with rfl | h
    · exact .inr (.inl ⟨o, l, r, rfl, rfl⟩)
    · exact .inl h
  · rename_i o l r
    rcases List.mem_cons.mp h with rfl | h
    · exact .inr (.inr ⟨o, l, r, rfl, rfl⟩)
    · exact .inl h
  · exact .inl h
  · exact .inl h

theorem drawn_cases {a : View} {x : Proc.Exch (sdk Snap)} {l : Id} (h : (a.next x).drawn = some l) :
    (∃ kind, x = ⟨.stableId kind, l⟩) ∨
    a.drawn = some l ∧ ∀ o l' r, x.op ≠ .set (.peerLink o l') r := by
  unfold View.next at h
  split at h
  · rename_i kind i
    cases h
    exact .inl ⟨kind, rfl⟩
  · exact .inr ⟨h, fun _ _ _ hop => by cases hop⟩
  · cases h
  · cases h
  · rename_i hno₁ hno₂
    refine .inr ⟨h, fun o l' r hop => ?_⟩
    obtain ⟨op, ans⟩ := x
    cases hop
    cases ans with
    | ok u => exact hno₁ o l' r rfl
    | error e => exact hno₂ o l' r e rfl

/-! ## One event -/

namespace Inv

variable [DecidableEq Snap] {svc : Service Snap} {rows : Rows} {s s' : State Snap}
  {e : Ev Snap} {c : Call}
  {next : (sdk Snap).Ans e.op → Proc (sdk Snap) (Except Err Reply)}

theorem may (h : Inv rows s) (hf : Pool.Fires (system svc) s e c next s') :
    (monitor rows).may (view e.tid s.log) e.op := by
  have := h.conforms.may hf
  rwa [mon_view] at this

/-- A link that is written has the peer of the stored one. -/
theorem written (h : Inv rows s) (hf : Pool.Fires (system svc) s e c next s') {o l p : Id}
    {r : PeerLinkRecord} (hop : e.op = .set (.peerLink o l) r) (hp : HasPeer s.mem.kv o l p) :
    r.peerAccountId = p := by
  have hmay := h.may hf
  rw [hop] at hmay
  rcases hmay with hd | hk | hr
  · obtain ⟨r', hr', -⟩ := hp
    rw [(h.drawn _ l hd).empty o] at hr'
    cases hr'
  · exact (h.known _ o l _ hk).unique hp
  · exact (h.sound.told o l p _ hp hr).symm

theorem hasPeer_fires (h : Inv rows s) (hf : Pool.Fires (system svc) s e c next s') {o l p : Id}
    (hp : HasPeer s.mem.kv o l p) : HasPeer s'.mem.kv o l p := by
  rw [kv_fires hf]
  rcases effect_cases s.mem.kv e.op e.fate (.peerLink o l) with hk | ⟨r, hop, -, hk⟩ | ⟨hop, -, -⟩
  · obtain ⟨r, hr, hp⟩ := hp
    exact ⟨r, hk.trans hr, hp⟩
  · exact ⟨r, hk, h.written hf hop hp⟩
  · have hmay := h.may hf
    rw [hop] at hmay
    exact hmay.elim

/-- What a stored link's peer comes from. -/
theorem hasPeer_back (hf : Pool.Fires (system svc) s e c next s') {o l p : Id}
    (hp : HasPeer s'.mem.kv o l p) :
    HasPeer s.mem.kv o l p ∨ ∃ r, e.op = .set (.peerLink o l) r ∧ r.peerAccountId = p := by
  obtain ⟨r, hr, hp⟩ := hp
  rw [kv_fires hf] at hr
  rcases lookup_effect hr with hr | ⟨hop, -⟩
  · exact .inl ⟨r, hr, hp⟩
  · exact .inr ⟨r, hop, hp⟩

theorem used_fires (h : Inv rows s) (hf : Pool.Fires (system svc) s e c next s') {o l p : Id}
    (hp : HasPeer s'.mem.kv o l p) : l ∈ s'.mem.used := by
  refine act_used hf.act ?_
  rcases hasPeer_back hf hp with hp | ⟨r, hop, -⟩
  · exact h.sound.used o l p hp
  · have hmay := h.may hf
    rw [hop] at hmay
    rcases hmay with hd | hk | hr
    · exact (h.drawn _ l hd).used
    · exact h.sound.used o l _ (h.known _ o l _ hk)
    · exact h.sound.taken o l _ hr

theorem told_fires (h : Inv rows s) (hf : Pool.Fires (system svc) s e c next s') {o l p q : Id}
    (hp : HasPeer s'.mem.kv o l p) (hq : rows o l = some q) : p = q := by
  rcases hasPeer_back hf hp with hp | ⟨r, hop, rfl⟩
  · exact h.sound.told o l p q hp hq
  · have hmay := h.may hf
    rw [hop] at hmay
    rcases hmay with hd | hk | hr
    · rw [(h.drawn _ l hd).untold o] at hq
      cases hq
    · exact h.sound.told o l _ q (h.known _ o l _ hk) hq
    · rw [hr, Option.some.injEq] at hq
      exact hq

theorem pairs_fires (h : Inv rows s) (hf : Pool.Fires (system svc) s e c next s') {o p l : Id}
    (hp : s'.mem.kv.lookup (.pair o p) = some l) : HasPeer s'.mem.kv o l p := by
  refine h.hasPeer_fires hf ?_
  rw [kv_fires hf] at hp
  rcases lookup_effect hp with hp | ⟨hop, -⟩
  · exact h.sound.pairs o p l hp
  · have hmay := h.may hf
    rw [hop] at hmay
    exact h.known _ o l p hmay

theorem sound_fires (h : Inv rows s) (hf : Pool.Fires (system svc) s e c next s') :
    Sound rows s'.mem where
  used _ _ _ hp := h.used_fires hf hp
  told _ _ _ _ hp hq := h.told_fires hf hp hq
  pairs _ _ _ hp := h.pairs_fires hf hp
  taken o l p hr := act_used hf.act (h.sound.taken o l p hr)

theorem known_fires (h : Inv rows s) (hf : Pool.Fires (system svc) s e c next s') {t : Nat}
    {o l p : Id} (hk : ((o, l), p) ∈ (view t s'.log).known) : HasPeer s'.mem.kv o l p := by
  rw [hf.log] at hk
  by_cases ht : e.tid = t
  · subst ht
    rw [view_self] at hk
    obtain ⟨t, op, ans, f⟩ := e
    rcases known_cases hk with hk | ⟨o', l', r, hx, heq⟩ | ⟨o', l', r, hx, heq⟩
    · exact h.hasPeer_fires hf (h.known _ o l p hk)
    · cases hx
      cases heq
      exact h.hasPeer_fires hf ⟨r, act_get_ok hf.act, rfl⟩
    · cases hx
      cases heq
      refine ⟨r, ?_, rfl⟩
      rw [kv_fires hf]
      simp only [effect, act_set_ok hf.act, if_true, AList.lookup_insert]
  · rw [view_other ht] at hk
    exact h.hasPeer_fires hf (h.known t o l p hk)

omit [DecidableEq Snap] in
theorem drawn_new {s s' : State Snap} {e : Ev Snap} {kind : String} {l : Id} {core : Core Snap}
    (ha : act core e.tid s.mem e.op e.fate = some (e.ans, s'.mem))
    (hx : e.exch = ⟨.stableId kind, l⟩) :
    l ∉ s.mem.used ∧ l ∈ s'.mem.used ∧ s'.mem.kv = s.mem.kv := by
  obtain ⟨t, op, ans, f⟩ := e
  cases hx
  obtain ⟨hnew, hused⟩ := act_stableId ha
  exact ⟨hnew, hused, act_kv ha⟩

/-- A reserved id stays reserved until its call writes the link. -/
theorem reserved_fires (h : Inv rows s) (hf : Pool.Fires (system svc) s e c next s') {t : Nat}
    {l : Id} (hd : (view t s.log).drawn = some l)
    (hown : e.tid = t → ∀ o l' r, e.op ≠ .set (.peerLink o l') r) : Reserved rows s' t l := by
  have hres := h.drawn t l hd
  refine ⟨act_used hf.act hres.used, hres.untold, fun o => ?_, fun t' hd' => ?_⟩
  · cases hl : s'.mem.kv.lookup (.peerLink o l) with
    | none => rfl
    | some r =>
      rw [kv_fires hf] at hl
      rcases lookup_effect hl with hl | ⟨hop, -⟩
      · rw [hres.empty o] at hl
        cases hl
      · have hmay := h.may hf
        rw [hop] at hmay
        rcases hmay with hd' | hk | hr
        · exact absurd hop (hown (hres.own _ hd') o l r)
        · obtain ⟨r', hr', -⟩ := h.known _ o l _ hk
          rw [hres.empty o] at hr'
          cases hr'
        · rw [hres.untold o] at hr
          cases hr
  · rw [hf.log] at hd'
    by_cases ht : e.tid = t'
    · subst ht
      rw [view_self] at hd'
      rcases drawn_cases hd' with ⟨kind, hx⟩ | ⟨hd', -⟩
      · exact absurd hres.used (drawn_new hf.act hx).1
      · exact hres.own _ hd'
    · rw [view_other ht] at hd'
      exact hres.own _ hd'

theorem drawn_fires (h : Inv rows s) (hf : Pool.Fires (system svc) s e c next s') {t : Nat} {l : Id}
    (hd : (view t s'.log).drawn = some l) : Reserved rows s' t l := by
  rw [hf.log] at hd
  by_cases ht : e.tid = t
  · subst ht
    rw [view_self] at hd
    rcases drawn_cases hd with ⟨kind, hx⟩ | ⟨hd, hno⟩
    · -- the drawn id was never used, so no link has it
      obtain ⟨hnew, hused, hkv⟩ := drawn_new hf.act hx
      refine ⟨hused, fun o => ?_, fun o => ?_, fun t' hd' => ?_⟩
      · cases hr : rows o l with
        | none => rfl
        | some p => exact absurd (h.sound.taken o l p hr) hnew
      · cases hl : s'.mem.kv.lookup (.peerLink o l) with
        | none => rfl
        | some r =>
          rw [hkv] at hl
          exact absurd (h.sound.used o l _ ⟨r, hl, rfl⟩) hnew
      · by_contra hne
        rw [hf.log, view_other (Ne.symm hne)] at hd'
        exact hnew (h.drawn t' l hd').used
    · exact h.reserved_fires hf hd fun _ => hno
  · rw [view_other ht] at hd
    exact h.reserved_fires hf hd fun heq => absurd heq ht

theorem agrees_now (h : Inv rows s) (hf : Pool.Fires (system svc) s e c next s') :
    Agrees s'.mem.kv e.exch := by
  obtain ⟨t, op, ans, f⟩ := e
  unfold Agrees
  split
  · rename_i o p l heq
    cases heq
    exact h.hasPeer_fires hf (h.sound.pairs o p l (act_get_ok hf.act))
  · rename_i o l r heq
    cases heq
    exact h.hasPeer_fires hf ⟨r, act_get_ok hf.act, rfl⟩
  · trivial

theorem agrees_mono (h : Inv rows s) (hf : Pool.Fires (system svc) s e c next s')
    {x : Proc.Exch (sdk Snap)} (hx : Agrees s.mem.kv x) : Agrees s'.mem.kv x := by
  unfold Agrees at hx ⊢
  split at hx
  · exact h.hasPeer_fires hf hx
  · exact h.hasPeer_fires hf hx
  · trivial

theorem fires (h : Inv rows s) (hf : Pool.Fires (system svc) s e c next s') : Inv rows s' where
  conforms := System.conforms_fires h.conforms hf trivial
  sound := h.sound_fires hf
  known _ _ _ _ hk := h.known_fires hf hk
  drawn _ _ hd := h.drawn_fires hf hd
  agrees e' he := by
    rw [hf.log] at he
    rcases List.mem_cons.mp he with rfl | he
    · exact h.agrees_now hf
    · exact h.agrees_mono hf (h.agrees e' he)

theorem spawn (h : Inv rows s) (hc : Replicates rows c) : Inv rows (s.spawn (system svc) c) where
  conforms := System.conforms_spawn h.conforms (obeys_program hc)
  sound := h.sound
  known := h.known
  drawn t l hd :=
    ⟨(h.drawn t l hd).used, (h.drawn t l hd).untold, (h.drawn t l hd).empty, (h.drawn t l hd).own⟩
  agrees := h.agrees

end Inv

/-! ## Whole runs -/

theorem inv_init {rows : Rows} {m : Mem Snap} (h : Sound rows m) : Inv rows ⟨m, [], []⟩ where
  conforms := System.conforms_init m
  sound := h
  known _ _ _ _ hk := absurd hk List.not_mem_nil
  drawn _ _ hd := by cases hd
  agrees _ he := absurd he List.not_mem_nil

theorem inv_inductive [DecidableEq Snap] (svc : Service Snap) (rows : Rows) :
    ((system svc).lts (anyCalls rows)).Inductive (Inv rows) :=
  System.inductive_of (fun _ hm => inv_init hm.2) (fun _ _ h hc => h.spawn hc)
    (fun _ _ _ _ _ h hf _ => h.fires hf)

/-- The link a call has found under a pair has that pair's peer, whatever
other calls did meanwhile. -/
theorem obeys_getByPair {A : Type} {M : Monitor (sdk Snap) A} {L : Proc.Exch (sdk Snap) → Prop}
    {kv : Store Snap} {owner peer : Id} (hget : ∀ k, M.Quiet (.get k)) (hL : ∀ x, L x → Agrees kv x)
    {a : A} {Q : A → Except Err (Option PeerLinkRecord) → Prop}
    (hsome : ∀ r, r.peerAccountId = peer → Q a (.ok (some r))) (hnone : Q a (.ok none))
    (herr : ∀ e, Q a (.error e)) : Obeys M L Q a (PeerLinks.getByPair owner peer) := by
  refine obeys_js_bind ⟨(hget _ a).1, fun x hx => ?_⟩
  rw [(hget _ a).2]
  match x with
  | .error e => exact herr e
  | .ok none => exact hnone
  | .ok (some link) =>
    refine ⟨(hget _ a).1, fun y hy => ?_⟩
    rw [(hget _ a).2]
    match y with
    | .error e => exact herr e
    | .ok none => exact hnone
    | .ok (some r) => exact hsome r (HasPeer.unique (hL _ hy) (hL _ hx))

/-! ## Concrete stores -/

/-- Every record is filed, a link's id is in use, and a pair names a link with
that peer. -/
def wellKept (m : Mem Snap) : Bool :=
  m.kv.entries.all fun
    | ⟨.peerLink o l, r⟩ => r.localAccountId = o && r.peerLinkId = l && m.used.contains l
    | ⟨.pair o p, l⟩ => (m.kv.lookup (.peerLink o l)).any (·.peerAccountId = p)
    | ⟨.session o i, r⟩ => r.localAccountId = o && r.sessionId = i
    | ⟨.invite o i, r⟩ => r.ownerAccountId = o && r.inviteId = i
    | _ => true

theorem init_of_wellKept {rows : Rows} {m : Mem Snap} (h : wellKept m = true)
    (hrows : ∀ o l p, rows o l = some p → l ∈ m.used ∧ m.kv.lookup (.peerLink o l) = none) :
    (anyCalls rows : Rules Snap).init m := by
  have hentry : ∀ k v, m.kv.lookup k = some v → _ := fun k v hk =>
    List.all_eq_true.mp h ⟨k, v⟩ (AList.mem_lookup_iff.mp hk)
  refine ⟨⟨fun o i r hr => ?_, fun o i r hr => ?_, fun o i r hr => ?_⟩,
    ⟨fun o l p hp => ?_, fun o l p q hp hq => ?_, fun o p l hl => ?_,
    fun o l p hr => (hrows o l p hr).1⟩⟩
  · have hkept := hentry _ _ hr
    simp only [Bool.and_eq_true, decide_eq_true_eq] at hkept
    exact hkept.1
  · have hkept := hentry _ _ hr
    simpa only [Bool.and_eq_true, decide_eq_true_eq] using hkept
  · have hkept := hentry _ _ hr
    simpa only [Bool.and_eq_true, decide_eq_true_eq] using hkept
  · obtain ⟨r, hr, -⟩ := hp
    have hkept := hentry _ _ hr
    simp only [Bool.and_eq_true] at hkept
    exact List.contains_iff_mem.mp hkept.2
  · obtain ⟨r, hr, -⟩ := hp
    rw [(hrows o l q hq).2] at hr
    cases hr
  · obtain ⟨r, hr, hp⟩ := (Option.any_eq_true _ _).mp (hentry _ _ hl)
    exact ⟨r, hr, of_decide_eq_true hp⟩

/-- The table with one row. -/
def row (o l p : Id) : Rows := fun o' l' => if o' = o ∧ l' = l then some p else none

/-- Any calls, replicating rows of the tables. -/
def judge (rows : Rows) : System.Judge (anyCalls rows : Rules Snap) where
  may _ c := match c with
    | .upsert a => a.peerLinkId.all fun link => rows a.owner link = some a.peer
    | _ => true
  ok _ _ := true
  may_iff _ c h := by
    cases c with
    | upsert a =>
      intro link hlink
      simpa only [hlink, Option.all_some, decide_eq_true_eq] using h
    | _ => trivial
  ok_iff _ _ _ := trivial

end RezSdk.L4.LinkPeers
