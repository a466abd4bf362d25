import RezSdk.Core.Solo
import RezSdk.L3Service.Refusals

/-!
# A call that runs alone

The rules of `After` for the operations of the shared memory and for the
stores: what a call reads is what is stored, and what it leaves is what it
wrote. A helper whose footprint is known is stepped over with `after_frame`:
it leaves every key alone whose kind it does not write. The mark of a `World`
is set by the writes that `g` picks.
-/
namespace RezSdk.L3

open RezSdk.L1 RezSdk.L2

variable {Snap α β : Type}

abbrev World (Snap : Type) := Mem Snap × Bool

/-- The writes that set the mark, by their key and fate. -/
def picked (g : Key → Fate → Bool) : Op Snap → Fate → Bool
  | .set k _, f => g k f
  | _, _ => false

abbrev alone (core : Core Snap) (t : Nat) (g : Key → Fate → Bool) :
    Answers (sdk Snap) (World Snap) Fate :=
  observe (picked g) (act core t)

section

variable {core : Core Snap} {t : Nat} {g : Key → Fate → Bool} {m : Mem Snap} {b : Bool}

/-! ## The operations -/

theorem after_get {k : Key} {Q : Except Err (Option (Val Snap k)) → World Snap → Prop}
    (hok : Q (.ok (m.kv.lookup k)) (m, b)) (herr : ∀ f, Q (.error (.fault f)) (m, b)) :
    After (alone core t g) Q (kvGet k) (m, b) := by
  rintro f r ⟨m', b'⟩ ha
  obtain ⟨ha, hb⟩ := observe_some.mp ha
  rw [show picked g (.get k) f = false from rfl, Bool.or_false] at hb
  subst hb
  cases f with
  | ok =>
    cases ha
    exact hok
  | fail f =>
    cases ha
    exact herr f
  | _ => cases ha

/-- A write succeeds, fails before it lands, or lands and fails. -/
theorem after_set {k : Key} {v : Val Snap k} {Q : Except Err Unit → World Snap → Prop}
    (hok : Q (.ok ()) ({ m with kv := m.kv.insert k v }, b || g k .ok))
    (hfail : ∀ f, Q (.error (.fault f)) (m, b || g k (.fail f)))
    (hland :
        ∀ f, Q (.error (.fault f)) ({ m with kv := m.kv.insert k v }, b || g k (.landFail f))) :
    After (alone core t g) Q (kvSet k v) (m, b) := by
  rintro f r ⟨m', b'⟩ ha
  obtain ⟨ha, hb⟩ := observe_some.mp ha
  rw [show picked g (.set k v) f = g k f from rfl] at hb
  subst hb
  cases f with
  | ok =>
    cases ha
    exact hok
  | fail f =>
    cases ha
    exact hfail f
  | landFail f =>
    cases ha
    exact hland f
  | _ => cases ha

theorem after_clock {Q : Except Err Nat → World Snap → Prop} (h : ∀ n, Q (.ok n) (m, b)) :
    After (alone core t g) Q clock (m, b) := by
  rintro f r ⟨m', b'⟩ ha
  obtain ⟨ha, hb⟩ := observe_some.mp ha
  rw [show picked g .clock f = false from rfl, Bool.or_false] at hb
  subst hb
  cases f with
  | time n =>
    cases ha
    exact h _
  | _ => cases ha

theorem after_stableId {kind : String} {Q : Except Err Id → World Snap → Prop}
    (h : ∀ i, i ∉ m.used → Q (.ok i) ({ m with used := i :: m.used }, b)) :
    After (alone core t g) Q (stableId kind) (m, b) := by
  rintro f r ⟨m', b'⟩ ha
  obtain ⟨ha, hb⟩ := observe_some.mp ha
  rw [show picked g (.stableId kind) f = false from rfl, Bool.or_false] at hb
  subst hb
  cases f with
  | fresh i =>
    simp only [act] at ha
    split at ha
    · cases ha
    · rename_i hnew
      cases ha
      exact h _ hnew
  | _ => cases ha

theorem after_core {q : CoreCall Snap} {Q : Except Err q.Value → World Snap → Prop}
    (h : ∀ n, Q (core.answer q n) (m, b)) : After (alone core t g) Q (callCore q) (m, b) := by
  rintro f r ⟨m', b'⟩ ha
  obtain ⟨ha, hb⟩ := observe_some.mp ha
  rw [show picked g (.core q) f = false from rfl, Bool.or_false] at hb
  subst hb
  cases f with
  | rand n =>
    cases ha
    exact h n
  | _ => cases ha

/-! ## Stepping over a helper -/

/-- The kinds of keys that operations of these classes write. -/
def written (l : List OpClass) : List KeyKind :=
  l.filterMap fun
    | .set k => some k
    | .delete k => some k
    | _ => none

/-- Keys of other kinds hold what they held, ids in use stay so, and the mark
is as it was. -/
structure Frame (kinds : List KeyKind) (w w' : World Snap) : Prop where
  kv : ∀ k, kindOf k ∉ kinds → w'.1.kv.lookup k = w.1.kv.lookup k
  used : w.1.used ⊆ w'.1.used
  mark : w'.2 = w.2

theorem Frame.refl {kinds : List KeyKind} (w : World Snap) : Frame kinds w w :=
  ⟨fun _ _ => rfl, List.Subset.refl _, rfl⟩

theorem Frame.trans {kinds kinds' : List KeyKind} {w w₁ w₂ : World Snap} (h : Frame kinds w w₁)
    (h' : Frame kinds' w₁ w₂) : Frame (kinds ++ kinds') w w₂ where
  kv k hk := by
    rw [List.mem_append, not_or] at hk
    exact (h'.kv k hk.2).trans (h.kv k hk.1)
  used := List.Subset.trans h.used h'.used
  mark := h'.mark.trans h.mark

theorem Frame.mono {kinds kinds' : List KeyKind} {w w' : World Snap} (h : Frame kinds w w')
    (hsub : kinds ⊆ kinds') : Frame kinds' w w' :=
  { h with kv := fun k hk => h.kv k fun hmem => hk (hsub hmem) }

theorem mem_written {l : List OpClass} {k : Key} {o : Op Snap} (hl : l.contains (classOf o) = true)
    (ho : (∃ v, o = .set k v) ∨ o = .delete k) : kindOf k ∈ written l := by
  refine List.mem_filterMap.mpr ⟨classOf o, List.contains_iff_mem.mp hl, ?_⟩
  rcases ho with ⟨v, rfl⟩ | rfl <;> rfl

theorem lookup_act {m' : Mem Snap} {o : Op Snap} {f : Fate} {r : o.Ans} {k : Key}
    (ha : act core t m o f = some (r, m')) (hs : ∀ v, o ≠ .set k v) (hd : o ≠ .delete k) :
    m'.kv.lookup k = m.kv.lookup k := by
  rw [act_kv ha]
  cases o with
  | set k' v' =>
    simp only [effect]
    split
    · refine AList.lookup_insert_ne fun hk => ?_
      subst hk
      exact hs v' rfl
    · rfl
  | delete k' =>
    simp only [effect]
    split
    · refine AList.lookup_erase_ne fun hk => ?_
      subst hk
      exact hd rfl
    · rfl
  | _ => rfl

/-- A helper leaves the keys alone whose kinds it does not write, and sets no
mark that only other kinds set. -/
theorem after_frame {l : List OpClass} {p : Proc (sdk Snap) α} (hp : Foot l p)
    (hg : ∀ k f, kindOf k ∈ written l → g k f = false) {w : World Snap} :
    After (alone core t g) (fun _ w' => Frame (written l) w w') p w := by
  refine after_keeps (J := fun w' => Frame (written l) w w') hp ?_ (.refl w)
  rintro ⟨m₁, b₁⟩ o f r ⟨m₂, b₂⟩ ⟨hc, -⟩ ha hw
  obtain ⟨ha, hb⟩ := observe_some.mp ha
  refine ⟨fun k hk => ?_, List.Subset.trans hw.used (act_used ha), ?_⟩
  · refine (lookup_act ha (fun v ho => hk ?_) fun ho => hk ?_).trans (hw.kv k hk)
    · exact mem_written hc (.inl ⟨v, ho⟩)
    · exact mem_written hc (.inr ho)
  · rw [hb, ← hw.mark]
    cases o with
    | set k v =>
      show (b₁ || g k f) = b₁
      rw [hg k f (mem_written hc (.inl ⟨v, rfl⟩)), Bool.or_false]
    | _ => exact Bool.or_false _

/-- Step over a helper in front of `f`. -/
theorem after_over {l : List OpClass} {ε : Type} {p : Js (sdk Snap) ε α} {f : α → Js (sdk Snap) ε β}
    {Q : Except ε β → World Snap → Prop} {w : World Snap} (hp : Foot l p)
    (hg : ∀ k f, kindOf k ∈ written l → g k f = false)
    (he : ∀ e w', Frame (written l) w w' → Q (.error e) w')
    (hf : ∀ x w', Frame (written l) w w' → After (alone core t g) Q (f x) w') :
    After (alone core t g) Q (p >>= f : Js (sdk Snap) ε β) w := by
  refine after_js_bind ((after_frame hp hg).mono fun x w' hw => ?_)
  cases x with
  | error e => exact he e w' hw
  | ok v => exact hf v w' hw

/-- The lock operations change the lock tables only. -/
theorem act_lock {m' : Mem Snap} {o : Op Snap} {f : Fate} {r : o.Ans} (ho : classOf o = .lock)
    (ha : act core t m o f = some (r, m')) : ∃ locks, m' = { m with locks } := by
  cases o with
  | chain k =>
    cases f <;> cases ha
    exact ⟨_, rfl⟩
  | enter k prev pid =>
    cases f with
    | ok =>
      obtain ⟨l, -, hl⟩ := Option.map_eq_some_iff.mp ha
      cases hl
      exact ⟨l, rfl⟩
    | _ => cases ha
  | release k pid =>
    cases f <;> cases ha
    exact ⟨_, rfl⟩
  | core q => cases q <;> cases ho
  | _ => cases ho

theorem lock_world {w w' : World Snap} {o : Op Snap} {f : Fate} {r : o.Ans} (ho : classOf o = .lock)
    (ha : alone core t g w o f = some (r, w')) : ∃ locks, w' = ({ w.1 with locks }, w.2) := by
  obtain ⟨ha, hb⟩ := observe_some.mp ha
  obtain ⟨locks, hm⟩ := act_lock ho ha
  have hmark : picked g o f = false := by
    cases o with
    | set k v => cases ho
    | _ => rfl
  rw [hmark, Bool.or_false] at hb
  exact ⟨locks, Prod.ext hm hb⟩

/-- A critical section: only the lock tables change around its body. -/
theorem after_withLock {k : LockKey} {body : Sdk Snap α} {Q : Except Err α → World Snap → Prop}
    (h : ∀ locks,
        After (alone core t g) (fun x w => ∀ locks', Q x ({ w.1 with locks := locks' }, w.2)) body
          ({ m with locks }, b)) : After (alone core t g) Q (withLock k body) (m, b) := by
  intro f₁ ticket w₁ ha₁ f₂ _ w₂ ha₂
  obtain ⟨l₁, rfl⟩ := lock_world rfl ha₁
  obtain ⟨l₂, rfl⟩ := lock_world rfl ha₂
  refine after_bind ((h l₂).mono fun x w hx => ?_)
  intro f₃ _ w₃ ha₃
  obtain ⟨l₃, rfl⟩ := lock_world rfl ha₃
  exact hx l₃

/-- Steps with the calling function's variables. -/
theorem after_track {π : Type} {p : π} {x : Sdk Snap α} {f : α → Tracked Snap π β}
    {Q : Except (π × Err) β → World Snap → Prop} {w : World Snap}
    (h : After (alone core t g) (fun y w => match y with
      | .ok v => After (alone core t g) Q (f v) w
      | .error e => Q (.error (p, e)) w) x w) :
    After (alone core t g) Q (track p x >>= f : Tracked Snap π β) w := by
  refine after_js_bind (after_bind (h.mono fun y w hy => ?_))
  cases y <;> exact hy

theorem after_untrack {π : Type} {x : Tracked Snap π α} {Q : Except Err α → World Snap → Prop}
    {w : World Snap}
    (h : After (alone core t g) (fun y w => match y with
      | .ok v => Q (.ok v) w
      | .error e => Q (.error e.2) w) x w) : After (alone core t g) Q (untrack x) w := by
  refine after_bind (h.mono fun y w hy => ?_)
  cases y <;> exact hy

/-! ## The stores -/

/-- The link that is stored for a pair. -/
def linkOfPair (kv : Store Snap) (owner peer : Id) : Option PeerLinkRecord :=
  (kv.lookup (.pair owner peer)).bind fun link => kv.lookup (.peerLink owner link)

/-- The session that is stored for a link. -/
def sessionOfLink (kv : Store Snap) (owner link : Id) : Option (SessionRecord Snap) :=
  (kv.lookup (.sessionByLink owner link)).bind fun sid => kv.lookup (.session owner sid)

theorem after_getByPair {owner peer : Id}
    {Q : Except Err (Option PeerLinkRecord) → World Snap → Prop}
    (hok : Q (.ok (linkOfPair m.kv owner peer)) (m, b)) (herr : ∀ f, Q (.error (.fault f)) (m, b)) :
    After (alone core t g) Q (PeerLinks.getByPair owner peer) (m, b) := by
  refine after_js_bind (after_get ?_ herr)
  unfold linkOfPair at hok
  cases hl : m.kv.lookup (.pair owner peer) with
  | none =>
    rw [hl] at hok
    exact hok
  | some link =>
    rw [hl] at hok
    exact after_get hok herr

theorem after_sessionByLink {owner link : Id}
    {Q : Except Err (Option (SessionRecord Snap)) → World Snap → Prop}
    (hok : Q (.ok (sessionOfLink m.kv owner link)) (m, b))
    (herr : ∀ f, Q (.error (.fault f)) (m, b)) :
    After (alone core t g) Q (Sessions.getByPeerLinkId owner link) (m, b) := by
  refine after_js_bind (after_get ?_ herr)
  unfold sessionOfLink at hok
  cases hl : m.kv.lookup (.sessionByLink owner link) with
  | none =>
    rw [hl] at hok
    exact hok
  | some sid =>
    rw [hl] at hok
    exact after_get hok herr

theorem lookup_insert_two {kv : Store Snap} {k k' : Key} {v : Val Snap k} {v' : Val Snap k'}
    (h : k ≠ k') : ((kv.insert k v).insert k' v').lookup k = some v := by
  rw [AList.lookup_insert_ne h, AList.lookup_insert]

/-- `next` is stored as a link; of the other keys only its pair may have
changed. -/
structure LinkStored (next : PeerLinkRecord) (w w' : World Snap) : Prop where
  link : w'.1.kv.lookup (.peerLink next.localAccountId next.peerLinkId) = some next
  other : ∀ k, k ≠ .peerLink next.localAccountId next.peerLinkId →
    k ≠ .pair next.localAccountId next.peerAccountId → w'.1.kv.lookup k = w.1.kv.lookup k

theorem LinkStored.keeps {next : PeerLinkRecord} {w w' : World Snap} (h : LinkStored next w w')
    {k : Key} (hl : kindOf k ≠ .peerLink) (hp : kindOf k ≠ .pair) :
    w'.1.kv.lookup k = w.1.kv.lookup k :=
  h.other k (fun he => hl (by rw [he]; rfl)) fun he => hp (by rw [he]; rfl)

/-- Write a link, then its pair. -/
theorem after_storeLink (next : PeerLinkRecord)
    {Q : Except Err PeerLinkRecord → World Snap → Prop} {w : World Snap}
    (hg : ∀ k f, g k (.fail f) = false) (hpair : ∀ o p f, g (.pair o p) f = false)
    (hsame : ∀ f, Q (.error (.fault f)) w)
    (hland : ∀ f f' w', f'.lands = true → LinkStored next w w' →
      w'.2 = (w.2 || g (.peerLink next.localAccountId next.peerLinkId) f') →
        Q (.error (.fault f)) w')
    (hok : ∀ w', LinkStored next w w' →
      w'.1.kv.lookup (.pair next.localAccountId next.peerAccountId) = some next.peerLinkId →
      w'.2 = (w.2 || g (.peerLink next.localAccountId next.peerLinkId) .ok) → Q (.ok next) w') :
    After (alone core t g) Q (do
      kvSet (.peerLink next.localAccountId next.peerLinkId) next
      kvSet (.pair next.localAccountId next.peerAccountId) next.peerLinkId
      return next : Sdk Snap PeerLinkRecord) w := by
  obtain ⟨m, b⟩ := w
  have hstored : ∀ b', LinkStored next (m, b)
      ({ m with kv := m.kv.insert (.peerLink next.localAccountId next.peerLinkId) next },
      b') := fun b' =>
    ⟨AList.lookup_insert _, fun k hk _ => AList.lookup_insert_ne hk⟩
  have hboth :
      ∀ kv b', kv = (m.kv.insert (.peerLink next.localAccountId next.peerLinkId) next).insert
      (.pair next.localAccountId next.peerAccountId) next.peerLinkId →
      LinkStored next (m, b) ({ m with kv }, b') := by
    rintro kv b' rfl
    exact ⟨lookup_insert_two nofun,
      fun k hk hp => (AList.lookup_insert_ne hp).trans (AList.lookup_insert_ne hk)⟩
  refine after_js_bind (after_set ?_ (fun f => ?_) fun f => ?_)
  · refine after_js_bind (after_set ?_ (fun f => ?_) fun f => ?_)
    · exact hok _ (hboth _ _ rfl) (AList.lookup_insert _) (by rw [hpair, Bool.or_false])
    · exact hland f .ok _ rfl (hstored _) (by rw [hpair, Bool.or_false])
    · exact hland f .ok _ rfl (hboth _ _ rfl) (by rw [hpair, Bool.or_false])
  · rw [hg, Bool.or_false]
    exact hsame f
  · exact hland f (.landFail f) _ rfl (hstored _) rfl

/-- What an update of a link leaves. -/
theorem after_update {r : PeerLinkRecord} {v : Nat}
    {Q : Except Err PeerLinkRecord → World Snap → Prop} (hg : ∀ k f, g k (.fail f) = false)
    (hpair : ∀ o p f, g (.pair o p) f = false) (hsame : ∀ e, e.code = none → Q (.error e) (m, b))
    (hland : ∀ cur f f' w', m.kv.lookup (.peerLink r.localAccountId r.peerLinkId) = some cur →
        f'.lands = true →
        LinkStored { r with version := normalizeVersion cur.version + 1 } (m, b) w' →
        w'.2 = (b || g (.peerLink r.localAccountId r.peerLinkId) f') → Q (.error (.fault f)) w')
    (hok : ∀ cur w', m.kv.lookup (.peerLink r.localAccountId r.peerLinkId) = some cur →
        LinkStored { r with version := normalizeVersion cur.version + 1 } (m, b) w' →
        w'.1.kv.lookup (.pair r.localAccountId r.peerAccountId) = some r.peerLinkId →
        w'.2 = (b || g (.peerLink r.localAccountId r.peerLinkId) .ok) →
        Q (.ok { r with version := normalizeVersion cur.version + 1 }) w') :
    After (alone core t g) Q (PeerLinks.update r v) (m, b) := by
  refine after_js_bind (after_get ?_ fun f => hsame _ rfl)
  refine after_js_bind (after_orThrow (fun cur hcur => ?_) fun _ => hsame _ rfl)
  refine after_js_bind (after_ensure (fun _ => ?_) fun _ => hsame _ rfl)
  refine after_js_bind (after_ensure (fun _ => ?_) fun _ => hsame _ rfl)
  refine after_js_bind (after_ensure (fun _ => ?_) fun _ => hsame _ rfl)
  refine after_js_bind (after_ensure (fun _ => ?_) fun _ => hsame _ rfl)
  exact after_storeLink { r with version := normalizeVersion cur.version + 1 } hg hpair
    (fun f => hsame _ rfl) (fun f f' w' hf hw hb => hland cur f f' w' hcur hf hw hb)
    fun w' hw hp hb => hok cur w' hcur hw hp hb

/-- What a create leaves, with no mark on links. -/
theorem after_create {r : PeerLinkRecord} {Q : Except Err PeerLinkRecord → World Snap → Prop}
    (hg : ∀ k f, g k (.fail f) = false) (hpair : ∀ o p f, g (.pair o p) f = false)
    (hlink : ∀ o l f, g (.peerLink o l) f = false)
    (herr : ∀ e w', e.code = none → w'.2 = b → Q (.error e) w')
    (hok : ∀ w', LinkStored { r with version := normalizeVersion r.version } (m, b) w' → w'.2 = b →
      Q (.ok { r with version := normalizeVersion r.version }) w') :
    After (alone core t g) Q (PeerLinks.create r) (m, b) := by
  refine after_js_bind (after_get ?_ fun f => herr _ _ rfl rfl)
  refine after_js_bind (after_ensure (fun _ => ?_) fun _ => herr _ _ rfl rfl)
  refine after_js_bind (after_get ?_ fun f => herr _ _ rfl rfl)
  refine after_js_bind (after_ensure (fun _ => ?_) fun _ => herr _ _ rfl rfl)
  refine after_storeLink { r with version := normalizeVersion r.version } hg hpair
    (fun f => herr _ _ rfl rfl) (fun f f' w' _ _ hb => herr _ _ rfl ?_) fun w' hw _ hb =>
    hok w' hw ?_
  · rw [hb, hlink, Bool.or_false]
  · rw [hb, hlink, Bool.or_false]

/-- The index entry of a session. -/
def indexKey (r : SessionRecord Snap) : Key :=
  match r.peerDeviceId with
  | some device => .sessionByDevice r.localAccountId r.peerLinkId device
  | none => .sessionByLink r.localAccountId r.peerLinkId

/-- What a put that returned has stored; its mark is that of the index write,
the last one. -/
structure SessionStored (r : SessionRecord Snap) (w w' : World Snap) : Prop where
  session : w'.1.kv.lookup (.session r.localAccountId r.sessionId) = some r
  other : ∀ k, k ≠ .session r.localAccountId r.sessionId → k ≠ indexKey r →
    w'.1.kv.lookup k = w.1.kv.lookup k

theorem after_put {r : SessionRecord Snap} {Q : Except Err (SessionRecord Snap) → World Snap → Prop}
    (hs : ∀ o i f, g (.session o i) f = false)
    (hg : ∀ k f, g k (.fail f) = false ∧ g k (.landFail f) = false)
    (herr : ∀ f w', w'.2 = b → Q (.error (.fault f)) w')
    (hok :
        ∀ w',
          SessionStored
            (Sessions.putVersion (m.kv.lookup (.session r.localAccountId r.sessionId)) r) (m, b)
            w' →
          (r.peerDeviceId = none →
            w'.1.kv.lookup (.sessionByLink r.localAccountId r.peerLinkId) = some r.sessionId) →
          w'.2 = (b || g (indexKey r) .ok) →
          Q (.ok (Sessions.putVersion (m.kv.lookup (.session r.localAccountId r.sessionId)) r))
            w') : After (alone core t g) Q (Sessions.put r) (m, b) := by
  refine after_js_bind (after_get ?_ fun f => herr f _ rfl)
  refine after_js_bind (after_set ?_ (fun f => herr f _ (by rw [hs, Bool.or_false]))
    fun f => herr f _ (by rw [hs, Bool.or_false]))
  unfold indexKey at hok
  unfold Sessions.setIndex
  rw [hs, Bool.or_false]
  cases hd : r.peerDeviceId with
  | none =>
    rw [hd] at hok
    refine after_js_bind (after_set ?_ (fun f => herr f _ (by rw [(hg _ f).1, Bool.or_false]))
      fun f => herr f _ (by rw [(hg _ f).2, Bool.or_false]))
    refine hok _ ⟨lookup_insert_two nofun, fun k hk hi => ?_⟩ (fun _ => AList.lookup_insert _) rfl
    have hi : k ≠ .sessionByLink r.localAccountId r.peerLinkId := by
      simpa only [indexKey, Sessions.putVersion, hd] using hi
    exact (AList.lookup_insert_ne hi).trans (AList.lookup_insert_ne hk)
  | some device =>
    rw [hd] at hok
    refine after_js_bind (after_set ?_ (fun f => herr f _ (by rw [(hg _ f).1, Bool.or_false]))
      fun f => herr f _ (by rw [(hg _ f).2, Bool.or_false]))
    refine hok _ ⟨lookup_insert_two nofun, fun k hk hi => ?_⟩ nofun rfl
    have hi : k ≠ .sessionByDevice r.localAccountId r.peerLinkId device := by
      simpa only [indexKey, Sessions.putVersion, hd] using hi
    exact (AList.lookup_insert_ne hi).trans (AList.lookup_insert_ne hk)

/-- A helper that refuses no transition is stepped over with that. -/
theorem after_legal {l : List OpClass} {p : Sdk Snap α} {w : World Snap} (hp : Foot l p)
    (hl : Lawfully core p) (hg : ∀ k f, kindOf k ∈ written l → g k f = false) :
    After (alone core t g) (fun x w' => Frame (written l) w w' ∧ ∀ e, x = .error e → Legal e) p w :=
  (after_frame hp hg).and
  (after_throws (fun _ _ _ _ _ ha => act_answered (observe_some.mp ha).1) hl)

/-- The same for a helper that refuses none if the core is so too. -/
theorem after_legal_of {l : List OpClass} {C : Prop} {p : Sdk Snap α} {w : World Snap}
    (hp : Foot l p) (hl : C → Lawfully core p) (hg : ∀ k f, kindOf k ∈ written l → g k f = false) :
    After (alone core t g) (fun x w' => Frame (written l) w w' ∧ (C → ∀ e, x = .error e → Legal e))
      p w := by
  by_cases hc : C
  · exact (after_legal hp (hl hc) hg).mono fun x w' h => ⟨h.1, fun _ => h.2⟩
  · exact (after_frame hp hg).mono fun x w' h => ⟨h, fun h => absurd h hc⟩

/-! ## The commit -/

/-- An index write that returned: the last one of a session's put. -/
def marksIndex (k : Key) (f : Fate) : Bool :=
  match k, f with
  | .sessionByLink .., .ok => true
  | .sessionByDevice .., .ok => true
  | _, _ => false

theorem marksIndex_kind {kinds : List KeyKind} (hl : .sessionByLink ∉ kinds)
    (hd : .sessionByDevice ∉ kinds) (k : Key) (f : Fate) (hk : kindOf k ∈ kinds) :
    marksIndex k f = false := by
  cases k with
  | sessionByLink o l => exact absurd hk hl
  | sessionByDevice o l d => exact absurd hk hd
  | _ => rfl

theorem marksIndex_fail (k : Key) (f : Fault) : marksIndex k (.fail f) = false := by
  cases k <;> rfl

theorem marksIndex_landFail (k : Key) (f : Fault) : marksIndex k (.landFail f) = false := by
  cases k <;> rfl

theorem marksIndex_index (r : SessionRecord Snap) : marksIndex (indexKey r) .ok = true := by
  unfold indexKey
  split <;> rfl

/-- The session of a commit is stored. -/
structure Saved (a : CommitArgs Snap) (s : Snap) (sid : Id) (now : Nat) (w w' : World Snap) :
    Prop where
  same : ∀ r, a.existingSession = some r → sid = r.sessionId
  fresh : a.existingSession = none → sid ∉ w.1.used
  session : w'.1.kv.lookup (.session a.owner sid) =
    some (Sessions.putVersion (w.1.kv.lookup (.session a.owner sid)) (a.putInput s sid now))
  index : (a.putInput s sid now).peerDeviceId = none →
    w'.1.kv.lookup (.sessionByLink a.owner a.peerLinkRecord.peerLinkId) = some sid
  other : ∀ k, k ≠ .session a.owner sid → k ≠ indexKey (a.putInput s sid now) →
    w'.1.kv.lookup k = w.1.kv.lookup k
  mark : w'.2 = true

/-- The kinds an event is written to. -/
abbrev eventKinds : List KeyKind := [.event, .eventIndex]

/-- The rest of a commit, once the link is stored. -/
theorem after_commitEvent {a : CommitArgs Snap} {now : Nat} {stored : Option (SessionRecord Snap)}
    {p : Progress Snap} {next : PeerLinkRecord} {w : World Snap}
    {Q : Except (Progress Snap × Err) (CommitResult Snap) → World Snap → Prop}
    (herr : ∀ p e w', Legal e → Frame eventKinds w w' → Q (.error (p, e)) w')
    (hok : ∀ r w', Frame eventKinds w w' → r.sessionRecord = stored → r.peerLinkRecord = next →
        Q (.ok r) w') :
    After (alone core t marksIndex) Q (do
      let event ← track p
        (appendPeerLinkEvent a.owner next.peerLinkId a.eventType (some a.eventSummary)
          (mergeDetails
            [("peerAccountId", some a.peer.val), ("sessionId", stored.map (·.sessionId.val))]
            a.eventDetails)
          now)
      let p := { p with eventAppended := true }
      track p (clearCounts (counterKey a.owner a.peer))
      track p (markSuccess (counterKey a.owner a.peer) now)
      let snapshot ← track p (buildSnapshot next)
      return { snapshot, event := some event, sessionRecord := stored, peerLinkRecord := next,
               commitError := none } : Tracked Snap (Progress Snap) (CommitResult Snap)) w := by
  refine after_track
    ((after_legal foot_appendEvent legal_appendEvent (marksIndex_kind (by decide) (by decide))).mono
    fun x w₁ h₁ => ?_)
  obtain ⟨h₁, hx⟩ := h₁
  cases x with
  | error e => exact herr _ e w₁ (hx e rfl) h₁
  | ok event =>
    refine after_track ((after_legal (l := [.count]) (foot_clearCounts rfl) legal_total
      (marksIndex_kind (by decide) (by decide))).mono fun y w₂ h₂ => ?_)
    have hw₂ : Frame eventKinds w w₂ := (h₁.trans h₂.1).mono (by decide)
    cases y with
    | error e => exact herr _ e w₂ (h₂.2 e rfl) hw₂
    | ok u =>
      refine after_track ((after_legal (l := [.count]) (foot_markSuccess rfl) legal_total
        (marksIndex_kind (by decide) (by decide))).mono fun y w₃ h₃ => ?_)
      have hw₃ : Frame eventKinds w w₃ := (hw₂.trans h₃.1).mono (by decide)
      cases y with
      | error e => exact herr _ e w₃ (h₃.2 e rfl) hw₃
      | ok u =>
        refine after_track ((after_legal foot_buildSnapshot legal_buildSnapshot
          (marksIndex_kind (by decide) (by decide))).mono fun y w₄ h₄ => ?_)
        have hw₄ : Frame eventKinds w w₄ := (hw₃.trans h₄.1).mono (by decide)
        cases y with
        | error e => exact herr _ e w₄ (h₄.2 e rfl) hw₄
        | ok snapshot => exact hok _ w₄ hw₄ rfl rfl

theorem after_commitSession {svc : Service Snap} {a : CommitArgs Snap} {s : Snap}
    (hs : a.snapshot = some s)
    {Q : Except (Progress Snap × Err) (CommitResult Snap) → World Snap → Prop}
    (herr : ∀ p e w', Legal e →
        (w'.2 = b ∨ checkTransition a.peerLinkRecord.state a.peerLinkState = true ∨
          svc.strictTransitions = false) →
        Q (.error (p, e)) w')
    (hrefused : ∀ sid now w', Saved a s sid now (m, b) w' → svc.strictTransitions = true →
        checkTransition a.peerLinkRecord.state a.peerLinkState = false →
        Q (.error (.written (a.putInput s sid now), illegalTransition a.peerLinkRecord.state
                  a.peerLinkState)) w')
    (hok : ∀ sid now cur w₁ w₂ w' r, Saved a s sid now (m, b) w₁ →
        (checkTransition a.peerLinkRecord.state a.peerLinkState = true ∨
          svc.strictTransitions = false) →
        LinkStored { a.nextLink r.sessionRecord now with version := cur } w₁ w₂ →
        w₂.1.kv.lookup (.pair a.peerLinkRecord.localAccountId a.peerLinkRecord.peerAccountId) =
          some a.peerLinkRecord.peerLinkId →
        Frame eventKinds w₂ w' →
        r.sessionRecord =
          some (Sessions.putVersion (m.kv.lookup (.session a.owner sid)) (a.putInput s sid now)) →
        r.peerLinkRecord = { a.nextLink r.sessionRecord now with version := cur } → Q (.ok r) w') :
    After (alone svc.core t marksIndex) Q (commitSession svc a) (m, b) := by
  have hput : ∀ sid now m₁, m₁.kv = m.kv → (∀ r, a.existingSession = some r → sid = r.sessionId) →
      (a.existingSession = none → sid ∉ m.used) → After (alone svc.core t marksIndex) Q (do
        let stored ← track (.writing (a.putInput s sid now)) (Sessions.put (a.putInput s sid now))
        commitLink svc a now (some stored) (.written (a.putInput s sid now)) :
          Tracked Snap (Progress Snap) (CommitResult Snap)) (m₁, b) := by
    intro sid now m₁ hkv hsid hfresh
    refine after_track (after_put (fun o i f => by cases f <;> rfl)
      (fun k f => ⟨marksIndex_fail k f, marksIndex_landFail k f⟩)
      (fun f w' hb => herr _ _ w' (legal_fault f) (.inl hb)) ?_)
    intro w₁ hstored hindex hmark
    have hsaved : Saved a s sid now (m, b) w₁ :=
      ⟨hsid, hfresh, hkv ▸ hstored.session, hindex, fun k hk hi => hkv ▸ hstored.other k hk hi,
        by rw [hmark, marksIndex_index, Bool.or_true]⟩
    -- the check comes right after the put
    refine after_track (after_ensure (fun hcheck => ?_) fun hcheck => ?_)
    · rw [Bool.or_eq_true, Bool.not_eq_true'] at hcheck
      refine after_track (after_update marksIndex_fail (fun _ _ f => by cases f <;> rfl)
        (fun e he => herr _ e _ (by rw [Legal, he]; nofun) (.inr hcheck))
        (fun cur f f' w' _ _ _ _ => herr _ _ w' (legal_fault f) (.inr hcheck)) ?_)
      intro cur w₂ _ hlink hpair _
      refine after_commitEvent (fun p e w' he _ => herr p e w' he (.inr hcheck))
        fun r w' hframe hsess hrecord => ?_
      refine hok sid now (normalizeVersion cur.version + 1) w₁ w₂ w' r hsaved
        hcheck ?_ hpair hframe ?_ ?_
      · rw [hsess]
        exact hlink
      · rw [hsess, hkv]
        rfl
      · rw [hsess]
        exact hrecord
    · rw [Bool.or_eq_false_iff, Bool.not_eq_false'] at hcheck
      exact hrefused sid now w₁ hsaved hcheck.2 hcheck.1
  unfold commitSession
  simp only [hs]
  refine after_track (after_clock fun c => ?_)
  cases hex : a.existingSession with
  | some r =>
    refine after_track ?_
    refine hput r.sessionId _ m rfl (fun r' hr' => ?_) fun hn => ?_
    · rw [hex] at hr'
      cases hr'
      rfl
    · rw [hex] at hn
      cases hn
  | none =>
    refine after_track (after_stableId fun i hnew => ?_)
    exact hput i _ _ rfl (fun r' hr' => by rw [hex] at hr'; cases hr') fun _ => hnew

/-! ## Without failures -/

/-- The storage does not fail, and the clock reads as `C` says. -/
def Calm (C : Nat → Prop) : Fate → Prop
  | .fail _ => False
  | .landFail _ => False
  | .time n => C n
  | _ => True

variable {C : Nat → Prop}

theorem calm_get {k : Key} {Q : Except Err (Option (Val Snap k)) → Mem Snap → Prop}
    (h : Q (.ok (m.kv.lookup k)) m) : After (within (Calm C) (act core t)) Q (kvGet k) m := by
  intro f r m' ha
  obtain ⟨hf, ha⟩ := within_some.mp ha
  cases f with
  | ok =>
    cases ha
    exact h
  | fail f => cases hf
  | _ => cases ha

theorem calm_clock {Q : Except Err Nat → Mem Snap → Prop} (h : ∀ n, C n → Q (.ok n) m) :
    After (within (Calm C) (act core t)) Q clock m := by
  intro f r m' ha
  obtain ⟨hf, ha⟩ := within_some.mp ha
  cases f with
  | time n =>
    cases ha
    exact h _ hf
  | _ => cases ha

theorem calm_core {q : CoreCall Snap} {Q : Except Err q.Value → Mem Snap → Prop}
    (h : ∀ n, Q (core.answer q n) m) : After (within (Calm C) (act core t)) Q (callCore q) m := by
  intro f r m' ha
  obtain ⟨-, ha⟩ := within_some.mp ha
  cases f with
  | rand n =>
    cases ha
    exact h n
  | _ => cases ha

theorem calm_withLock {k : LockKey} {body : Sdk Snap α} {Q : Except Err α → Mem Snap → Prop}
    (h : ∀ locks,
        After (within (Calm C) (act core t)) (fun x m' => ∀ locks', Q x { m' with locks := locks' })
          body { m with locks }) : After (within (Calm C) (act core t)) Q (withLock k body) m := by
  intro f₁ ticket m₁ ha₁ f₂ _ m₂ ha₂
  obtain ⟨l₁, rfl⟩ := act_lock rfl (within_some.mp ha₁).2
  obtain ⟨l₂, rfl⟩ := act_lock rfl (within_some.mp ha₂).2
  refine after_bind ((h l₂).mono fun x m' hx => ?_)
  intro f₃ _ m₃ ha₃
  obtain ⟨l₃, rfl⟩ := act_lock rfl (within_some.mp ha₃).2
  exact hx l₃

theorem calm_getByPair {owner peer : Id} {Q : Except Err (Option PeerLinkRecord) → Mem Snap → Prop}
    (h : Q (.ok (linkOfPair m.kv owner peer)) m) :
    After (within (Calm C) (act core t)) Q (PeerLinks.getByPair owner peer) m := by
  refine after_js_bind (calm_get ?_)
  unfold linkOfPair at h
  cases hl : m.kv.lookup (.pair owner peer) with
  | none =>
    rw [hl] at h
    exact h
  | some link =>
    rw [hl] at h
    exact calm_get h

theorem calm_sessionByLink {owner link : Id}
    {Q : Except Err (Option (SessionRecord Snap)) → Mem Snap → Prop} (h : ∀ r, Q (.ok r) m) :
    After (within (Calm C) (act core t)) Q (Sessions.getByPeerLinkId owner link) m := by
  refine after_js_bind (calm_get ?_)
  cases m.kv.lookup (.sessionByLink owner link) with
  | none => exact h none
  | some sid => exact calm_get (h _)

theorem calm_readAll {owner : Id} {Q : Except Err (List EventRecord) → Mem Snap → Prop}
    (h : ∀ r, Q (.ok r) m) :
    ∀ {ids : List Id}, After (within (Calm C) (act core t)) Q (Events.readAll owner ids) m := by
  intro ids
  induction ids generalizing Q with
  | nil => exact h []
  | cons id ids ih =>
    refine after_js_bind (calm_get (after_js_bind (ih fun rest => ?_)))
    exact h _

theorem calm_buildSnapshot {r : PeerLinkRecord} {Q : Except Err PeerLinkSnapshot → Mem Snap → Prop}
    (h : ∀ s, Q (.ok s) m) : After (within (Calm C) (act core t)) Q (buildSnapshot r) m := by
  refine after_js_bind (calm_sessionByLink fun session =>
    after_js_bind (after_js_bind (calm_get ?_)))
  exact after_js_bind (calm_readAll fun items => h _)

end

end RezSdk.L3
