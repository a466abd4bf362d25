import RezSdk.L3Service.Counting
import RezSdk.L4Runs.InviteCalls

/-!
# The use limit of an invite under concurrent calls

The verdict of `handleIncomingHandshakePacket` and `authorizeInviteJoin` read
and extend the ledger (`acceptedAcceptors`) under the invite's lock.
`acceptInvite` re-reads the record and writes it back with its peer link,
outside the lock: an admission between the two is written over
(`backlink_loses_admission`), and its slot is open again. As long as every
back-link finds the ledger it has read, no admitted account is lost and no
more than `maxUses` accounts are admitted (`use_limit`).
-/
namespace RezSdk.L4.InviteLimit

open RezSdk.L1 RezSdk.L2 RezSdk.L3

variable {Snap : Type}

/-! ## The property -/

/-- Account `x` has been admitted: a handshake of it went past the verdict to
the pre-key, or its join was authorised. -/
def Admitted (core : Core Snap) (s : State Snap) (o i x : Id) : Prop :=
  (∃ e ∈ s.log, e.op = .get (.invitePreKey o i) ∧
    ∃ b p, s.threads[e.tid]? = some ⟨.handshake o b, p⟩ ∧ acceptorOfPacket core b = some x) ∨
  ∃ t now reason, outcome s t = some (.join o i x now, .ok (.joined ⟨true, reason⟩))

/-- No invite has admitted more accounts than its limit, and its ledger has
all of them. -/
def WithinLimit (core : Core Snap) (s : State Snap) : Prop :=
  ∀ o i r, s.mem.kv.lookup (.invite o i) = some r →
    (∀ x, Admitted core s o i x → x ∈ r.acceptedAcceptors) ∧
    ∀ l : List Id, l.Nodup → (∀ x ∈ l, Admitted core s o i x) → l.length ≤ r.maxUses

/-! ## The runs -/

/-- A stored invite lies under its own ids and has not overrun its limit. -/
structure Sound (kv : Store Snap) : Prop where
  keyed : ∀ o i r, kv.lookup (.invite o i) = some r → r.ownerAccountId = o ∧ r.inviteId = i
  within : ∀ o i r, kv.lookup (.invite o i) = some r → r.acceptedAcceptors.length ≤ r.maxUses

def isInviteCall : Call → Bool
  | .handshake .. => true
  | .join .. => true
  | .accept _ => true
  | _ => false

/-- Any number of the three calls, over any sound store. -/
def inviteCalls : Rules Snap where
  init m := m.locks = PromiseLock.empty ∧ Sound m.kv
  may _ c := isInviteCall c = true
  ok _ _ := True

/-- An invite write of an `acceptInvite` finds the ledger it writes. -/
def BackLinkCurrent (s : State Snap) (e : Ev Snap) : Prop :=
  ∀ o i r, e.op = .set (.invite o i) r → e.fate.lands = true →
    (∃ a p, s.threads[e.tid]? = some ⟨.accept a, p⟩) →
    ∃ r', s.mem.kv.lookup (.invite o i) = some r' ∧ r'.acceptedAcceptors = r.acceptedAcceptors

/-- The same, with every back-link current. -/
def currentBackLinks : Rules Snap where
  init m := m.locks = PromiseLock.empty ∧ Sound m.kv
  may _ c := isInviteCall c = true
  ok := BackLinkCurrent

/-! ## What the calls know -/

def start (core : Core Snap) : Call → Led
  | .handshake _ b => ⟨.out, none, [], [], acceptorOfPacket core b, false⟩
  | .accept _ => ⟨.out, none, [], [], none, true⟩
  | _ => ⟨.out, none, [], [], none, false⟩

def led (t : Nat) (log : List (Ev Snap)) : Led :=
  Pool.mon monitor ⟨.out, none, [], [], none, false⟩ t log

theorem mon_start {core : Core Snap} {c : Call} {t : Nat} {log : List (Ev Snap)} :
    Pool.mon monitor (start core c) t log =
      { led t log with
        acceptor := (start core c).acceptor
        accepts := (start core c).accepts } := by
  have := Pool.mon_map (M := (monitor : Monitor (sdk Snap) Led)) (N := monitor)
    (fun a : Led =>
    { a with acceptor := (start core c).acceptor, accepts := (start core c).accepts })
    (fun _ _ => rfl) ⟨.out, none, [], [], none, false⟩ t log
  rw [led, this]
  cases c <;> rfl

theorem led_phase (t : Nat) (log : List (Ev Snap)) : (led t log).phase = phase t log :=
  mon_phase (M := monitor) Led.phase (fun _ _ => rfl) rfl t log

theorem led_self {e : Ev Snap} {log : List (Ev Snap)} :
    led e.tid (e :: log) = monitor.next (led e.tid log) e.exch := Pool.mon_self

theorem led_other {e : Ev Snap} {log : List (Ev Snap)} {t : Nat} (h : e.tid ≠ t) :
    led t (e :: log) = led t log := Pool.mon_other h

theorem recorded_cons {e : Ev Snap} {log : List (Ev Snap)} {t : Nat} {p : (Id × Id) × Id}
    (h : p ∈ (led t log).recorded) : p ∈ (led t (e :: log)).recorded := by
  by_cases ht : e.tid = t
  · subst ht
    rw [led_self]
    simp only [monitor, recordedNext]
    split
    · exact List.mem_append_right _ h
    · exact List.mem_append_right _ h
    · exact h
  · rw [led_other ht]; exact h

theorem missing_cons {e : Ev Snap} {log : List (Ev Snap)} {t : Nat} {p : Id × Id}
    (h : p ∈ (led t log).missing) : p ∈ (led t (e :: log)).missing := by
  by_cases ht : e.tid = t
  · subst ht
    rw [led_self]
    simp only [monitor, missingNext]
    split
    · exact .tail _ h
    · exact h
  · rw [led_other ht]; exact h

/-- A call that has read an invite knows its limit, and inside the lock its
list. -/
def ViewOk (kv : Store Snap) (a : Led) : Prop :=
  ∀ v, a.view = some v → ∃ r, kv.lookup (.invite v.owner v.invite) = some r ∧
  r.maxUses = v.maxUses ∧
    ∀ pid, a.phase = .held (inviteLock v.owner v.invite) pid → r.acceptedAcceptors = v.accepted

/-- What a finished call leaves behind. -/
def Post : Call → Led → Except Err Reply → Prop
  | .join o i joiner _, a, x =>
    ∀ reason, x = .ok (.joined ⟨true, reason⟩) → ((o, i), joiner) ∈ a.recorded
  | _, _, _ => True

structure Inv (svc : Service Snap) (s : State Snap) : Prop where
  conforms : System.Conforms monitor Keyed (start svc.core) Post s
  mutex : Mutex s
  sound : Sound s.mem.kv
  views : ∀ t, ViewOk s.mem.kv (led t s.log)
  recorded : ∀ t o i x, ((o, i), x) ∈ (led t s.log).recorded →
    ∃ r, s.mem.kv.lookup (.invite o i) = some r ∧ x ∈ r.acceptedAcceptors
  missing : ∀ t o i, (o, i) ∈ (led t s.log).missing → s.mem.kv.lookup (.invite o i) = none
  passed : ∀ e ∈ s.log, ∀ o i, e.op = .get (.invitePreKey o i) → ∃ c p,
    s.threads[e.tid]? = some ⟨c, p⟩ ∧ ((o, i) ∈ (led e.tid s.log).missing ∨
      ∃ x, (start svc.core c).acceptor = some x ∧ ((o, i), x) ∈ (led e.tid s.log).recorded)

/-! ## One event -/

/-- What an event can do to the stored invites. -/
inductive Change (kv kv' : Store Snap) (e : Ev Snap) : Prop
  | none : (∀ o i, kv'.lookup (.invite o i) = kv.lookup (.invite o i)) →
      (∀ o i r, e.op = .set (.invite o i) r → e.fate.lands = false) → Change kv kv' e
  | ledger (o i : Id) (r : InviteRecord) : e.op = .set (.invite o i) r → e.fate.lands = true →
      kv' = kv.insert (.invite o i) r → Change kv kv' e

theorem change_of_may {a : Led} {kv : Store Snap} {e : Ev Snap} (h : monitor.may a e.op) :
    Change kv (effect kv e.op e.fate) e := by
  obtain ⟨t, o, r, f⟩ := e
  cases o with
  | set k v =>
    cases hf : f.lands with
    | false => exact .none (fun _ _ => by simp only [effect, hf]; rfl) fun _ _ _ _ => hf
    | true =>
      cases k with
      | invite o i => exact .ledger o i v rfl hf (by simp only [effect, hf, if_true])
      | _ =>
        refine .none (fun _ _ => ?_) fun _ _ _ h => by cases h
        simp only [effect, hf, if_true]
        exact AList.lookup_insert_ne (by simp)
  | delete k =>
    refine .none (fun _ _ => ?_) fun _ _ _ h => by cases h
    simp only [effect]
    split
    · cases k with
      | invite o i => exact h.elim
      | _ => exact AList.lookup_erase_ne (by simp)
    · rfl
  | _ => exact .none (fun _ _ => rfl) fun _ _ _ h => by cases h

theorem lookup_invite_ne {kv : Store Snap} {o i o' i' : Id} {r : InviteRecord}
    (h : ¬ (o' = o ∧ i' = i)) :
    (kv.insert (.invite o i) r).lookup (.invite o' i') = kv.lookup (.invite o' i') :=
  AList.lookup_insert_ne (by simpa using h)

/-- How a landing write relates to the record it replaces. -/
structure Grows (s : State Snap) (t : Nat) (o i : Id) (r r₀ : InviteRecord) : Prop where
  found : s.mem.kv.lookup (.invite o i) = some r₀
  limit : r.maxUses = r₀.maxUses
  subset : r₀.acceptedAcceptors ⊆ r.acceptedAcceptors
  within : r.acceptedAcceptors.length ≤ r.maxUses
  /-- the list changes only inside the lock -/
  locked : r.acceptedAcceptors = r₀.acceptedAcceptors ∨
    ∃ pid, phase t s.log = .held (inviteLock o i) pid

theorem lockMay_of_may {a : Led} {o : Op Snap} (h : monitor.may a o) : lockMay a.phase o := by
  cases o with
  | chain _ | enter _ _ _ | release _ _ => exact h
  | _ => trivial

namespace Inv

variable [DecidableEq Snap] {svc : Service Snap} {s s' : State Snap} {e : Ev Snap} {c : Call}
  {next : (sdk Snap).Ans e.op → Proc (sdk Snap) (Except Err Reply)}

theorem may (h : Inv svc s) (hf : Pool.Fires (system svc) s e c next s') :
    monitor.may { led e.tid s.log with
      acceptor := (start svc.core c).acceptor, accepts := (start svc.core c).accepts } e.op := by
  have := h.conforms.may hf
  rwa [mon_start] at this

theorem law (h : Inv svc s) (hf : Pool.Fires (system svc) s e c next s') : Keyed e.exch := by
  obtain ⟨t, o, r, f⟩ := e
  cases o with
  | get k =>
    cases k with
    | invite o i =>
      match r with
      | .error _ => trivial
      | .ok none => trivial
      | .ok (some rec) => exact h.sound.keyed o i rec (act_get_ok hf.act)
    | _ => trivial
  | _ => trivial

theorem change (h : Inv svc s) (hf : Pool.Fires (system svc) s e c next s') :
    Change s.mem.kv s'.mem.kv e := kv_fires hf ▸ change_of_may (h.may hf)

omit [DecidableEq Snap] in
theorem accepts_iff {core : Core Snap} (h : (start core c).accepts = true) :
    ∃ a, c = .accept a := by
  cases c with
  | accept a => exact ⟨a, rfl⟩
  | _ => cases h

/-- A landing write keeps the limit and every acceptor in the list. -/
theorem grows (h : Inv svc s) (hf : Pool.Fires (system svc) s e c next s')
    (hok : BackLinkCurrent s e) {o i : Id} {r : InviteRecord} (hop : e.op = .set (.invite o i) r)
    (hl : e.fate.lands = true) : ∃ r₀, Grows s e.tid o i r r₀ := by
  have hmay := h.may hf
  rw [hop] at hmay
  obtain ⟨hled, -, -⟩ := hmay
  cases hled with
  | @add acc x pid hp hv hlt hx =>
    obtain ⟨r₀, hr₀, hmax, hacc⟩ := h.views e.tid _ hv
    have hacc := hacc pid hp
    rw [led_phase] at hp
    refine ⟨r₀, hr₀, hmax.symm, ?_, ?_, .inr ⟨pid, hp⟩⟩
    · rw [hx, hacc]; exact List.subset_append_left _ _
    · rw [hx, List.length_append, List.length_singleton]; exact hlt
  | back hb hv =>
    obtain ⟨r₀, hr₀, hmax, -⟩ := h.views e.tid _ hv
    obtain ⟨args, rfl⟩ := accepts_iff hb
    obtain ⟨r', hr', hsame⟩ := hok o i r hop hl ⟨args, _, hf.thread⟩
    cases hr₀.symm.trans hr'
    refine ⟨r₀, hr₀, hmax.symm, by rw [hsame]; exact List.Subset.refl _, ?_, .inl hsame.symm⟩
    have hmax : r₀.maxUses = r.maxUses := hmax
    rw [← hsame, ← hmax]
    exact h.sound.within o i r₀ hr₀

/-- Every stored invite of before is still there, with its limit and all its
acceptors. -/
theorem keeps (h : Inv svc s) (hf : Pool.Fires (system svc) s e c next s')
    (hok : BackLinkCurrent s e) {o i : Id} {r : InviteRecord}
    (hr : s.mem.kv.lookup (.invite o i) = some r) :
    ∃ r', s'.mem.kv.lookup (.invite o i) = some r' ∧ r'.maxUses = r.maxUses ∧
      r.acceptedAcceptors ⊆ r'.acceptedAcceptors ∧
      (r'.acceptedAcceptors = r.acceptedAcceptors ∨
        ∃ pid, phase e.tid s.log = .held (inviteLock o i) pid) := by
  cases h.change hf with
  | none hs _ => exact ⟨r, (hs o i).trans hr, rfl, List.Subset.refl _, .inl rfl⟩
  | ledger o' i' r' hop hl hkv =>
    by_cases heq : o = o' ∧ i = i'
    · obtain ⟨rfl, rfl⟩ := heq
      obtain ⟨r₀, hg⟩ := h.grows hf hok hop hl
      cases hg.found.symm.trans hr
      exact ⟨r', by rw [hkv, AList.lookup_insert], hg.limit, hg.subset, hg.locked⟩
    · exact ⟨r, by rw [hkv, lookup_invite_ne heq, hr], rfl, List.Subset.refl _, .inl rfl⟩

theorem sound_fires (h : Inv svc s) (hf : Pool.Fires (system svc) s e c next s')
    (hok : BackLinkCurrent s e) : Sound s'.mem.kv := by
  cases h.change hf with
  | none hs _ =>
    exact ⟨fun o i r hr => h.sound.keyed o i r (hs o i ▸ hr),
      fun o i r hr => h.sound.within o i r (hs o i ▸ hr)⟩
  | ledger o i r hop hl hkv =>
    have hmay := h.may hf
    rw [hop] at hmay
    obtain ⟨r₀, hg⟩ := h.grows hf hok hop hl
    rw [hkv]
    constructor
    all_goals
      intro o' i' r' hr
      by_cases heq : o' = o ∧ i' = i
      · obtain ⟨rfl, rfl⟩ := heq
        rw [AList.lookup_insert] at hr
        cases hr
        first | exact hmay.2 | exact hg.within
      · rw [lookup_invite_ne heq] at hr
        first | exact h.sound.keyed o' i' r' hr | exact h.sound.within o' i' r' hr

/-- The view of a call that did not fire. -/
theorem view_other (h : Inv svc s) (hf : Pool.Fires (system svc) s e c next s')
    (hok : BackLinkCurrent s e) {t : Nat} (ht : e.tid ≠ t) : ViewOk s'.mem.kv (led t s.log) := by
  intro v hv
  obtain ⟨r, hr, hmax, hacc⟩ := h.views t v hv
  obtain ⟨r', hr', hmax', -, hlock⟩ := h.keeps hf hok hr
  refine ⟨r', hr', hmax'.trans hmax, fun pid hp => ?_⟩
  rcases hlock with hsame | ⟨pid', hp'⟩
  · exact hsame.trans (hacc pid hp)
  · rw [led_phase] at hp
    exact absurd (h.mutex.exclusive hp' hp) ht

/-- The view of the firing call. -/
theorem view_self (h : Inv svc s) (hf : Pool.Fires (system svc) s e c next s')
    (hok : BackLinkCurrent s e) : ViewOk s'.mem.kv (monitor.next (led e.tid s.log) e.exch) := by
  have hkeep : (∀ o i r, e.op = .set (.invite o i) r → False) → ∀ v,
      (led e.tid s.log).view = some v → ∃ r, s'.mem.kv.lookup (.invite v.owner v.invite) = some r ∧
        r.maxUses = v.maxUses ∧
          ∀ pid, (led e.tid s.log).phase = .held (inviteLock v.owner v.invite) pid →
          r.acceptedAcceptors = v.accepted := by
    intro hno v hv
    obtain ⟨r, hr, hrest⟩ := h.views e.tid v hv
    cases h.change hf with
    | none hs _ => exact ⟨r, (hs _ _).trans hr, hrest⟩
    | ledger o i r hop => exact (hno o i r hop).elim
  have hch := h.change hf
  have hmay := h.may hf
  obtain ⟨t, op, ans, f⟩ := e
  cases op with
  | get k =>
    cases k with
    | invite o i =>
      match ans with
      | .error _ => exact hkeep fun _ _ _ hop => by cases hop
      | .ok none => exact hkeep fun _ _ _ hop => by cases hop
      | .ok (some r) =>
        intro v hv
        cases hv
        cases hch with
        | none hs _ => exact ⟨r, (hs o i).trans (act_get_ok hf.act), rfl, fun _ _ => rfl⟩
        | ledger _ _ _ hop => cases hop
    | _ => exact hkeep fun _ _ _ hop => by cases hop
  | set k v =>
    cases k with
    | invite o i => exact fun _ hv => by cases hv
    | _ => exact hkeep fun _ _ _ hop => by cases hop
  | enter k prev pid => exact fun _ hv => by cases hv
  | chain k =>
    intro v hv
    obtain ⟨r, hr, hmax, -⟩ := hkeep (fun _ _ _ hop => by cases hop) v hv
    exact ⟨r, hr, hmax, fun pid hp => by cases hp⟩
  | release k pid =>
    intro v hv
    obtain ⟨r, hr, hmax, -⟩ := hkeep (fun _ _ _ hop => by cases hop) v hv
    exact ⟨r, hr, hmax, fun pid hp => by cases hp⟩
  | _ => exact hkeep fun _ _ _ hop => by cases hop

/-- What one exchange records is in the ledger. -/
theorem recorded_self (h : Inv svc s) (hf : Pool.Fires (system svc) s e c next s') {o i x : Id}
    (hx : ((o, i), x) ∈ (monitor.next (led e.tid s.log) e.exch).recorded) :
    ((o, i), x) ∈ (led e.tid s.log).recorded ∨
      ∃ r, s'.mem.kv.lookup (.invite o i) = some r ∧ x ∈ r.acceptedAcceptors := by
  have hch := h.change hf
  obtain ⟨t, op, ans, f⟩ := e
  simp only [monitor, Event.exch, recordedNext] at hx
  split at hx
  · rename_i o' i' r heq
    simp only [Proc.Exch.mk.injEq] at heq
    obtain ⟨rfl, heq⟩ := heq
    cases heq
    rcases List.mem_append.mp hx with hx | hx
    · obtain ⟨y, hy, heq⟩ := List.mem_map.mp hx
      cases heq
      cases hch with
      | none hs _ => exact .inr ⟨r, (hs _ _).trans (act_get_ok hf.act), hy⟩
      | ledger _ _ _ hop => cases hop
    · exact .inl hx
  · rename_i o' i' r u heq
    simp only [Proc.Exch.mk.injEq] at heq
    obtain ⟨rfl, heq⟩ := heq
    cases heq
    rcases List.mem_append.mp hx with hx | hx
    · obtain ⟨y, hy, heq⟩ := List.mem_map.mp hx
      cases heq
      cases hch with
      | none _ hno => rw [act_set_ok hf.act] at hno; cases hno _ _ _ rfl
      | ledger _ _ _ hop _ hkv => cases hop; exact .inr ⟨r, by rw [hkv, AList.lookup_insert], hy⟩
    · exact .inl hx
  · exact .inl hx

theorem missing_self (h : Inv svc s) (hf : Pool.Fires (system svc) s e c next s') {o i : Id}
    (hx : (o, i) ∈ (monitor.next (led e.tid s.log) e.exch).missing) :
    s.mem.kv.lookup (.invite o i) = none := by
  obtain ⟨t, op, ans, f⟩ := e
  simp only [monitor, Event.exch, missingNext] at hx
  split at hx
  · rename_i o' i' heq
    simp only [Proc.Exch.mk.injEq] at heq
    obtain ⟨rfl, heq⟩ := heq
    cases heq
    rcases List.mem_cons.mp hx with heq | hx
    · cases heq; exact act_get_ok hf.act
    · exact h.missing _ _ _ hx
  · exact h.missing _ _ _ hx

/-- No invite is created. -/
theorem still_missing (h : Inv svc s) (hf : Pool.Fires (system svc) s e c next s')
    (hok : BackLinkCurrent s e) {o i : Id} (hn : s.mem.kv.lookup (.invite o i) = none) :
    s'.mem.kv.lookup (.invite o i) = none := by
  cases h.change hf with
  | none hs _ => exact (hs o i).trans hn
  | ledger o' i' r hop hl hkv =>
    by_cases heq : o = o' ∧ i = i'
    · obtain ⟨rfl, rfl⟩ := heq
      obtain ⟨r₀, hg⟩ := h.grows hf hok hop hl
      cases hn.symm.trans hg.found
    · rw [hkv, lookup_invite_ne heq, hn]

theorem passed_fires (h : Inv svc s) (hf : Pool.Fires (system svc) s e c next s') :
    ∀ e' ∈ s'.log, ∀ o i, e'.op = .get (.invitePreKey o i) →
      ∃ c p, s'.threads[e'.tid]? = some ⟨c, p⟩ ∧
        ((o, i) ∈ (led e'.tid s'.log).missing ∨
          ∃ x, (start svc.core c).acceptor = some x ∧
            ((o, i), x) ∈ (led e'.tid s'.log).recorded) := by
  intro e' he' o i hop
  rw [hf.log] at he' ⊢
  rcases List.mem_cons.mp he' with rfl | he'
  · obtain ⟨p, hp⟩ := hf.call hf.thread
    have hmay := h.may hf
    rw [hop] at hmay
    refine ⟨c, p, hp, hmay.imp missing_cons ?_⟩
    rintro ⟨x, hx, hrec⟩
    exact ⟨x, hx, recorded_cons hrec⟩
  · obtain ⟨c', p, hth, hor⟩ := h.passed e' he' o i hop
    obtain ⟨p', hp'⟩ := hf.call hth
    refine ⟨c', p', hp', hor.imp missing_cons ?_⟩
    rintro ⟨x, hx, hrec⟩
    exact ⟨x, hx, recorded_cons hrec⟩

theorem fires (h : Inv svc s) (hf : Pool.Fires (system svc) s e c next s')
    (hok : BackLinkCurrent s e) : Inv svc s' where
  conforms := System.conforms_fires h.conforms hf (h.law hf)
  mutex := by
    have hlock := lockMay_of_may (h.may hf)
    change lockMay (led e.tid s.log).phase e.op at hlock
    rw [led_phase] at hlock
    exact h.mutex.fires hf hlock
  sound := h.sound_fires hf hok
  views t := by
    rw [hf.log]
    by_cases ht : e.tid = t
    · subst ht; rw [led_self]; exact h.view_self hf hok
    · rw [led_other ht]; exact h.view_other hf hok ht
  recorded t o i x hx := by
    have hold : ((o, i), x) ∈ (led t s.log).recorded →
        ∃ r, s'.mem.kv.lookup (.invite o i) = some r ∧ x ∈ r.acceptedAcceptors := by
      intro hx
      obtain ⟨r, hr, hmem⟩ := h.recorded t o i x hx
      obtain ⟨r', hr', -, hsub, -⟩ := h.keeps hf hok hr
      exact ⟨r', hr', hsub hmem⟩
    rw [hf.log] at hx
    by_cases ht : e.tid = t
    · subst ht
      rw [led_self] at hx
      exact (h.recorded_self hf hx).elim hold id
    · rw [led_other ht] at hx; exact hold hx
  missing t o i hx := by
    rw [hf.log] at hx
    by_cases ht : e.tid = t
    · subst ht
      rw [led_self] at hx
      exact h.still_missing hf hok (h.missing_self hf hx)
    · rw [led_other ht] at hx
      exact h.still_missing hf hok (h.missing t o i hx)
  passed := h.passed_fires hf

end Inv

/-! ## Whole runs -/

variable [DecidableEq Snap] {svc : Service Snap}

theorem obeys_program {c : Call} (h : isInviteCall c = true) :
    Obeys monitor Keyed (Post c) (start svc.core c) (program svc c) := by
  cases c with
  | handshake owner b =>
    exact obeys_js_bind ((obeys_handshake rfl rfl).mono fun _ x _ => by cases x <;> trivial)
  | accept args => exact obeys_js_bind ((obeys_accept rfl).mono fun _ x _ => by cases x <;> trivial)
  | join o i joiner now =>
    refine obeys_js_bind ((obeys_join rfl).mono fun a x hx => ?_)
    cases x with
    | error e => exact fun _ h => by cases h
    | ok r => exact fun reason h => by cases h; exact hx _ rfl rfl
  | _ => cases h

omit [DecidableEq Snap] in
theorem inv_init {m : Mem Snap} (hl : m.locks = PromiseLock.empty) (hs : Sound m.kv) :
    Inv svc ⟨m, [], []⟩ where
  conforms := System.conforms_init m
  mutex := mutex_init hl
  sound := hs
  views _ _ hv := by cases hv
  recorded _ _ _ _ hx := absurd hx List.not_mem_nil
  missing _ _ _ hx := absurd hx List.not_mem_nil
  passed _ he := absurd he List.not_mem_nil

theorem Inv.spawn {s : State Snap} {c : Call} (h : Inv svc s) (hc : isInviteCall c = true) :
    Inv svc (s.spawn (system svc) c) :=
  { h with
    conforms := System.conforms_spawn h.conforms (obeys_program hc)
    mutex := mutex_spawn h.mutex c
    passed := fun e he o i hop => by
      obtain ⟨c', p, hth, hor⟩ := h.passed e he o i hop
      exact ⟨c', p, Pool.spawn_thread hth, hor⟩ }

theorem inv_inductive (svc : Service Snap) :
    ((system svc).lts currentBackLinks).Inductive (Inv svc) :=
  System.inductive_of (fun _ hm => inv_init hm.1 hm.2) (fun _ _ h hc => h.spawn hc)
    (fun _ _ _ _ _ h hf hok => h.fires hf hok)

omit [DecidableEq Snap] in
/-- An admitted account is in the ledger. -/
theorem Inv.admitted {s : State Snap} (h : Inv svc s) {o i x : Id} {r : InviteRecord}
    (hr : s.mem.kv.lookup (.invite o i) = some r) (hx : Admitted svc.core s o i x) :
    x ∈ r.acceptedAcceptors := by
  have hled : ∀ t, ((o, i), x) ∈ (led t s.log).recorded → x ∈ r.acceptedAcceptors := by
    intro t ht
    obtain ⟨r', hr', hmem⟩ := h.recorded t o i x ht
    cases hr.symm.trans hr'
    exact hmem
  rcases hx with ⟨e, he, hop, b, p, hth, hacc⟩ | ⟨t, now, reason, ht⟩
  · obtain ⟨c, p', hth', hor⟩ := h.passed e he o i hop
    cases hth.symm.trans hth'
    rcases hor with hmiss | ⟨y, hy, hrec⟩
    · cases hr.symm.trans (h.missing _ _ _ hmiss)
    · cases hacc.symm.trans hy
      exact hled _ hrec
  · have hpost := h.conforms.result (outcome_some.mp ht) reason rfl
    rw [mon_start] at hpost
    exact hled t hpost

/-- **The use limit**, in every run whose back-links are current. -/
theorem use_limit (svc : Service Snap) (s : State Snap)
    (hr : ((system svc).lts currentBackLinks).Reachable s) : WithinLimit svc.core s := by
  have h := (inv_inductive svc).reachable s hr
  intro o i r hlook
  refine ⟨fun x hx => h.admitted hlook hx, fun l hnodup hall => ?_⟩
  have hsub : l ⊆ r.acceptedAcceptors := fun x hx => h.admitted hlook (hall x hx)
  exact (List.subperm_of_subset hnodup hsub).length_le.trans (h.sound.within o i r hlook)

/-! ## Concrete runs -/

def inviteJudge : System.Judge (inviteCalls : Rules Snap) where
  may _ c := isInviteCall c
  ok _ _ := true
  may_iff _ _ h := h
  ok_iff _ _ _ := trivial

def isAccept (s : State Snap) (t : Nat) : Bool :=
  match s.threads[t]?.map Thread.call with
  | some (.accept _) => true
  | _ => false

/-- Every landing invite write of an `acceptInvite` finds its own list. -/
def currentOk (s : State Snap) (e : Ev Snap) : Bool :=
  match e.op with
  | .set (.invite o i) r => !e.fate.lands || !isAccept s e.tid ||
      (s.mem.kv.lookup (.invite o i)).any (·.acceptedAcceptors = r.acceptedAcceptors)
  | _ => true

def currentJudge : System.Judge (currentBackLinks : Rules Snap) where
  may _ c := isInviteCall c
  ok := currentOk
  may_iff _ _ h := h
  ok_iff s e h o i r hop hl hacc := by
    obtain ⟨args, p, hth⟩ := hacc
    simp only [currentOk, hop, hl, isAccept, hth, Option.map_some, Bool.not_true,
      Bool.false_or] at h
    obtain ⟨r', hr', hsame⟩ := (Option.any_eq_true _ _).mp h
    exact ⟨r', hr', of_decide_eq_true hsame⟩

/-- The handshake of call `t` went past its verdict. -/
def admitted (s : State Snap) (t : Nat) (o i : Id) (b : Bytes) : Bool :=
  s.threads[t]?.map Thread.call = some (.handshake o b) &&
    s.log.any fun e => e.tid = t && match e.op with
      | .get (.invitePreKey o' i') => o' = o && i' = i
      | _ => false

omit [DecidableEq Snap] in
theorem admitted_of {core : Core Snap} {s : State Snap} {t : Nat} {o i x : Id} {b : Bytes}
    (h : admitted s t o i b = true) (hx : acceptorOfPacket core b = some x) :
    Admitted core s o i x := by
  simp only [admitted, Bool.and_eq_true, decide_eq_true_eq, List.any_eq_true] at h
  obtain ⟨hth, e, he, rfl, hop⟩ := h
  obtain ⟨⟨c, p⟩, hth, hc⟩ := Option.map_eq_some_iff.mp hth
  cases hc
  refine .inl ⟨e, he, ?_, b, p, hth, hx⟩
  split at hop
  · rename_i o' i' heq
    simp only [Bool.and_eq_true, decide_eq_true_eq] at hop
    obtain ⟨rfl, rfl⟩ := hop
    exact heq
  · cases hop

namespace Example

open Counting

/-- Account `a`'s single-use invite `d`. -/
def invite : InviteRecord :=
  ⟨d, a, c, a, .active, 1, 1, 90, 1, [], none, none, none, none, Nat.one_pos,
  Nat.succ_pos 89, Nat.one_pos⟩

def store : Store Nat :=
  ((∅ : Store Nat).insert (.invite a d) invite).insert (.inviteByHash a c) d

def envelope : Envelope :=
  ⟨none, some d, some a, none, 90, none, [],
    some ⟨some b, some ⟨some a, some a, none, 1, some 90, some a, none, []⟩⟩, none⟩

/-- Account `c` accepts on the inviter's own node. -/
def acceptCall : Call := .accept ⟨envelope, a, c, none, false, none, false⟩

/-- Account `b`'s handshake. -/
def packet : Bytes := [1, 3, 0]

/-- Thread 0 accepts, up to the re-read of the invite. -/
def acceptUpToReread : List (Label Fate Call) :=
  [.call acceptCall, .run 0 (.time 5), .run 0 (.rand 0), .run 0 (.time 5), .run 0 (.rand 0),
  .run 0 .ok,
    .run 0 .ok, .run 0 .ok, .run 0 (.fresh d), .run 0 .ok, .run 0 .ok, .run 0 .ok, .run 0 .ok,
    .run 0 (.fresh c), .run 0 .ok, .run 0 .ok, .run 0 .ok]

/-- The back-link write. -/
def backLink : List (Label Fate Call) := [.run 0 .ok]

/-- Thread 1 handles the handshake, up to the pre-key. -/
def handshakeUpToPreKey : List (Label Fate Call) :=
  [.call (.handshake a packet), .run 1 (.rand 0), .run 1 (.time 5), .run 1 (.rand 0), .run 1 .ok,
    .run 1 .ok, .run 1 .ok, .run 1 .ok, .run 1 (.time 5), .run 1 .ok, .run 1 .ok,
      .run 1 .ok, .run 1 .ok]

theorem sound : Sound store := by
  have hlook : ∀ o i r, store.lookup (.invite o i) = some r → o = a ∧ i = d ∧ r = invite := by
    intro o i r hr
    rw [store, AList.lookup_insert_ne (by simp)] at hr
    by_cases heq : o = a ∧ i = d
    · obtain ⟨rfl, rfl⟩ := heq
      rw [AList.lookup_insert] at hr
      cases hr
      exact ⟨rfl, rfl, rfl⟩
    · rw [lookup_invite_ne heq] at hr
      cases hr
  refine ⟨fun o i r hr => ?_, fun o i r hr => ?_⟩
  · obtain ⟨rfl, rfl, rfl⟩ := hlook o i r hr
    exact ⟨rfl, rfl⟩
  · obtain ⟨rfl, rfl, rfl⟩ := hlook o i r hr
    decide

/-- Account `b` is admitted, and the ledger has it (`kept`) or not. -/
def admittedAnd (kept : Bool) (s : State Nat) : Bool :=
  admitted s 1 a d packet &&
    (s.mem.kv.lookup (.invite a d)).any fun r => decide (b ∈ r.acceptedAcceptors) = kept

end Example

open Example in
/-- `acceptInvite` re-reads the invite, account `b`'s handshake is admitted,
and the back-link write drops `b` from the ledger. -/
theorem backlink_loses_admission :
    ∃ s, ((system Counting.svc).lts inviteCalls).Reachable s ∧ ¬ WithinLimit Counting.core s := by
  obtain ⟨s, hr, hs⟩ := System.reachable_of_exec (S := system Counting.svc) inviteJudge
    (acceptUpToReread ++ handshakeUpToPreKey ++ backLink) (m := .ofStore store [])
    (P := admittedAnd false) ⟨rfl, Example.sound⟩ (by decide)
  refine ⟨s, hr, fun hwithin => ?_⟩
  simp only [admittedAnd, Bool.and_eq_true] at hs
  obtain ⟨r, hlook, hlost⟩ := (Option.any_eq_true _ _).mp hs.2
  have hmem := (hwithin _ _ r hlook).1 Counting.b (admitted_of hs.1 rfl)
  simp [hmem] at hlost

open Example in
/-- With the back-link first, the admission stays. -/
theorem use_limit_backlink_first :
    ∃ s, ((system Counting.svc).lts currentBackLinks).Reachable s ∧ admittedAnd true s = true ∧
      WithinLimit Counting.core s := by
  obtain ⟨s, hr, hs⟩ := System.reachable_of_exec (S := system Counting.svc) currentJudge
    (acceptUpToReread ++ backLink ++ handshakeUpToPreKey) (m := .ofStore store [])
    (P := admittedAnd true) ⟨rfl, Example.sound⟩ (by decide)
  exact ⟨s, hr, hs, use_limit Counting.svc s hr⟩

end RezSdk.L4.InviteLimit
