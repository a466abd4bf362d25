import RezSdk.L3Service.Counting
import RezSdk.L4Runs.Filing

/-!
# The nonce that binds an ack to its handshake

`acceptInvite` stores the nonce of the handshake it sends, and
`handleIncomingHandshakeAck` compares the ack's nonce with the stored one,
which it deletes. A link without a stored nonce accepts any ack: one that was
consumed by a call that has not finished, or has failed, leaves the link open
to the acks of earlier attempts (`consumed_nonce`). An ack that finds a nonce,
and before whose link write no new handshake stores another, moves the link
only when it answers the last handshake (`ack_bound`).
-/
namespace RezSdk.L4.AckNonce

open RezSdk.L1 RezSdk.L2 RezSdk.L3

variable {Snap : Type}

/-! ## The property -/

/-- The nonce the event stores for the link. -/
def storesNonce (cell : Id × Id) : Ev Snap → Option Id
  | ⟨_, .set (.ackNonce o l) n, _, f⟩ => if f.lands = true ∧ (o, l) = cell then some n else none
  | _ => none

/-- The nonce of the handshake last produced for the link: the last one that
was stored. -/
def lastNonce (cell : Id × Id) (log : List (Ev Snap)) : Option Id :=
  log.findSome? (storesNonce cell)

/-- Event `e` is the write by which an ack with nonce `nonce` moves the link
into `session_established`. -/
def Establishes (core : Core Snap) (s : State Snap) (e : Ev Snap) (cell : Id × Id)
    (nonce : String) : Prop :=
  (∃ r, e.op = .set (.peerLink cell.1 cell.2) r ∧ r.state = .sessionEstablished) ∧
  e.fate.lands = true ∧
    ∃ owner b ack p, s.threads[e.tid]? = some ⟨.ack owner b, p⟩ ∧ core.parseAck b = some ack ∧
      ack.ackNonce = nonce

/-- Every ack that moved a link carried the nonce of the handshake last
produced for it. -/
def Bound (core : Core Snap) (s : State Snap) : Prop :=
  ∀ (newer : List (Ev Snap)) e older cell nonce, s.log = newer ++ e :: older →
    Establishes core s e cell nonce → (lastNonce cell older).map Id.val = some nonce

/-! ## The runs -/

def isAck : Call → Bool
  | .ack .. => true
  | _ => false

/-- Any calls, over any filed store in which no handshake is outstanding. -/
def acceptor : Rules Snap where
  init m := FiledStore m.kv ∧ ∀ o l, m.kv.lookup (.ackNonce o l) = none
  may _ _ := True
  ok _ _ := True

/-- Call `t` is an ack. -/
def OfAck (s : State Snap) (t : Nat) : Prop := ∃ c p, s.threads[t]? = some ⟨c, p⟩ ∧ isAck c = true

/-- An ack that reads the link's nonce finds one, and no other is stored from
there to its link write. -/
structure Guarded (s : State Snap) (e : Ev Snap) : Prop where
  found : OfAck s e.tid → ∀ o l, e.exch ≠ ⟨.get (.ackNonce o l), .ok none⟩
  settled : OfAck s e.tid → ∀ o l r, e.op = .set (.peerLink o l) r → r.state = .sessionEstablished →
    e.fate.lands = true → ∀ (newer : List (Ev Snap)) e' older, s.log = newer ++ e' :: older →
    e'.tid = e.tid → e'.op = .get (.ackNonce o l) → lastNonce (o, l) newer = none

def guarded : Rules Snap where
  init := acceptor.init
  may _ _ := True
  ok := Guarded

/-! ## What an ack does -/

/-- `want`: the ack's nonce; `read`: the last nonce read. -/
structure View where
  want : Option String
  read : Option ((Id × Id) × Option Id)

def View.next (a : View) : Proc.Exch (sdk Snap) → View
  | ⟨.get (.ackNonce o l), .ok v⟩ => { a with read := some ((o, l), v) }
  | _ => a

/-- The link's nonce was read, and it is missing or the ack's. -/
def View.Passed (a : View) (cell : Id × Id) (w : String) : Prop :=
  ∃ v, a.read = some (cell, v) ∧ ∀ n, v = some n → n.val = w

def monitor : Monitor (sdk Snap) View where
  next := View.next
  may a
    | .set (.peerLink o l) r => Filed (.set (.peerLink o l) r : Op Snap) ∧
        ∀ w, a.want = some w → r.state = .sessionEstablished → a.Passed (o, l) w
    | o => Filed o

def watched : List OpClass := [.get .ackNonce, .set .peerLink]

theorem watches : Watches (monitor : Monitor (sdk Snap) View) watched := by
  intro o ho hfiled a
  cases o with
  | get k => cases k <;> first | exact ⟨trivial, fun _ => rfl⟩ | cases ho
  | set k v => cases k <;> first | exact ⟨hfiled, fun _ => rfl⟩ | cases ho
  | _ => exact ⟨hfiled, fun _ => rfl⟩

/-- A call that is not an ack. -/
theorem obeys_other {α : Type} {L : Proc.Exch (sdk Snap) → Prop} {p : Proc (sdk Snap) α}
    (hp : p.All Filed) : ∀ {a : View}, a.want = none → Obeys monitor L (fun _ _ => True) a p := by
  induction p with
  | ret x => exact fun _ => trivial
  | ask o next ih =>
    intro a ha
    refine ⟨?_, fun r _ => ih r (hp.2 r) ?_⟩
    · have := hp.1
      unfold monitor
      dsimp only
      split
      · exact ⟨this, fun w hw => by rw [ha] at hw; cases hw⟩
      · exact this
    · unfold monitor View.next
      dsimp only
      split <;> exact ha

section

variable {svc : Service Snap} {α : Type} {a : View} {L : Proc.Exch (sdk Snap) → Prop}

/-- After the check the ack has passed the link's nonce. -/
theorem obeys_checkControl {owner : Id} {link : PeerLinkRecord} {key n : String}
    {env : SignedEnvelope} :
    Obeys (monitor : Monitor (sdk Snap) View) L
      (fun a' x => a'.want = a.want ∧ (x = .ok true → a'.Passed (owner, link.peerLinkId) n)) a
      (checkControl owner link key env n) := by
  unfold checkControl
  split
  · refine Watches.skip_bind watches (l := [.crypto]) (foot_core rfl) rfl
      (fun _ => ⟨rfl, fun h => by cases h⟩) fun verified => ?_
    split
    · refine obeys_js_bind ⟨trivial, fun x _ => ?_⟩
      match x with
      | .error _ => exact ⟨rfl, fun h => by cases h⟩
      | .ok none => exact ⟨rfl, fun _ => ⟨none, rfl, fun n h => by cases h⟩⟩
      | .ok (some n) =>
        dsimp only [Obeys, Goes]
        split
        · rename_i hn
          refine Watches.skip_bind watches (l := [.delete .ackNonce]) (foot_delete rfl) rfl
            (fun _ => ⟨rfl, fun h => by cases h⟩) fun _ =>
            ⟨rfl, fun _ => ⟨some n, rfl, fun m hm => ?_⟩⟩
          cases hm
          exact hn
        · exact ⟨rfl, fun h => by cases h⟩
    · exact ⟨rfl, fun h => by cases h⟩
  · exact ⟨rfl, fun h => by cases h⟩

theorem obeys_update {r : PeerLinkRecord} {v : Nat} {Q : View → Except Err PeerLinkRecord → Prop}
    (h : ∀ w, a.want = some w → a.Passed (r.localAccountId, r.peerLinkId) w) (hq : ∀ x, Q a x) :
    Obeys (monitor : Monitor (sdk Snap) View) L Q a (PeerLinks.update r v) := by
  refine Watches.skip_bind watches (l := [.get .peerLink]) (foot_get rfl) rfl
    (fun _ => hq _) fun stored => ?_
  refine Watches.skip_bind watches (l := []) foot_orThrow rfl (fun _ => hq _) fun current => ?_
  refine Watches.skip_bind watches (l := []) foot_ensure rfl (fun _ => hq _) fun _ => ?_
  refine Watches.skip_bind watches (l := []) foot_ensure rfl (fun _ => hq _) fun _ => ?_
  refine Watches.skip_bind watches (l := []) foot_ensure rfl (fun _ => hq _) fun _ => ?_
  refine Watches.skip_bind watches (l := []) foot_ensure rfl (fun _ => hq _) fun _ => ?_
  refine obeys_js_bind ⟨⟨⟨rfl, rfl⟩, fun w hw _ => h w hw⟩, fun x _ => ?_⟩
  cases x with
  | error e => exact hq _
  | ok u =>
    exact Watches.skip_bind watches (l := [.set .pair]) (foot_set rfl trivial) rfl
      (fun _ => hq _) fun _ => hq _

theorem obeys_commitSession {args : CommitArgs Snap}
    (h : ∀ w, a.want = some w →
        a.Passed (args.peerLinkRecord.localAccountId, args.peerLinkRecord.peerLinkId) w) :
    Obeys (monitor : Monitor (sdk Snap) View) L (fun a' _ => a' = a) a
      (commitSession svc args) := by
  have hlink : ∀ now stored p, Obeys (monitor : Monitor (sdk Snap) View) L (fun a' _ => a' = a) a
      (commitLink svc args now stored p) := by
    intro now stored p
    refine Watches.skip_bind watches (l := []) (foot_track foot_checkTransition) rfl
      (fun _ => rfl) fun _ => ?_
    refine obeys_track (obeys_update h fun x => ?_)
    cases x with
    | error e => rfl
    | ok next =>
      refine Watches.skip_bind watches (foot_track foot_appendEvent) rfl (fun _ => rfl) fun _ => ?_
      refine Watches.skip_bind watches (l := [.count]) (foot_track (foot_clearCounts rfl)) rfl
        (fun _ => rfl) fun _ => ?_
      refine Watches.skip_bind watches (l := [.count]) (foot_track (foot_markSuccess rfl)) rfl
        (fun _ => rfl) fun _ => ?_
      exact Watches.skip_bind watches (foot_track foot_buildSnapshot) rfl (fun _ => rfl) fun _ =>
        rfl
  unfold commitSession
  refine Watches.skip_bind watches (l := [.clock]) (foot_track (foot_clock rfl)) rfl
    (fun _ => rfl) fun c => ?_
  split
  · exact hlink _ _ _
  · refine Watches.skip_bind watches (foot_track foot_commitSessionId) rfl (fun _ => rfl) fun sid =>
      ?_
    exact Watches.skip_bind watches (foot_track foot_put) rfl (fun _ => rfl) fun stored =>
      hlink _ _ _

theorem obeys_ack {owner : Id} {b : Bytes} (ha : a.want = (svc.core.parseAck b).map (·.ackNonce)) :
    Obeys (monitor : Monitor (sdk Snap) View) Keyed (fun _ _ => True) a
      (handleIncomingHandshakeAck svc owner b) := by
  unfold handleIncomingHandshakeAck
  split
  · trivial
  · rename_i ack hack
    have hparse : svc.core.parseAck b = some ack := by
      split at hack
      · cases hack
      · exact hack
    refine obeys_js_bind (obeys_getByPair (watches _ rfl trivial) (fun _ => watches _ rfl trivial)
      (fun link hlink => ?_) trivial fun _ => trivial)
    refine obeys_js_bind ((obeys_checkControl (n := ack.ackNonce)).mono fun a' x hx => ?_)
    match x with
    | .error _ => trivial
    | .ok false => trivial
    | .ok true =>
      have hpass : ∀ w, a'.want = some w → a'.Passed (link.localAccountId, link.peerLinkId) w := by
        intro w hw
        rw [hx.1, ha, hparse, Option.map_some, Option.some.injEq] at hw
        rw [hlink, ← hw]
        exact hx.2 rfl
      refine Watches.skip_bind watches (l := [.clock]) (foot_clock rfl) rfl
        (fun _ => trivial) fun now => ?_
      refine Watches.skip_bind watches foot_sessionByLink rfl (fun _ => trivial) fun session => ?_
      refine obeys_attempt (obeys_untrack ((obeys_commitSession hpass).mono fun a'' y hy => ?_))
      subst hy
      match y with
      | .ok _ => trivial
      | .error (_, _) =>
        refine Watches.skip_bind watches foot_getByPair rfl (fun _ => trivial) fun
          | none => trivial
          | some f => ?_
        dsimp only
        split
        · exact Watches.skip_bind watches foot_buildSnapshot rfl (fun _ => trivial) fun _ => trivial
        · trivial

end

/-! ## The nonces of a log -/

theorem lastNonce_append {cell : Id × Id} {newer older : List (Ev Snap)}
    (h : lastNonce cell newer = none) : lastNonce cell (newer ++ older) = lastNonce cell older := by
  rw [lastNonce, List.findSome?_append, ← lastNonce, h, Option.none_or, lastNonce]

theorem lastNonce_cons {cell : Id × Id} {e : Ev Snap} {log : List (Ev Snap)}
    (h : storesNonce cell e = none) : lastNonce cell (e :: log) = lastNonce cell log := by
  rw [lastNonce, List.findSome?_cons_of_isNone (by rw [h]; rfl), lastNonce]

theorem lastNonce_stored {cell : Id × Id} {e : Ev Snap} {log : List (Ev Snap)} {n : Id}
    (h : storesNonce cell e = some n) : lastNonce cell (e :: log) = some n := by
  rw [lastNonce, List.findSome?_cons, h]

theorem storesNonce_get {cell : Id × Id} {e : Ev Snap} {k : Key} (h : e.op = .get k) :
    storesNonce cell e = none := by
  obtain ⟨t, o, r, f⟩ := e
  cases h
  rfl

theorem storesNonce_cases (cell : Id × Id) (e : Ev Snap) :
    storesNonce cell e = none ∧
    (∀ n, e.op = .set (.ackNonce cell.1 cell.2) n → e.fate.lands = false) ∨
    ∃ n, storesNonce cell e = some n ∧ e.op = .set (.ackNonce cell.1 cell.2) n ∧
      e.fate.lands = true := by
  obtain ⟨t, o, r, f⟩ := e
  unfold storesNonce
  split
  · rename_i o l n a f heq
    cases heq
    split
    · rename_i h
      obtain ⟨hl, rfl⟩ := h
      exact .inr ⟨n, rfl, rfl, hl⟩
    · rename_i h
      refine .inl ⟨rfl, fun n' hn => ?_⟩
      cases hn
      simpa using h
  · rename_i hno
    refine .inl ⟨rfl, fun n hn => ?_⟩
    cases hn
    exact (hno _ _ _ _ _ _ rfl).elim

/-! ## The invariant -/

variable [DecidableEq Snap] {svc : Service Snap}

def start (core : Core Snap) : Call → View
  | .ack _ b => ⟨(core.parseAck b).map (·.ackNonce), none⟩
  | _ => ⟨none, none⟩

def readOf (t : Nat) (log : List (Ev Snap)) : Option ((Id × Id) × Option Id) :=
  (Pool.mon monitor ⟨none, none⟩ t log).read

structure Inv (svc : Service Snap) (s : State Snap) : Prop where
  conforms : System.Conforms monitor Keyed (start svc.core) (fun _ _ _ => True) s
  filed : FiledStore s.mem.kv
  nonce : ∀ o l n, s.mem.kv.lookup (.ackNonce o l) = some n → lastNonce (o, l) s.log = some n
  /-- the nonce an ack has read was the last one then -/
  reads : ∀ t cell v, OfAck s t → readOf t s.log = some (cell, v) →
    ∃ newer : List (Ev Snap), ∃ e older n, s.log = newer ++ e :: older ∧ e.tid = t ∧
      e.op = .get (.ackNonce cell.1 cell.2) ∧ v = some n ∧ lastNonce cell older = some n
  bound : Bound svc.core s

omit [DecidableEq Snap] in
theorem mon_start {core : Core Snap} {c : Call} {t : Nat} {log : List (Ev Snap)} :
    Pool.mon monitor (start core c) t log = ⟨(start core c).want, readOf t log⟩ := by
  have hwant : ∀ w, Pool.mon (monitor : Monitor (sdk Snap) View) ⟨w, none⟩ t log = ⟨w,
      readOf t log⟩ := by
    intro w
    refine (Pool.mon_map (M := (monitor : Monitor (sdk Snap) View)) (N := monitor)
      (fun a : View => { a with want := w }) (fun a x => ?_) ⟨none, none⟩ t log).symm
    unfold monitor View.next
    dsimp only
    split <;> rfl
  cases c <;> exact hwant _

theorem obeys_program (c : Call) :
    Obeys monitor Keyed (fun _ _ => True) (start svc.core c) (program svc c) := by
  cases c with
  | ack owner b => exact obeys_js_bind ((obeys_ack rfl).mono fun _ x _ => by cases x <;> trivial)
  | _ => exact obeys_other (filed_program svc _) rfl

/-! ## One event -/

namespace Inv

variable {s s' : State Snap} {e : Ev Snap} {c : Call}
  {next : (sdk Snap).Ans e.op → Proc (sdk Snap) (Except Err Reply)}

theorem may (h : Inv svc s) (hf : Pool.Fires (system svc) s e c next s') :
    monitor.may ⟨(start svc.core c).want, readOf e.tid s.log⟩ e.op := by
  have := h.conforms.may hf
  rwa [mon_start] at this

theorem filed_op (h : Inv svc s) (hf : Pool.Fires (system svc) s e c next s') : Filed e.op := by
  have hmay := h.may hf
  unfold monitor at hmay
  dsimp only at hmay
  split at hmay
  · rename_i heq
    rw [heq]
    exact hmay.1
  · exact hmay

theorem nonce_fires (h : Inv svc s) (hf : Pool.Fires (system svc) s e c next s') (o l n : Id)
    (hn : s'.mem.kv.lookup (.ackNonce o l) = some n) : lastNonce (o, l) s'.log = some n := by
  rw [hf.log]
  rcases storesNonce_cases (o, l) e with ⟨hno, hop⟩ | ⟨n', hst, hop, hl⟩
  · rw [lastNonce_cons hno]
    rw [kv_fires hf] at hn
    rcases lookup_effect hn with hn | ⟨hset, hl⟩
    · exact h.nonce o l n hn
    · rw [hop n hset] at hl; cases hl
  · rw [lastNonce_stored hst]
    rw [kv_fires hf, hop, effect, hl, if_pos rfl, AList.lookup_insert] at hn
    exact hn

omit [DecidableEq Snap] in
theorem readOf_cons {t : Nat} {log : List (Ev Snap)} {cell : Id × Id} {v : Option Id}
    (h : readOf t (e :: log) = some (cell, v)) :
    readOf t log = some (cell, v) ∨
    e.tid = t ∧ e.exch = ⟨.get (.ackNonce cell.1 cell.2), .ok v⟩ := by
  by_cases ht : e.tid = t
  · subst ht
    rw [readOf, Pool.mon_self] at h
    unfold monitor View.next at h
    dsimp only at h
    split at h
    · rename_i heq
      cases h
      exact .inr ⟨rfl, heq⟩
    · exact .inl h
  · rw [readOf, Pool.mon_other ht] at h
    exact .inl h

theorem ofAck_back (hf : Pool.Fires (system svc) s e c next s') {t : Nat} (h : OfAck s' t) :
    OfAck s t := by
  obtain ⟨c', p, hth, hc⟩ := h
  obtain ⟨p', hp'⟩ := hf.called hth
  exact ⟨c', p', hp', hc⟩

theorem establishes_back (hf : Pool.Fires (system svc) s e c next s') {core : Core Snap}
    {e' : Ev Snap} {cell : Id × Id} {nonce : String} (h : Establishes core s' e' cell nonce) :
    Establishes core s e' cell nonce := by
  obtain ⟨hop, hl, owner, b, ack, p, hth, hack⟩ := h
  obtain ⟨p', hp'⟩ := hf.called hth
  exact ⟨hop, hl, owner, b, ack, p', hp', hack⟩

theorem reads_fires (h : Inv svc s) (hf : Pool.Fires (system svc) s e c next s') (hok : Guarded s e)
    (t : Nat) (cell : Id × Id) (v : Option Id) (hack : OfAck s' t)
    (hr : readOf t s'.log = some (cell, v)) :
    ∃ newer : List (Ev Snap), ∃ e' older n, s'.log = newer ++ e' :: older ∧ e'.tid = t ∧
      e'.op = .get (.ackNonce cell.1 cell.2) ∧ v = some n ∧ lastNonce cell older = some n := by
  have hack := ofAck_back hf hack
  rw [hf.log] at hr ⊢
  rcases readOf_cons hr with hr | ⟨rfl, hx⟩
  · obtain ⟨newer, e', older, n, hlog, hrest⟩ := h.reads t cell v hack hr
    exact ⟨e :: newer, e', older, n, by rw [hlog]; rfl, hrest⟩
  · cases v with
    | none => exact (hok.found hack _ _ hx).elim
    | some n =>
      obtain ⟨t, o, r, f⟩ := e
      simp only [Event.exch, Proc.Exch.mk.injEq] at hx
      obtain ⟨rfl, hx⟩ := hx
      cases hx
      exact ⟨[], _, s.log, n, rfl, rfl, rfl, rfl, h.nonce _ _ n (act_get_ok hf.act)⟩

/-- The write by which an ack moves its link. -/
theorem bound_now (h : Inv svc s) (hf : Pool.Fires (system svc) s e c next s') (hok : Guarded s e)
    {cell : Id × Id} {nonce : String} (he : Establishes svc.core s e cell nonce) :
    (lastNonce cell s.log).map Id.val = some nonce := by
  obtain ⟨⟨r, hop, hst⟩, hl, owner, b, ack, p, hth, hparse, rfl⟩ := he
  cases hf.thread.symm.trans hth
  have hack : OfAck s e.tid := ⟨_, _, hth, rfl⟩
  have hmay := h.may hf
  rw [hop] at hmay
  obtain ⟨v, hread, hv⟩ := hmay.2 ack.ackNonce (by simp only [start, hparse, Option.map_some]) hst
  obtain ⟨newer, e', older, n, hlog, htid, hget, rfl, hlast⟩ := h.reads e.tid cell v hack hread
  have hno := hok.settled hack cell.1 cell.2 r hop hst hl newer e' older hlog htid hget
  rw [hlog, lastNonce_append hno, lastNonce_cons (storesNonce_get hget), hlast,
    Option.map_some, hv n rfl]

theorem fires (h : Inv svc s) (hf : Pool.Fires (system svc) s e c next s') (hok : Guarded s e) :
    Inv svc s' where
  conforms := System.conforms_fires h.conforms hf (h.filed.keyed hf)
  filed := h.filed.fires hf (h.filed_op hf)
  nonce := h.nonce_fires hf
  reads := h.reads_fires hf hok
  bound newer e' older cell nonce hlog he := by
    have he := establishes_back hf he
    rw [hf.log] at hlog
    cases newer with
    | nil => cases hlog; exact h.bound_now hf hok he
    | cons e'' newer =>
      rw [List.cons_append, List.cons.injEq] at hlog
      exact h.bound newer e' older cell nonce hlog.2 he

theorem spawn (h : Inv svc s) (c : Call) : Inv svc (s.spawn (system svc) c) where
  conforms := System.conforms_spawn h.conforms (obeys_program c)
  filed := h.filed
  nonce := h.nonce
  reads t cell v hack hr := by
    rcases Nat.lt_or_ge t s.threads.length with hlt | hge
    · refine h.reads t cell v ?_ hr
      obtain ⟨c', p, hth, hc⟩ := hack
      exact ⟨c', p, (Pool.spawn_lt hlt).symm.trans hth, hc⟩
    · have : readOf t s.log = none := by
        rw [readOf,
          Pool.mon_start fun e he => Nat.ne_of_lt (Nat.lt_of_lt_of_le (h.conforms.tids e he) hge)]
      rw [Pool.spawn, this] at hr
      cases hr
  bound newer e older cell nonce hlog he := by
    have hlt := h.conforms.tids e (by rw [show s.log = _ from hlog]; simp)
    obtain ⟨hop, hl, owner, b, ack, p, hth, hack⟩ := he
    exact h.bound newer e older cell nonce hlog
      ⟨hop, hl, owner, b, ack, p, (Pool.spawn_lt hlt).symm.trans hth, hack⟩

end Inv

/-! ## Whole runs -/

theorem inv_inductive (svc : Service Snap) : ((system svc).lts guarded).Inductive (Inv svc) :=
  System.inductive_of
    (fun m hm =>
      { conforms := System.conforms_init m
        filed := hm.1
        nonce := fun o l n hn => by rw [hm.2 o l] at hn; cases hn
        reads := fun t cell v _ hr => by cases hr
        bound := fun newer e older cell nonce hlog => by simp at hlog })
    (fun _ c h _ => h.spawn c)
    (fun _ _ _ _ _ h hf hok => h.fires hf hok)

/-- **Acks are bound to the last handshake**, in every run whose acks find a
nonce that no new handshake replaces. -/
theorem ack_bound (svc : Service Snap) (s : State Snap)
    (hr : ((system svc).lts guarded).Reachable s) : Bound svc.core s :=
  ((inv_inductive svc).reachable s hr).bound

/-! ## Concrete runs -/

def anyJudge : System.Judge (acceptor : Rules Snap) where
  may _ _ := true
  ok _ _ := true
  may_iff _ _ _ := trivial
  ok_iff _ _ _ := trivial

/-- The exchange is a read that finds no nonce. -/
def findsNone : Proc.Exch (sdk Snap) → Bool
  | ⟨.get (.ackNonce ..), .ok none⟩ => true
  | _ => false

/-- Call `t` has not read a nonce. -/
def unread (t : Nat) (log : List (Ev Snap)) : Bool :=
  log.all fun e => e.tid != t || classOf e.op != .get .ackNonce

/-- No event stores a nonce after a nonce read of call `t`. -/
def calm (t : Nat) : List (Ev Snap) → Bool
  | [] => true
  | e :: log => (classOf e.op != .set .ackNonce || unread t log) && calm t log

omit [DecidableEq Snap] in
theorem lastNonce_of_calm {t : Nat} {cell : Id × Id} {e : Ev Snap} {older : List (Ev Snap)}
    (ht : e.tid = t) (ho : e.op = .get (.ackNonce cell.1 cell.2)) :
    ∀ {newer : List (Ev Snap)}, calm t (newer ++ e :: older) = true → lastNonce cell newer = none
  | [], _ => rfl
  | e' :: newer, h => by
    simp only [List.cons_append, calm, Bool.and_eq_true, Bool.or_eq_true] at h
    rcases storesNonce_cases cell e' with ⟨hno, -⟩ | ⟨n, -, hop, -⟩
    · rw [lastNonce_cons hno]
      exact lastNonce_of_calm ht ho h.2
    · rcases h.1 with h | h
      · rw [hop] at h
        simp [classOf, kindOf] at h
      · have := List.all_eq_true.mp h e (by simp)
        rw [ho] at this
        simp [ht, classOf, kindOf] at this

def guardedJudge : System.Judge (guarded : Rules Snap) where
  may _ _ := true
  ok s e := !findsNone e.exch && (classOf e.op != .set .peerLink || calm e.tid s.log)
  may_iff _ _ _ := trivial
  ok_iff s e h := by
    simp only [Bool.and_eq_true, Bool.not_eq_true', Bool.or_eq_true] at h
    refine ⟨fun _ o l hx => ?_, fun _ o l r hop _ _ newer e' older hlog ht hget => ?_⟩
    · rw [hx] at h
      cases h.1
    · rcases h.2 with h | h
      · rw [hop] at h
        simp [classOf, kindOf] at h
      · rw [hlog] at h
        exact lastNonce_of_calm ht hget h

open Counting

/-- Account `b`'s invite. -/
def envelope : Envelope :=
  ⟨none, some d, some b, none, 90, none, [],
    some ⟨some b, some ⟨some b, some b, none, 1, some 90, some b, none, []⟩⟩, none⟩

/-- Account `a` as it starts out: with its identity keys, and no link. -/
def fresh : Mem Nat :=
  .ofStore ((∅ : Store Nat).insert (.identity a)
    (AccountKeys.toStored ⟨⟨a, a⟩, ⟨a, a⟩, a, some (bindingOf a 50)⟩)) []

theorem fresh_init : (acceptor : Rules Nat).init fresh := by
  refine ⟨FiledStore.empty.insert trivial, fun o l => ?_⟩
  simp only [fresh, Mem.ofStore]
  rw [AList.lookup_insert_ne (show Key.ackNonce o l ≠ .identity a from nofun)]
  rfl

/-- Account `a` accepts the invite with nonce `c`, up to the point where it
has stored that nonce. -/
def accepting : List (System.Move Fate Call) :=
  [.call (.accept ⟨envelope, b, a, none, true, none, false⟩), .go 0 52, .run 0 (.fresh c), .go 0 2]

/-- The last event moves a link into `session_established`, by an ack whose
nonce is `c` or is not, as `ofLast` says; `c` is the last nonce stored. -/
def moved (ofLast : Bool) (s : State Nat) : Bool :=
  match s.log with
  | ⟨t, .set (.peerLink o l) r, _, f⟩ :: older =>
    r.state = .sessionEstablished && f.lands && lastNonce (o, l) older = some c &&
      (match s.threads[t]? with
        | some ⟨.ack _ bytes, _⟩ =>
          (core.parseAck bytes).any fun ack => (ack.ackNonce = c.val) = ofLast
        | _ => false)
  | _ => false

theorem not_bound {s : State Nat} (h : moved false s = true) : ¬ Bound core s := by
  intro hb
  unfold moved at h
  split at h
  · rename_i t o l r ans f older hlog
    split at h
    · rename_i owner bytes p hth
      simp only [Bool.and_eq_true, decide_eq_true_eq, Option.any_eq_true] at h
      obtain ⟨⟨⟨hst, hl⟩, hlast⟩, ack, hack, hn⟩ := h
      have := hb [] _ older (o, l) ack.ackNonce hlog
        ⟨⟨r, rfl, hst⟩, hl, owner, bytes, ack, p, hth, hack, rfl⟩
      rw [hlast, Option.map_some, Option.some.injEq] at this
      simp [this] at hn
    · simp at h
  · cases h

/-- The ack of nonce `c` consumes the stored nonce and is suspended; an ack of
nonce `d` finds none, and moves the link. -/
theorem consumed_nonce :
    ∃ s, ((system Counting.svc).lts acceptor).Reachable s ∧ ¬ Bound Counting.core s := by
  obtain ⟨s, hr, hs⟩ := System.reachable_of_play (S := system Counting.svc) anyJudge smooth
    (accepting ++ [.call (.ack a [2]), .go 1 5, .call (.ack a [3]), .go 2 13]) (m := fresh)
    (P := moved false) fresh_init (by decide +kernel)
  exact ⟨s, hr, not_bound hs⟩

/-- The ack of nonce `c` alone. -/
theorem ack_bound_once :
    ∃ s, ((system Counting.svc).lts guarded).Reachable s ∧ moved true s = true ∧
      Bound Counting.core s := by
  obtain ⟨s, hr, hs⟩ := System.reachable_of_play (S := system Counting.svc) guardedJudge smooth
    (accepting ++ [.call (.ack a [2]), .go 1 14]) (m := fresh) (P := moved true) fresh_init
    (by decide +kernel)
  exact ⟨s, hr, hs, ack_bound Counting.svc s hr⟩

end RezSdk.L4.AckNonce
