import RezSdk.Core.Histories
import RezSdk.L3Service.Counting
import RezSdk.L4Runs.Filing

/-!
# A reject against the calls that confirm the link

`handleHandshakeReject` deletes the link's session and only then moves the
link, conditionally on its version. An ack or a decrypt in between writes the
session and establishes the link: the delete takes the session, the
conditional update fails, and the link stays established without one
(`reject_deletes_session`). A session deleted earlier is also not missed by
an ack, which then commits the link with the session id it has on record.

`session_kept` says when the session is kept. What the calls give is that the
session an established link is written with was written by the same call
before (`obeys_program`), and that a session is deleted only by a reject that
has read its link as not yet confirmed (`obeys_drops`).
-/
namespace RezSdk.L4.RejectRace

open RezSdk.L1 RezSdk.L2 RezSdk.L3

variable {Snap : Type}

/-! ## The property -/

/-- The link is established with session `sid`. -/
def Names (r : PeerLinkRecord) (sid : Id) : Prop :=
  r.state = .sessionEstablished ∧ r.activeSessionId = some sid

/-- The session an established link names is in the store. -/
def Kept (kv : Store Snap) : Prop :=
  ∀ o l r sid, kv.lookup (.peerLink o l) = some r → Names r sid →
  (kv.lookup (.session o sid)).isSome = true

/-! ## The runs -/

def isAck : Call → Bool
  | .ack .. => true
  | _ => false

def isReject : Call → Bool
  | .reject .. => true
  | _ => false

def confirms : Call → Bool
  | .ack .. => true
  | .reject .. => true
  | .decrypt .. => true
  | _ => false

/-- Any acks, rejects and decrypts. -/
def confirming : Rules Snap where
  init m := FiledStore m.kv ∧ Kept m.kv
  may _ c := confirms c = true
  ok _ _ := True

/-- Call `t` is an ack. -/
def OfAck (s : State Snap) (t : Nat) : Prop := ∃ c p, s.threads[t]? = some ⟨c, p⟩ ∧ isAck c = true

/-- The event writes the link, established with session `sid`. -/
def Confirms (e : Ev Snap) (o l sid : Id) : Prop :=
  ∃ r, e.op = .set (.peerLink o l) r ∧ Names r sid ∧ e.fate.lands = true

def Deletes (e : Ev Snap) (o sid : Id) : Prop :=
  e.op = .delete (.session o sid) ∧ e.fate.lands = true

def Writes (e : Ev Snap) (t : Nat) (o sid : Id) : Prop :=
  e.tid = t ∧ ∃ v, e.op = .set (.session o sid) v

/-- Call `t` has read the link, and no confirmation of it with session `sid` has landed since. -/
def Unconfirmed (log : List (Ev Snap)) (t : Nat) (o l sid : Id) : Prop :=
  ∃ newer : List (Ev Snap), ∃ e older x, log = newer ++ e :: older ∧ e.tid = t ∧
    e.exch = ⟨.get (.peerLink o l), .ok x⟩ ∧ ∀ y ∈ newer, ¬ Confirms y o l sid

structure Guarded (s : State Snap) (e : Ev Snap) : Prop where
  /-- no confirmation lands between a call's read of the link and its delete
  of the link's session -/
  free : ∀ o sid, Deletes e o sid → ∀ l r, s.mem.kv.lookup (.peerLink o l) = some r → Names r sid →
    Unconfirmed s.log e.tid o l sid
  /-- no session is deleted between a call's last write of it and the link
  write of that call -/
  apart : ∀ o l sid, Confirms e o l sid →
    ∀ (newer : List (Ev Snap)) e' older, s.log = newer ++ e' :: older → Writes e' e.tid o sid →
      (∀ x ∈ newer, ¬ Writes x e.tid o sid) → ∀ x ∈ newer, ¬ Deletes x o sid
  /-- an ack that has found no session to write commits a link that names
  none -/
  found : OfAck s e.tid → ∀ o l sid, Confirms e o l sid →
    ∃ x ∈ s.log, x.tid = e.tid ∧ classOf x.op = .set .session

def guarded : Rules Snap where
  init := confirming.init
  may := confirming.may
  ok := Guarded

/-! ## What the calls do -/

/-- `bare`: the call may commit without a session; `drops`: it may delete one;
`wrote`: its last session write, and whether it returned. -/
structure View where
  bare : Bool
  drops : Bool
  wrote : Option ((Id × Id) × Bool)

def View.next (a : View) : Proc.Exch (sdk Snap) → View
  | ⟨.set (.session o sid) _, r⟩ => { a with wrote := some ((o, sid), Except.toBool r) }
  | _ => a

/-- The call may write a link of `o` that is established with `sid`. -/
def View.Backs (a : View) (o sid : Id) : Prop :=
  a.wrote = some ((o, sid), true) ∨ a.bare = true ∧ a.wrote = none

def monitor : Monitor (sdk Snap) View where
  next := View.next
  may a
    | .set (.peerLink o l) r =>
      Filed (.set (.peerLink o l) r : Op Snap) ∧ ∀ sid, Names r sid → a.Backs o sid
    | .delete (.session _ _) => a.drops = true
    | o => Filed o

def watched : List OpClass := [.set .session, .set .peerLink, .delete .session]

theorem watches : Watches (monitor : Monitor (sdk Snap) View) watched := by
  intro o ho hfiled a
  cases o with
  | set k v => cases k <;> first | exact ⟨hfiled, fun _ => rfl⟩ | cases ho
  | delete k => cases k <;> first | exact ⟨hfiled, fun _ => rfl⟩ | cases ho
  | _ => exact ⟨hfiled, fun _ => rfl⟩

section

variable {svc : Service Snap} {α : Type} {a : View} {L : Proc.Exch (sdk Snap) → Prop}

theorem drops_next (a : View) (x : Proc.Exch (sdk Snap)) : (a.next x).drops = a.drops := by
  unfold View.next
  split <;> rfl

/-- A helper that writes no link, and drops no session unless it may. -/
theorem obeys_free {l : List OpClass} {p : Proc (sdk Snap) α} (hp : Foot l p)
    (hl : l.contains (.set .peerLink) = false) :
    ∀ {a : View}, (l.contains (.delete .session) = true → a.drops = true) →
      Obeys monitor L (fun a' _ => a'.drops = a.drops) a p := by
  induction p with
  | ret x => exact fun _ => rfl
  | ask o next ih =>
    intro a ha
    refine ⟨?_, fun r _ => ?_⟩
    · have hclass := hp.1
      unfold monitor
      dsimp only
      split
      · rw [show classOf _ = OpClass.set .peerLink from rfl, hl] at hclass
        cases hclass.1
      · exact ha hclass.1
      · exact hclass.2
    · have hdrops : (a.next ⟨o, r⟩).drops = a.drops := drops_next a ⟨o, r⟩
      have hrest := ih r (hp.2 r) (a := a.next ⟨o, r⟩) fun h => hdrops.trans (ha h)
      exact hrest.mono fun a' _ h => h.trans hdrops

theorem obeys_apart {l : List OpClass} {p : Proc (sdk Snap) α} (hp : Foot l p)
    (hl : l.contains (.set .peerLink) = false) (hd : l.contains (.delete .session) = false) :
    Obeys monitor L (fun _ _ => True) a p :=
  (obeys_free hp hl fun h => by rw [hd] at h; cases h).mono fun _ _ _ => trivial

theorem obeys_put {r : SessionRecord Snap} :
    Obeys monitor L (fun a' x => ∀ r', x = .ok r' → r'.sessionId = r.sessionId ∧
      a'.wrote = some ((r.localAccountId, r.sessionId), true)) a (Sessions.put r) := by
  refine Watches.skip_bind watches (l := [.get .session]) (foot_get rfl) rfl
    (fun _ _ h => by cases h) fun ex => ?_
  refine obeys_js_bind ⟨⟨rfl, rfl⟩, fun x _ => ?_⟩
  cases x with
  | error e => exact fun _ h => by cases h
  | ok u =>
    refine Watches.skip_bind watches (l := [.set .sessionByLink, .set .sessionByDevice]) ?_ rfl
      (fun _ _ h => by cases h) fun _ r' h => ?_
    · unfold Sessions.setIndex
      split <;> exact foot_set rfl trivial
    · cases h
      exact ⟨rfl, rfl⟩

theorem obeys_update {r : PeerLinkRecord} {v : Nat}
    (h : ∀ sid, Names r sid → a.Backs r.localAccountId sid) :
    Obeys (monitor : Monitor (sdk Snap) View) L (fun _ _ => True) a (PeerLinks.update r v) := by
  refine Watches.skip_bind watches (l := [.get .peerLink]) (foot_get rfl) rfl
    (fun _ => trivial) fun stored => ?_
  refine Watches.skip_bind watches (l := []) foot_orThrow rfl (fun _ => trivial) fun current => ?_
  refine Watches.skip_bind watches (l := []) foot_ensure rfl (fun _ => trivial) fun _ => ?_
  refine Watches.skip_bind watches (l := []) foot_ensure rfl (fun _ => trivial) fun _ => ?_
  refine Watches.skip_bind watches (l := []) foot_ensure rfl (fun _ => trivial) fun _ => ?_
  refine Watches.skip_bind watches (l := []) foot_ensure rfl (fun _ => trivial) fun _ => ?_
  refine obeys_js_bind ⟨⟨⟨rfl, rfl⟩, h⟩, fun x _ => ?_⟩
  cases x with
  | error e => trivial
  | ok u =>
    exact Watches.skip_bind watches (l := [.set .pair]) (foot_set rfl trivial) rfl
      (fun _ => trivial) fun _ => trivial

theorem obeys_commitLink {args : CommitArgs Snap} {now : Nat} {stored : Option (SessionRecord Snap)}
    {p : Progress Snap}
    (h : ∀ sid, Names (args.nextLink stored now) sid →
        a.Backs args.peerLinkRecord.localAccountId sid) :
    Obeys (monitor : Monitor (sdk Snap) View) L (fun _ _ => True) a
      (commitLink svc args now stored p) := by
  refine Watches.skip_bind watches (l := []) (foot_track foot_checkTransition) rfl
    (fun _ => trivial) fun _ => ?_
  refine obeys_track ((obeys_update h).mono fun a' x _ => ?_)
  cases x with
  | error e => trivial
  | ok next =>
    refine Watches.skip_bind watches (foot_track foot_appendEvent) rfl (fun _ => trivial) fun _ =>
      ?_
    refine Watches.skip_bind watches (l := [.count]) (foot_track (foot_clearCounts rfl)) rfl
      (fun _ => trivial) fun _ => ?_
    refine Watches.skip_bind watches (l := [.count]) (foot_track (foot_markSuccess rfl)) rfl
      (fun _ => trivial) fun _ => ?_
    exact Watches.skip_bind watches (foot_track foot_buildSnapshot) rfl (fun _ => trivial) fun _ =>
      trivial

/-- A commit establishes its link with the session it has written, or without
one. -/
theorem obeys_commitSession (args : CommitArgs Snap)
    (ho : args.peerLinkRecord.localAccountId = args.owner)
    (h : args.snapshot = none → a.bare = true ∧ a.wrote = none) :
    Obeys (monitor : Monitor (sdk Snap) View) L (fun _ _ => True) a (commitSession svc args) := by
  refine Watches.skip_bind watches (l := [.clock]) (foot_track (foot_clock rfl)) rfl
    (fun _ => trivial) fun c => ?_
  split
  · rename_i hno
    exact obeys_commitLink fun _ _ => .inr (h hno)
  · refine Watches.skip_bind watches (foot_track foot_commitSessionId) rfl
      (fun _ => trivial) fun sid => ?_
    refine obeys_track (obeys_put.mono fun a' x hx => ?_)
    cases x with
    | error e => trivial
    | ok stored =>
      obtain ⟨hid, hw⟩ := hx stored rfl
      refine obeys_commitLink fun sid' hn => .inl ?_
      have : some stored.sessionId = some sid' := hn.2
      rw [hw, ho, ← Option.some.inj this, hid]
      rfl

end

section

variable [DecidableEq Snap] {svc : Service Snap} {a : View}

theorem obeys_recoverLink (svc : Service Snap) {args : CommitArgs Snap} {p : Progress Snap}
    {e : Err} (hs : args.snapshot ≠ none) :
    ∀ fresh : Option PeerLinkRecord, (∀ f, fresh = some f → f.localAccountId = args.owner) →
      Obeys (monitor : Monitor (sdk Snap) View) Keyed (fun _ _ => True) a
        (recoverLink svc args p e fresh)
  | none, _ => obeys_apart foot_keepPlaintext rfl rfl
  | some f, hf => by
    by_cases hest : f.state = .sessionEstablished
    · simp only [recoverLink, hest]
      exact obeys_apart foot_keepPlaintext rfl rfl
    · simp only [recoverLink, hest]
      refine obeys_bind ((obeys_commitSession { args with peerLinkRecord := f } (hf f rfl)
        fun h => absurd h hs).mono fun a' x _ => ?_)
      rcases x with ⟨p', err⟩ | done
      · exact obeys_apart foot_recoverRetry rfl rfl
      · trivial

theorem obeys_commitAfterDecrypt {args : CommitArgs Snap} (hs : args.snapshot ≠ none)
    (ho : args.peerLinkRecord.localAccountId = args.owner) :
    Obeys (monitor : Monitor (sdk Snap) View) Keyed (fun _ _ => True) a
      (commitSessionAfterDecrypt svc args) := by
  refine obeys_bind ((obeys_commitSession args ho fun h => absurd h hs).mono fun a' x _ => ?_)
  match x with
  | .ok _ => trivial
  | .error (p, e) =>
    refine obeys_js_bind ((obeys_apart foot_confirm rfl rfl).mono fun a' x _ => ?_)
    match x with
    | .error _ => trivial
    | .ok (durable, p) =>
      refine Watches.skip_bind watches (l := []) foot_ensure rfl (fun _ => trivial) fun _ => ?_
      refine obeys_js_bind ⟨trivial, fun x hx => ?_⟩
      match x with
      | .error _ => trivial
      | .ok none => exact obeys_recoverLink svc hs none fun f h => by cases h
      | .ok (some f) => exact obeys_recoverLink svc hs (some f) fun f' h => by cases h; exact hx.1

theorem obeys_decrypt (owner peer : Id) (pkt : Bytes) :
    Obeys (monitor : Monitor (sdk Snap) View) Keyed (fun _ _ => True) a
      (decryptDirectMessage svc owner peer pkt) := by
  refine Watches.skip_bind watches (l := []) foot_ensure rfl (fun _ => trivial) fun _ => ?_
  refine obeys_js_bind (obeys_getByPair (watches _ rfl trivial) (fun _ => watches _ rfl trivial)
    (fun link hlink => ?_) trivial fun _ => trivial)
  refine obeys_js_bind (obeys_orThrow (fun l hl => ?_) fun _ => trivial)
  cases hl
  refine Watches.skip_bind watches foot_sessionByLink rfl (fun _ => trivial) fun session => ?_
  refine Watches.skip_bind watches (l := []) foot_orThrow rfl (fun _ => trivial) fun record => ?_
  refine Watches.skip_bind watches (l := []) foot_ensure rfl (fun _ => trivial) fun _ => ?_
  refine Watches.skip_bind watches (l := [.codec]) (foot_core rfl) rfl (fun _ => trivial) fun out =>
    ?_
  refine Watches.skip_bind watches (l := []) foot_ensure rfl (fun _ => trivial) fun _ => ?_
  split
  · exact obeys_apart (l := [.count]) (foot_bind (foot_countFailure rfl) fun _ =>
      foot_throw) rfl rfl
  · refine Watches.skip_bind watches (l := [.count]) (foot_clearCounts rfl) rfl
      (fun _ => trivial) fun _ => ?_
    unfold commitDecrypt
    split
    · refine Watches.skip_bind watches (l := [.clock]) (foot_clock rfl) rfl
        (fun _ => trivial) fun now => ?_
      refine obeys_js_bind ((obeys_commitAfterDecrypt (by nofun) hlink).mono fun a' x _ => ?_)
      cases x <;> trivial
    · exact obeys_apart (l := .clock :: recoveryFoot)
        (foot_bind (foot_clock rfl) fun _ => foot_bind (foot_put.mono (by decide)) fun _ =>
          foot_bind (foot_buildSnapshot.mono (by decide)) fun _ => foot_pure) rfl rfl

end

section

variable {svc : Service Snap} {a : View}

theorem obeys_ack (ha : a = ⟨true, false, none⟩) (owner : Id) (b : Bytes) :
    Obeys (monitor : Monitor (sdk Snap) View) Keyed (fun _ _ => True) a
      (handleIncomingHandshakeAck svc owner b) := by
  unfold handleIncomingHandshakeAck
  split
  · trivial
  · rename_i ack _
    refine obeys_js_bind (obeys_getByPair (watches _ rfl trivial) (fun _ => watches _ rfl trivial)
      (fun link hlink => ?_) trivial fun _ => trivial)
    refine Watches.skip_bind watches foot_checkControl rfl (fun _ => trivial) fun ok => ?_
    split
    · refine Watches.skip_bind watches (l := [.clock]) (foot_clock rfl) rfl
        (fun _ => trivial) fun now => ?_
      refine Watches.skip_bind watches foot_sessionByLink rfl (fun _ => trivial) fun session => ?_
      refine obeys_attempt (obeys_untrack (Obeys.mono (fun a' y _ => ?_)
        (obeys_commitSession _ hlink fun _ => by rw [ha]; exact ⟨rfl, rfl⟩)))
      match y with
      | .ok _ => trivial
      | .error (_, _) =>
        refine obeys_apart (l := .get .pair :: .get .peerLink :: recoveryFoot)
          (foot_bind (foot_getByPair.mono (by decide)) fun
          | none => foot_throw
          | some f => ?_) rfl rfl
        dsimp only
        split
        · exact foot_bind (foot_buildSnapshot.mono (by decide)) fun _ => foot_pure
        · exact foot_throw
    · trivial

/-- A reject writes no established link. -/
theorem obeys_reject (ha : a.drops = true) (owner : Id) (b : Bytes) :
    Obeys (monitor : Monitor (sdk Snap) View) Keyed (fun _ _ => True) a
      (handleHandshakeReject svc owner b) := by
  unfold handleHandshakeReject
  split
  · trivial
  · refine Watches.skip_bind watches foot_getByPair rfl (fun _ => trivial) fun
      | none => trivial
      | some link => ?_
    refine Watches.skip_bind watches foot_checkControl rfl (fun _ => trivial) fun ok => ?_
    split
    · refine Watches.skip_bind watches (l := [.clock]) (foot_clock rfl) rfl
        (fun _ => trivial) fun now => ?_
      refine Watches.skip_bind watches foot_sessionByLink rfl (fun _ => trivial) fun session => ?_
      refine obeys_js_bind ((obeys_free foot_dropSession rfl fun _ => ha).mono fun a' x _ => ?_)
      cases x with
      | error e => trivial
      | ok _ => ?_
      refine Watches.skip_bind watches (l := [.delete .postCap]) (foot_delete rfl) rfl
        (fun _ => trivial) fun _ => ?_
      refine Watches.skip_bind watches foot_listAttempts rfl (fun _ => trivial) fun rows => ?_
      refine Watches.skip_bind watches foot_rejectAttempts rfl (fun _ => trivial) fun _ => ?_
      refine Watches.skip_bind watches (l := []) foot_checkTransition rfl
        (fun _ => trivial) fun _ => ?_
      refine obeys_js_bind
        (Obeys.mono (fun a' x _ => ?_) (obeys_update fun sid hn => by cases hn.1))
      cases x with
      | error e => trivial
      | ok rejected =>
        exact Watches.skip_bind watches foot_appendEvent rfl (fun _ => trivial) fun _ =>
          Watches.skip_bind watches foot_buildSnapshot rfl (fun _ => trivial) fun _ => trivial
    · trivial

end

/-! ### What a reject has read when it deletes -/

/-- Every link that was read waits for its confirmation. -/
def Waits (τ : List (Proc.Exch (sdk Snap))) : Prop :=
  ∀ x ∈ τ, ∀ o l r, x = ⟨.get (.peerLink o l), .ok (some r)⟩ → awaitsConfirm r = true

/-- A reject deletes a session only then. -/
def Drops (c : Call) (τ : List (Proc.Exch (sdk Snap))) (o : Op Snap) : Prop :=
  isReject c = true → classOf o = .delete .session → Waits τ

abbrev Lawful : Proc.Exch (sdk Snap) → Prop := fun _ => True

section

variable {svc : Service Snap} {α β : Type} {l : List OpClass} {c : Call}
  {τ : List (Proc.Exch (sdk Snap))}

theorem Waits.cons (h : Waits τ) {x : Proc.Exch (sdk Snap)} (hx : classOf x.op ≠ .get .peerLink) :
    Waits (x :: τ) := by
  intro y hy o l r hyr
  rcases List.mem_cons.mp hy with rfl | hy
  · exact absurd (by rw [hyr]; rfl) hx
  · exact h y hy o l r hyr

theorem drops_get {k : Key} : Drops c τ (.get k) := fun _ h => by cases h

/-- A helper that reads no link. -/
theorem obeys_waiting {p : Proc (sdk Snap) α} (hp : Foot l p)
    (hl : l.contains (.get .peerLink) = false) :
    ∀ {τ : List (Proc.Exch (sdk Snap))}, Waits τ →
      Obeys (.history (Drops c)) Lawful (fun τ' _ => Waits τ') τ p := by
  induction p with
  | ret x => exact fun h => h
  | ask o next ih =>
    refine fun h => ⟨fun _ _ => h, fun r _ => ih r (hp.2 r) (h.cons fun ho => ?_)⟩
    have hclass := hp.1.1
    rw [show classOf o = OpClass.get .peerLink from ho, hl] at hclass
    cases hclass

/-- A helper that deletes no session. -/
theorem obeys_past {p : Proc (sdk Snap) α} (hp : Foot l p)
    (hl : l.contains (.delete .session) = false) :
    Obeys (.history (Drops c)) Lawful (fun _ _ => True) τ p := by
  have hall : p.All fun o => l.contains (classOf o) = true ∧ Filed o := hp
  refine obeys_grows (fun τ' o ho _ hclass => ?_) hall fun _ _ _ => trivial
  rw [hclass, hl] at ho
  cases ho.1

theorem obeys_past_bind {p : Sdk Snap α} {f : α → Sdk Snap β} (hp : Foot l p)
    (hl : l.contains (.delete .session) = false)
    (hf : ∀ τ v, Obeys (.history (Drops c)) Lawful (fun _ _ => True) τ (f v)) :
    Obeys (.history (Drops c)) Lawful (fun _ _ => True) τ (p >>= f : Sdk Snap β) := by
  refine obeys_js_bind ((obeys_past hp hl).mono fun τ' x _ => ?_)
  cases x with
  | error e => trivial
  | ok v => exact hf τ' v

theorem obeys_waiting_bind {p : Sdk Snap α} {f : α → Sdk Snap β} (hp : Foot l p)
    (hl : l.contains (.get .peerLink) = false) (h : Waits τ)
    (hf : ∀ τ v, Waits τ → Obeys (.history (Drops c)) Lawful (fun _ _ => True) τ (f v)) :
    Obeys (.history (Drops c)) Lawful (fun _ _ => True) τ (p >>= f : Sdk Snap β) := by
  refine obeys_js_bind ((obeys_waiting hp hl h).mono fun τ' x hτ' => ?_)
  cases x with
  | error e => trivial
  | ok v => exact hf τ' v hτ'

theorem obeys_rollBack {owner : Id} {reject : HandshakeReject} {link : PeerLinkRecord}
    (h : Waits τ) :
    Obeys (.history (Drops c)) Lawful (fun _ _ => True) τ (rollBack svc owner reject link) := by
  refine obeys_waiting_bind (l := [.clock]) (foot_clock rfl) rfl h fun τ₁ now h₁ => ?_
  refine obeys_waiting_bind foot_sessionByLink rfl h₁ fun τ₂ session h₂ => ?_
  refine obeys_waiting_bind foot_dropSession rfl h₂ fun τ₃ _ _ => ?_
  -- no session is deleted any more
  refine obeys_past_bind (l := [.delete .postCap]) (foot_delete rfl) rfl fun τ₄ _ => ?_
  refine obeys_past_bind foot_listAttempts rfl fun τ₅ rows =>
    obeys_past_bind foot_rejectAttempts rfl fun τ₆ _ => ?_
  refine obeys_past_bind (l := []) foot_checkTransition rfl fun τ₇ _ =>
    obeys_past_bind foot_linkUpdate rfl fun τ₈ rejected => ?_
  exact obeys_past_bind foot_appendEvent rfl fun τ₉ _ =>
    obeys_past_bind foot_buildSnapshot rfl fun _ _ => trivial

/-- The check passes only a link that waits for its confirmation. -/
theorem checkControl_idle {owner : Id} {link : PeerLinkRecord} {publicKey nonce : String}
    {envelope : SignedEnvelope} (h : ¬awaitsConfirm link = true) :
    (checkControl owner link publicKey envelope nonce : Sdk Snap Bool) = pure false := by
  unfold checkControl
  rw [if_neg]
  rw [Bool.and_eq_true]
  exact fun hboth => h hboth.1

theorem obeys_dropsReject {owner : Id} {b : Bytes} :
    Obeys (.history (Drops c)) Lawful (fun _ _ => True) [] (handleHandshakeReject svc owner b) := by
  unfold handleHandshakeReject
  split
  · trivial
  · have hnone : Waits ([] : List (Proc.Exch (sdk Snap))) := fun _ hx => absurd hx List.not_mem_nil
    refine obeys_js_bind (obeys_js_bind ⟨drops_get, fun l _ => ?_⟩)
    cases l with
    | error e => trivial
    | ok l =>
      cases l with
      | none => trivial
      | some l =>
        refine ⟨drops_get, fun found _ => ?_⟩
        cases found with
        | error e => trivial
        | ok found =>
          cases found with
          | none => trivial
          | some link =>
            by_cases hwaits : awaitsConfirm link = true
            · refine obeys_waiting_bind foot_checkControl rfl ?_ fun τ ok h => ?_
              · intro x hx o l' r hxr
                rcases List.mem_cons.mp hx with rfl | hx
                · cases hxr
                  exact hwaits
                · exact (hnone.cons (x := ⟨.get (.pair owner _), .ok (some l)⟩) fun h => by cases h)
                    x hx o l' r hxr
              · split
                · exact obeys_rollBack h
                · trivial
            · show Obeys _ _ _ _ (checkControl owner link _ _ _ >>= fun ok => if ok
                  then _ else _ : Sdk Snap _)
              rw [checkControl_idle hwaits]
              trivial

theorem obeys_drops [DecidableEq Snap] (c : Call) :
    Obeys (.history (Drops c)) Lawful (fun _ _ => True) [] (program svc c) := by
  cases c with
  | reject owner b =>
    exact obeys_js_bind (obeys_dropsReject.mono fun _ x _ => by cases x <;> trivial)
  | _ =>
    exact obeys_grows (P := fun _ => True) (fun _ _ _ hc => by cases hc)
      (Proc.all_of (fun _ => trivial) _) fun _ _ _ => trivial

end

/-! ## The invariant -/

variable [DecidableEq Snap] {svc : Service Snap}

def start (c : Call) : View := ⟨isAck c, isReject c, none⟩

/-- The last session write of call `t`. -/
def wrote (t : Nat) (log : List (Ev Snap)) : Option ((Id × Id) × Bool) :=
  (Pool.mon monitor ⟨false, false, none⟩ t log).wrote

theorem obeys_program {c : Call} (h : confirms c = true) :
    Obeys monitor Keyed (fun _ _ => True) (start c) (program svc c) := by
  cases c with
  | ack owner b =>
    exact obeys_js_bind ((obeys_ack rfl owner b).mono fun _ x _ => by cases x <;> trivial)
  | reject owner b =>
    exact obeys_js_bind ((obeys_reject rfl owner b).mono fun _ x _ => by cases x <;> trivial)
  | decrypt owner peer b =>
    exact obeys_js_bind ((obeys_decrypt owner peer b).mono fun _ x _ => by cases x <;> trivial)
  | _ => cases h

/-- What was read is stored, or a later write. -/
def Since (s : State Snap) : Prop :=
  ∀ k (newer : List (Ev Snap)) e older x v, s.log = newer ++ e :: older →
    e.exch = ⟨.get k, .ok x⟩ → s.mem.kv.lookup k = some v →
    x = some v ∨ ∃ y ∈ newer, y.op = .set k v ∧ y.fate.lands = true

structure Inv (s : State Snap) : Prop where
  drops : System.Recalls Drops (fun _ _ _ => True) s
  since : Since s
  conforms : System.Conforms monitor Keyed start (fun _ _ _ => True) s
  filed : FiledStore s.mem.kv
  told : Told s
  stays : Stays s
  kept : Kept s.mem.kv

omit [DecidableEq Snap] in
theorem mon_start {c : Call} {t : Nat} {log : List (Ev Snap)} :
    Pool.mon monitor (start c) t log = ⟨isAck c, isReject c, wrote t log⟩ := by
  refine (Pool.mon_map (M := (monitor : Monitor (sdk Snap) View)) (N := monitor)
    (fun a : View => { a with bare := isAck c, drops := isReject c }) (fun a x => ?_) ⟨false,
    false, none⟩ t log).symm
  unfold monitor View.next
  dsimp only
  split <;> rfl

omit [DecidableEq Snap] in
theorem wrote_cons (t : Nat) (e : Ev Snap) (log : List (Ev Snap)) :
    (∃ o sid v r, e.tid = t ∧ e.exch = ⟨.set (.session o sid) v, r⟩ ∧
      wrote t (e :: log) = some ((o, sid), Except.toBool r)) ∨
    (∀ o sid, ¬ Writes e t o sid) ∧ wrote t (e :: log) = wrote t log := by
  by_cases ht : e.tid = t
  · subst ht
    rw [wrote, Pool.mon_self]
    obtain ⟨t, op, r, f⟩ := e
    unfold monitor View.next
    dsimp only
    split
    · rename_i a o sid v r heq
      exact .inl ⟨o, sid, v, r, rfl, heq, rfl⟩
    · rename_i hno
      refine .inr ⟨fun o sid hw => ?_, rfl⟩
      obtain ⟨-, v, hop⟩ := hw
      cases hop
      exact hno o sid v r rfl
  · rw [wrote, Pool.mon_other ht]
    exact .inr ⟨fun o sid hw => ht hw.1, rfl⟩

omit [DecidableEq Snap] in
/-- A write that returned is in the log, with no later one of its call. -/
theorem split_of_wrote {t : Nat} {o sid : Id} {log : List (Ev Snap)}
    (h : wrote t log = some ((o, sid), true)) :
    ∃ newer : List (Ev Snap), ∃ e older v, log = newer ++ e :: older ∧ e.tid = t ∧
      e.exch = ⟨.set (.session o sid) v, .ok ()⟩ ∧ ∀ x ∈ newer, ¬ Writes x t o sid := by
  induction log with
  | nil => cases h
  | cons e log ih =>
    rcases wrote_cons t e log with ⟨o', sid', v, r, ht, hx, hw⟩ | ⟨hno, hw⟩
    · rw [hw, Option.some.injEq, Prod.mk.injEq, Prod.mk.injEq] at h
      obtain ⟨⟨rfl, rfl⟩, hr⟩ := h
      match r with
      | .error _ => cases hr
      | .ok () => exact ⟨[], e, log, v, rfl, ht, hx, fun x hx => absurd hx List.not_mem_nil⟩
    · rw [hw] at h
      obtain ⟨newer, e', older, v, hlog, ht, hx, hlast⟩ := ih h
      refine ⟨e :: newer, e', older, v, by rw [hlog]; rfl, ht, hx, fun x hx => ?_⟩
      rcases List.mem_cons.mp hx with rfl | hx
      · exact hno o sid
      · exact hlast x hx

omit [DecidableEq Snap] in
/-- A call without a session write has none in the log. -/
theorem unwritten {t : Nat} {log : List (Ev Snap)} (h : wrote t log = none) :
    ∀ x ∈ log, x.tid = t → classOf x.op ≠ .set .session := by
  induction log with
  | nil => exact fun x hx => absurd hx List.not_mem_nil
  | cons e log ih =>
    rcases wrote_cons t e log with ⟨o', sid', v, r, -, -, hw⟩ | ⟨hno, hw⟩
    · rw [hw] at h; cases h
    · rw [hw] at h
      intro x hx ht hc
      rcases List.mem_cons.mp hx with rfl | hx
      · obtain ⟨t, op, r, f⟩ := x
        cases op with
        | set k v =>
          cases k with
          | session o sid => exact hno o sid ⟨ht, v, rfl⟩
          | _ => cases hc
        | core q => cases q <;> cases hc
        | _ => cases hc
      · exact ih h x hx ht hc

/-! ## One event -/

namespace Inv

variable {s s' : State Snap} {e : Ev Snap} {c : Call}
  {next : (sdk Snap).Ans e.op → Proc (sdk Snap) (Except Err Reply)}

theorem may (h : Inv s) (hf : Pool.Fires (system svc) s e c next s') :
    monitor.may ⟨isAck c, isReject c, wrote e.tid s.log⟩ e.op := by
  have := h.conforms.may hf
  rwa [mon_start] at this

theorem filed_op (h : Inv s) (hf : Pool.Fires (system svc) s e c next s') : Filed e.op := by
  have hmay := h.may hf
  unfold monitor at hmay
  dsimp only at hmay
  split at hmay
  · rename_i heq
    rw [heq]
    exact hmay.1
  · rename_i heq
    rw [heq]
    trivial
  · exact hmay

/-- The session a link is established with is in the store then. -/
theorem backed (h : Inv s) (hf : Pool.Fires (system svc) s e c next s') (hok : Guarded s e)
    {o l sid : Id} (he : Confirms e o l sid) :
    (s.mem.kv.lookup (.session o sid)).isSome = true := by
  have hmay := h.may hf
  obtain ⟨r, hop, hn, hl⟩ := id he
  rw [hop] at hmay
  rcases hmay.2 sid hn with hw | ⟨hack, hw⟩
  · obtain ⟨newer, e', older, v, hlog, ht, hx, hlast⟩ := split_of_wrote hw
    have hop' : e'.op = .set (.session o sid) v := congrArg Proc.Exch.op hx
    have hno := hok.apart o l sid he newer e' older hlog ⟨ht, v, hop'⟩ hlast
    refine h.stays _ newer e' older v hlog hop' (h.told e' (by rw [hlog]; simp) _ v hx)
      fun x hx hd => ?_
    by_contra hl
    exact hno x hx ⟨hd, by simpa using hl⟩
  · obtain ⟨x, hx, ht, hc⟩ := hok.found ⟨c, _, hf.thread, hack⟩ o l sid he
    exact absurd hc (unwritten hw x hx ht)

/-- A reject has read that the link was not established. -/
theorem unnamed (h : Inv s) (hf : Pool.Fires (system svc) s e c next s') {o l sid : Id}
    {r : PeerLinkRecord} (hd : Deletes e o sid) (hr : s.mem.kv.lookup (.peerLink o l) = some r)
    (h' : Unconfirmed s.log e.tid o l sid) : ¬ Names r sid := by
  intro hn
  have hmay := h.may hf
  rw [hd.1] at hmay
  have hwaits : Waits (Pool.history e.tid s.log) :=
    (h.drops.obeys e.tid c _ hf.thread).1 hmay (by rw [hd.1]; rfl)
  obtain ⟨newer, e', older, x, hlog, ht, hx, hno⟩ := h'
  rcases h.since _ newer e' older x r hlog hx hr with rfl | ⟨y, hy, hop, hl⟩
  · have hmem : e'.exch ∈ Pool.history e.tid s.log :=
      Pool.mem_history.mpr ⟨e', by simp [hlog], ht, rfl⟩
    have hw := hwaits _ hmem o l r hx
    rw [awaitsConfirm, hn.1] at hw
    cases hw
  · exact hno y hy ⟨r, hop, hn, hl⟩

theorem kept_fires (h : Inv s) (hf : Pool.Fires (system svc) s e c next s') (hok : Guarded s e) :
    Kept s'.mem.kv := by
  intro o l r sid hr hn
  rw [kv_fires hf] at hr ⊢
  rcases lookup_effect hr with hr | ⟨hop, hl⟩
  · refine isSome_effect (h.kept o l r sid hr hn) fun hop => ?_
    by_contra hl
    have hd : Deletes e o sid := ⟨hop, by simpa using hl⟩
    exact h.unnamed hf hd hr (hok.free o sid hd l r hr hn) hn
  · refine isSome_effect (h.backed hf hok ⟨r, hop, hn, hl⟩) fun hd => ?_
    rw [hop] at hd
    cases hd

theorem since_fires (h : Inv s) (hf : Pool.Fires (system svc) s e c next s') : Since s' := by
  intro k newer e' older x v hlog hx hv
  rw [hf.log] at hlog
  rw [kv_fires hf] at hv
  cases newer with
  | nil =>
    obtain ⟨rfl, rfl⟩ := List.cons.inj hlog
    obtain ⟨t, op, ans, f⟩ := e
    simp only [Event.exch, Proc.Exch.mk.injEq] at hx
    obtain ⟨rfl, hans⟩ := hx
    cases hans
    exact .inl ((act_get_ok hf.act).symm.trans hv)
  | cons e₁ newer =>
    obtain ⟨heq, hlog⟩ := List.cons.inj hlog
    rcases lookup_effect hv with hv | ⟨hop, hl⟩
    · rcases h.since k newer e' older x v hlog hx hv with hv | ⟨y, hy, hop, hl⟩
      · exact .inl hv
      · exact .inr ⟨y, .tail _ hy, hop, hl⟩
    · exact .inr ⟨e₁, .head _, heq ▸ hop, heq ▸ hl⟩

theorem fires (h : Inv s) (hf : Pool.Fires (system svc) s e c next s') (hok : Guarded s e) :
    Inv s' where
  drops := h.drops.fires hf
  since := h.since_fires hf
  conforms := System.conforms_fires h.conforms hf (h.filed.keyed hf)
  filed := h.filed.fires hf (h.filed_op hf)
  told := h.told.fires hf
  stays := h.stays.fires hf
  kept := h.kept_fires hf hok

theorem spawn (h : Inv s) (hc : confirms c = true) : Inv (s.spawn (system svc) c) where
  drops := h.drops.spawn (obeys_drops c)
  since := h.since
  conforms := System.conforms_spawn h.conforms (obeys_program hc)
  filed := h.filed
  told := h.told
  stays := h.stays
  kept := h.kept

end Inv

/-! ## Whole runs -/

theorem inv_inductive (svc : Service Snap) : ((system svc).lts guarded).Inductive Inv :=
  System.inductive_of
    (fun m hm =>
      { drops := (System.recalls_inductive (S := system svc) (D := guarded) obeys_drops).init ⟨m,
      [], []⟩ ⟨hm, rfl, rfl⟩
        since := fun k newer e older x v hlog => by simp at hlog
        conforms := System.conforms_init m
        filed := hm.1
        told := fun e he => absurd he List.not_mem_nil
        stays := fun k newer e older v hlog => by simp at hlog
        kept := hm.2 })
    (fun _ _ h hc => h.spawn hc)
    (fun _ _ _ _ _ h hf hok => h.fires hf hok)

/-- **The session of an established link is kept**, in every run in which no
confirmation comes between a reject's read and its delete, and no delete
between a session's write and its confirmation. -/
theorem session_kept (svc : Service Snap) (s : State Snap)
    (hr : ((system svc).lts guarded).Reachable s) : Kept s.mem.kv :=
  ((inv_inductive svc).reachable s hr).kept

/-! ## Concrete runs -/

def anyJudge : System.Judge (confirming : Rules Snap) where
  may _ c := confirms c
  ok _ _ := true
  may_iff _ _ h := h
  ok_iff _ _ _ := trivial

/-- No session is deleted at all, and a link is written after a session. -/
def guardedJudge : System.Judge (guarded : Rules Snap) where
  may _ c := confirms c
  ok s e := (e :: s.log).all (fun x => classOf x.op != .delete .session) &&
    (classOf e.op != .set .peerLink || s.log.any fun x => x.tid == e.tid &&
    classOf x.op == .set .session)
  may_iff _ _ h := h
  ok_iff s e h := by
    simp only [Bool.and_eq_true, List.all_eq_true, Bool.or_eq_true, List.any_eq_true,
      bne_iff_ne, beq_iff_eq] at h
    obtain ⟨hdel, hset⟩ := h
    have hno : ∀ x ∈ e :: s.log, ∀ o sid, ¬ Deletes x o sid := by
      intro x hx o sid hd
      refine hdel x hx ?_
      rw [hd.1]
      rfl
    refine ⟨fun o sid hd l r _ _ => (hno e (.head _) o sid hd).elim,
      fun o l sid _ newer e' older hlog _ _ x hx => ?_,
      fun _ o l sid he => ?_⟩
    · exact hno x (.tail _ (by rw [hlog]; exact List.mem_append_left _ hx)) o sid
    · obtain ⟨r, hop, -, -⟩ := he
      exact hset.resolve_left fun hne => hne (by rw [hop]; rfl)

open Counting

/-- Account `a` has sent a handshake with nonce `c` to account `b`. -/
def sent : Mem Nat :=
  .ofStore ((linked .handshakeSent .pendingRemoteConfirm).insert (.ackNonce a c) c) []

theorem filed_linked (state : PeerLinkState) (status : SessionStatus) :
    FiledStore (linked state status) := by
  have hlink := (FiledStore.empty : FiledStore (∅ : Store Nat)).insert (k := .peerLink a c)
      (v := link state) ⟨rfl, rfl⟩
  have hpair := hlink.insert (k := .pair a b) (v := c) trivial
  have hsession := hpair.insert (k := .session a d) (v := session status none 1) ⟨rfl, rfl⟩
  exact hsession.insert (k := .sessionByLink a c) (v := d) trivial

theorem sent_init : (confirming : Rules Nat).init sent := by
  refine ⟨(filed_linked _ _).insert (k := .ackNonce a c) (v := c) trivial,
    fun o l r sid hr hn => ?_⟩
  have hl : ((∅ : Store Nat).insert (.peerLink a c) (link .handshakeSent)).lookup (.peerLink o l) =
      some r := by
    simpa only [sent, Mem.ofStore, linked,
      AList.lookup_insert_ne (show Key.peerLink o l ≠ .ackNonce a c from nofun),
      AList.lookup_insert_ne (show Key.peerLink o l ≠ .sessionByLink a c from nofun),
      AList.lookup_insert_ne (show Key.peerLink o l ≠ .session a d from nofun),
      AList.lookup_insert_ne (show Key.peerLink o l ≠ .pair a b from nofun)] using hr
  rcases lookup_effect (o := .set (.peerLink a c) (link .handshakeSent)) (f := .ok) hl with hl |
    ⟨hset, -⟩
  · cases hl
  · cases hset
    cases hn.1

/-- Every call has returned, and `a`'s link is established with session `d`,
which is stored or not, as `there` says. -/
def confirmed (there : Bool) (s : State Nat) : Bool :=
  s.threads.all (fun th => match th.proc with
    | .ret _ => true
    | .ask .. => false) &&
  (s.mem.kv.lookup (.peerLink a c)).any (fun r => r.state = .sessionEstablished &&
  r.activeSessionId = some d) &&
  (s.mem.kv.lookup (.session a d)).isSome = there

/-- Every call has returned. -/
def Finished (s : State Snap) : Prop := ∀ th ∈ s.threads, ∃ x, th.proc = .ret x

theorem finished_of_confirmed {there : Bool} {s : State Nat} (h : confirmed there s = true) :
    Finished s := by
  simp only [confirmed, Bool.and_eq_true, List.all_eq_true] at h
  intro th hth
  have := h.1.1 th hth
  split at this
  · exact ⟨_, ‹_›⟩
  · cases this

theorem not_kept {s : State Nat} (h : confirmed false s = true) : ¬ Kept s.mem.kv := by
  intro hk
  simp only [confirmed, Bool.and_eq_true, Option.any_eq_true, decide_eq_true_eq] at h
  obtain ⟨⟨-, r, hr, hest, hsid⟩, hno⟩ := h
  rw [hk a c r d hr ⟨hest, hsid⟩] at hno
  cases hno

/-- A reject comes to its delete; a decrypt confirms the link; the delete
takes the session, and the conditional update fails. -/
theorem reject_deletes_session :
    ∃ s, ((system Counting.svc).lts confirming).Reachable s ∧ Finished s ∧ ¬ Kept s.mem.kv := by
  obtain ⟨s, hr, hs⟩ := System.reachable_of_play (S := system Counting.svc) anyJudge smooth
    [.call (.reject a [2]), .go 0 9, .call (.decrypt a b [1]), .go 1 26,
    .go 0 6] (m := sent) (P := confirmed false) sent_init (by decide +kernel)
  exact ⟨s, hr, finished_of_confirmed hs, not_kept hs⟩

/-- An ack confirms the link, and a reject comes too late. -/
theorem session_kept_after_ack :
    ∃ s, ((system Counting.svc).lts guarded).Reachable s ∧ confirmed true s = true ∧
      Kept s.mem.kv := by
  obtain ⟨s, hr, hs⟩ := System.reachable_of_play (S := system Counting.svc) guardedJudge smooth
    [.call (.ack a [2]), .go 0 27, .call (.reject a [2]),
    .go 1 2] (m := sent) (P := confirmed true) sent_init (by decide +kernel)
  exact ⟨s, hr, hs, session_kept Counting.svc s hr⟩

end RezSdk.L4.RejectRace
