import RezSdk.L4Runs.Mutex

/-!
# What one call does to an invite's ledger

`handleIncomingHandshakePacket`, `authorizeInviteJoin` and `acceptInvite`
against a monitor that follows the lock phase and the invite reads of the
call. The first two add an acceptor to the list they read inside the invite's
lock, and only below the limit; `acceptInvite` writes the list it read
outside the lock back unchanged. A handshake goes on to the pre-key only when
its acceptor is in the ledger, or when it found no ledger.
-/
namespace RezSdk.L4.InviteLimit

open RezSdk.L1 RezSdk.L2 RezSdk.L3

variable {Snap : Type}

/-- The invite record a call has read last: its key, list and limit. -/
structure View where
  owner : Id
  invite : Id
  accepted : List Id
  maxUses : Nat

structure Led where
  phase : Phase
  view : Option View
  /-- acceptors the call has seen or put in a ledger -/
  recorded : List ((Id × Id) × Id)
  /-- invites the call has not found -/
  missing : List (Id × Id)
  /-- the acceptor whose handshake the call processes -/
  acceptor : Option Id
  /-- the call is an `acceptInvite` -/
  accepts : Bool

def viewNext (v : Option View) : Proc.Exch (sdk Snap) → Option View
  | ⟨.get (.invite o i), .ok (some r)⟩ => some ⟨o, i, r.acceptedAcceptors, r.maxUses⟩
  | ⟨.set (.invite ..) _, _⟩ => none
  | ⟨.enter .., _⟩ => none
  | _ => v

def recordedNext (l : List ((Id × Id) × Id)) : Proc.Exch (sdk Snap) → List ((Id × Id) × Id)
  | ⟨.get (.invite o i), .ok (some r)⟩ => r.acceptedAcceptors.map (((o, i), ·)) ++ l
  | ⟨.set (.invite o i) r, .ok _⟩ => r.acceptedAcceptors.map (((o, i), ·)) ++ l
  | _ => l

def missingNext (l : List (Id × Id)) : Proc.Exch (sdk Snap) → List (Id × Id)
  | ⟨.get (.invite o i), .ok none⟩ => (o, i) :: l
  | _ => l

/-- A write of the ledger: one more acceptor, inside the lock and below the
limit, or the list as an `acceptInvite` has read it. -/
inductive Ledger (a : Led) (o i : Id) (r : InviteRecord) : Prop
  | add {acc : List Id} {x : Id} {pid : Nat} : a.phase = .held (inviteLock o i) pid →
      a.view = some ⟨o, i, acc, r.maxUses⟩ → acc.length < r.maxUses →
      r.acceptedAcceptors = acc ++ [x] → Ledger a o i r
  | back : a.accepts = true → a.view = some ⟨o, i, r.acceptedAcceptors, r.maxUses⟩ → Ledger a o i r

def monitor : Monitor (sdk Snap) Led where
  next a x :=
    { a with
      phase := lockNext a.phase x
      view := viewNext a.view x
      recorded := recordedNext a.recorded x
      missing := missingNext a.missing x }
  may a
    | .set (.invite o i) r => Ledger a o i r ∧ r.ownerAccountId = o ∧ r.inviteId = i
    | .delete (.invite ..) => False
    | .get (.invitePreKey o i) =>
      (o, i) ∈ a.missing ∨ ∃ x, a.acceptor = some x ∧ ((o, i), x) ∈ a.recorded
    | o => lockMay a.phase o

/-- A stored invite lies under its own ids. -/
def Keyed : Proc.Exch (sdk Snap) → Prop
  | ⟨.get (.invite o i), .ok (some r)⟩ => r.ownerAccountId = o ∧ r.inviteId = i
  | _ => True

def watched : List OpClass :=
  [.get .invite, .set .invite, .delete .invite, .get .invitePreKey, .lock]

theorem watches : Watches (monitor : Monitor (sdk Snap) Led) watched := by
  intro o ho _ a
  cases o with
  | get k => cases k <;> first | exact ⟨trivial, fun _ => rfl⟩ | cases ho
  | set k v => cases k <;> first | exact ⟨trivial, fun _ => rfl⟩ | cases ho
  | delete k => cases k <;> first | exact ⟨trivial, fun _ => rfl⟩ | cases ho
  | core q => cases q <;> exact ⟨trivial, fun _ => rfl⟩
  | chain _ | enter _ _ _ | release _ _ => cases ho
  | _ => exact ⟨trivial, fun _ => rfl⟩

variable {α : Type} {a : Led}

/-! ## The store operations -/

/-- The state after the invite was read. -/
def Led.read (a : Led) (o i : Id) (r : InviteRecord) : Led :=
  { a with
    view := some ⟨o, i, r.acceptedAcceptors, r.maxUses⟩
    recorded := r.acceptedAcceptors.map (((o, i), ·)) ++ a.recorded }

theorem obeys_get {o i : Id} {Q : Led → Except Err (Option InviteRecord) → Prop}
    (hsome : ∀ r, r.ownerAccountId = o → r.inviteId = i →
      Q (a.read o i r) (.ok (some (normalizeInviteRecord r))))
    (hnone : Q { a with missing := (o, i) :: a.missing } (.ok none))
    (herr : ∀ e, Q a (.error e)) :
    Obeys (monitor : Monitor (sdk Snap) Led) Keyed Q a (Invites.get o i) := by
  refine obeys_js_bind ⟨trivial, fun x hx => ?_⟩
  match x with
  | .error e => exact herr e
  | .ok none => exact hnone
  | .ok (some r) => exact hsome r hx.1 hx.2

theorem obeys_save {r : InviteRecord} {Q : Led → Except Err InviteRecord → Prop}
    (hl : Ledger a r.ownerAccountId r.inviteId r)
    (hok : ∀ a' v, a'.phase = a.phase → a'.acceptor = a.acceptor →
      (∀ x ∈ r.acceptedAcceptors, ((r.ownerAccountId, r.inviteId), x) ∈ a'.recorded) → Q a' (.ok v))
    (herr : ∀ a' e, a'.phase = a.phase → a'.acceptor = a.acceptor → Q a' (.error e)) :
    Obeys (monitor : Monitor (sdk Snap) Led) Keyed Q a (Invites.save r) := by
  have hl' : Ledger a r.ownerAccountId r.inviteId (normalizeInviteRecord r) := by
    cases hl with
    | add hp hv hlt hx => exact .add hp hv hlt hx
    | back hb hv => exact .back hb hv
  refine obeys_js_bind ⟨⟨hl', rfl, rfl⟩, fun x _ => ?_⟩
  match x with
  | .error e => exact herr _ e rfl rfl
  | .ok () =>
    refine Watches.skip_bind watches (foot_set (l := [.set .inviteByHash]) rfl trivial) rfl
      (fun e => herr _ e rfl rfl)
      fun _ => hok _ _ rfl rfl fun x hx => ?_
    exact List.mem_append_left _ (List.mem_map.mpr ⟨x, hx, rfl⟩)

theorem obeys_withLock {k : LockKey} {body : Sdk Snap α} {Q : Led → Except Err α → Prop}
    (ha : a.phase = .out)
    (h : ∀ pid,
        Obeys monitor Keyed (fun a' x => a'.phase = .held k pid ∧ Q { a' with phase := .out } x)
          { a with phase := .held k pid, view := none } body) :
    Obeys (monitor : Monitor (sdk Snap) Led) Keyed Q a (withLock k body) :=
  ⟨ha, fun ticket _ => ⟨rfl, fun _ _ => obeys_bind ((h ticket.2).mono fun _ _ hx =>
    ⟨hx.1, fun _ _ => hx.2⟩)⟩⟩

/-! ## `authorizeInviteJoin` -/

theorem obeys_authorizeLocked {o i joiner : Id} {atMs pid : Nat}
    (ha : a.phase = .held (inviteLock o i) pid) :
    Obeys (monitor : Monitor (sdk Snap) Led) Keyed (fun a' x => a'.phase = a.phase ∧
      ∀ r, x = .ok r → r.authorized = true → ((o, i), joiner) ∈ a'.recorded) a
      (authorizeLocked o i joiner atMs) := by
  refine obeys_js_bind (obeys_get (fun r ho hi => ?_) ⟨rfl, fun _ h hr => by cases h; cases hr⟩
    fun _ => ⟨rfl, fun _ h => by cases h⟩)
  subst ho hi
  dsimp only [Goes]
  split
  · exact ⟨rfl, fun _ h hr => by cases h; cases hr⟩
  split
  · exact ⟨rfl, fun _ h hr => by cases h; cases hr⟩
  split
  · rename_i hmem
    exact ⟨rfl, fun _ _ _ => List.mem_append_left _ (List.mem_map.mpr ⟨joiner, hmem, rfl⟩)⟩
  split
  · exact ⟨rfl, fun _ h hr => by cases h; cases hr⟩
  · rename_i hlt
    refine obeys_js_bind
      (obeys_save (.add ha rfl (Nat.lt_of_not_le hlt) rfl) (fun a' v hp _ hrec => ?_)
      fun a' _ hp _ => ⟨hp, fun _ h => by cases h⟩)
    exact ⟨hp, fun _ _ _ => hrec joiner (List.mem_append_right _ (.head _))⟩

theorem obeys_join {o i joiner : Id} {now : Option Nat} (ha : a.phase = .out) :
    Obeys (monitor : Monitor (sdk Snap) Led) Keyed
      (fun a' x => ∀ r, x = .ok r → r.authorized = true → ((o, i), joiner) ∈ a'.recorded) a
      (authorizeInviteJoin o i joiner now) :=
  obeys_withLock ha fun _ => (obeys_authorizeLocked rfl).mono fun _ _ h => h

/-! ## `handleIncomingHandshakePacket` -/

/-- What the pre-key gate wants. -/
def Admits (a : Led) (o i : Id) : Prop :=
  (o, i) ∈ a.missing ∨ ∃ x, a.acceptor = some x ∧ ((o, i), x) ∈ a.recorded

theorem obeys_verdictLocked {o i peer : Id} {pid : Nat} (ha : a.phase = .held (inviteLock o i) pid)
    (hme : a.acceptor = some peer) :
    Obeys (monitor : Monitor (sdk Snap) Led) Keyed (fun a' x => a'.phase = a.phase ∧
      ∀ ex al, x = .ok (.proceed ex al) → Admits a' o i) a (verdictLocked o i peer) := by
  refine obeys_js_bind (obeys_get (fun r ho hi => ?_) ⟨rfl, fun _ _ _ => .inl (.head _)⟩
    fun _ => ⟨rfl, fun _ _ h => by cases h⟩)
  subst ho hi
  refine Watches.skip_bind watches (foot_clock (l := [.clock]) rfl) rfl
    (fun _ => ⟨rfl, fun _ _ h => by cases h⟩)
    fun now => ?_
  dsimp only
  split
  · exact ⟨rfl, fun _ _ h => by cases h⟩
  split
  · rename_i hmem
    exact ⟨rfl, fun _ _ _ =>
      .inr ⟨peer, hme, List.mem_append_left _ (List.mem_map.mpr ⟨peer, hmem, rfl⟩)⟩⟩
  split
  · exact ⟨rfl, fun _ _ h => by cases h⟩
  · rename_i hlt
    refine obeys_js_bind
      (obeys_save (.add ha rfl (Nat.lt_of_not_le hlt) rfl) (fun a' v hp hacc hrec => ?_)
      fun a' _ hp _ => ⟨hp, fun _ _ h => by cases h⟩)
    exact ⟨hp,
      fun _ _ _ => .inr ⟨peer, hacc.trans hme, hrec peer (List.mem_append_right _ (.head _))⟩⟩

theorem obeys_verdict {o i peer : Id} {record : Option InviteRecord} (ha : a.phase = .out)
    (hme : a.acceptor = some peer) (hnone : record = none → (o, i) ∈ a.missing) :
    Obeys (monitor : Monitor (sdk Snap) Led) Keyed
      (fun a' x => ∀ ex al, x = .ok (.proceed ex al) → Admits a' o i) a
      (inviteVerdict o i peer record) := by
  cases record with
  | none => exact fun _ _ _ => .inl (hnone rfl)
  | some r =>
    exact obeys_withLock ha fun pid => (obeys_verdictLocked
      (a := { a with phase := .held (inviteLock o i) pid, view := none }) rfl
      hme).mono fun _ _ h => h

/-- The authenticated acceptor is the one the packet's binding derives. -/
theorem authenticate_ok {svc : Service Snap} {p : HandshakePacket} {τ : List (Proc.Exch (sdk Snap))}
    {x : Authenticated} (h : Proc.Trace (authenticate svc p) τ (.ok x)) :
    acceptorOf svc.core p.handshake = some x.peerAccountId ∧
    p.handshake.inviteId = some x.inviteId ∧ x.handshake = p.handshake := by
  have horThrow : ∀ {β : Type} {o : Option β} {e : Err} {v : β} {τ : List (Proc.Exch (sdk Snap))},
      Proc.Trace (Js.orThrow o e : Sdk Snap β) τ (.ok v) → o = some v := by
    intro β o e v τ h
    cases o with
    | none => cases h
    | some w => cases h; rfl
  obtain ⟨_, _, _, _, _, h⟩ := Js.trace_bind_ok.mp h
  obtain ⟨_, _, _, _, _, h⟩ := Js.trace_bind_ok.mp h
  obtain ⟨_, _, _, _, _, h⟩ := Js.trace_bind_ok.mp h
  obtain ⟨_, _, _, _, hid, h⟩ := Js.trace_bind_ok.mp h
  obtain ⟨_, _, _, _, _, h⟩ := Js.trace_bind_ok.mp h
  obtain ⟨_, _, _, _, _, h⟩ := Js.trace_bind_ok.mp h
  obtain ⟨_, _, _, _, hpeer, h⟩ := Js.trace_bind_ok.mp h
  obtain ⟨_, _, _, _, _, h⟩ := Js.trace_bind_ok.mp h
  cases h
  exact ⟨horThrow hpeer, horThrow hid, rfl⟩

theorem obeys_proceed {svc : Service Snap} {owner : Id} {x : Authenticated} {ex al : Bool}
    {name : String} (ha : Admits a owner x.inviteId) :
    Obeys (monitor : Monitor (sdk Snap) Led) Keyed (fun _ _ => True) a
      (proceedHandshake svc owner x ex al name) := by
  refine obeys_js_bind ⟨ha, fun y _ => ?_⟩
  cases y with
  | error e => trivial
  | ok stored =>
    refine Watches.skip_bind watches (l := []) foot_orThrow rfl (fun _ => trivial) fun preKey => ?_
    refine Watches.skip_bind watches (foot_clock (l := [.clock]) rfl) rfl
      (fun _ => trivial) fun now => ?_
    refine Watches.skip_bind watches foot_getByPair rfl (fun _ => trivial) fun existing => ?_
    split
    · split
      · exact Watches.skip_bind watches foot_buildSnapshot rfl (fun _ => trivial) fun _ => trivial
      · exact Watches.skip watches foot_establishLink rfl fun _ => trivial
    · exact Watches.skip watches foot_establishLink rfl fun _ => trivial

theorem obeys_handleHandshake {svc : Service Snap} {owner : Id} {p : HandshakePacket}
    (ha : a.phase = .out) (hme : a.acceptor = acceptorOf svc.core p.handshake) :
    Obeys (monitor : Monitor (sdk Snap) Led) Keyed (fun _ _ => True) a
      (handleHandshake svc owner p) := by
  have hauth : Obeys monitor Keyed (fun a' y => a' = a ∧ ∀ x, y = .ok x →
      acceptorOf svc.core p.handshake = some x.peerAccountId) a (authenticate svc p) :=
    (Obeys.and_result (Q := fun a' _ => a' = a) (Watches.skip watches foot_authenticate rfl fun _ =>
    rfl)
      fun τ y h => by
        rintro x rfl
        exact (authenticate_ok h).1)
  refine obeys_js_bind (hauth.mono fun a' y hy => ?_)
  obtain ⟨rfl, hy⟩ := hy
  cases y with
  | error e => trivial
  | ok x =>
    have hpeer := hme.trans (hy x rfl)
    -- the first read of the invite, outside the lock
    refine obeys_js_bind (obeys_get (fun r _ _ => ?_) ?_ fun _ => trivial)
    · refine obeys_js_bind
        ((obeys_verdict (a := a'.read owner x.inviteId r) ha hpeer fun h => by cases h).mono
        fun b' z hz => ?_)
      rcases z with err | ⟨ex, al⟩ | reason
      · trivial
      · exact obeys_proceed (hz ex al rfl)
      · trivial
    · refine obeys_js_bind
        ((obeys_verdict (a := { a' with missing := (owner, x.inviteId) :: a'.missing }) ha hpeer
        fun _ => .head _).mono fun b' z hz => ?_)
      rcases z with err | ⟨ex, al⟩ | reason
      · trivial
      · exact obeys_proceed (hz ex al rfl)
      · trivial

/-- The acceptor a packet speaks for, when it is a handshake packet. -/
def acceptorOfPacket (core : Core Snap) (b : Bytes) : Option Id :=
  match core.parsePacket b with
  | .ok (some p) => acceptorOf core p.handshake
  | _ => none

theorem obeys_handshake {svc : Service Snap} {owner : Id} {b : Bytes} (ha : a.phase = .out)
    (hme : a.acceptor = acceptorOfPacket svc.core b) :
    Obeys (monitor : Monitor (sdk Snap) Led) Keyed (fun _ _ => True) a
      (handleIncomingHandshakePacket svc owner b) := by
  refine Watches.skip_bind watches (l := []) foot_ensure rfl (fun _ => trivial) fun _ => ?_
  split
  · trivial
  · trivial
  · rename_i p hp
    exact obeys_handleHandshake ha (by rw [hme, acceptorOfPacket, hp])

/-! ## `acceptInvite` -/

theorem obeys_backLink {found : Option InviteRecord} {link : Id} {now : Nat}
    (hb : a.accepts = true) :
    Obeys (monitor : Monitor (sdk Snap) Led) Keyed (fun _ _ => True) a
      (backLinkInvite found link now) := by
  cases found with
  | none => trivial
  | some l =>
    refine obeys_js_bind (obeys_get (fun r ho hi => ?_) trivial fun _ => trivial)
    exact obeys_js_bind (obeys_save (.back hb (by rw [← ho, ← hi]; rfl)) (fun _ _ _ _ _ => trivial)
      fun _ _ _ _ => trivial)

theorem obeys_getByHash {o hash : Id} {Q : Led → Except Err (Option InviteRecord) → Prop}
    (hq : ∀ a' x, a'.accepts = a.accepts → Q a' x) :
    Obeys (monitor : Monitor (sdk Snap) Led) Keyed Q a (Invites.getByHash o hash) := by
  refine Watches.skip_bind watches (foot_get (l := [.get .inviteByHash]) rfl) rfl
    (fun _ => hq _ _ rfl) fun
    | none => hq _ _ rfl
    | some _ => obeys_get (fun _ _ _ => hq _ _ rfl) (hq _ _ rfl) fun _ => hq _ _ rfl

theorem obeys_acceptFresh {svc : Service Snap} {args : AcceptArgs} {inviter : Id} {now : Nat}
    {existing : Option PeerLinkRecord} (hb : a.accepts = true) :
    Obeys (monitor : Monitor (sdk Snap) Led) Keyed (fun _ _ => True) a
      (acceptFresh svc args inviter now existing) := by
  refine obeys_js_bind (obeys_getByHash fun a' x ha' => ?_)
  cases x with
  | error e => trivial
  | ok found =>
    refine Watches.skip_bind watches foot_acceptLinkId rfl (fun _ => trivial) fun link => ?_
    refine Watches.skip_bind watches foot_commitAccept rfl (fun _ => trivial) fun record => ?_
    refine Watches.skip_bind watches foot_storePostCap rfl (fun _ => trivial) fun _ => ?_
    refine Watches.skip_bind watches (foot_stableId (l := [.newId]) rfl) rfl
      (fun _ => trivial) fun hs => ?_
    refine Watches.skip_bind watches (l := []) foot_orThrow rfl (fun _ => trivial) fun inviteId =>
      ?_
    refine Watches.skip_bind watches foot_attemptCreate rfl (fun _ => trivial) fun attempt => ?_
    refine obeys_js_bind ((obeys_backLink (ha'.trans hb)).mono fun a'' y _ => ?_)
    cases y with
    | error e => trivial
    | ok _ => exact Watches.skip watches foot_acceptEstablish rfl fun _ => trivial

theorem obeys_accept {svc : Service Snap} {args : AcceptArgs} (hb : a.accepts = true) :
    Obeys (monitor : Monitor (sdk Snap) Led) Keyed (fun _ _ => True) a (acceptInvite svc args) := by
  refine Watches.skip_bind watches foot_verifyInvite rfl (fun _ => trivial) fun v => ?_
  refine Watches.skip_bind watches foot_getByPair rfl (fun _ => trivial) fun existing => ?_
  split
  · exact obeys_acceptFresh hb
  · split
    · exact obeys_acceptFresh hb
    · exact Watches.skip_bind watches foot_appendEvent rfl (fun _ => trivial) fun _ =>
        Watches.skip_bind watches foot_buildSnapshot rfl (fun _ => trivial) fun _ => trivial

end RezSdk.L4.InviteLimit
