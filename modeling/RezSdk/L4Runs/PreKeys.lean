import RezSdk.L4Runs.HandshakeAuth
import RezSdk.L4Runs.InviteLimit

/-!
# The pre-key of an invite and the acceptors it still serves

A handshake is admitted to the ledger first and gets its session later, and
the call that finds the ledger full deletes the invite's pre-key when it is
done itself. An acceptor that was admitted before and whose call failed in
between has no pre-key to finish with (`prekey_deleted_early`). `can_finish`
says when every admitted acceptor can finish: if a pre-key is only deleted
once every acceptor in the ledger has its session.
-/
namespace RezSdk.L4.PreKeys

open RezSdk.L1 RezSdk.L2 RezSdk.L3

variable {Snap : Type}

/-! ## The property -/

/-- Account `p` has an established link with `o`, whose session is stored. -/
def Established (kv : Store Snap) (o p : Id) : Prop :=
  ∃ l r sid, kv.lookup (.peerLink o l) = some r ∧ r.peerAccountId = p ∧
  r.state = .sessionEstablished ∧
    r.activeSessionId = some sid ∧ (kv.lookup (.session o sid)).isSome = true

/-- While an account in an invite's ledger has no session, the invite's
pre-key is stored. -/
def CanFinish (kv : Store Snap) : Prop :=
  ∀ o i r p, kv.lookup (.invite o i) = some r → p ∈ r.acceptedAcceptors → ¬ Established kv o p →
    (kv.lookup (.invitePreKey o i)).isSome = true

/-! ## The runs -/

def Full (r : InviteRecord) : Prop := r.maxUses ≤ r.acceptedAcceptors.length

instance (r : InviteRecord) : Decidable (Full r) := inferInstanceAs (Decidable (_ ≤ _))

/-- An invite that can admit an acceptor, or has one to finish, has its
pre-key. -/
def Served (kv : Store Snap) (o i : Id) (r : InviteRecord) : Prop :=
  (kv.lookup (.invitePreKey o i)).isSome = true ∨ Full r ∧
  ∀ p ∈ r.acceptedAcceptors, Established kv o p

def isHandshake : Call → Bool
  | .handshake .. => true
  | _ => false

structure Starts (m : Mem Snap) : Prop where
  locks : m.locks = PromiseLock.empty
  filed : FiledStore m.kv
  peers : LinkPeers.Sound (fun _ _ => none) m
  within : ∀ o i r, m.kv.lookup (.invite o i) = some r → r.acceptedAcceptors.length ≤ r.maxUses
  served : ∀ o i r, m.kv.lookup (.invite o i) = some r → Served m.kv o i r

/-- Any handshakes of any acceptors. -/
def handshakes : Rules Snap where
  init := Starts
  may _ c := isHandshake c = true
  ok _ _ := True

/-- A pre-key is deleted when every acceptor in the ledger has its session. -/
def DeletedLast (s : State Snap) (e : Ev Snap) : Prop :=
  ∀ o i r, e.op = .delete (.invitePreKey o i) → e.fate.lands = true →
    s.mem.kv.lookup (.invite o i) = some r → ∀ p ∈ r.acceptedAcceptors, Established s.mem.kv o p

def deletedLast : Rules Snap where
  init := Starts
  may _ c := isHandshake c = true
  ok := DeletedLast

/-! ## What the calls do -/

/-- `full`: the invites the call has found full, or not at all; `wrote`: the
sessions it has stored; `drawn`: the id it may create a link under. -/
structure View where
  full : List (Id × Id)
  wrote : List (Id × Id)
  drawn : Option Id

def fullNext (l : List (Id × Id)) : Proc.Exch (sdk Snap) → List (Id × Id)
  | ⟨.get (.invite o i), .ok none⟩ => (o, i) :: l
  | ⟨.get (.invite o i), .ok (some r)⟩ => if Full r then (o, i) :: l else l
  | ⟨.set (.invite o i) r, .ok ()⟩ => if Full r then (o, i) :: l else l
  | _ => l

def wroteNext (l : List (Id × Id)) : Proc.Exch (sdk Snap) → List (Id × Id)
  | ⟨.set (.session o sid) _, .ok ()⟩ => (o, sid) :: l
  | _ => l

def drawnNext (d : Option Id) : Proc.Exch (sdk Snap) → Option Id
  | ⟨.stableId _, i⟩ => some i
  | ⟨.set (.peerLink _ _) _, _⟩ => none
  | _ => d

def View.next (a : View) (x : Proc.Exch (sdk Snap)) : View :=
  ⟨fullNext a.full x, wroteNext a.wrote x, drawnNext a.drawn x⟩

/-- A link is written new, or established with a session of the call. -/
def View.Writes (a : View) (o l : Id) (r : PeerLinkRecord) : Prop :=
  a.drawn = some l ∨ r.state = .sessionEstablished ∧ ∃ sid, r.activeSessionId = some sid ∧
    (o, sid) ∈ a.wrote

def monitor : Monitor (sdk Snap) View where
  next := View.next
  may a
    | .set (.peerLink o l) r => a.Writes o l r
    | .delete (.invitePreKey o i) => (o, i) ∈ a.full
    | .delete (.session _ _) => False
    | .delete (.peerLink _ _) => False
    | _ => True

/-- What a call has found and stored it keeps. -/
structure View.Later (a a' : View) : Prop where
  full : a.full ⊆ a'.full
  wrote : a.wrote ⊆ a'.wrote

theorem View.Later.refl (a : View) : a.Later a := ⟨List.Subset.refl _, List.Subset.refl _⟩

theorem View.Later.trans {a b c : View} (h : a.Later b) (h' : b.Later c) : a.Later c :=
  ⟨List.Subset.trans h.full h'.full, List.Subset.trans h.wrote h'.wrote⟩

theorem later_next (a : View) (x : Proc.Exch (sdk Snap)) : a.Later (a.next x) := by
  constructor
  · show a.full ⊆ fullNext a.full x
    unfold fullNext
    split
    · exact List.subset_cons_self _ _
    · split
      · exact List.subset_cons_self _ _
      · exact List.Subset.refl _
    · split
      · exact List.subset_cons_self _ _
      · exact List.Subset.refl _
    · exact List.Subset.refl _
  · show a.wrote ⊆ wroteNext a.wrote x
    unfold wroteNext
    split
    · exact List.subset_cons_self _ _
    · exact List.Subset.refl _

/-- The operations the monitor may refuse. -/
def watched : List OpClass :=
  [.set .peerLink, .delete .invitePreKey, .delete .session, .delete .peerLink]

section

variable {a : View} {α : Type} {svc : Service Snap}

theorem obeys_later {L : Proc.Exch (sdk Snap) → Prop} {l : List OpClass} {p : Proc (sdk Snap) α}
    (hp : Foot l p) (hl : l.all (fun c => !watched.contains c) = true) :
    ∀ {a : View}, Obeys monitor L (fun a' _ => a.Later a') a p := by
  induction p with
  | ret x => exact fun {a} => View.Later.refl a
  | ask o k ih =>
    intro a
    have hc := List.all_eq_true.mp hl _ (List.contains_iff_mem.mp hp.1.1)
    refine ⟨?_, fun r _ => (ih r (hp.2 r)).mono fun a' _ h => (later_next a _).trans h⟩
    unfold monitor
    dsimp only
    split <;> trivial

/-- A helper that is stepped over. -/
theorem obeys_over {L : Proc.Exch (sdk Snap) → Prop} {l : List OpClass} {ε β : Type}
    {p : Js (sdk Snap) ε α} {f : α → Js (sdk Snap) ε β} {Q : View → Except ε β → Prop}
    (hp : Foot l p) (hl : l.all (fun c => !watched.contains c) = true)
    (he : ∀ a' e, a.Later a' → Q a' (.error e))
    (hf : ∀ a' x, a.Later a' → Obeys monitor L Q a' (f x)) :
    Obeys monitor L Q a (p >>= f : Js (sdk Snap) ε β) := by
  refine obeys_js_bind ((obeys_later hp hl).mono fun a' x hx => ?_)
  cases x with
  | error e => exact he a' e hx
  | ok v => exact hf a' v hx

/-- The same in a function of which only that is to be shown. -/
theorem obeys_past {L : Proc.Exch (sdk Snap) → Prop} {l : List OpClass} {ε β : Type}
    {p : Js (sdk Snap) ε α} {f : α → Js (sdk Snap) ε β} {a₀ : View} (h₀ : a₀.Later a)
    (hp : Foot l p) (hl : l.all (fun c => !watched.contains c) = true)
    (hf : ∀ a' x, a₀.Later a' → Obeys monitor L (fun a' _ => a₀.Later a') a' (f x)) :
    Obeys monitor L (fun a' _ => a₀.Later a') a (p >>= f : Js (sdk Snap) ε β) :=
  obeys_over hp hl (fun _ _ h => h₀.trans h) fun a' x h => hf a' x (h₀.trans h)

/-- The call has found the invite full when its verdict says so. -/
def View.Knows (a : View) (o i : Id) (x : Except Err Verdict) : Prop :=
  ∀ al, x = .ok (.proceed true al) → (o, i) ∈ a.full

theorem obeys_getInvite {o i : Id} {Q : View → Except Err (Option InviteRecord) → Prop}
    (hsome : ∀ r, r.ownerAccountId = o → r.inviteId = i →
        Q { a with full := if Full r then (o, i) :: a.full else a.full }
          (.ok (some (normalizeInviteRecord r))))
    (hnone : Q { a with full := (o, i) :: a.full } (.ok none)) (herr : ∀ e, Q a (.error e)) :
    Obeys (monitor : Monitor (sdk Snap) View) Keyed Q a (Invites.get o i) := by
  refine obeys_js_bind ⟨trivial, fun x hx => ?_⟩
  match x with
  | .error e => exact herr e
  | .ok none => exact hnone
  | .ok (some r) => exact hsome r hx.1 hx.2

theorem obeys_save {r : InviteRecord} :
    Obeys (monitor : Monitor (sdk Snap) View) Keyed (fun a' x => a.Later a' ∧
      ∀ v, x = .ok v → Full r → (r.ownerAccountId, r.inviteId) ∈ a'.full) a (Invites.save r) := by
  have hlater :=
    later_next a (⟨.set (.invite r.ownerAccountId r.inviteId) (normalizeInviteRecord r), .ok ()⟩ :
    Proc.Exch (sdk Snap))
  refine obeys_js_bind ⟨trivial, fun x _ => ?_⟩
  match x with
  | .error e => exact ⟨View.Later.refl a, fun _ h => by cases h⟩
  | .ok () =>
    refine obeys_over (l := [.set .inviteByHash]) (foot_set rfl trivial) rfl
      (fun a' e h => ⟨hlater.trans h, fun _ he => by cases he⟩)
      fun a' _ h => ⟨hlater.trans h, fun _ _ hfull => h.full ?_⟩
    show _ ∈ (if Full (normalizeInviteRecord r) then _ else _)
    rw [if_pos (show Full (normalizeInviteRecord r) from hfull)]
    exact .head _

theorem obeys_verdictLocked {o i peer : Id} :
    Obeys (monitor : Monitor (sdk Snap) View) Keyed (fun a' x => a.Later a' ∧ a'.Knows o i x) a
      (verdictLocked o i peer) := by
  refine obeys_js_bind
    (obeys_getInvite (fun r ho hi => ?_) ⟨⟨List.subset_cons_self _ _, List.Subset.refl _⟩,
    fun _ _ => .head _⟩ fun _ => ⟨View.Later.refl a, fun _ h => by cases h⟩)
  subst ho hi
  have hread : a.Later { a with full := if Full r then (r.ownerAccountId, r.inviteId) :: a.full
      else a.full } := by
    refine ⟨?_, List.Subset.refl _⟩
    dsimp only
    split
    · exact List.subset_cons_self _ _
    · exact List.Subset.refl _
  refine obeys_over (l := [.clock]) (foot_clock rfl) rfl
    (fun a' e h => ⟨hread.trans h, fun _ he => by cases he⟩)
    fun a' now h => ?_
  split
  · exact ⟨hread.trans h, fun _ he => by cases he⟩
  split
  · refine ⟨hread.trans h, fun al he => h.full ?_⟩
    simp only [normalizeInviteRecord, Except.ok.injEq, Verdict.proceed.injEq] at he
    dsimp only
    rw [if_pos (show Full r from of_decide_eq_true he.1)]
    exact .head _
  split
  · exact ⟨hread.trans h, fun _ he => by cases he⟩
  · refine obeys_js_bind (obeys_save.mono fun a₂ x hx => ?_)
    obtain ⟨hl, hfull⟩ := hx
    cases x with
    | error e => exact ⟨(hread.trans h).trans hl, fun _ he => by cases he⟩
    | ok v =>
      refine ⟨(hread.trans h).trans hl, fun al he => hfull v rfl ?_⟩
      simp only [Except.ok.injEq, Verdict.proceed.injEq, decide_eq_true_eq] at he
      exact he.1

theorem obeys_verdict {o i peer : Id} {record : Option InviteRecord}
    (hnone : record = none → (o, i) ∈ a.full) :
    Obeys (monitor : Monitor (sdk Snap) View) Keyed (fun a' x => a.Later a' ∧ a'.Knows o i x) a
      (inviteVerdict o i peer record) := by
  cases record with
  | none => exact ⟨View.Later.refl a, fun _ _ => hnone rfl⟩
  | some r => exact ⟨trivial, fun _ _ => ⟨trivial, fun _ _ => obeys_bind (obeys_verdictLocked.mono
      fun a' x hx => ⟨trivial, fun _ _ => hx⟩)⟩⟩

/-! ## The commit -/

theorem obeys_put {r : SessionRecord Snap} :
    Obeys monitor Keyed (fun a' x => a.Later a' ∧ ∀ r', x = .ok r' → r'.sessionId = r.sessionId ∧
      (r.localAccountId, r.sessionId) ∈ a'.wrote) a (Sessions.put r) := by
  refine obeys_over (l := [.get .session]) (foot_get rfl) rfl
    (fun a' e h => ⟨h, fun _ he => by cases he⟩)
    fun a₁ existing h₁ => ?_
  refine obeys_js_bind ⟨trivial, fun x _ => ?_⟩
  match x with
  | .error e => exact ⟨h₁.trans (later_next a₁ _), fun _ he => by cases he⟩
  | .ok () =>
    refine obeys_over (l := [.set .sessionByLink, .set .sessionByDevice]) ?_ rfl
      (fun a' e h => ⟨(h₁.trans (later_next a₁ _)).trans h, fun _ he => by cases he⟩)
      fun a₂ _ h₂ => ⟨(h₁.trans (later_next a₁ _)).trans h₂, fun r' he => ?_⟩
    · unfold Sessions.setIndex
      split <;> exact foot_set rfl trivial
    · cases he
      exact ⟨rfl, h₂.wrote (.head _)⟩

/-- An update to an established link with a session of the call. -/
theorem obeys_update {r : PeerLinkRecord} {v : Nat} {sid : Id}
    (hest : r.state = .sessionEstablished) (hsid : r.activeSessionId = some sid)
    (hw : (r.localAccountId, sid) ∈ a.wrote) :
    Obeys (monitor : Monitor (sdk Snap) View) Keyed (fun a' _ => a.Later a') a
      (PeerLinks.update r v) := by
  refine obeys_past (.refl a) (l := [.get .peerLink]) (foot_get rfl) rfl fun a₁ stored h₁ => ?_
  refine obeys_js_bind (obeys_orThrow (fun current _ => ?_) fun _ => h₁)
  refine obeys_js_bind (obeys_ensure (fun _ => ?_) fun _ => h₁)
  refine obeys_js_bind (obeys_ensure (fun _ => ?_) fun _ => h₁)
  refine obeys_js_bind (obeys_ensure (fun _ => ?_) fun _ => h₁)
  refine obeys_js_bind (obeys_ensure (fun _ => ?_) fun _ => h₁)
  refine obeys_js_bind ⟨.inr ⟨hest, sid, hsid, h₁.wrote hw⟩, fun x _ => ?_⟩
  have h₂ := h₁.trans (later_next a₁ ⟨_, x⟩)
  cases x with
  | error e => exact h₂
  | ok u => exact obeys_past h₂ (l := [.set .pair]) (foot_set rfl trivial) rfl fun _ _ h => h

/-- A commit that establishes the link with a new snapshot. -/
theorem obeys_commitSession {args : CommitArgs Snap} {s : Snap} (hs : args.snapshot = some s)
    (ho : args.peerLinkRecord.localAccountId = args.owner)
    (hest : args.peerLinkState = .sessionEstablished) :
    Obeys monitor Keyed (fun a' _ => a.Later a') a (commitSession svc args) := by
  unfold commitSession
  simp only [hs]
  refine obeys_past (.refl a) (l := [.clock]) (foot_track (foot_clock rfl)) rfl fun a₁ c h₁ => ?_
  refine obeys_past h₁ (foot_track foot_commitSessionId) rfl fun a₂ sid h₂ => ?_
  refine obeys_track (obeys_put.mono fun a₃ x hx => ?_)
  have h₃ := h₂.trans hx.1
  cases x with
  | error e => exact h₃
  | ok stored =>
    obtain ⟨hsid, hw⟩ := hx.2 stored rfl
    refine obeys_over (l := []) (foot_track foot_checkTransition) rfl
      (fun _ _ h => h₃.trans h) fun a₄ _ h₄ => ?_
    have hwrote : ((args.nextLink (some stored) (asPositiveInt args.atMs c)).localAccountId,
        stored.sessionId) ∈ a₄.wrote := by
      show (args.peerLinkRecord.localAccountId, _) ∈ a₄.wrote
      rw [ho, hsid]
      exact h₄.wrote hw
    refine obeys_track (Obeys.mono (fun a₅ y hy => ?_)
      (obeys_update hest (show _ = some stored.sessionId from rfl) hwrote))
    have h₅ := (h₃.trans h₄).trans hy
    cases y with
    | error e => exact h₅
    | ok next =>
      refine obeys_past h₅ (foot_track foot_appendEvent) rfl fun a₆ _ h₆ => ?_
      refine obeys_past h₆ (l := [.count]) (foot_track (foot_clearCounts rfl)) rfl fun a₇ _ h₇ => ?_
      refine obeys_past h₇ (l := [.count]) (foot_track (foot_markSuccess rfl)) rfl fun a₈ _ h₈ => ?_
      exact obeys_past h₈ (foot_track foot_buildSnapshot) rfl fun _ _ h => h

/-! ## The handshake -/

theorem obeys_create {r : PeerLinkRecord} (hd : a.drawn = some r.peerLinkId) :
    Obeys (monitor : Monitor (sdk Snap) View) Keyed (fun a' _ => a.Later a') a
      (PeerLinks.create r) := by
  refine obeys_js_bind ⟨trivial, fun x _ => ?_⟩
  cases x with
  | error e => exact .refl a
  | ok existing =>
    refine obeys_js_bind (obeys_ensure (fun _ => ?_) fun _ => .refl a)
    refine obeys_js_bind ⟨trivial, fun y _ => ?_⟩
    cases y with
    | error e => exact .refl a
    | ok indexed =>
      refine obeys_js_bind (obeys_ensure (fun _ => ?_) fun _ => .refl a)
      refine obeys_js_bind ⟨.inl hd, fun z _ => ?_⟩
      cases z with
      | error e => exact later_next a _
      | ok u =>
        exact obeys_past (later_next a _) (l := [.set .pair])
          (foot_set rfl trivial) rfl fun _ _ h => h

theorem ok_create {r : PeerLinkRecord} :
    Js.Ok (·.localAccountId = r.localAccountId) (PeerLinks.create r : Sdk Snap PeerLinkRecord) :=
  Js.ok_skip fun _ => Js.ok_skip fun _ => Js.ok_skip fun _ => Js.ok_skip fun _ =>
    Js.ok_skip fun _ => Js.ok_skip fun _ => Js.ok_pure rfl

/-- The responder's link is the owner's. -/
theorem obeys_responderLink {x : Authenticated} {owner : Id} {now : Nat}
    {existing : Option PeerLinkRecord} (he : ∀ e, existing = some e → e.localAccountId = owner) :
    Obeys (monitor : Monitor (sdk Snap) View) Keyed
      (fun a' y => a.Later a' ∧ ∀ link, y = .ok link → link.localAccountId = owner) a
      (responderLink x owner now existing) := by
  cases existing with
  | some e => exact ⟨.refl a, fun _ h => by cases h; exact he e rfl⟩
  | none =>
    refine obeys_js_bind ⟨trivial, fun i _ => ?_⟩
    exact ((obeys_create rfl).and_ok ok_create).mono fun a' y hy =>
      ⟨(later_next a _).trans hy.1, hy.2⟩

theorem obeys_establishLink {owner : Id} {x : Authenticated} {preKey : Bytes} {ex : Bool}
    {name : String} {now : Nat} {existing : Option PeerLinkRecord}
    (hfull : ex = true → (owner, x.inviteId) ∈ a.full)
    (he : ∀ e, existing = some e → e.localAccountId = owner) :
    Obeys monitor Keyed (fun _ _ => True) a
      (establishLink svc owner x preKey ex name now existing) := by
  refine obeys_js_bind ((obeys_responderLink he).mono fun a₁ y hy => ?_)
  obtain ⟨h₁, hown⟩ := hy
  cases y with
  | error e => trivial
  | ok link =>
    refine obeys_over foot_establishAsResponder rfl (fun _ _ _ => trivial) fun a₂ snapshot h₂ => ?_
    refine obeys_over foot_sessionByLink rfl (fun _ _ _ => trivial) fun a₃ session h₃ => ?_
    refine obeys_js_bind
      (obeys_untrack (Obeys.mono (fun a₄ c h₄ => ?_) (obeys_commitSession rfl (hown link rfl) rfl)))
    cases c with
    | error e => trivial
    | ok commit =>
      refine obeys_over (l := [.newId]) (foot_stableId rfl) rfl
        (fun _ _ _ => trivial) fun a₅ _ h₅ => ?_
      refine obeys_over foot_attemptCreate rfl (fun _ _ _ => trivial) fun a₆ _ h₆ => ?_
      split
      · rename_i hex
        have hlater := ((((h₁.trans h₂).trans h₃).trans h₄).trans h₅).trans h₆
        refine obeys_js_bind ⟨hlater.full (hfull hex), fun z _ => ?_⟩
        cases z <;> trivial
      · trivial

theorem obeys_proceed {owner : Id} {x : Authenticated} {ex al : Bool} {name : String}
    (hfull : ex = true → (owner, x.inviteId) ∈ a.full) :
    Obeys monitor Keyed (fun _ _ => True) a (proceedHandshake svc owner x ex al name) := by
  refine obeys_over (l := [.get .invitePreKey]) (foot_get rfl) rfl
    (fun _ _ _ => trivial) fun a₁ stored h₁ => ?_
  refine obeys_js_bind (obeys_orThrow (fun preKey _ => ?_) fun _ => trivial)
  refine obeys_over (l := [.clock]) (foot_clock rfl) rfl (fun _ _ _ => trivial) fun a₂ now h₂ => ?_
  have hfull : ex = true → (owner, x.inviteId) ∈ a₂.full := fun h => (h₁.trans h₂).full (hfull h)
  refine obeys_js_bind
    (obeys_getByPair (fun _ => ⟨trivial, fun _ => rfl⟩) (fun _ _ => ⟨trivial, fun _ => rfl⟩)
    (fun e he => ?_) ?_ fun _ => trivial)
  · dsimp only [Goes]
    split
    · exact obeys_over foot_buildSnapshot rfl (fun _ _ _ => trivial) fun _ _ _ => trivial
    · exact obeys_establishLink hfull fun e' h => by cases h; exact he
  · exact obeys_establishLink hfull fun e' h => by cases h

theorem obeys_handshake {owner : Id} {b : Bytes} :
    Obeys monitor Keyed (fun _ _ => True) a (handleIncomingHandshakePacket svc owner b) := by
  refine obeys_js_bind (obeys_ensure (fun _ => ?_) fun _ => trivial)
  dsimp only [Goes]
  split
  · trivial
  · trivial
  · refine obeys_over foot_authenticate rfl (fun _ _ _ => trivial) fun a₁ x _ => ?_
    refine obeys_js_bind (obeys_getInvite (fun r _ _ => ?_) ?_ fun _ => trivial)
    · refine obeys_js_bind ((obeys_verdict fun h => by cases h).mono fun a₂ z hz => ?_)
      rcases z with err | ⟨ex, al⟩ | reason
      · trivial
      · exact obeys_proceed fun hex => hz.2 al (by rw [hex])
      · trivial
    · refine obeys_js_bind ((obeys_verdict fun _ => .head _).mono fun a₂ z hz => ?_)
      rcases z with err | ⟨ex, al⟩ | reason
      · trivial
      · exact obeys_proceed fun hex => hz.2 al (by rw [hex])
      · trivial

theorem obeys_program [DecidableEq Snap] {c : Call} (h : isHandshake c = true) :
    Obeys monitor Keyed (fun _ _ => True) a (program svc c) := by
  cases c with
  | handshake owner b =>
    exact obeys_js_bind (obeys_handshake.mono fun _ x _ => by cases x <;> trivial)
  | _ => cases h

end

/-! ## The invariant -/

def view (t : Nat) (log : List (Ev Snap)) : View := Pool.mon monitor ⟨[], [], none⟩ t log

theorem view_self (e : Ev Snap) (log : List (Ev Snap)) :
    view e.tid (e :: log) = (view e.tid log).next e.exch := Pool.mon_self

theorem view_other {t : Nat} {e : Ev Snap} {log : List (Ev Snap)} (h : e.tid ≠ t) :
    view t (e :: log) = view t log := Pool.mon_other h

theorem view_drawn (t : Nat) (log : List (Ev Snap)) :
    (view t log).drawn = (LinkPeers.view t log).drawn := by
  induction log with
  | nil => rfl
  | cons e log ih =>
    by_cases ht : e.tid = t
    · subst ht
      rw [view_self, LinkPeers.view_self]
      show drawnNext (view e.tid log).drawn e.exch = _
      rw [ih]
      unfold drawnNext LinkPeers.View.next
      obtain ⟨t, op, ans, f⟩ := e
      cases op with
      | get k => cases k <;> first | rfl | (rcases ans with _ | _ | _ <;> rfl)
      | set k v => cases k <;> first | rfl | (rcases ans with _ | _ <;> rfl)
      | _ => rfl
    · rw [view_other ht, LinkPeers.view_other ht]
      exact ih

structure Inv (svc : Service Snap) (s : State Snap) : Prop where
  calls : ∀ (t : Nat) c p, s.threads[t]? = some ⟨c, p⟩ → isHandshake c = true
  limit : InviteLimit.Inv svc s
  peers : LinkPeers.Inv (fun _ _ => none) s
  conforms : System.Conforms monitor Keyed (fun _ => ⟨[], [], none⟩) (fun _ _ _ => True) s
  filed : FiledRun s
  full : ∀ t o i r, (o, i) ∈ (view t s.log).full → s.mem.kv.lookup (.invite o i) = some r → Full r
  wrote : ∀ t o sid, (o, sid) ∈ (view t s.log).wrote →
    (s.mem.kv.lookup (.session o sid)).isSome = true
  served : ∀ o i r, s.mem.kv.lookup (.invite o i) = some r → Served s.mem.kv o i r

theorem full_cases {a : View} {x : Proc.Exch (sdk Snap)} {k : Id × Id} (h : k ∈ (a.next x).full) :
    k ∈ a.full ∨ x = ⟨.get (.invite k.1 k.2), .ok none⟩ ∨
      (∃ r, x = ⟨.get (.invite k.1 k.2), .ok (some r)⟩ ∧ Full r) ∨
      ∃ r, x = ⟨.set (.invite k.1 k.2) r, .ok ()⟩ ∧ Full r := by
  change k ∈ fullNext a.full x at h
  unfold fullNext at h
  split at h
  · rcases List.mem_cons.mp h with rfl | h
    · exact .inr (.inl rfl)
    · exact .inl h
  · rename_i o i r
    split at h
    · rename_i hfull
      rcases List.mem_cons.mp h with rfl | h
      · exact .inr (.inr (.inl ⟨r, rfl, hfull⟩))
      · exact .inl h
    · exact .inl h
  · rename_i o i r
    split at h
    · rename_i hfull
      rcases List.mem_cons.mp h with rfl | h
      · exact .inr (.inr (.inr ⟨r, rfl, hfull⟩))
      · exact .inl h
    · exact .inl h
  · exact .inl h

theorem wrote_cases {a : View} {x : Proc.Exch (sdk Snap)} {k : Id × Id} (h : k ∈ (a.next x).wrote) :
    k ∈ a.wrote ∨ ∃ r, x = ⟨.set (.session k.1 k.2) r, .ok ()⟩ := by
  change k ∈ wroteNext a.wrote x at h
  unfold wroteNext at h
  split at h
  · rename_i o sid r
    rcases List.mem_cons.mp h with rfl | h
    · exact .inr ⟨r, rfl⟩
    · exact .inl h
  · exact .inl h

/-! ## One event -/

namespace Inv

variable [DecidableEq Snap] {svc : Service Snap} {s s' : State Snap} {e : Ev Snap} {c : Call}
  {next : (sdk Snap).Ans e.op → Proc (sdk Snap) (Except Err Reply)}

theorem may (h : Inv svc s) (hf : Pool.Fires (system svc) s e c next s') :
    monitor.may (view e.tid s.log) e.op :=
  h.conforms.may hf

omit [DecidableEq Snap] in
/-- No `acceptInvite` runs, so there is no back-link. -/
theorem backLinks (h : Inv svc s) : InviteLimit.BackLinkCurrent s e := by
  rintro o i r - - ⟨args, p, hth⟩
  cases h.calls _ _ _ hth

/-- A write of an invite finds it below its limit. -/
theorem adds (h : Inv svc s) (hf : Pool.Fires (system svc) s e c next s') {o i : Id}
    {r : InviteRecord} (hop : e.op = .set (.invite o i) r) :
    ∃ r₀, s.mem.kv.lookup (.invite o i) = some r₀ ∧ ¬ Full r₀ := by
  have hmay := h.limit.may hf
  rw [hop] at hmay
  obtain ⟨hled, -, -⟩ := hmay
  cases hled with
  | @add acc x pid hp hv hlt hx =>
    obtain ⟨r₀, hr₀, hmax, hacc⟩ := h.limit.views e.tid _ hv
    have hacc := hacc pid hp
    refine ⟨r₀, hr₀, ?_⟩
    unfold Full
    rw [hmax, hacc]
    exact Nat.not_le.mpr hlt
  | back hb hv =>
    obtain ⟨args, rfl⟩ := InviteLimit.Inv.accepts_iff hb
    cases h.calls _ _ _ hf.thread

/-- An established account stays established. -/
theorem established_fires (h : Inv svc s) (hf : Pool.Fires (system svc) s e c next s') {o p : Id}
    (hp : Established s.mem.kv o p) : Established s'.mem.kv o p := by
  have hmay := h.may hf
  have hsession : ∀ sid, (s.mem.kv.lookup (.session o sid)).isSome = true →
      (s'.mem.kv.lookup (.session o sid)).isSome = true := by
    intro sid hsid
    rw [kv_fires hf]
    refine isSome_effect hsid fun hop => ?_
    rw [hop] at hmay
    exact hmay.elim
  obtain ⟨l, r, sid, hr, hpeer, hstate, hsid, hstored⟩ := hp
  have hlink := effect_cases s.mem.kv e.op e.fate (.peerLink o l)
  rw [← kv_fires hf] at hlink
  rcases hlink with hk | ⟨r', hop, -, hk⟩ | ⟨hop, -, -⟩
  · exact ⟨l, r, sid, hk.trans hr, hpeer, hstate, hsid, hsession sid hstored⟩
  · have hpeer' := h.peers.written hf hop ⟨r, hr, hpeer⟩
    rw [hop] at hmay
    rcases hmay with hd | ⟨hstate', sid', hsid', hw⟩
    · -- the id of a new link was free
      rw [view_drawn] at hd
      rw [(h.peers.drawn _ l hd).empty o] at hr
      cases hr
    · exact ⟨l, r', sid', hk, hpeer', hstate', hsid', hsession sid' (h.wrote _ o sid' hw)⟩
  · rw [hop] at hmay
    exact hmay.elim

/-- An invite that is full stays as it is. -/
theorem full_stays (h : Inv svc s) (hf : Pool.Fires (system svc) s e c next s') {o i : Id}
    (hfull : ∀ r, s.mem.kv.lookup (.invite o i) = some r → Full r) {r : InviteRecord}
    (hr : s'.mem.kv.lookup (.invite o i) = some r) : Full r := by
  rw [kv_fires hf] at hr
  rcases lookup_effect hr with hr | ⟨hop, -⟩
  · exact hfull r hr
  · obtain ⟨r₀, hr₀, hnot⟩ := h.adds hf hop
    exact absurd (hfull r₀ hr₀) hnot

theorem full_fires (h : Inv svc s) (hf : Pool.Fires (system svc) s e c next s') {t : Nat} {o i : Id}
    {r : InviteRecord} (hk : (o, i) ∈ (view t s'.log).full)
    (hr : s'.mem.kv.lookup (.invite o i) = some r) : Full r := by
  have hold : (o, i) ∈ (view t s.log).full → Full r :=
    fun hk => h.full_stays hf (fun r' => h.full t o i r' hk) hr
  rw [hf.log] at hk
  by_cases ht : e.tid = t
  · subst ht
    rw [view_self] at hk
    obtain ⟨t, op, ans, f⟩ := e
    rcases full_cases hk with hk | hx | ⟨r', hx, hfull⟩ | ⟨r', hx, hfull⟩
    · exact hold hk
    · cases hx
      have hnone := act_get_ok hf.act
      exact h.full_stays hf (fun r' hr' => by cases hnone.symm.trans hr') hr
    · cases hx
      have hsome := act_get_ok hf.act
      refine h.full_stays hf (fun r₁ hr₁ => ?_) hr
      cases hsome.symm.trans hr₁
      exact hfull
    · cases hx
      rw [kv_fires hf] at hr
      simp only [effect, act_set_ok hf.act, if_true, AList.lookup_insert, Option.some.injEq] at hr
      subst hr
      exact hfull
  · rw [view_other ht] at hk
    exact hold hk

theorem wrote_fires (h : Inv svc s) (hf : Pool.Fires (system svc) s e c next s') {t : Nat}
    {o sid : Id} (hk : (o, sid) ∈ (view t s'.log).wrote) :
    (s'.mem.kv.lookup (.session o sid)).isSome = true := by
  have hold :
      (o, sid) ∈ (view t s.log).wrote → (s'.mem.kv.lookup (.session o sid)).isSome = true := by
    intro hk
    have hmay := h.may hf
    rw [kv_fires hf]
    refine isSome_effect (h.wrote t o sid hk) fun hop => ?_
    rw [hop] at hmay
    exact hmay.elim
  rw [hf.log] at hk
  by_cases ht : e.tid = t
  · subst ht
    rw [view_self] at hk
    obtain ⟨t, op, ans, f⟩ := e
    rcases wrote_cases hk with hk | ⟨r, hx⟩
    · exact hold hk
    · cases hx
      rw [kv_fires hf]
      simp only [effect, act_set_ok hf.act, if_true, AList.lookup_insert, Option.isSome_some]
  · rw [view_other ht] at hk
    exact hold hk

theorem served_fires (h : Inv svc s) (hf : Pool.Fires (system svc) s e c next s')
    (hok : DeletedLast s e) {o i : Id} {r : InviteRecord}
    (hr : s'.mem.kv.lookup (.invite o i) = some r) : Served s'.mem.kv o i r := by
  have hmay := h.may hf
  rw [kv_fires hf] at hr
  rcases lookup_effect hr with hr | ⟨hop, -⟩
  · rcases h.served o i r hr with hpre | ⟨hfull, hall⟩
    · have hkey := effect_cases s.mem.kv e.op e.fate (.invitePreKey o i)
      rw [← kv_fires hf] at hkey
      rcases hkey with hk | ⟨v, -, -, hk⟩ | ⟨hop, hl, -⟩
      · exact .inl (hk ▸ hpre)
      · exact .inl (by rw [hk]; rfl)
      · -- the call that deletes the pre-key has found the invite full
        rw [hop] at hmay
        exact .inr ⟨h.full _ o i r hmay hr,
          fun p hp => h.established_fires hf (hok o i r hop hl hr p hp)⟩
    · exact .inr ⟨hfull, fun p hp => h.established_fires hf (hall p hp)⟩
  · -- the invite had room, so its pre-key is there
    obtain ⟨r₀, hr₀, hnot⟩ := h.adds hf hop
    rcases h.served o i r₀ hr₀ with hpre | ⟨hfull, -⟩
    · refine .inl ?_
      rw [kv_fires hf]
      exact isSome_effect hpre fun hop' => by rw [hop] at hop'; cases hop'
    · exact absurd hfull hnot

theorem fires (h : Inv svc s) (hf : Pool.Fires (system svc) s e c next s') (hok : DeletedLast s e) :
    Inv svc s' where
  calls t c' p hth := by
    obtain ⟨p', hth'⟩ := hf.called hth
    exact h.calls t c' p' hth'
  limit := h.limit.fires hf h.backLinks
  peers := h.peers.fires hf
  conforms := System.conforms_fires h.conforms hf (h.filed.store.keyed hf)
  filed := h.filed.fires hf
  full _ _ _ _ hk hr := h.full_fires hf hk hr
  wrote _ _ _ hk := h.wrote_fires hf hk
  served _ _ _ hr := h.served_fires hf hok hr

end Inv

/-! ## Whole runs -/

variable [DecidableEq Snap] {svc : Service Snap}

omit [DecidableEq Snap] in
theorem inv_init {m : Mem Snap} (h : Starts m) : Inv svc ⟨m, [], []⟩ where
  calls _ _ _ ht := by simp at ht
  limit := InviteLimit.inv_init h.locks ⟨h.filed.invites, h.within⟩
  peers := LinkPeers.inv_init h.peers
  conforms := System.conforms_init m
  filed := .init h.filed
  full _ _ _ _ hk := absurd hk List.not_mem_nil
  wrote _ _ _ hk := absurd hk List.not_mem_nil
  served := h.served

theorem Inv.spawn {s : State Snap} {c : Call} (h : Inv svc s) (hc : isHandshake c = true) :
    Inv svc (s.spawn (system svc) c) where
  calls t c' p ht := by
    rw [Pool.spawn, List.getElem?_append] at ht
    split at ht
    · exact h.calls t c' p ht
    · have hmem := List.mem_of_getElem? ht
      rw [List.mem_singleton, Thread.mk.injEq] at hmem
      rw [hmem.1]
      exact hc
  limit := h.limit.spawn (by cases c <;> first | rfl | cases hc)
  peers := h.peers.spawn (by cases c <;> trivial)
  conforms := System.conforms_spawn h.conforms (obeys_program hc)
  filed := h.filed.spawn c
  full := h.full
  wrote := h.wrote
  served := h.served

theorem inv_inductive (svc : Service Snap) : ((system svc).lts deletedLast).Inductive (Inv svc) :=
  System.inductive_of (fun _ hm => inv_init hm) (fun _ _ h hc => h.spawn hc)
    (fun _ _ _ _ _ h hf hok => h.fires hf hok)

omit [DecidableEq Snap] in
theorem Inv.canFinish {s : State Snap} (h : Inv svc s) : CanFinish s.mem.kv := by
  intro o i r p hr hp hnot
  rcases h.served o i r hr with hpre | ⟨-, hall⟩
  · exact hpre
  · exact absurd (hall p hp) hnot

/-- **Admitted acceptors can finish**, in every run that deletes a pre-key
last. -/
theorem can_finish (svc : Service Snap) (s : State Snap)
    (hr : ((system svc).lts deletedLast).Reachable s) : CanFinish s.mem.kv :=
  ((inv_inductive svc).reachable s hr).canFinish

/-! ## Concrete runs -/

/-- `Established`, decided. -/
def established (kv : Store Snap) (o p : Id) : Bool :=
  kv.keys.any fun
    | .peerLink o' l => o' = o && (kv.lookup (.peerLink o l)).any fun r =>
        r.peerAccountId = p && r.state = .sessionEstablished &&
          r.activeSessionId.any fun sid => (kv.lookup (.session o sid)).isSome
    | _ => false

omit [DecidableEq Snap] in
theorem established_iff {kv : Store Snap} {o p : Id} :
    established kv o p = true ↔ Established kv o p := by
  constructor
  · intro h
    obtain ⟨k, -, hk⟩ := List.any_eq_true.mp h
    split at hk
    · rename_i o' l
      rw [Bool.and_eq_true, decide_eq_true_eq] at hk
      obtain ⟨r, hr, h⟩ := (Option.any_eq_true _ _).mp hk.2
      simp only [Bool.and_eq_true, decide_eq_true_eq] at h
      obtain ⟨sid, hsid, hstored⟩ := (Option.any_eq_true _ _).mp h.2
      exact ⟨l, r, sid, hr, h.1.1, h.1.2, hsid, hstored⟩
    · cases hk
  · rintro ⟨l, r, sid, hr, hpeer, hstate, hsid, hstored⟩
    have hmem : Key.peerLink o l ∈ kv.keys := by
      refine AList.mem_keys.mp (AList.lookup_isSome.mp ?_)
      rw [hr]
      rfl
    refine List.any_eq_true.mpr ⟨_, hmem, ?_⟩
    simp [hr, hpeer, hstate, hsid, hstored]

def handshakesJudge : System.Judge (handshakes : Rules Snap) where
  may _ c := isHandshake c
  ok _ _ := true
  may_iff _ _ h := h
  ok_iff _ _ _ := trivial

/-- Every deletion of a pre-key finds all acceptors established. -/
def lastOk (s : State Snap) (e : Ev Snap) : Bool :=
  match e.op with
  | .delete (.invitePreKey o i) => !e.fate.lands ||
      (s.mem.kv.lookup (.invite o i)).all fun r => r.acceptedAcceptors.all (established s.mem.kv o)
  | _ => true

def lastJudge : System.Judge (deletedLast : Rules Snap) where
  may _ c := isHandshake c
  ok := lastOk
  may_iff _ _ h := h
  ok_iff s e h o i r hop hl hr p hp := by
    simp only [lastOk, hop, hl, hr, Option.all_some, Bool.not_true, Bool.false_or,
      List.all_eq_true] at h
    exact established_iff.mp (h p hp)

open Counting

theorem inviting_starts (n : Nat) (hn : 0 < n) :
    Starts (.ofStore (inviting (Counting.invite n [] hn)) []) := by
  obtain ⟨hfiled, hsound⟩ := HandshakeAuth.inviting_init (Counting.invite n [] hn) ⟨rfl, rfl⟩
  have hlook : ∀ o i r, (inviting (Counting.invite n [] hn)).lookup (.invite o i) = some r →
      o = a ∧ i = d ∧ r = Counting.invite n [] hn := by
    intro o i r hr
    rw [inviting, AList.lookup_insert_ne
      (show Key.invite o i ≠ .invitePreKey a d from fun h => by cases h)] at hr
    by_cases heq : o = a ∧ i = d
    · obtain ⟨rfl, rfl⟩ := heq
      rw [AList.lookup_insert, Option.some.injEq] at hr
      exact ⟨rfl, rfl, hr.symm⟩
    · rw [InviteLimit.lookup_invite_ne heq,
        AList.lookup_insert_ne (show Key.invite o i ≠ .identity a from fun h => by cases h)] at hr
      cases hr
  refine ⟨rfl, hfiled, hsound, fun o i r hr => ?_, fun o i r hr => ?_⟩
  · obtain ⟨-, -, rfl⟩ := hlook o i r hr
    exact Nat.zero_le n
  · obtain ⟨rfl, rfl, -⟩ := hlook o i r hr
    refine .inl ?_
    show ((inviting _).lookup _).isSome = true
    rw [inviting, AList.lookup_insert]
    rfl

/-- Accounts `b` and `c` are in the ledger of invite `d`, whose pre-key is
gone; `b` has its session (`done`) or not. -/
def exhausted (done : Bool) (s : State Nat) : Bool :=
  (s.mem.kv.lookup (.invite a d)).any (fun r => r.acceptedAcceptors = [b, c]) &&
    (s.mem.kv.lookup (.invitePreKey a d)).isNone && established s.mem.kv a b == done

/-- Account `b` is admitted and its handshake fails on the storage; `c`'s
handshake exhausts the invite and deletes the pre-key. -/
theorem prekey_deleted_early :
    ∃ s, ((system Counting.svc).lts handshakes).Reachable s ∧ ¬ CanFinish s.mem.kv := by
  obtain ⟨s, hr, hs⟩ := System.reachable_of_play (S := system Counting.svc) handshakesJudge smooth
    [.call (.handshake a [1, 3, 0]), .go 0 11, .run 0 (.fail fault), .call (.handshake a [2, 3, 0]),
    .go 1 52]
    (m := .ofStore (inviting (Counting.invite 2 [])) []) (P := exhausted false)
    (inviting_starts 2 (by decide)) (by decide +kernel)
  refine ⟨s, hr, fun hfin => ?_⟩
  simp only [exhausted, Bool.and_eq_true, beq_iff_eq] at hs
  obtain ⟨⟨hinv, hgone⟩, hnot⟩ := hs
  obtain ⟨r, hr, hacc⟩ := (Option.any_eq_true _ _).mp hinv
  rw [decide_eq_true_eq] at hacc
  have hstored := hfin a d r b hr (by rw [hacc]; exact .head _) fun h => by
    rw [established_iff.mpr h] at hnot
    cases hnot
  rw [Option.isNone_iff_eq_none.mp hgone] at hstored
  cases hstored

/-- Both handshakes run to their end, and the pre-key is deleted last. -/
theorem can_finish_both :
    ∃ s, ((system Counting.svc).lts deletedLast).Reachable s ∧ exhausted true s = true ∧
      CanFinish s.mem.kv := by
  obtain ⟨s, hr, hs⟩ := System.reachable_of_play (S := system Counting.svc) lastJudge smooth
    [.call (.handshake a [1, 3, 0]), .go 0 51, .call (.handshake a [2, 3, 0]), .go 1 52]
    (m := .ofStore (inviting (Counting.invite 2 [])) []) (P := exhausted true)
    (inviting_starts 2 (by decide)) (by decide +kernel)
  exact ⟨s, hr, hs, can_finish Counting.svc s hr⟩

end RezSdk.L4.PreKeys
