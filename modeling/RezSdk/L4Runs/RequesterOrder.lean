import RezSdk.Core.Histories
import RezSdk.L1Records.Json
import RezSdk.L3Service.DeviceLinkRequester

/-!
# What a linked device has checked

A device that confirms the ceremony tells the primary that it can come back as
the granted device. So `runDeviceLinkRequester` asks for the delegation to be
persisted only after it has opened a response to the request of this very run
and the chain in it was verified for the code's account and the run's own key,
with every capability of a linked device (`Vets`); and it builds, seals and
puts the confirmation only after the persisting has succeeded.

* `persisted_then_confirmed`: in every run, at every operation, whatever the
  answers were.
-/
namespace RezSdk.L4.RequesterOrder

open RezSdk.L1 RezSdk.L3.DeviceLink

abbrev Exch := Proc.Exch requesting

/-! ## The property -/

/-- The exchanges a run has persisted its delegation on. -/
structure Vetting where
  asked : RequestArgs
  request : BuiltRequest
  openedWith : OpenArgs
  opened : OpenedResponse
  checkedWith : AuthorityArgs
  authority : Authority

/-- The run of `o` has checked `r`; `τ` is what it has asked and heard, newest
first. -/
structure Vets (lib : RequesterLib) (o : Options) (τ : List Exch) (v : Vetting) (r : Linked) :
    Prop where
  asked : (⟨.buildRequest v.asked, .ok v.request⟩ : Exch) ∈ τ
  opened : (⟨.openResponse v.openedWith, .ok v.opened⟩ : Exch) ∈ τ
  checked : (⟨.verifyAccountAuthority v.checkedWith, .ok v.authority⟩ : Exch) ∈ τ
  /-- the account and the secret are those of the code -/
  code : lib.parseDeviceLinkCode o.code = .ok (v.asked.psk, v.asked.accountSignPublicKeyB64)
  secret : v.openedWith.psk = v.asked.psk
  answers : v.openedWith.thRequestB64 = v.request.thRequestB64
  ephemeral : v.openedWith.ephemeralKeyPair = v.request.ephemeralKeyPair
  forAccount : v.checkedWith.expectedAccountIdentityPublicKeyB64 = v.asked.accountSignPublicKeyB64
  forDevice : v.checkedWith.opSignerPublicKeyB64 = v.asked.deviceKeyPair.publicKeyB64
  chain : v.checkedWith.certChain = v.opened.delegationBundle.certChain
  ok : v.authority.ok = true
  granted :
    ∀ capability ∈ lib.leafCapabilities, capability ∈ v.authority.grantedCapabilities.getD []
  delegation : r.delegation = ⟨v.opened.delegationBundle.accountSignPublicKeyB64,
    v.opened.delegationBundle.accountDhKeyPair,
    v.asked.deviceKeyPair, v.opened.delegationBundle.certChain,
      v.opened.delegationBundle.cachedDeviceSet⟩
  deviceId : r.deviceId = v.request.newDeviceId
  inboxId : v.asked.deviceInboxBinding.inboxId = .text r.inboxId

/-- The delegation of a checked `r` is persisted. -/
structure Persisted (lib : RequesterLib) (o : Options) (τ : List Exch) (v : Vetting)
    (r : Linked) (persistence : Field) : Prop where
  vets : Vets lib o τ v r
  persisted : (⟨.persistDelegation r, .ok persistence⟩ : Exch) ∈ τ

def asksRequest : RequesterOp → Bool
  | .buildRequest _ => true
  | _ => false

def asksPersist : RequesterOp → Bool
  | .persistDelegation _ => true
  | _ => false

/-- What a run may ask after `τ`. -/
def May (lib : RequesterLib) (o : Options) (τ : List Exch) : RequesterOp → Prop
  | .buildRequest _ => ∀ x ∈ τ, asksRequest x.op = false
  | .persistDelegation r => (∃ v, Vets lib o τ v r) ∧ ∀ x ∈ τ, asksPersist x.op = false
  | .buildConfirm masterSecret th =>
    ∃ v r p, Persisted lib o τ v r p ∧ masterSecret = v.opened.masterSecret ∧
    th = v.opened.thResponseB64
  | .sealRecord a => a.recordId = .request ∨
    a.recordId = .confirm ∧ ∃ v r p, Persisted lib o τ v r p ∧
      (⟨.buildConfirm v.opened.masterSecret v.opened.thResponseB64, .ok a.payloadB64⟩ : Exch) ∈ τ
  | .put record => ∃ a, (⟨.sealRecord a, .ok record⟩ : Exch) ∈ τ
  | _ => True

/-- A run that has resolved with `r` has persisted it and put the
confirmation. -/
def Confirmed (lib : RequesterLib) (o : Options) (τ : List Exch) (x : Linked × Field) : Prop :=
  (∃ v, Persisted lib o τ v x.1 x.2) ∧ ∃ a record, a.recordId = .confirm ∧
  (⟨.sealRecord a, .ok record⟩ : Exch) ∈ τ ∧
    (⟨.put record, .ok ()⟩ : Exch) ∈ τ

/-- Every operation came after what it needs, and every run that has resolved
has confirmed. -/
structure Ordered (lib : RequesterLib) (s : RequesterState) : Prop where
  each : ∀ newer e older, s.log = newer ++ e :: older →
    ∃ o p, s.threads[e.tid]? = some ⟨o, p⟩ ∧ May lib o (Pool.history e.tid older) e.op
  result : ∀ t o r, s.threads[t]? = some ⟨o, .ret (.ok r)⟩ →
    Confirmed lib o (Pool.history t s.log) r

/-! ## One run -/

abbrev Lawful : Exch → Prop := fun _ => True

/-- Neither the request nor anything that is said after the check. -/
def Plain : RequesterOp → Prop
  | .buildRequest _ => False
  | .persistDelegation _ => False
  | .buildConfirm .. => False
  | .sealRecord _ => False
  | .put _ => False
  | _ => True

section

variable {α β : Type} {lib : RequesterLib} {o : Options}

theorem may_plain {τ : List Exch} {op : RequesterOp} (h : Plain op) : May lib o τ op := by
  cases op <;> trivial

theorem not_request {op : RequesterOp} (h : Plain op) : asksRequest op = false := by
  cases op <;> first | rfl | exact h.elim

theorem not_persist {op : RequesterOp} (h : Plain op) : asksPersist op = false := by
  cases op <;> first | rfl | exact h.elim

theorem Vets.mono {τ τ' : List Exch} {v : Vetting} {r : Linked} (h : Vets lib o τ v r)
    (hτ : τ <:+ τ') : Vets lib o τ' v r :=
  { h with
    asked := hτ.subset h.asked
    opened := hτ.subset h.opened
    checked := hτ.subset h.checked }

theorem Persisted.mono {τ τ' : List Exch} {v : Vetting} {r : Linked} {p : Field}
    (h : Persisted lib o τ v r p) (hτ : τ <:+ τ') : Persisted lib o τ' v r p :=
  ⟨h.vets.mono hτ, hτ.subset h.persisted⟩

section

variable {τ : List Exch}

theorem obeys_plain {Q : List Exch → α → Prop} {p : Proc requesting α} (hp : p.All Plain)
    (hq : ∀ τ' x, Grows Plain τ τ' → Q τ' x) : Obeys (.history (May lib o)) Lawful Q τ p :=
  obeys_grows (fun _ _ => may_plain) hp hq

theorem plain_ask {q : RequesterOp} {k : q.Ans → Requesting α} (h : Plain q)
    (hk : ∀ r, Proc.All Plain (k r)) : Proc.All Plain (.ask q k : Requesting α) := ⟨h, hk⟩

theorem plain_emitStatus {status : String} : Proc.All Plain (emitStatus o status) := by
  unfold emitStatus
  cases o.hasOnStatus with
  | true => exact plain_ask (q := .onStatus status) trivial fun _ => trivial
  | false => trivial

theorem plain_prepare : Proc.All Plain (prepare lib o) := by
  refine Js.all_bind (show Proc.All Plain (Js.ofExcept _ : Requesting _) from trivial) fun code =>
    ?_
  refine Js.all_bind (plain_ask trivial fun _ => trivial) fun rendezvous =>
    Js.all_bind ?_ fun device => ?_
  · unfold deviceKeys
    cases o.deviceKeyPair with
    | some keys => trivial
    | none => exact plain_ask (q := .generateDeviceKeyPair) trivial fun _ => trivial
  · exact Js.all_bind (plain_ask (q := .now) trivial fun _ => trivial) fun _ =>
      Js.all_bind (plain_ask trivial fun _ => trivial) fun _ => trivial

theorem plain_inboxBinding {device : Keys} {inboxId : String} {nowMs ttlMs : Nat} :
    Proc.All Plain (inboxBinding lib device inboxId nowMs ttlMs) := by
  -- otherwise `whnf` evaluates the trim
  unfold inboxBinding
  generalize trim inboxId = inboxId
  refine Js.all_bind (Js.all_ensure ..) fun _ => Js.all_bind (Js.all_ensure ..) fun _ =>
    Js.all_bind (Js.all_ensure ..) fun _ => ?_
  refine Js.all_bind (plain_ask trivial fun _ => trivial) fun sig => ?_
  exact Js.all_bind (show Proc.All Plain (Js.ofExcept _ : Requesting Unit) from trivial) fun _ =>
    trivial

theorem plain_awaitResponse {c : Ceremony} :
    ∀ {n : Nat} {interval : ℚ}, Proc.All Plain (awaitResponse o c n interval)
  | 0, _ => plain_ask trivial fun r => nomatch r
  | n + 1, interval => by
    refine Js.all_bind (plain_ask (q := .now) trivial fun _ => trivial) fun atMs =>
      Js.all_bind (Js.all_ensure ..) fun _ => ?_
    refine Js.all_bind (plain_ask trivial fun _ => trivial) fun record => ?_
    cases record with
    | some record => exact plain_ask trivial fun _ => trivial
    | none => exact Js.all_bind (plain_ask trivial fun _ => trivial) fun _ => plain_awaitResponse

/-- The inbox of the binding. -/
theorem ok_inboxBinding {device : Keys} {inboxId : String} {nowMs ttlMs : Nat} :
    Js.Ok (fun b => b.inboxId = .text (trim inboxId))
      (inboxBinding lib device inboxId nowMs ttlMs) := by
  unfold inboxBinding
  generalize trim inboxId = inboxId
  refine Js.ok_skip fun _ => Js.ok_skip fun _ => Js.ok_skip fun _ => Js.ok_skip fun sig =>
    Js.ok_skip fun _ => ?_
  exact Js.ok_pure rfl

/-- The account and the secret are read from the code, and the inbox is minted. -/
theorem ok_prepare :
    Js.Ok (fun c =>
          lib.parseDeviceLinkCode o.code = .ok (c.psk, c.accountSignPublicKeyB64) ∧
          ∃ bytes, c.inboxId = inboxIdOf bytes) (prepare lib o) := by
  have hparse : Js.Ok (fun x => lib.parseDeviceLinkCode o.code = .ok x)
      (Js.ofExcept (lib.parseDeviceLinkCode o.code) : Requesting (Bytes × String)) := fun _ h => h
  refine Js.ok_bind hparse fun x hx => ?_
  refine Js.ok_skip fun _ => Js.ok_skip fun _ => Js.ok_skip fun _ => Js.ok_skip fun bytes => ?_
  exact Js.ok_pure ⟨hx, bytes, rfl⟩

theorem digit_not_space : ∀ n < 16, isSpace (Nat.digitChar n) = false := by decide

/-- Without white space, and not empty. -/
theorem isId_solid {l : List Char} (hne : l ≠ []) (h : ∀ c ∈ l, isSpace c = false) :
    isId (.ofList l) = true := by
  unfold isId
  rw [String.toList_ofList]
  cases l with
  | nil => exact absurd rfl hne
  | cons c cs => simp [h c (.head _), h _ (List.getLast_mem (List.cons_ne_nil c cs))]

theorem hex_not_space (bytes : Bytes) : ∀ c ∈ bytes.flatMap hexByte, isSpace c = false := by
  intro c hc
  obtain ⟨b, -, hb⟩ := List.mem_flatMap.mp hc
  have hlt : b.toNat < 256 := b.toNat_lt
  rcases List.mem_pair.mp hb with rfl | rfl <;> exact digit_not_space _ (by omega)

/-- A minted inbox id is its own trim. -/
theorem trim_inboxIdOf (bytes : Bytes) : trim (inboxIdOf bytes) = inboxIdOf bytes := by
  have hstart : ∀ c ∈ "inbox:".toList, isSpace c = false := by simp [isSpace]
  refine trim_of_isId (isId_solid (fun h => ?_) fun c hc => ?_)
  · simp at h
  · exact (List.mem_append.mp hc).elim (hstart c) (hex_not_space bytes c)

/-! ### Its steps -/

def NotPersisting (τ : List Exch) : Prop := ∀ x ∈ τ, asksPersist x.op = false

theorem NotPersisting.cons {x : Exch} (h : NotPersisting τ) (hx : asksPersist x.op = false) :
    NotPersisting (x :: τ) := by
  intro y hy
  rcases List.mem_cons.mp hy with rfl | hy
  · exact hx
  · exact h y hy

/-- The request of this run. -/
structure Requested (c : Ceremony) (τ : List Exch) (a : RequestArgs) (request : BuiltRequest) :
    Prop where
  asked : (⟨.buildRequest a, .ok request⟩ : Exch) ∈ τ
  secret : a.psk = c.psk
  account : a.accountSignPublicKeyB64 = c.accountSignPublicKeyB64
  device : a.deviceKeyPair = c.device
  inboxId : a.deviceInboxBinding.inboxId = .text c.inboxId

theorem Requested.mono {c : Ceremony} {τ τ' : List Exch} {a : RequestArgs} {request : BuiltRequest}
    (h : Requested c τ a request) (hτ : τ <:+ τ') : Requested c τ' a request :=
  { h with asked := hτ.subset h.asked }

theorem obeys_publishRequest {c : Ceremony} {Q : List Exch → Except Err BuiltRequest → Prop}
    (hinbox : trim c.inboxId = c.inboxId) (hfresh : ∀ x ∈ τ, asksRequest x.op = false)
    (hnot : NotPersisting τ) (herror : ∀ τ' e, Q τ' (.error e))
    (hok : ∀ τ' a request, Requested c τ' a request → NotPersisting τ' → Q τ' (.ok request)) :
    Obeys (.history (May lib o)) Lawful Q τ (publishRequest lib o c) := by
  refine obeys_js_bind ((obeys_plain plain_inboxBinding fun τ₁ _ hτ₁ =>
    hτ₁).and_ok ok_inboxBinding |>.mono fun τ₁ binding h => ?_)
  obtain ⟨hτ₁, hbinding⟩ := h
  cases binding with
  | error e => exact herror _ e
  | ok binding =>
    refine obeys_js_bind (obeys_plain plain_emitStatus fun τ₂ told hτ₂ => ?_)
    have hτ := hτ₁.trans hτ₂
    cases told with
    | error e => exact herror _ e
    | ok _ =>
      refine obeys_js_bind (obeys_outcome (hτ.none (fun _ => not_request) hfresh) fun request => ?_)
      cases request with
      | error e => exact herror _ e
      | ok request =>
        refine obeys_js_bind (obeys_outcome (.inl rfl) fun record => ?_)
        cases record with
        | error e => exact herror _ e
        | ok record =>
          refine obeys_js_bind (obeys_outcome ⟨_, .head _⟩ fun put => ?_)
          cases put with
          | error e => exact herror _ e
          | ok _ =>
            refine hok _ _ request ⟨.tail _ (.tail _ (.head _)), rfl, rfl, rfl, ?_⟩ ?_
            · rw [hbinding binding rfl, hinbox]
            · have hnot : NotPersisting τ₂ := hτ.none (fun _ => not_persist) hnot
              exact ((hnot.cons rfl).cons rfl).cons rfl

/-- The chain of the response was checked for this device. -/
structure Checked (lib : RequesterLib) (c : Ceremony) (τ : List Exch) (opened : OpenedResponse)
    (a : AuthorityArgs) (authority : Authority) : Prop where
  asked : (⟨.verifyAccountAuthority a, .ok authority⟩ : Exch) ∈ τ
  account : a.expectedAccountIdentityPublicKeyB64 = c.accountSignPublicKeyB64
  device : a.opSignerPublicKeyB64 = c.device.publicKeyB64
  chain : a.certChain = opened.delegationBundle.certChain
  ok : authority.ok = true
  granted : ∀ capability ∈ lib.leafCapabilities, capability ∈ authority.grantedCapabilities.getD []

theorem obeys_checkAuthority {c : Ceremony} {opened : OpenedResponse}
    {Q : List Exch → Except Err Unit → Prop} (hnot : NotPersisting τ)
    (herror : ∀ τ' e, Q τ' (.error e))
    (hok : ∀ τ' a authority, τ <:+ τ' → Checked lib c τ' opened a authority → NotPersisting τ' →
        Q τ' (.ok ())) : Obeys (.history (May lib o)) Lawful Q τ (checkAuthority lib c opened) := by
  refine obeys_js_bind (obeys_outcome (F := requesting) (o := RequesterOp.now) trivial fun atMs =>
    ?_)
  refine obeys_js_bind (obeys_outcome trivial fun authority => ?_)
  cases authority with
  | error e => exact herror _ e
  | ok authority =>
    refine obeys_js_bind (obeys_ensure (fun hauthority => ?_) fun _ => herror _ _)
    dsimp only [Goes]
    cases hfind : lib.leafCapabilities.find? fun capability =>
      !(authority.grantedCapabilities.getD []).contains capability with
    | some capability => exact herror _ _
    | none =>
      refine hok _ _ authority ?_ ⟨.head _, rfl, rfl, rfl, hauthority,
        fun capability hcapability => ?_⟩ ((hnot.cons rfl).cons rfl)
      · exact (List.suffix_cons _ _).trans (List.suffix_cons _ _)
      · simpa using List.find?_eq_none.mp hfind capability hcapability

theorem obeys_openResponse {c : Ceremony} {request : BuiltRequest} {payload : String}
    {Q : List Exch → Except Err OpenedResponse → Prop} (hnot : NotPersisting τ)
    (herror : ∀ τ' e, Q τ' (.error e))
    (hok : ∀ τ' a opened checked authority, τ <:+ τ' → (⟨.openResponse a, .ok opened⟩ : Exch) ∈ τ' →
        a.psk = c.psk → a.thRequestB64 = request.thRequestB64 →
        a.ephemeralKeyPair = request.ephemeralKeyPair → Checked lib c τ' opened checked authority →
        NotPersisting τ' → Q τ' (.ok opened)) :
    Obeys (.history (May lib o)) Lawful Q τ (openResponse lib c request payload) := by
  refine obeys_js_bind (obeys_outcome trivial fun opened => ?_)
  cases opened with
  | error e => exact herror _ e
  | ok opened =>
    refine obeys_js_bind (obeys_checkAuthority (hnot.cons rfl)
      (fun _ _ => herror _ _) fun τ' checked authority hτ' hchecked hnot' => ?_)
    exact hok τ' _ opened checked authority ((List.suffix_cons _ _).trans hτ')
      (hτ'.subset (.head _)) rfl rfl rfl hchecked hnot'

theorem vets_linked {c : Ceremony} {a : RequestArgs} {request : BuiltRequest}
    {openedWith : OpenArgs} {opened : OpenedResponse} {checkedWith : AuthorityArgs}
    {authority : Authority}
    (hcode : lib.parseDeviceLinkCode o.code = .ok (c.psk, c.accountSignPublicKeyB64))
    (hrequested : Requested c τ a request)
    (hopened : (⟨.openResponse openedWith, .ok opened⟩ : Exch) ∈ τ)
    (hsecret : openedWith.psk = c.psk) (hanswers : openedWith.thRequestB64 = request.thRequestB64)
    (hephemeral : openedWith.ephemeralKeyPair = request.ephemeralKeyPair)
    (hchecked : Checked lib c τ opened checkedWith authority) :
    Vets lib o τ ⟨a, request, openedWith, opened, checkedWith, authority⟩
      (linked c request opened) where
  asked := hrequested.asked
  opened := hopened
  checked := hchecked.asked
  code := by rw [hrequested.secret, hrequested.account, hcode]
  secret := hsecret.trans hrequested.secret.symm
  answers := hanswers
  ephemeral := hephemeral
  forAccount := hchecked.account.trans hrequested.account.symm
  forDevice := by rw [hchecked.device, hrequested.device]
  chain := hchecked.chain
  ok := hchecked.ok
  granted := hchecked.granted
  delegation := by rw [hrequested.device]; rfl
  deviceId := rfl
  inboxId := hrequested.inboxId

/-- The confirmation, after the delegation was persisted. -/
theorem obeys_publishConfirm {c : Ceremony} {opened : OpenedResponse} {v : Vetting} {r : Linked}
    {p : Field} {Q : List Exch → Except Err Unit → Prop} (hpersisted : Persisted lib o τ v r p)
    (hopened : v.opened = opened) (herror : ∀ τ' e, Q τ' (.error e))
    (hok : ∀ τ', Confirmed lib o τ' (r, p) → Q τ' (.ok ())) :
    Obeys (.history (May lib o)) Lawful Q τ (publishConfirm o c opened) := by
  refine obeys_js_bind (obeys_plain plain_emitStatus fun τ₁ told hτ₁ => ?_)
  have hpersisted := hpersisted.mono hτ₁.suffix
  subst hopened
  cases told with
  | error e => exact herror _ e
  | ok _ =>
    refine obeys_js_bind (obeys_outcome ⟨v, r, p, hpersisted, rfl, rfl⟩ fun payload => ?_)
    cases payload with
    | error e => exact herror _ e
    | ok payload =>
      refine obeys_js_bind
        (obeys_outcome (F := requesting) (o := RequesterOp.now) trivial fun atMs => ?_)
      have hlater := hpersisted.mono ((List.suffix_cons (⟨.buildConfirm v.opened.masterSecret
            v.opened.thResponseB64, .ok payload⟩ : Exch) _).trans
        (List.suffix_cons (⟨.now, atMs⟩ : Exch) _))
      refine obeys_js_bind
        (obeys_outcome (.inr ⟨rfl, v, r, p, hlater, .tail _ (.head _)⟩) fun record => ?_)
      cases record with
      | error e => exact herror _ e
      | ok record =>
        refine obeys_outcome ⟨_, .head _⟩ fun put => ?_
        cases put with
        | error e => exact herror _ e
        | ok _ =>
          refine hok _ ⟨⟨v, hlater.mono ?_⟩, _, record, rfl, .tail _ (.head _), .head _⟩
          exact (List.suffix_cons _ _).trans (List.suffix_cons _ _)

end

theorem obeys_run (o : Options) :
    Obeys (.history (May lib o)) Lawful (fun τ x => ∀ r, x = .ok r → Confirmed lib o τ r) []
      (runDeviceLinkRequester lib o) := by
  have herror : ∀ (τ : List Exch) (e : Err), ∀ r :
      Linked × Field, (.error e : Except Err (Linked × Field)) = .ok r → Confirmed lib o τ r :=
    fun _ _ r h => by cases h
  refine obeys_js_bind
    ((obeys_plain plain_prepare fun τ₁ _ hτ₁ => hτ₁).and_ok ok_prepare |>.mono fun τ₁ c h => ?_)
  obtain ⟨hτ₁, hc⟩ := h
  cases c with
  | error e => exact herror _ e
  | ok c =>
    obtain ⟨hcode, bytes, hbytes⟩ := hc c rfl
    refine obeys_js_bind (obeys_publishRequest (by rw [hbytes, trim_inboxIdOf])
      (hτ₁.none (fun _ => not_request) (by simp))
      (hτ₁.none (fun _ => not_persist) (by simp)) herror fun τ₂ a request hrequested hnot => ?_)
    refine obeys_js_bind (obeys_plain plain_emitStatus fun τ₃ told hτ₃ => ?_)
    cases told with
    | error e => exact herror _ e
    | ok _ =>
      refine obeys_js_bind (obeys_plain plain_awaitResponse fun τ₄ payload hτ₄ => ?_)
      cases payload with
      | error e => exact herror _ e
      | ok payload =>
        refine obeys_js_bind (obeys_plain plain_emitStatus fun τ₅ told hτ₅ => ?_)
        cases told with
        | error e => exact herror _ e
        | ok _ =>
          have hτ := hτ₃.trans (hτ₄.trans hτ₅)
          refine obeys_js_bind (obeys_openResponse (hτ.none (fun _ => not_persist) hnot) herror
            fun τ₆ openedWith opened checkedWith authority hτ₆ hopened hsecret
              hanswers hephemeral hchecked hnot => ?_)
          refine obeys_js_bind (obeys_plain plain_emitStatus fun τ₇ told hτ₇ => ?_)
          have hvets := (vets_linked hcode (hrequested.mono (hτ.suffix.trans hτ₆))
              hopened hsecret hanswers hephemeral
            hchecked).mono hτ₇.suffix
          cases told with
          | error e => exact herror _ e
          | ok _ =>
            refine obeys_js_bind (obeys_outcome ⟨⟨_, hvets⟩,
              hτ₇.none (fun _ => not_persist) hnot⟩ fun persistence => ?_)
            cases persistence with
            | error e => exact herror _ e
            | ok persistence =>
              refine obeys_js_bind (obeys_publishConfirm ⟨hvets.mono (List.suffix_cons _ _),
                .head _⟩ rfl herror fun τ₈ hconfirmed => ?_)
              rintro r ⟨⟩
              exact hconfirmed

/-! ## Every run -/

theorem ordered_inductive : ((requesters lib).lts .asking).Inductive
    (System.Recalls (May lib) fun o τ x => ∀ r, x = .ok r → Confirmed lib o τ r) :=
  System.recalls_inductive fun o => obeys_run o

theorem ordered {s : RequesterState}
    (h : System.Recalls (May lib) (fun o τ x => ∀ r, x = .ok r → Confirmed lib o τ r) s) :
    Ordered lib s where
  each newer e older hlog := by
    have he : e ∈ s.log := by
      rw [hlog]
      exact List.mem_append_right _ (.head _)
    have ht : s.threads[e.tid]? = some ⟨_, _⟩ := List.getElem?_eq_getElem (h.owned e he)
    exact ⟨_, _, ht, h.each newer e older _ _ hlog ht⟩
  result t o r ht := h.result ht r rfl

/-- **What a linked device has checked**, in every run. -/
theorem persisted_then_confirmed (lib : RequesterLib) (s : RequesterState)
    (hr : ((requesters lib).lts .asking).Reachable s) : Ordered lib s :=
  ordered (ordered_inductive.reachable s hr)

end

namespace Example

def lib : RequesterLib where
  capabilityPurpose := "purpose"
  leafCapabilities := ["peerLink.create", "deviceSet.publish"]
  deriveCertId f := "cert:" ++ f.granteeDeviceId
  signableBytes _ _ := [1]
  deviceIdFor key := "device:" ++ key
  bytesToBase64 _ := "sig"
  encodeDeviceLinkCode _ _ := .ok "code"
  checkCapability _ := .ok ()
  parseDeviceLinkCode _ := .ok ([3], "B")
  inboxIdRandomBytes := 1
  bindingVersion := 1
  bindingPurpose := "binding"
  checkInboxBinding _ _ := .ok ()
  bindingContent _ _ := []

def options : Options where
  code := "code"
  pollIntervalMs := 1000
  pollMaxIntervalMs := 5000
  pollBackoff := 3 / 2
  deadlineMs := 600000
  deviceKeyPair := some ⟨"key", "key'"⟩
  hasOnStatus := false
  rounds := 1

def cert : LeafCert where
  v := 1
  purpose := "purpose"
  accountIdentityPublicKeyB64 := "B"
  parentCertId := none
  granteeDevicePublicKeyB64 := "key"
  granteeDeviceId := "device:key"
  capabilities := ["peerLink.create", "deviceSet.publish"]
  maxDelegationDepth := 0
  issuedAtMs := 5
  expiresAtMs := 1005
  signerPublicKeyB64 := "B"
  certId := "cert:device:key"
  sigB64 := "sig"

/-- The response carries a certificate for the device. -/
def opened : OpenedResponse where
  delegationBundle := ⟨"B", ⟨"dh", "dh'"⟩, [cert], none⟩
  masterSecret := [8]
  thResponseB64 := "th'"

/-- Every answer is the expected one. -/
def answer : (o : RequesterOp) → Option o.Ans
  | .deriveRendezvous _ => some (.ok ⟨"R", "r"⟩)
  | .generateDeviceKeyPair => some (.ok ⟨"key", "key'"⟩)
  | .now => some (5 : Nat)
  | .randomBytes _ => some (.ok [7])
  | .signPayload .. => some (.ok "sig")
  | .onStatus _ => some (.ok ())
  | .buildRequest _ => some (.ok ⟨"request", "th", ⟨"e", "e'"⟩, "device:key", "f"⟩)
  | .sealRecord _ => some (.ok ⟨[9]⟩)
  | .put _ => some (.ok ())
  | .get .. => some (.ok (some ⟨[9]⟩))
  | .verifyRecord .. => some (.ok "payload")
  | .sleep _ => some (.ok ())
  | .openResponse _ => some (.ok opened)
  | .verifyAccountAuthority a =>
    some (.ok ⟨a.opSignerPublicKeyB64 = "key", none, some ["deviceSet.publish", "peerLink.create"]⟩)
  | .persistDelegation _ => some (.ok .null)
  | .buildConfirm .. => some (.ok "confirm")
  | .stall => none

def judge : System.Judge
    (Discipline.asking (F := requesting) (C := Options) (R := Except Err (Linked × Field))) where
  may _ _ := true
  ok _ _ := true
  may_iff _ _ _ := trivial
  ok_iff _ _ _ := trivial

def resolvedIn (s : RequesterState) (u : Nat) : Bool :=
  match s.threads[u]? with
  | some ⟨_, .ret (.ok x)⟩ => x.1.inboxId = "inbox:07" && x.2 = .null
  | _ => false

end Example

open Example in
/-- A whole run: the device has persisted and confirmed. -/
theorem persisted_then_confirmed_device :
    ∃ s, ((requesters lib).lts .asking).Reachable s ∧ resolvedIn s 0 = true ∧ Ordered lib s := by
  obtain ⟨s, hr, hs⟩ := System.reachable_of_play (S := requesters lib) judge
    (fun _ _ => answer) [.call options, .go 0 18] (m := ())
    (P := fun s => resolvedIn s 0) trivial (by decide +kernel)
  exact ⟨s, hr, hs, persisted_then_confirmed lib s hr⟩

end RezSdk.L4.RequesterOrder
