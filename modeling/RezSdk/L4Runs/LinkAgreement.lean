import RezSdk.L3Service.DeviceLinkCeremony
import RezSdk.L4Runs.RegistrationFirst
import RezSdk.L4Runs.RequesterOrder

/-!
# Agreement of a device link

One approver and any number of requesters, in any interleaving, over records
anybody may forge or hold back; the ceremony's cryptography is ideal
(`L3Service/DeviceLinkCeremony`).

* `agreement`: where `approve` has resolved, exactly one requester run has
  persisted a delegation from this approval, and both sides agree on the
  device, its key, its inbox and the certificate.
* `persisted_registered`: a run that persists a delegation is already
  registered: the home has committed its device, its inbox and the very
  certificate it persists.

The approver's side is one history monitor: what a call releases, pins and
builds comes after what it needs (`Answered`, `Ready`), and it builds one
response. The requester's side is `RequesterOrder`.
-/
namespace RezSdk.L4.LinkAgreement

open RezSdk.L1 RezSdk.L3.DeviceLink

abbrev Exch := Proc.Exch link

/-! ## What an approval has done -/

structure Approval where
  pinned : OpenedRequest
  cert : LeafCert
  built : ResponseArgs
  response : Response

/-- The call has answered its pinned request with a certificate for its key. -/
structure Answered (cfg : Config) (τ : List Exch) (v : Approval) : Prop where
  called : RegistrationFirst.CalledOn τ v.pinned
  built : (⟨.await (.buildResponse v.built), .ok v.response⟩ : Exch) ∈ τ
  thRequest : v.built.thRequestB64 = v.pinned.thRequestB64
  account : v.built.delegationBundle.accountSignPublicKeyB64 = cfg.accountSignPublicKeyB64
  chain : v.built.delegationBundle.certChain = [v.cert]
  grantee : v.cert.granteeDevicePublicKeyB64 = v.pinned.linkRequest.newDevicePublicKeyB64

/-- And the home has committed it. -/
structure Ready (cfg : Config) (τ : List Exch) (v : Approval) (record : CeremonyRecord) :
    Prop extends Answered cfg τ v where
  sealedAs : ∃ a, (⟨.await (.sealRecord a), .ok record⟩ : Exch) ∈ τ ∧
    a.payloadB64 = v.response.payloadB64
  committed : ∃ a commit, (⟨.await (.registerDevice a), .ok (some commit)⟩ : Exch) ∈ τ ∧
    a = ⟨v.pinned.newDeviceId, v.pinned.linkRequest.deviceInboxBinding, v.cert⟩ ∧
      binds v.pinned v.cert (some commit) = true

/-- The confirmation of the response has verified. -/
structure Concluded (cfg : Config) (τ : List Exch) (v : Approval) (r : Approved) :
    Prop extends Answered cfg τ v where
  confirmed : ∃ payload, (⟨.await
    (.verifyConfirm v.response.masterSecret v.response.thResponseB64 payload), .ok true⟩ : Exch) ∈ τ
  result : r = ⟨v.pinned.newDeviceId, v.cert.certId, v.pinned.bindingInboxId⟩

def Opened (τ : List Exch) (p : OpenedRequest) : Prop :=
  ∃ nowMs psk key payload, (⟨.await (.openRequest nowMs psk key payload), .ok p⟩ : Exch) ∈ τ

def asksResponse : link.Op → Bool
  | .await (.buildResponse _) => true
  | _ => false

/-- A stretch releases what is ready, and pins what was opened. -/
structure Moves (cfg : Config) (τ : List Exch) (s s' : Approver) : Prop where
  released : s'.released = s.released ∨ ∃ v r, s'.released = r :: s.released ∧ Ready cfg τ v r
  pinned : s'.pinned = s.pinned ∨ s'.pinned = none ∨ ∃ p, s'.pinned = some p ∧ Opened τ p

/-- What a call may do after `τ`. -/
def May (cfg : Config) (τ : List Exch) : link.Op → Prop
  | .run _ g => ∀ i s, Moves cfg τ s (g i s)
  | .await (.buildResponse _) => ∀ x ∈ τ, asksResponse x.op = false
  | .await _ => True

/-- What a call has done when it resolves. -/
def Done (cfg : Config) (τ : List Exch) (x : Except Err (Option Approved)) : Prop :=
  ∀ r, x = .ok (some r) → ∃ v, Concluded cfg τ v r

/-! ## One call -/

abbrev Lawful : Exch → Prop := fun _ => True

/-- It releases nothing, pins nothing and builds no response. -/
def Plain : link.Op → Prop
  | .run _ g =>
    ∀ i s, (g i s).released = s.released ∧ ((g i s).pinned = s.pinned ∨ (g i s).pinned = none)
  | .await (.buildResponse _) => False
  | .await _ => True

section

variable {α β : Type} {cfg : Config} {τ : List Exch}

theorem may_plain {op : link.Op} (h : Plain op) : May cfg τ op := by
  cases op with
  | run l g => exact fun i s => ⟨.inl (h i s).1, (h i s).2.imp id .inl⟩
  | await o => cases o <;> trivial

theorem not_response {op : link.Op} (h : Plain op) : asksResponse op = false := by
  cases op with
  | run l g => rfl
  | await o => cases o <;> first | rfl | exact h.elim

theorem Answered.mono {τ' : List Exch} {v : Approval} (h : Answered cfg τ v) (hτ : τ <:+ τ') :
    Answered cfg τ' v :=
  { h with called := h.called.mono hτ, built := hτ.subset h.built }

theorem obeys_plain {Q : List Exch → α → Prop} {p : Proc link α} (hp : p.All Plain)
    (hq : ∀ τ' x, Grows Plain τ τ' → Q τ' x) : Obeys (.history (May cfg)) Lawful Q τ p :=
  obeys_grows (fun _ _ => may_plain) hp hq

theorem plain_stretch {l : Stretch} {f : Input → Approver → Except Err α × Approver}
    (h : ∀ i s, (f i s).2.released = s.released ∧
        ((f i s).2.pinned = s.pinned ∨ (f i s).2.pinned = none)) :
    Proc.All Plain (stretch l f : Linking α) := ⟨h, fun _ => trivial⟩

theorem plain_read {l : Stretch} {f : Approver → α} :
    Proc.All Plain (stretch l (fun _ s => (.ok (f s), s)) : Linking α) :=
  plain_stretch fun _ _ => ⟨rfl, .inl rfl⟩

theorem obeys_stretch {l : Stretch} {f : Input → Approver → Except Err α × Approver}
    {Q : List Exch → Except Err α → Prop}
    (hf : ∀ i s, (f i s).2.released = s.released ∧
        ((f i s).2.pinned = s.pinned ∨ (f i s).2.pinned = none))
    (hq : ∀ i s, Q (⟨.run l fun i s => (f i s).2, (i, s)⟩ :: τ) (f i s).1) :
    Obeys (.history (May cfg)) Lawful Q τ (stretch l f : Linking α) :=
  ⟨fun i s => ⟨.inl (hf i s).1, (hf i s).2.imp id .inl⟩, fun x _ => hq x.1 x.2⟩

/-- A stretch that ends the ceremony. -/
theorem obeys_terminate {l : Stretch} {e : Err} {status : Status}
    {Q : List Exch → Except Err α → Prop} (hq : ∀ τ', Q τ' (.error e)) :
    Obeys (.history (May cfg)) Lawful Q τ
      (stretch l (fun _ s => (.error e, s.terminate status)) : Linking α) :=
  obeys_stretch (fun _ _ => ⟨rfl, .inr rfl⟩) fun _ _ => hq _

theorem plain_await {o : LinkCall} {k : callbacks.Ans o → Linking α} (ho : Plain (.await o))
    (hk : ∀ r, Proc.All Plain (k r)) : Proc.All Plain (.ask (.await o) k : Linking α) := ⟨ho, hk⟩

theorem plain_pollTop (i : Input) (s : Approver) :
    (pollTop i s).2.released = s.released ∧
    ((pollTop i s).2.pinned = s.pinned ∨ (pollTop i s).2.pinned = none) := by
  unfold pollTop
  split
  · simp
  · split <;> simp [Approver.terminate]

theorem plain_confirmTop (i : Input) (s : Approver) :
    (confirmTop i s).2.released = s.released ∧
    ((confirmTop i s).2.pinned = s.pinned ∨ (confirmTop i s).2.pinned = none) := by
  unfold confirmTop
  split
  · simp
  · split <;> simp [Approver.terminate]

theorem plain_pollGet {id : RecordId} {keys : Option Keys} : Proc.All Plain (pollGet id keys) := by
  cases keys with
  | none => trivial
  | some keys =>
    refine Js.all_attempt (plain_await trivial fun _ => trivial) fun record => ?_
    cases record <;> trivial

theorem plain_pollSleep {rest : Stretch} {interval : ℚ} :
    Proc.All Plain (pollSleep cfg rest interval) :=
  Js.all_bind plain_read fun _ => plain_await trivial fun _ => trivial

theorem plain_start : Proc.All Plain (start cfg) := by
  refine Js.all_bind (plain_stretch fun i s => ?_) fun psk =>
    Js.all_bind (plain_await trivial fun _ => trivial) fun keys =>
    plain_stretch fun _ _ => ⟨rfl, .inl rfl⟩
  split
  · simp
  · split <;> simp

theorem plain_mintLeafCert {key : String} {nowMs : Nat} :
    Proc.All Plain (mintLeafCert cfg key nowMs) := by
  refine Js.all_bind (plain_await trivial fun _ => trivial) fun sig =>
    Js.all_bind (Js.all_ensure ..) fun _ => ?_
  refine Js.all_bind (plain_await trivial fun _ => trivial) fun ok =>
    Js.all_bind (Js.all_ensure ..) fun _ => ?_
  exact Js.all_bind (show Proc.All Plain (Js.ofExcept _ : Linking Unit) from trivial) fun _ =>
    trivial

theorem plain_cachedDeviceSet : Proc.All Plain (cachedDeviceSet cfg) := by
  unfold cachedDeviceSet
  cases cfg.hasCachedDeviceSet with
  | true => exact plain_await (o := .cachedDeviceSet) trivial fun _ => trivial
  | false => trivial

/-- A certificate is granted to the key it was minted for. -/
theorem ok_mintLeafCert {key : String} {nowMs : Nat} :
    Js.Ok (fun cert => cert.granteeDevicePublicKeyB64 = key) (mintLeafCert cfg key nowMs) := by
  refine Js.ok_skip fun sig => Js.ok_skip fun _ => Js.ok_skip fun ok => Js.ok_skip fun _ =>
    Js.ok_skip fun _ => ?_
  exact Js.ok_pure rfl

/-! ### waitForRequest -/

section

variable {Q : List Exch → Except Err OpenedRequest → Prop}

theorem obeys_openAndPin {atMs : Nat} {record : CeremonyRecord} (hq : ∀ τ' x, Q τ' x) :
    Obeys (.history (May cfg)) Lawful Q τ (openAndPin atMs record) := by
  refine obeys_js_bind (obeys_plain plain_read fun τ₁ keys _ => ?_)
  cases keys with
  | error e => exact hq _ _
  | ok keys =>
    refine obeys_js_bind (obeys_orThrow (fun keys _ => ?_) fun _ => hq _ _)
    refine obeys_js_bind (obeys_plain (plain_await trivial fun _ => trivial) fun τ₂ payload _ => ?_)
    cases payload with
    | error e => exact hq _ _
    | ok payload =>
      refine obeys_js_bind (obeys_plain plain_read fun τ₃ secrets _ => ?_)
      cases secrets with
      | error e => exact hq _ _
      | ok secrets =>
        refine obeys_js_bind (obeys_orThrow (fun keys _ => ?_) fun _ => hq _ _)
        refine obeys_js_bind (obeys_outcome trivial fun opened => ?_)
        cases opened with
        | error e => exact hq _ _
        | ok opened =>
          exact ⟨fun i s => ⟨.inl rfl, .inr (.inr ⟨opened, rfl, _, _, _, _, .head _⟩)⟩,
            fun _ _ => hq _ _⟩

theorem obeys_waitRounds :
    ∀ {n : Nat} {interval : ℚ} {top : Nat × Option Keys} {τ : List Exch}, (∀ τ' x, Q τ' x) →
      Obeys (.history (May cfg)) Lawful Q τ (waitRounds cfg n interval top)
  | 0, _, _, _, _ => ⟨trivial, fun r => nomatch r⟩
  | n + 1, interval, (atMs, keys), τ, hq => by
    have hagain : ∀ {τ : List Exch}, Obeys (.history (May cfg)) Lawful Q τ ((do
        pollSleep cfg .waitRest interval
        let top ← stretch .waitTop pollTop
        waitRounds cfg n (nextInterval cfg interval) top) : Linking OpenedRequest) := by
      intro τ
      refine obeys_js_bind (obeys_plain plain_pollSleep fun τ₁ slept _ => ?_)
      cases slept with
      | error e => exact hq _ _
      | ok _ =>
        refine obeys_js_bind (obeys_plain (plain_stretch plain_pollTop) fun τ₂ top _ => ?_)
        cases top with
        | error e => exact hq _ _
        | ok top => exact obeys_waitRounds hq
    refine obeys_js_bind (obeys_plain plain_pollGet fun τ₁ record _ => ?_)
    cases record with
    | error e => exact hq _ _
    | ok record =>
      cases record with
      | none => exact hagain
      | some record =>
        refine obeys_attempt (obeys_openAndPin fun τ₂ opened => ?_)
        cases opened with
        | ok opened => exact hq _ _
        | error e =>
          dsimp only
          split
          · exact obeys_terminate fun _ => hq _ _
          · exact hagain

theorem obeys_waitForRequest {rounds : Nat} (hq : ∀ τ' x, Q τ' x) :
    Obeys (.history (May cfg)) Lawful Q τ (waitForRequest cfg rounds) := by
  refine obeys_js_bind (obeys_plain (plain_stretch fun i s => ?_) fun τ₁ top _ => ?_)
  · split
    · simp
    · exact plain_pollTop i s
  · cases top with
    | error e => exact hq _ _
    | ok top => exact obeys_waitRounds hq

end

/-! ### approve -/

/-- The response of this call and its sealed record. -/
structure Builds (cfg : Config) (τ : List Exch) (pinned : OpenedRequest) (cert : LeafCert)
    (a : ResponseArgs) (response : Response) (record : CeremonyRecord) : Prop where
  built : (⟨.await (.buildResponse a), .ok response⟩ : Exch) ∈ τ
  thRequest : a.thRequestB64 = pinned.thRequestB64
  account : a.delegationBundle.accountSignPublicKeyB64 = cfg.accountSignPublicKeyB64
  chain : a.delegationBundle.certChain = [cert]
  sealedAs : ∃ s, (⟨.await (.sealRecord s), .ok record⟩ : Exch) ∈ τ ∧
    s.payloadB64 = response.payloadB64

theorem obeys_sealedResponse {pinned : OpenedRequest} {atMs : Nat} {cert : LeafCert}
    {Q : List Exch → Except Err (Response × CeremonyRecord) → Prop}
    (hfresh : ∀ x ∈ τ, asksResponse x.op = false) (herror : ∀ τ' e, Q τ' (.error e))
    (hok : ∀ τ' a response record, τ <:+ τ' → Builds cfg τ' pinned cert a response record →
        Q τ' (.ok (response, record))) :
    Obeys (.history (May cfg)) Lawful Q τ (sealedResponse cfg pinned atMs cert) := by
  refine obeys_js_bind (obeys_plain plain_cachedDeviceSet fun τ₁ cached hτ₁ => ?_)
  cases cached with
  | error e => exact herror _ e
  | ok cached =>
    refine obeys_js_bind (obeys_plain plain_read fun τ₂ secrets hτ₂ => ?_)
    have hτ := hτ₁.trans hτ₂
    cases secrets with
    | error e => exact herror _ e
    | ok secrets =>
      refine obeys_js_bind (obeys_orThrow (fun keys _ => ?_) fun _ => herror _ _)
      refine obeys_js_bind (obeys_outcome (hτ.none (fun _ => not_response) hfresh) fun response =>
        ?_)
      cases response with
      | error e => exact herror _ e
      | ok response =>
        refine obeys_js_bind (obeys_plain plain_read fun τ₃ sealing hτ₃ => ?_)
        have hbuilt := hτ₃.mem (.head _)
        cases sealing with
        | error e => exact herror _ e
        | ok sealing =>
          refine obeys_js_bind (obeys_outcome trivial fun record => ?_)
          cases record with
          | error e => exact herror _ e
          | ok record =>
            refine hok _ _ response record ?_ ⟨.tail _ hbuilt, rfl, rfl, rfl, _, .head _, rfl⟩
            exact hτ.suffix.trans
              ((List.suffix_cons _ _).trans (hτ₃.suffix.trans (List.suffix_cons _ _)))

/-- A callback whose failure ends the ceremony. -/
theorem obeys_orFail {o : LinkCall} {p : callbacks.Ans o → Except Err α} {wrapped : Err → Err}
    {Q : List Exch → Except Err α → Prop} (ho : Plain (.await o))
    (hok : ∀ r v, p r = .ok v → Q (⟨.await o, r⟩ :: τ) (.ok v)) (herror : ∀ τ' e, Q τ' (.error e)) :
    Obeys (.history (May cfg)) Lawful Q τ
      (orFail (.ask (.await o) fun r => .ret (p r)) wrapped) := by
  refine obeys_attempt ⟨may_plain ho, fun r _ => ?_⟩
  change Obeys (.history (May cfg)) Lawful Q (⟨.await o, r⟩ :: τ) _
  cases hr : p r with
  | ok v => exact hok r v hr
  | error e => exact obeys_terminate fun _ => herror _ _

/-- The stretch that checks the commit and puts the record. -/
theorem obeys_release {pinned : OpenedRequest} {cert : LeafCert} {record : CeremonyRecord}
    {commit : Option Commit} {Q : List Exch → Except Err Unit → Prop}
    (hready : binds pinned cert commit = true → ∃ v, Ready cfg τ v record)
    (herror : ∀ τ' e, Q τ' (.error e)) (hok : ∀ τ', τ <:+ τ' → Q τ' (.ok ())) :
    Obeys (.history (May cfg)) Lawful Q τ (release pinned cert record commit) := by
  refine obeys_js_bind ⟨fun i s => ?_, fun x _ => ?_⟩
  · cases hbinds : binds pinned cert commit with
    | false => exact ⟨.inl rfl, .inr (.inl rfl)⟩
    | true =>
      obtain ⟨v, hv⟩ := hready hbinds
      exact ⟨.inr ⟨v, record, rfl, hv⟩, .inl rfl⟩
  · dsimp only [Obeys]
    split
    · refine obeys_js_bind (obeys_outcome trivial fun put => ?_)
      cases put with
      | error e => exact herror _ e
      | ok _ =>
        refine obeys_outcome trivial fun marked => ?_
        cases marked with
        | error e => exact herror _ e
        | ok _ =>
          exact hok _
            ((List.suffix_cons _ _).trans ((List.suffix_cons _ _).trans (List.suffix_cons _ _)))
    · exact herror _ _

theorem obeys_confirms {nowMs : Nat} {record : CeremonyRecord} {response : Response}
    {Q : List Exch → Except Err Bool → Prop} (hother : ∀ τ' x, τ <:+ τ' → x ≠ .ok true → Q τ' x)
    (hok : ∀ τ' payload, τ <:+ τ' →
        (⟨.await (.verifyConfirm response.masterSecret response.thResponseB64 payload), .ok true⟩ :
            Exch) ∈
          τ' →
        Q τ' (.ok true)) :
    Obeys (.history (May cfg)) Lawful Q τ (confirms nowMs record response) := by
  have hfalse : ∀ τ', τ <:+ τ' → Q τ' (.ok false) := fun τ' hτ' => hother τ' _ hτ' (by simp)
  refine obeys_attempt (obeys_js_bind (obeys_plain plain_read fun τ₁ keys hτ₁ => ?_))
  cases keys with
  | error e => exact hfalse _ hτ₁.suffix
  | ok keys =>
    refine obeys_js_bind (obeys_orThrow (fun keys _ => ?_) fun _ => hfalse _ hτ₁.suffix)
    refine obeys_js_bind (obeys_outcome trivial fun payload => ?_)
    have hτ := hτ₁.suffix.trans (List.suffix_cons
        ⟨.await (.verifyRecord nowMs record keys.publicKeyB64 .confirm), payload⟩ τ₁)
    cases payload with
    | error e => exact hfalse _ hτ
    | ok payload =>
      refine obeys_outcome trivial fun confirmed => ?_
      cases confirmed with
      | error e => exact hfalse _ (hτ.trans (List.suffix_cons _ _))
      | ok confirmed =>
        cases confirmed with
        | false => exact hfalse _ (hτ.trans (List.suffix_cons _ _))
        | true => exact hok _ payload (hτ.trans (List.suffix_cons _ _)) (.head _)

theorem obeys_confirmRounds {v : Approval} {Q : List Exch → Except Err Approved → Prop}
    (herror : ∀ τ' e, Q τ' (.error e)) (hok : ∀ τ' r, Concluded cfg τ' v r → Q τ' (.ok r)) :
    ∀ {n : Nat} {interval : ℚ} {top : Nat × Option Keys} {τ : List Exch}, Answered cfg τ v →
      Obeys (.history (May cfg)) Lawful Q τ
        (confirmRounds cfg v.pinned v.cert v.response n interval top)
  | 0, _, _, _, _ => ⟨trivial, fun r => nomatch r⟩
  | n + 1, interval, (nowMs, keys), τ, hv => by
    refine obeys_js_bind (obeys_plain plain_pollGet fun τ₁ record hτ₁ => ?_)
    have hv₁ := hv.mono hτ₁.suffix
    cases record with
    | error e => exact herror _ e
    | ok record =>
      cases record with
      | none =>
        refine obeys_js_bind (obeys_plain plain_pollSleep fun τ₂ slept hτ₂ => ?_)
        cases slept with
        | error e => exact herror _ e
        | ok _ =>
          refine obeys_js_bind (obeys_plain (plain_stretch plain_confirmTop) fun τ₃ top hτ₃ => ?_)
          cases top with
          | error e => exact herror _ e
          | ok top => exact obeys_confirmRounds herror hok (hv₁.mono (hτ₂.trans hτ₃).suffix)
      | some record =>
        refine obeys_js_bind
          (obeys_confirms (fun τ₂ x hτ₂ hx => ?_) fun τ₂ payload hτ₂ hconfirmed => ?_)
        · cases x with
          | error e => exact herror _ e
          | ok confirmed =>
            cases confirmed with
            | true => exact absurd rfl hx
            | false => exact obeys_terminate fun _ => herror _ _
        · refine obeys_attempt (obeys_outcome trivial fun marked =>
            obeys_stretch (fun i s => ?_) fun i s => ?_)
          · rcases finish_cases ⟨v.pinned.newDeviceId, v.cert.certId,
              v.pinned.bindingInboxId⟩ marked i s with h | ⟨e, h⟩ <;>
              simp [h, Approver.terminate]
          · rcases finish_cases ⟨v.pinned.newDeviceId, v.cert.certId,
              v.pinned.bindingInboxId⟩ marked i s with h | ⟨e, h⟩
            · rw [congrArg Prod.fst h]
              refine hok _ _ ⟨hv₁.mono ?_, ⟨payload, .tail _ (.tail _ hconfirmed)⟩, rfl⟩
              exact (hτ₂.trans (List.suffix_cons _ _)).trans (List.suffix_cons _ _)
            · rw [congrArg Prod.fst h]
              exact herror _ e

theorem obeys_approve {rounds : Nat} {Q : List Exch → Except Err Approved → Prop}
    (herror : ∀ τ' e, Q τ' (.error e)) (hok : ∀ τ' v r, Concluded cfg τ' v r → Q τ' (.ok r)) :
    Obeys (.history (May cfg)) Lawful Q [] (approve cfg rounds) := by
  refine obeys_js_bind (obeys_stretch (fun i s => ?_) fun i s => ?_)
  · split <;> simp
  · generalize hbegun : [(⟨.run .approveBegin _, (i, s)⟩ : Exch)] = τ₀
    have hfresh : ∀ x ∈ τ₀, asksResponse x.op = false := by simp [← hbegun, asksResponse]
    split
    · rename_i pinned hstatus hpinned
      have hcalled : RegistrationFirst.CalledOn τ₀ pinned := by
        subst hbegun
        exact ⟨_, i, s, .head _, hpinned⟩
      refine obeys_js_bind ((obeys_plain plain_mintLeafCert fun τ₁ _ hτ₁ =>
        hτ₁).and_ok ok_mintLeafCert |>.mono fun τ₁ cert h => ?_)
      obtain ⟨hτ₁, hgrantee⟩ := h
      cases cert with
      | error e => exact herror _ e
      | ok cert =>
        refine obeys_js_bind (obeys_sealedResponse (hτ₁.none (fun _ => not_response) hfresh) herror
          fun τ₂ a response record hτ₂ hbuilds => ?_)
        have hanswered : Answered cfg τ₂ ⟨pinned, cert, a, response⟩ :=
          ⟨hcalled.mono (hτ₁.suffix.trans hτ₂), hbuilds.built, hbuilds.thRequest,
          hbuilds.account, hbuilds.chain, hgrantee cert rfl⟩
        refine obeys_js_bind (obeys_js_bind (obeys_plain plain_read fun τ₃ expires hτ₃ => ?_))
        cases expires with
        | error e => exact herror _ e
        | ok expires =>
          refine obeys_orFail trivial (fun persisted _ _ => ?_) herror
          refine obeys_js_bind
            (obeys_orFail trivial (fun registered commit hregistered => ?_) herror)
          have hregistered : registered = .ok commit := hregistered
          subst hregistered
          have hτ : ∀ x y, τ₂ <:+ x :: y :: τ₃ :=
            fun x y => hτ₃.suffix.trans ((List.suffix_cons y _).trans (List.suffix_cons x _))
          refine obeys_js_bind (obeys_release (fun hbinds => ?_) herror fun τ₄ hτ₄ => ?_)
          · obtain ⟨s, hsealed, hpayload⟩ := hbuilds.sealedAs
            obtain ⟨c, rfl, -⟩ := RegistrationFirst.binds_some hbinds
            exact ⟨_, hanswered.mono (hτ _ _), ⟨s, (hτ _ _).subset hsealed, hpayload⟩,
              _, c, .head _, rfl, hbinds⟩
          · refine obeys_js_bind (obeys_stretch (fun i s => plain_confirmTop i _) fun i s => ?_)
            cases (confirmTop i { s with status := .waitingConfirm }).1 with
            | error e => exact herror _ e
            | ok top =>
              exact obeys_confirmRounds (v := ⟨pinned, cert, a, response⟩) herror
                (fun τ' r h => hok τ' _ r h)
                (hanswered.mono (((hτ _ _).trans hτ₄).trans (List.suffix_cons _ _)))
    · exact herror _ _

theorem obeys_serve (c : Call) : Obeys (.history (May cfg)) Lawful (Done cfg) [] (serve cfg c) := by
  have hnone : ∀ {τ : List Exch}, Done cfg τ (.ok none) := fun r h => by cases h
  have herror : ∀ {τ : List Exch} {e : Err}, Done cfg τ (.error e) := fun r h => by cases h
  cases c with
  | start =>
    refine obeys_js_bind (obeys_plain plain_start fun τ x _ => ?_)
    cases x with
    | error e => exact herror
    | ok _ => exact hnone
  | waitForRequest rounds =>
    refine obeys_js_bind (obeys_waitForRequest fun τ x => ?_)
    cases x with
    | error e => exact herror
    | ok _ => exact hnone
  | approve rounds =>
    refine obeys_js_bind (obeys_approve (fun _ _ => herror) fun τ v r h => ?_)
    intro r' hr'
    cases hr'
    exact ⟨v, h⟩
  | cancel => exact obeys_stretch (fun _ _ => ⟨rfl, .inr rfl⟩) fun _ _ => hnone

/-! ### The other methods -/

/-- It builds no response. -/
def Other : link.Op → Prop
  | .await (.buildResponse _) => False
  | _ => True

theorem other_plain {op : link.Op} (h : Plain op) : Other op := by
  cases op with
  | run l g => trivial
  | await o => cases o <;> trivial

theorem not_other {op : link.Op} (h : Other op) : asksResponse op = false := by
  cases op with
  | run l g => rfl
  | await o => cases o <;> first | rfl | exact h.elim

theorem other_stretch {l : Stretch} {f : Input → Approver → Except Err α × Approver} :
    Proc.All Other (stretch l f : Linking α) := ⟨trivial, fun _ => trivial⟩

theorem other_openAndPin {atMs : Nat} {record : CeremonyRecord} :
    Proc.All Other (openAndPin atMs record) := by
  refine Js.all_bind other_stretch fun keys => Js.all_bind (Js.all_orThrow ..) fun keys => ?_
  refine Js.all_bind ⟨trivial, fun _ => trivial⟩ fun payload =>
    Js.all_bind other_stretch fun secrets => ?_
  refine Js.all_bind (Js.all_orThrow ..) fun keys => Js.all_bind ⟨trivial,
    fun _ => trivial⟩ fun opened => ?_
  exact other_stretch

theorem other_waitRounds : ∀ {n : Nat} {interval : ℚ} {top : Nat × Option Keys},
    Proc.All Other (waitRounds cfg n interval top)
  | 0, _, _ => ⟨trivial, fun r => nomatch r⟩
  | n + 1, interval, (atMs, keys) => by
    have hagain : Proc.All Other ((do
        pollSleep cfg .waitRest interval
        let top ← stretch .waitTop pollTop
        waitRounds cfg n (nextInterval cfg interval) top) : Linking OpenedRequest) :=
      Js.all_bind (plain_pollSleep.mono fun _ => other_plain) fun _ =>
        Js.all_bind other_stretch fun _ => other_waitRounds
    refine Js.all_bind (plain_pollGet.mono fun _ => other_plain) fun record => ?_
    cases record with
    | none => exact hagain
    | some record =>
      refine Js.all_attempt other_openAndPin fun opened => ?_
      cases opened with
      | ok opened => trivial
      | error e =>
        dsimp only
        split
        · exact other_stretch
        · exact hagain

def Call.approves : Call → Bool
  | .approve _ => true
  | _ => false

theorem other_serve {c : Call} (h : Call.approves c = false) : Proc.All Other (serve cfg c) := by
  cases c with
  | start => exact Js.all_bind (plain_start.mono fun _ => other_plain) fun _ => trivial
  | waitForRequest rounds =>
    exact Js.all_bind (Js.all_bind other_stretch fun _ => other_waitRounds) fun _ => trivial
  | approve rounds => cases h
  | cancel => exact other_stretch

/-- Only `approve` builds a response. -/
def onlyApprove : Monitor link Bool where
  next b _ := b
  may b op := b = true ∨ Other op

theorem obeys_onlyApprove (c : Call) :
    Obeys onlyApprove Lawful (fun _ _ => True) (Call.approves c) (serve cfg c) := by
  cases hc : Call.approves c with
  | true => exact obeys_still (Proc.all_of (fun _ => ⟨.inl rfl, fun _ => rfl⟩) _) fun _ => trivial
  | false =>
    exact obeys_still ((other_serve hc).mono fun _ h => ⟨.inr h, fun _ => rfl⟩) fun _ => trivial

/-! ## The approver -/

/-- `p` was opened. -/
def Opens (log : List ApproverEvent) (p : OpenedRequest) : Prop :=
  ∃ e ∈ log, ∃ nowMs psk key payload, e.exch = ⟨.await (.openRequest nowMs psk key payload), .ok p⟩

/-- What is pinned was opened, and what a stretch found pinned too. -/
structure Pins (s : ServingState) : Prop where
  now : ∀ p, s.mem.pinned = some p → Opens s.log p
  found : ∀ e ∈ s.log, ∀ l g i m, e.exch = ⟨.run l g, (i, m)⟩ → ∀ p, m.pinned = some p →
    Opens s.log p

theorem Opens.cons {log : List ApproverEvent} {p : OpenedRequest} (h : Opens log p)
    (e : ApproverEvent) : Opens (e :: log) p := by
  obtain ⟨e', he', h⟩ := h
  exact ⟨e', .tail _ he', h⟩

theorem Opened.opens {t : Nat} {log : List ApproverEvent} {p : OpenedRequest}
    (h : Opened (Pool.history t log) p) : Opens log p := by
  obtain ⟨nowMs, psk, key, payload, hmem⟩ := h
  obtain ⟨e, he, -, hx⟩ := Pool.mem_history.mp hmem
  exact ⟨e, he, nowMs, psk, key, payload, hx⟩

theorem pins_fires {s s' : ServingState} {e : ApproverEvent} {c : Call}
    {k : link.Ans e.op → Proc link (Except Err (Option Approved))} (h : Pins s)
    (hf : Pool.Fires (serving cfg) s e c k s') (hmay : May cfg (Pool.history e.tid s.log) e.op) :
    Pins s' := by
  have hfound : ∀ l g i m, e.exch = ⟨.run l g, (i, m)⟩ → m = s.mem := by
    intro l g i m hx
    obtain ⟨l', g', i', hx', -⟩ | ⟨o, r, hx', -, -⟩ := object_fires hf
    · rw [hx'] at hx
      cases hx
      rfl
    · rw [hx'] at hx
      cases hx
  constructor
  · intro p hp
    rw [hf.log]
    obtain ⟨l, g, i, hx, hmem⟩ | ⟨o, r, hx, -, hmem⟩ := object_fires hf
    · have hop : e.op = .run l g := congrArg Proc.Exch.op hx
      rw [hop] at hmay
      rw [hmem] at hp
      rcases (hmay i s.mem).pinned with hkept | hnone | ⟨p', hpinned, hopened⟩
      · exact (h.now p (hkept ▸ hp)).cons e
      · rw [hnone] at hp
        cases hp
      · rw [hpinned] at hp
        cases hp
        exact hopened.opens.cons e
    · rw [hmem] at hp
      exact (h.now p hp).cons e
  · intro e' he' l g i m hx p hp
    rw [hf.log] at he' ⊢
    rcases List.mem_cons.mp he' with rfl | he'
    · rw [hfound l g i m hx] at hp
      exact (h.now p hp).cons _
    · exact (h.found e' he' l g i m hx p hp).cons e

/-- What is known of the approver in every state. -/
def Serves (cfg : Config) (s : ServingState) : Prop :=
  (System.Conforms (.history (May cfg)) Lawful (fun _ => []) (fun _ => Done cfg) s ∧
    System.Allowed (.history (May cfg)) (fun _ => []) s) ∧ Pins s

theorem serves_inductive : ((serving cfg).lts anyServing).Inductive (Serves cfg) := by
  have hremembers := System.remembers (S := serving cfg) (D := anyServing)
      (Q := fun _ => Done cfg) fun c => obeys_serve c
  refine System.inductive_of (fun m hm => ⟨hremembers.init _ ⟨hm, rfl, rfl⟩, ?_⟩)
    (fun s c h hc => ?_) fun s e c k s' h hf hok => ?_
  · cases hm
    exact ⟨fun p hp => (by cases hp), fun e he => absurd he List.not_mem_nil⟩
  · exact ⟨⟨System.conforms_spawn h.1.1 (obeys_serve c), System.allowed_spawn h.1.2 h.1.1.tids c⟩,
      h.2.now, h.2.found⟩
  · have hmay := h.1.1.may hf
    rw [Pool.mon_history] at hmay
    exact ⟨⟨System.conforms_fires h.1.1 hf trivial, System.allowed_fires h.1.2 h.1.1 hf⟩,
      pins_fires h.2 hf hmay⟩

theorem mon_onlyApprove (b : Bool) (t : Nat) (log : List ApproverEvent) :
    Pool.mon onlyApprove b t log = b := by
  induction log with
  | nil => rfl
  | cons e log ih =>
    by_cases ht : e.tid = t
    · subst ht
      rw [Pool.mon_self, ih]
      rfl
    · rw [Pool.mon_other ht, ih]

/-- The responses were built by calls of `approve`. -/
def Approves (s : ServingState) : Prop :=
  ∀ e ∈ s.log, asksResponse e.op = true → ∃ rounds p, s.threads[e.tid]? = some ⟨.approve rounds, p⟩

theorem onlyApprove_inductive :
    ((serving cfg).lts anyServing).Inductive fun s => (∀ e ∈ s.log, Lawful e.exch) → System.Conforms
      onlyApprove Lawful Call.approves (fun _ _ _ => True) s ∧ System.Allowed onlyApprove
      Call.approves s :=
  System.conforms_within fun _ c _ => obeys_onlyApprove c

theorem approves {s : ServingState}
    (hc : System.Conforms onlyApprove Lawful Call.approves (fun _ _ _ => True) s)
    (hall : System.Allowed onlyApprove Call.approves s) : Approves s := by
  intro e he hasks
  obtain ⟨newer, older, hlog⟩ := List.append_of_mem he
  obtain ⟨⟨c, p⟩, hthread⟩ : ∃ th, s.threads[e.tid]? = some th :=
    ⟨_, List.getElem?_eq_getElem (hc.tids e he)⟩
  have hmay := hall newer e older _ hlog hthread
  rw [mon_onlyApprove] at hmay
  rcases hmay with hcall | hother
  · cases c with
    | approve rounds => exact ⟨rounds, p, hthread⟩
    | start | waitForRequest rounds | cancel => cases hcall
  · rw [not_other hother] at hasks
    cases hasks

/-! ## Both sides -/

variable {lib : RequesterLib}

/-- What is known of both sides in every state. -/
structure Known (cfg : Config) (lib : RequesterLib) (w : ServingState × RequesterState) : Prop where
  approver : System.Remembers (May cfg) (fun _ => Done cfg) w.1
  pins : Pins w.1
  approves : Approves w.1
  requesters : RequesterOrder.Ordered lib w.2
  heard : Parties.Heard (P := ceremony cfg lib) w

theorem known {w : ServingState × RequesterState} (hr : (ceremony cfg lib).beside.Reachable w) :
    Known cfg lib w := by
  have hserves := (Parties.left_inductive (P := ceremony cfg lib) serves_inductive).reachable w hr
  have hordered := (Parties.right_inductive
      (P := ceremony cfg lib) RequesterOrder.ordered_inductive).reachable w hr
  obtain ⟨hconforms, hallowed⟩ :=
    (Parties.left_inductive (P := ceremony cfg lib) onlyApprove_inductive).reachable w hr fun _ _ =>
    trivial
  exact ⟨hserves.1.1.remembers hserves.1.2, hserves.2, approves hconforms hallowed,
    RequesterOrder.ordered hordered,
    Parties.heard_inductive.reachable w hr⟩

section

variable {w : ServingState × RequesterState}

theorem Ready.mono {τ' : List Exch} {v : Approval} {r : CeremonyRecord} (h : Ready cfg τ v r)
    (hτ : τ <:+ τ') : Ready cfg τ' v r := by
  obtain ⟨a, hsealed, hpayload⟩ := h.sealedAs
  obtain ⟨b, commit, hregistered, hcommit⟩ := h.committed
  exact ⟨h.toAnswered.mono hτ, ⟨a, hτ.subset hsealed, hpayload⟩, b, commit,
    hτ.subset hregistered, hcommit⟩

theorem requests_spec {p : OpenedRequest} {x : RequesterOrder.Exch} (h : requests p x = true) :
    ∃ a request, x = ⟨.buildRequest a, .ok request⟩ ∧ request.thRequestB64 = p.thRequestB64 ∧
      request.newDeviceId = p.newDeviceId ∧
      a.deviceKeyPair.publicKeyB64 = p.linkRequest.newDevicePublicKeyB64 ∧
      p.linkRequest.deviceInboxBinding = some a.deviceInboxBinding := by
  unfold requests at h
  split at h
  · simp only [Bool.and_eq_true, decide_eq_true_eq] at h
    exact ⟨_, _, rfl, h.1.1.1, h.1.1.2, h.1.2, h.2⟩
  · cases h

theorem responds_spec {a : OpenArgs} {opened : OpenedResponse} {x : Exch}
    (h : responds a opened x = true) :
    ∃ b response, x = ⟨.await (.buildResponse b), .ok response⟩ ∧ b.thRequestB64 = a.thRequestB64 ∧
      b.delegationBundle = opened.delegationBundle ∧ response.masterSecret = opened.masterSecret ∧
      response.thResponseB64 = opened.thResponseB64 := by
  unfold responds at h
  split at h
  · simp only [Bool.and_eq_true, decide_eq_true_eq] at h
    exact ⟨_, _, rfl, h.1.1.1, h.1.1.2, h.1.2, h.2⟩
  · cases h

theorem confirmsOf_spec {secret : Bytes} {th : String} {x : RequesterOrder.Exch}
    (h : confirmsOf secret th x = true) :
    ∃ payload, x = ⟨.buildConfirm secret th, .ok payload⟩ := by
  unfold confirmsOf at h
  split at h
  · simp only [Bool.and_eq_true, decide_eq_true_eq] at h
    obtain ⟨rfl, rfl⟩ := h
    exact ⟨_, rfl⟩
  · cases h

/-- An opened request was built by a requester. -/
theorem Known.requested (hk : Known cfg lib w) {p : OpenedRequest} (h : Opens w.1.log p) :
    ∃ e ∈ w.2.log, requests p e.exch = true := by
  obtain ⟨e, he, nowMs, psk, key, payload, hx⟩ := h
  obtain ⟨newer, older, hlog⟩ := List.append_of_mem he
  obtain ⟨s, u, -, hu, hok⟩ := hk.heard.1 newer e older hlog
  change approverHears s.log u.log e.exch = true at hok
  rw [hx] at hok
  obtain ⟨e', he', hrequests⟩ := List.any_eq_true.mp hok
  exact ⟨e', hu.subset he', hrequests⟩

/-- No two requests have the same transcript. -/
theorem Known.one_request (hk : Known cfg lib w) (th : String) {e e' : RequesterEvent}
    (he : e ∈ w.2.log) (he' : e' ∈ w.2.log) (h : hasThRequest th e.exch = true)
    (h' : hasThRequest th e'.exch = true) : e = e' := by
  refine eq_of_fresh (q := fun x => hasThRequest th x.exch = true)
    (fun newer x older hlog hx y hy hqy => ?_) he he' h h'
  obtain ⟨s, u, -, hu, hok⟩ := hk.heard.2 newer x older hlog
  change requesterHears s.log u.log x.exch = true at hok
  unfold hasThRequest at hx
  split at hx
  · rename_i heq
    rw [heq, hu] at hok
    have hnot := List.all_eq_true.mp hok y hy
    rw [of_decide_eq_true hx, hqy] at hnot
    cases hnot
  · cases hx

/-- No two responses have the same transcript. -/
theorem Known.one_response (hk : Known cfg lib w) (th : String) {e e' : ApproverEvent}
    (he : e ∈ w.1.log) (he' : e' ∈ w.1.log) (h : hasThResponse th e.exch = true)
    (h' : hasThResponse th e'.exch = true) : e = e' := by
  refine eq_of_fresh (q := fun x => hasThResponse th x.exch = true)
    (fun newer x older hlog hx y hy hqy => ?_) he he' h h'
  obtain ⟨s, u, hs, -, hok⟩ := hk.heard.1 newer x older hlog
  change approverHears s.log u.log x.exch = true at hok
  unfold hasThResponse at hx
  split at hx
  · rename_i heq
    rw [heq, hs] at hok
    have hnot := List.all_eq_true.mp hok y hy
    rw [of_decide_eq_true hx, hqy] at hnot
    cases hnot
  · cases hx

/-- What an approval has pinned is what the requester with this transcript has
asked for. -/
theorem Known.pinned (hk : Known cfg lib w) {t u : Nat} {p : OpenedRequest} {a : RequestArgs}
    {request : BuiltRequest} (hp : RegistrationFirst.CalledOn (Pool.history t w.1.log) p)
    (ha : (⟨.buildRequest a, .ok request⟩ : RequesterOrder.Exch) ∈ Pool.history u w.2.log)
    (hth : p.thRequestB64 = request.thRequestB64) :
    p.newDeviceId = request.newDeviceId ∧
    p.linkRequest.newDevicePublicKeyB64 = a.deviceKeyPair.publicKeyB64 ∧
    p.bindingInboxId = a.deviceInboxBinding.inboxId ∧
    p.linkRequest.deviceInboxBinding = some a.deviceInboxBinding := by
  obtain ⟨g, i, m, hmem, hpinned⟩ := hp
  obtain ⟨e, he, -, hx⟩ := Pool.mem_history.mp hmem
  obtain ⟨e₁, he₁, hrequests⟩ := hk.requested (hk.pins.found e he _ _ _ _ hx p hpinned)
  obtain ⟨e₂, he₂, -, hx₂⟩ := Pool.mem_history.mp ha
  obtain ⟨a', request', hx₁, hth', hid, hkey, hbinding⟩ := requests_spec hrequests
  have hsame : e₁ = e₂ := by
    refine hk.one_request p.thRequestB64 he₁ he₂ ?_ ?_
    · rw [hx₁]
      simp [hasThRequest, hth']
    · rw [hx₂]
      simp [hasThRequest, hth]
  subst hsame
  rw [hx₁] at hx₂
  cases hx₂
  exact ⟨hid.symm, hkey.symm, by rw [OpenedRequest.bindingInboxId, hbinding], hbinding⟩

/-- A call that releases is ready. -/
theorem Known.ready (hk : Known cfg lib w) {e : ApproverEvent} (he : e ∈ w.1.log)
    (h : releases e.exch = true) : ∃ v r, Ready cfg (Pool.history e.tid w.1.log) v r := by
  obtain ⟨newer, older, hlog⟩ := List.append_of_mem he
  have hmay := hk.approver.each newer e older hlog
  have hτ : Pool.history e.tid older <:+ Pool.history e.tid w.1.log := by
    rw [hlog]
    exact Pool.history_suffix ((List.suffix_cons e older).trans (List.suffix_append newer _))
  obtain ⟨tid, op, ans, fate⟩ := e
  cases op with
  | run l g =>
    obtain ⟨i, s⟩ := ans
    rcases (hmay i s).released with hkept | ⟨v, r, -, hready⟩
    · exact absurd hkept (of_decide_eq_true h)
    · exact ⟨v, r, hready.mono hτ⟩
  | await o => cases h

/-- A call builds one response. -/
theorem Known.one_built (hk : Known cfg lib w) {t : Nat} {b b' : ResponseArgs}
    {response response' : Except Err Response}
    (h : (⟨.await (.buildResponse b), response⟩ : Exch) ∈ Pool.history t w.1.log)
    (h' : (⟨.await (.buildResponse b'), response'⟩ : Exch) ∈ Pool.history t w.1.log) :
    b = b' ∧ response = response' := by
  obtain ⟨e, he, rfl, hx⟩ := Pool.mem_history.mp h
  obtain ⟨e', he', ht, hx'⟩ := Pool.mem_history.mp h'
  have hq : asksResponse e.op = true := by rw [show e.op = _ from congrArg Proc.Exch.op hx]; rfl
  have hq' : asksResponse e'.op = true := by rw [show e'.op = _ from congrArg Proc.Exch.op hx']; rfl
  have hsame : e = e' := by
    refine Pool.only_once (q := asksResponse) (fun newer e₁ older hlog hasks =>
      ?_) he he' ht.symm hq hq'
    have hmay := hk.approver.each newer e₁ older hlog
    revert hasks hmay
    cases e₁.op with
    | run l g => exact fun hasks => by cases hasks
    | await o => cases o <;> first | exact fun _ hmay => hmay | exact fun hasks => by cases hasks
  subst hsame
  rw [hx] at hx'
  cases hx'
  exact ⟨rfl, rfl⟩

/-- A response that was opened comes from an approval that is ready. -/
theorem Known.source (hk : Known cfg lib w) {u : Nat} {o : Options} {v : RequesterOrder.Vetting}
    {l : Linked} (hv : RequesterOrder.Vets lib o (Pool.history u w.2.log) v l) :
    ∃ t a r, Ready cfg (Pool.history t w.1.log) a r ∧
      a.built.delegationBundle = v.opened.delegationBundle ∧
      a.response.masterSecret = v.opened.masterSecret ∧
      a.response.thResponseB64 = v.opened.thResponseB64 ∧
      a.pinned.thRequestB64 = v.request.thRequestB64 := by
  obtain ⟨e, he, -, hx⟩ := Pool.mem_history.mp hv.opened
  obtain ⟨newer, older, hlog⟩ := List.append_of_mem he
  obtain ⟨s, _, hs, -, hok⟩ := hk.heard.2 newer e older hlog
  change requesterHears s.log _ e.exch = true at hok
  rw [hx] at hok
  obtain ⟨e₁, he₁, hboth⟩ := List.any_eq_true.mp hok
  obtain ⟨hresponds, hreleased⟩ := (Bool.and_eq_true _ _).mp hboth
  obtain ⟨e₂, he₂, hreleases⟩ := List.any_eq_true.mp hreleased
  obtain ⟨htid, hreleases⟩ := (Bool.and_eq_true _ _).mp hreleases
  obtain ⟨a, r, hready⟩ := hk.ready (hs.subset he₂) hreleases
  obtain ⟨b, response, hx₁, hth, hbundle, hsecret, hthResponse⟩ := responds_spec hresponds
  rw [of_decide_eq_true htid] at hready
  obtain ⟨rfl, hresponse⟩ :=
    hk.one_built hready.built (Pool.mem_history.mpr ⟨e₁, hs.subset he₁, rfl, hx₁⟩)
  cases hresponse
  exact ⟨e₁.tid, a, r, hready, hbundle, hsecret, hthResponse,
    hready.thRequest.symm.trans (hth.trans hv.answers)⟩

end

/-! ## The theorems -/

/-- Run `u` has persisted `l`, from the response that call `t` has built. -/
structure PersistsFrom (lib : RequesterLib) (w : ServingState × RequesterState)
    (t u : Nat) (l : Linked) : Prop where
  persisted : ∃ p, (⟨.persistDelegation l, .ok p⟩ : RequesterOrder.Exch) ∈ Pool.history u w.2.log
  source : ∃ o p v b response, w.2.threads[u]? = some ⟨o, p⟩ ∧
    RequesterOrder.Vets lib o (Pool.history u w.2.log) v l ∧
    (⟨.await (.buildResponse b), .ok response⟩ : Exch) ∈ Pool.history t w.1.log ∧
    v.opened.thResponseB64 = response.thResponseB64 ∧ v.opened.delegationBundle = b.delegationBundle

/-- Run `u` has persisted what call `t` has approved as `r`. -/
structure Agrees (cfg : Config) (lib : RequesterLib) (w : ServingState × RequesterState)
    (t u : Nat) (r : Approved) (l : Linked) : Prop extends PersistsFrom lib w t u l where
  account : l.delegation.accountSignPublicKeyB64 = cfg.accountSignPublicKeyB64
  cert : ∃ cert, l.delegation.certChain = [cert] ∧ cert.certId = r.certId ∧
    cert.granteeDevicePublicKeyB64 = l.delegation.deviceKeyPair.publicKeyB64
  deviceId : l.deviceId = r.newDeviceId
  inboxId : r.inboxId = .text l.inboxId

section

variable {w : ServingState × RequesterState} {t u : Nat}

/-- The confirmation that `approve` has heard was built by a requester that has
persisted. -/
theorem Known.confirmer (hk : Known cfg lib w) {secret : Bytes} {th payload : String}
    (h : (⟨.await (.verifyConfirm secret th payload), .ok true⟩ : Exch) ∈ Pool.history t w.1.log) :
    ∃ u o q v l p, w.2.threads[u]? = some ⟨o, q⟩ ∧
      RequesterOrder.Persisted lib o (Pool.history u w.2.log) v l p ∧
      v.opened.masterSecret = secret ∧ v.opened.thResponseB64 = th := by
  obtain ⟨e, he, -, hx⟩ := Pool.mem_history.mp h
  obtain ⟨newer, older, hlog⟩ := List.append_of_mem he
  obtain ⟨s, u, -, hu, hok⟩ := hk.heard.1 newer e older hlog
  change approverHears s.log u.log e.exch = true at hok
  rw [hx] at hok
  obtain ⟨e₁, he₁, hconfirms⟩ := List.any_eq_true.mp hok
  obtain ⟨payload', hx₁⟩ := confirmsOf_spec hconfirms
  obtain ⟨newer₁, older₁, hlog₁⟩ := List.append_of_mem (hu.subset he₁)
  obtain ⟨o, q, hthread, hmay⟩ := hk.requesters.each newer₁ e₁ older₁ hlog₁
  rw [show e₁.op = _ from congrArg Proc.Exch.op hx₁] at hmay
  obtain ⟨v, l, p, hpersisted, hsecret, hth⟩ := hmay
  refine ⟨e₁.tid, o, q, v, l, p, hthread, hpersisted.mono ?_, hsecret.symm, hth.symm⟩
  rw [hlog₁]
  exact Pool.history_suffix ((List.suffix_cons e₁ older₁).trans (List.suffix_append newer₁ _))

/-- The same response comes from the same call. -/
theorem Known.same_call (hk : Known cfg lib w) {t' : Nat} {b b' : ResponseArgs}
    {response response' : Response}
    (h : (⟨.await (.buildResponse b), .ok response⟩ : Exch) ∈ Pool.history t w.1.log)
    (h' : (⟨.await (.buildResponse b'), .ok response'⟩ : Exch) ∈ Pool.history t' w.1.log)
    (hth : response.thResponseB64 = response'.thResponseB64) :
    t = t' ∧ b = b' ∧ response = response' := by
  obtain ⟨e, he, rfl, hx⟩ := Pool.mem_history.mp h
  obtain ⟨e', he', rfl, hx'⟩ := Pool.mem_history.mp h'
  have hsame : e = e' := by
    refine hk.one_response response.thResponseB64 he he' ?_ ?_
    · rw [hx]
      simp [hasThResponse]
    · rw [hx']
      simp [hasThResponse, hth]
  subst hsame
  rw [hx] at hx'
  cases hx'
  exact ⟨rfl, rfl, rfl⟩

/-- The same request comes from the same run. -/
theorem Known.same_run (hk : Known cfg lib w) {u' : Nat} {a a' : RequestArgs}
    {request request' : BuiltRequest}
    (h : (⟨.buildRequest a, .ok request⟩ : RequesterOrder.Exch) ∈ Pool.history u w.2.log)
    (h' : (⟨.buildRequest a', .ok request'⟩ : RequesterOrder.Exch) ∈ Pool.history u' w.2.log)
    (hth : request.thRequestB64 = request'.thRequestB64) : u = u' := by
  obtain ⟨e, he, rfl, hx⟩ := Pool.mem_history.mp h
  obtain ⟨e', he', rfl, hx'⟩ := Pool.mem_history.mp h'
  have hsame : e = e' := by
    refine hk.one_request request.thRequestB64 he he' ?_ ?_
    · rw [hx]
      simp [hasThRequest]
    · rw [hx']
      simp [hasThRequest, hth]
  rw [hsame]

/-- A run persists once. -/
theorem Known.one_persisted (hk : Known cfg lib w) {l l' : Linked} {p p' : Except Err Field}
    (h : (⟨.persistDelegation l, p⟩ : RequesterOrder.Exch) ∈ Pool.history u w.2.log)
    (h' : (⟨.persistDelegation l', p'⟩ : RequesterOrder.Exch) ∈ Pool.history u w.2.log) :
    l = l' := by
  obtain ⟨e, he, rfl, hx⟩ := Pool.mem_history.mp h
  obtain ⟨e', he', ht, hx'⟩ := Pool.mem_history.mp h'
  have hq : RequesterOrder.asksPersist e.op = true := by
    rw [show e.op = _ from congrArg Proc.Exch.op hx]; rfl
  have hq' : RequesterOrder.asksPersist e'.op = true := by
    rw [show e'.op = _ from congrArg Proc.Exch.op hx']; rfl
  have hsame : e = e' := by
    refine Pool.only_once (q := RequesterOrder.asksPersist)
      (fun newer e₁ older hlog hasks => ?_) he he' ht.symm hq hq'
    obtain ⟨o, q, -, hmay⟩ := hk.requesters.each newer e₁ older hlog
    revert hasks hmay
    cases e₁.op <;> first | exact fun _ hmay => hmay.2 | exact fun hasks => by cases hasks
  subst hsame
  rw [hx] at hx'
  cases hx'
  rfl

/-- Two runs that persist from the same call are one. -/
theorem Known.same_persisted (hk : Known cfg lib w) {u' : Nat} {l l' : Linked}
    (h : PersistsFrom lib w t u l) (h' : PersistsFrom lib w t u' l') : u = u' ∧ l = l' := by
  obtain ⟨p, hpersisted⟩ := h.persisted
  obtain ⟨p', hpersisted'⟩ := h'.persisted
  obtain ⟨_, _, v, b, response, -, hv, hbuilt, hth, -⟩ := h.source
  obtain ⟨_, _, v', b', response', -, hv', hbuilt', hth', -⟩ := h'.source
  obtain ⟨-, hresponse⟩ := hk.one_built hbuilt hbuilt'
  cases hresponse
  obtain ⟨t₁, a₁, r₁, hready₁, -, -, hth₁, hrequest₁⟩ := hk.source hv
  obtain ⟨t₂, a₂, r₂, hready₂, -, -, hth₂, hrequest₂⟩ := hk.source hv'
  obtain ⟨-, hsame, -⟩ :=
    hk.same_call hready₁.built hready₂.built (hth₁.trans (hth.trans (hth'.symm.trans hth₂.symm)))
  have hrun : u = u' := by
    refine hk.same_run hv.asked hv'.asked ?_
    rw [← hrequest₁, ← hrequest₂, ← hready₁.thRequest, ← hready₂.thRequest, hsame]
  subst hrun
  exact ⟨rfl, hk.one_persisted hpersisted hpersisted'⟩

/-- A run that persists does so from a call of `approve`. -/
theorem Known.persisted_from (hk : Known cfg lib w) {l : Linked} {p : Except Err Field}
    (h : (⟨.persistDelegation l, p⟩ : RequesterOrder.Exch) ∈ Pool.history u w.2.log) :
    ∃ t rounds q o v a r, w.1.threads[t]? = some ⟨.approve rounds, q⟩ ∧
      RequesterOrder.Vets lib o (Pool.history u w.2.log) v l ∧
      Ready cfg (Pool.history t w.1.log) a r ∧
      a.built.delegationBundle = v.opened.delegationBundle ∧
      a.response.thResponseB64 = v.opened.thResponseB64 ∧
      a.pinned.thRequestB64 = v.request.thRequestB64 := by
  obtain ⟨e, he, rfl, hx⟩ := Pool.mem_history.mp h
  obtain ⟨newer, older, hlog⟩ := List.append_of_mem he
  obtain ⟨o, -, -, hmay⟩ := hk.requesters.each newer e older hlog
  rw [show e.op = _ from congrArg Proc.Exch.op hx] at hmay
  obtain ⟨v, hv⟩ := hmay.1
  have hv : RequesterOrder.Vets lib o (Pool.history e.tid w.2.log) v l := by
    refine hv.mono ?_
    rw [hlog]
    exact Pool.history_suffix ((List.suffix_cons e older).trans (List.suffix_append newer _))
  obtain ⟨t, a, record, hready, hbundle, -, hth, hthRequest⟩ := hk.source hv
  obtain ⟨e₁, he₁, rfl, hx₁⟩ := Pool.mem_history.mp hready.built
  obtain ⟨rounds, q, hthread⟩ :=
    hk.approves e₁ he₁ (by rw [show e₁.op = _ from congrArg Proc.Exch.op hx₁]; rfl)
  exact ⟨e₁.tid, rounds, q, o, v, a, record, hthread, hv, hready, hbundle, hth, hthRequest⟩

end

/-- `t` is the only call of `approve`. -/
def Sole (w : ServingState × RequesterState) (t : Nat) : Prop :=
  ∀ t' rounds p, w.1.threads[t']? = some ⟨.approve rounds, p⟩ → t' = t

/-- **Agreement**: where `approve` has resolved, exactly one run has persisted
from it, and both sides agree on what it is; and where this is the only
approval, no other run persists anything. -/
theorem agreement (cfg : Config) (lib : RequesterLib) (w : ServingState × RequesterState)
    (hr : (ceremony cfg lib).beside.Reachable w) (t : Nat) (c : Call) (r : Approved)
    (ht : w.1.threads[t]? = some ⟨c, .ret (.ok (some r))⟩) :
    ∃ u l, Agrees cfg lib w t u r l ∧ (∀ u' l', PersistsFrom lib w t u' l' → u' = u ∧ l' = l) ∧
      (Sole w t →
        ∀ u' l' p, (⟨.persistDelegation l', p⟩ : RequesterOrder.Exch) ∈ Pool.history u' w.2.log →
          u' = u) := by
  have hk := known hr
  obtain ⟨a, ha⟩ := hk.approver.result t c _ ht r rfl
  obtain ⟨payload, hconfirmed⟩ := ha.confirmed
  obtain ⟨u, o, q, v, l, p, hthread, hpersisted, hsecret, hth⟩ := hk.confirmer hconfirmed
  obtain ⟨t', a', record, hready, hbundle, -, hthResponse, hthRequest⟩ := hk.source hpersisted.vets
  obtain ⟨rfl, hbuilt, hresponse⟩ :=
    hk.same_call ha.built hready.built (hth.symm.trans hthResponse.symm)
  have hchain : [a.cert] = [a'.cert] := by rw [← ha.chain, ← hready.chain, hbuilt]
  have hcert : a.cert = a'.cert := List.head_eq_of_cons_eq hchain
  obtain ⟨hid, hkey, hinbox, -⟩ := hk.pinned ha.called hpersisted.vets.asked
    (by rw [← hthRequest, ← ha.thRequest, ← hready.thRequest, hbuilt])
  have hdelegation := hpersisted.vets.delegation
  have hagrees : Agrees cfg lib w t u r l :=
    { persisted := ⟨p, hpersisted.persisted⟩
      source := ⟨o, q, v, a.built, a.response, hthread, hpersisted.vets, ha.built,
        hth, by rw [hbuilt, hbundle]⟩
      account := by rw [hdelegation, ← hbundle, hready.account]
      cert := by
        refine ⟨a.cert, ?_, by rw [ha.result], ?_⟩
        · rw [hdelegation, ← hbundle, hready.chain, hcert]
        · rw [hdelegation, ha.grantee, hkey]
      deviceId := by rw [hpersisted.vets.deviceId, ha.result, hid]
      inboxId := by rw [ha.result, hinbox, hpersisted.vets.inboxId] }
  refine ⟨u, l, hagrees, fun u' l' h' => hk.same_persisted h' hagrees.toPersistsFrom,
    fun hsole u' l' p' h' => ?_⟩
  obtain ⟨t', rounds, q, _, v', a₁, r₁, hthread, hv', hready', -, -, hthRequest'⟩ :=
    hk.persisted_from h'
  obtain rfl := hsole t' rounds q hthread
  obtain ⟨hsame, -⟩ := hk.one_built hready'.built ha.built
  refine hk.same_run hv'.asked hpersisted.vets.asked ?_
  rw [← hthRequest', ← hthRequest, ← hready'.thRequest, ← hready.thRequest, hsame, hbuilt]

/-- The home has committed the device, its inbox and its certificate. -/
def Registered (w : ServingState × RequesterState) (l : Linked) : Prop :=
  ∃ t cert a commit, (⟨.await (.registerDevice a), .ok (some commit)⟩ : Exch) ∈
  Pool.history t w.1.log ∧
    l.delegation.certChain = [cert] ∧
      cert.granteeDevicePublicKeyB64 = l.delegation.deviceKeyPair.publicKeyB64 ∧
    a.deviceCapability = cert ∧ a.newDeviceId = l.deviceId ∧
      a.deviceInboxBinding.map InboxBinding.inboxId = some (.text l.inboxId) ∧
    commit = ⟨.text l.deviceId, .text l.inboxId, .text cert.certId⟩

/-- **No device without a home**: a run that has its delegation persisted is
registered, before it starts to. -/
theorem persisted_registered (cfg : Config) (lib : RequesterLib) (w : ServingState × RequesterState)
    (hr : (ceremony cfg lib).beside.Reachable w) (u : Nat) (l : Linked) (p : Except Err Field)
    (h : (⟨.persistDelegation l, p⟩ : RequesterOrder.Exch) ∈ Pool.history u w.2.log) :
    Registered w l := by
  have hk := known hr
  obtain ⟨t, _, _, _, v, a, record, -, hv, hready, hbundle, -, hthRequest⟩ := hk.persisted_from h
  obtain ⟨hid, hkey, hinbox, hbinding⟩ := hk.pinned hready.called hv.asked hthRequest
  obtain ⟨_, commit, hregistered, rfl, hbinds⟩ := hready.committed
  obtain ⟨_, hcommit, hcertId, hdeviceId, hinboxId⟩ := RegistrationFirst.binds_some hbinds
  cases hcommit
  refine ⟨t, a.cert, _, commit, hregistered, ?_, ?_, rfl, ?_, ?_, ?_⟩
  · rw [hv.delegation, ← hbundle, hready.chain]
  · rw [hv.delegation, hready.grantee, hkey]
  · rw [hv.deviceId, ← hid]
  · rw [hbinding, Option.map_some, hv.inboxId]
  · obtain ⟨deviceId, inboxId, certId⟩ := commit
    simp only [Commit.mk.injEq]
    exact ⟨hdeviceId.trans (by rw [hid, hv.deviceId]), hinboxId.trans (by rw [hinbox, hv.inboxId]),
      hcertId⟩

end

namespace Example

open RequesterOrder.Example

/-- What the requester has asked for. -/
def request : OpenedRequest where
  thRequestB64 := "th"
  ephemeralDhPublicKeyB64 := "e"
  linkRequest := ⟨"key", some ⟨.text "inbox:07", []⟩⟩
  newDeviceId := "device:key"
  fingerprint := "f"

/-- Every callback succeeds; the home commits what it was asked to. -/
def answers : (o : LinkCall) → Option o.Ans
  | .openRequest .. => some (.ok request)
  | .buildResponse _ => some (.ok ⟨"response", "th'", "tag", [8]⟩)
  | .registerDevice a =>
    some (.ok (some ⟨.text a.newDeviceId, .text "inbox:07", .text a.deviceCapability.certId⟩))
  | o => RegistrationFirst.Example.answer o

def go (t n : Nat) : List
    (Label (ObjFate Input callbacks) Call ⊕ Label ((o : RequesterOp) → Option o.Ans) Options) :=
  .replicate n (.inl (.run t ⟨⟨5, .ok [3], .ok ()⟩, answers⟩))

def goOther (t n : Nat) : List
    (Label (ObjFate Input callbacks) Call ⊕ Label ((o : RequesterOp) → Option o.Ans) Options) :=
  .replicate n (.inr (.run t answer))

/-- One whole ceremony. -/
def script : List
    (Label (ObjFate Input callbacks) Call ⊕ Label ((o : RequesterOp) → Option o.Ans) Options) :=
  [.inr (.call options), .inl (.call .start)] ++ go 0 3 ++ goOther 0 10 ++
  [.inl (.call (.waitForRequest 1))] ++ go 1 7 ++
    [.inl (.call (.approve 1))] ++ go 2 13 ++ goOther 0 8 ++ go 2 7

def judge : Parties.Judge (ceremony RegistrationFirst.Example.config lib) where
  left := ⟨fun _ _ => true, fun _ _ => true, fun _ _ _ => trivial, fun _ _ _ => trivial⟩
  right := ⟨fun _ _ => true, fun _ _ => true, fun _ _ _ => trivial, fun _ _ _ => trivial⟩
  leftOk s u e := approverHears s.log u.log e.exch
  rightOk s u e := requesterHears s.log u.log e.exch
  leftOk_iff _ _ _ h := h
  rightOk_iff _ _ _ h := h

def approvedIn (w : ServingState × RequesterState) (t : Nat) : Bool :=
  match w.1.threads[t]? with
  | some ⟨_, .ret (.ok (some r))⟩ => r = ⟨"device:key", "cert:device:key", .text "inbox:07"⟩
  | _ => false

theorem approvedIn_spec {w : ServingState × RequesterState} {t : Nat} (h : approvedIn w t = true) :
    ∃ c,
      w.1.threads[t]? =
        some ⟨c, .ret (.ok (some ⟨"device:key", "cert:device:key", .text "inbox:07"⟩))⟩ := by
  unfold approvedIn at h
  split at h
  · rename_i c r heq
    exact ⟨c, by rw [heq, of_decide_eq_true h]⟩
  · cases h

def persistedIn (w : ServingState × RequesterState) (u : Nat) : Bool :=
  (Pool.history u w.2.log).any fun x => RequesterOrder.asksPersist x.op

theorem persistedIn_spec {w : ServingState × RequesterState} {u : Nat}
    (h : persistedIn w u = true) :
    ∃ l p, (⟨.persistDelegation l, p⟩ : RequesterOrder.Exch) ∈ Pool.history u w.2.log := by
  obtain ⟨⟨o, p⟩, hx, hasks⟩ := List.any_eq_true.mp h
  cases o <;> first | exact ⟨_, p, hx⟩ | exact absurd hasks (by simp [RequesterOrder.asksPersist])

end Example

open Example in
/-- One whole ceremony. -/
theorem agreement_ceremony :
    ∃ w, (ceremony RegistrationFirst.Example.config RequesterOrder.Example.lib).beside.Reachable w ∧
      ∃ u l,
        Agrees RegistrationFirst.Example.config RequesterOrder.Example.lib w 2 u
          ⟨"device:key", "cert:device:key", .text "inbox:07"⟩ l := by
  obtain ⟨w, hr, hw⟩ :=
    Parties.reachable_of_exec judge script .new () (Q := fun w => approvedIn w 2) rfl trivial
    (by decide +kernel)
  obtain ⟨c, ht⟩ := approvedIn_spec hw
  obtain ⟨u, l, h, -, -⟩ := agreement _ _ w hr 2 c _ ht
  exact ⟨w, hr, u, l, h⟩

open Example in
theorem persisted_registered_ceremony :
    ∃ w, (ceremony RegistrationFirst.Example.config RequesterOrder.Example.lib).beside.Reachable w ∧
      ∃ l, Registered w l := by
  obtain ⟨w, hr, hw⟩ :=
    Parties.reachable_of_exec judge script .new () (Q := fun w => persistedIn w 0) rfl trivial
    (by decide +kernel)
  obtain ⟨l, p, h⟩ := persistedIn_spec hw
  exact ⟨w, hr, l, persisted_registered _ _ w hr 0 l p h⟩

end RezSdk.L4.LinkAgreement
