import RezSdk.L3Service.DeviceLinkApprover

/-!
# Registration before release

A leaf certificate that is out cannot be called back, so `approve` releases it
only after the exact response was made durable and the home has committed this
device, inbox and certificate. `Registered τ r` says this of what one call has
asked and heard so far; no other stretch of any method calls `records.put`.

* `released_registered`: in every run, whatever the callbacks answer and
  however the methods interleave, every record was released like this. The
  request, the certificate and the record are local to the call, so a
  cancellation underneath does not matter.
-/
namespace RezSdk.L4.RegistrationFirst

open RezSdk.L1 RezSdk.L3.DeviceLink

abbrev Exch := Proc.Exch link

/-! ## The property -/

/-- The certificate was built into the response that was sealed as `r`. -/
def SealedIn (τ : List Exch) (cert : LeafCert) (r : CeremonyRecord) : Prop :=
  ∃ built response sealing, (⟨.await (.buildResponse built), .ok response⟩ : Exch) ∈ τ ∧
    built.delegationBundle.certChain = [cert] ∧ (⟨.await (.sealRecord sealing), .ok r⟩ : Exch) ∈ τ ∧
    sealing.payloadB64 = response.payloadB64 ∧ sealing.recordId = .response

/-- The call was made on the pinned request `pinned`. -/
def CalledOn (τ : List Exch) (pinned : OpenedRequest) : Prop :=
  ∃ g i s, (⟨.run .approveBegin g, (i, s)⟩ : Exch) ∈ τ ∧ s.pinned = some pinned

/-- The home has answered `commit`, after `r` was made durable; `τ` is what the
call has asked and heard, newest first. -/
structure RegisteredBy (τ : List Exch) (r : CeremonyRecord) (pinned : OpenedRequest)
    (cert : LeafCert) (commit : Commit) : Prop where
  called : CalledOn τ pinned
  sealedIn : SealedIn τ cert r
  order : ∃ newer mid older p a, τ = newer ++ ⟨.await (.registerDevice a),
    .ok (some commit)⟩ :: (mid ++
    (⟨.await (.persistPending p), .ok ()⟩ : Exch) :: older) ∧ p.sealedResponse = r
  certId : commit.certId = .text cert.certId
  deviceId : commit.deviceId = .text pinned.newDeviceId
  inboxId : commit.inboxId = pinned.bindingInboxId

def Registered (τ : List Exch) (r : CeremonyRecord) : Prop :=
  ∃ pinned cert commit, RegisteredBy τ r pinned cert commit

/-- The stretch of code calls `records.put` with `r`. -/
def Puts (x : Exch) (r : CeremonyRecord) : Prop :=
  match x with
  | ⟨.run _ g, (i, s)⟩ => (g i s).released = r :: s.released
  | _ => False

/-- What call `t` has asked and heard, newest first. -/
def history (t : Nat) (log : List (Event link (ObjFate Input callbacks))) : List Exch :=
  (log.filter fun e => e.tid = t).map Event.exch

structure ReleasedRegistered (s : LinkState) : Prop where
  each : ∀ newer e older, s.log = newer ++ e :: older → ∀ r, Puts e.exch r →
    Registered (history e.tid older) r
  all : ∀ r ∈ s.mem.released, ∃ e ∈ s.log, Puts e.exch r

/-! ## One call -/

/-- A stretch leaves the releases as they are, or releases what is
registered. -/
def monitor : Monitor link (List Exch) where
  next τ x := x :: τ
  may τ
    | .run _ g =>
      ∀ i s, (g i s).released = s.released ∨ ∃ r, (g i s).released = r :: s.released ∧
      Registered τ r
    | .await _ => True

abbrev Lawful : Exch → Prop := fun _ => True

/-- The operation releases nothing. -/
def Keeps : ObjOp Approver Input Stretch callbacks → Prop
  | .run _ g => ∀ i s, (g i s).released = s.released
  | .await _ => True

variable {α β : Type} {cfg : Config}

theorem may_keeps {τ : List Exch} {o : link.Op} (h : Keeps o) : monitor.may τ o := by
  cases o with
  | run l g => exact fun i s => .inl (h i s)
  | await o => trivial

/-- A program that releases nothing only makes the history longer. -/
theorem obeys_keeps {Q : List Exch → α → Prop} {p : Proc link α} (hp : p.All Keeps) :
    ∀ {τ : List Exch}, (∀ τ' x, τ <:+ τ' → Q τ' x) → Obeys monitor Lawful Q τ p := by
  induction p with
  | ret x => exact fun hq => hq _ x (List.suffix_refl _)
  | ask o k ih =>
    intro τ hq
    refine ⟨may_keeps hp.1, fun r _ => ih r (hp.2 r) fun τ' x hτ => hq τ' x ?_⟩
    exact (List.suffix_cons _ _).trans hτ

theorem keeps_stretch {l : Stretch} {f : Input → Approver → Except Err α × Approver}
    (h : ∀ i s, (f i s).2.released = s.released) : Proc.All Keeps (stretch l f : Linking α) :=
  ⟨h, fun _ => trivial⟩

theorem keeps_await {o : LinkCall} {k : callbacks.Ans o → Linking α}
    (hk : ∀ r, Proc.All Keeps (k r)) : Proc.All Keeps (.ask (.await o) k : Linking α) :=
  ⟨trivial, hk⟩

theorem keeps_orThrow {x : Option α} {e : Err} : Proc.All Keeps (Js.orThrow x e : Linking α) :=
  Js.all_orThrow _ x e

theorem keeps_pollTop (i : Input) (s : Approver) : (pollTop i s).2.released = s.released := by
  unfold pollTop
  split
  · rfl
  · split <;> rfl

theorem keeps_confirmTop (i : Input) (s : Approver) : (confirmTop i s).2.released = s.released := by
  unfold confirmTop
  split
  · rfl
  · split <;> rfl

theorem keeps_pollGet {id : RecordId} {keys : Option Keys} : Proc.All Keeps (pollGet id keys) := by
  cases keys with
  | none => trivial
  | some keys =>
    refine Js.all_attempt (keeps_await fun _ => trivial) fun record => ?_
    cases record <;> trivial

theorem keeps_pollSleep {rest : Stretch} {interval : ℚ} :
    Proc.All Keeps (pollSleep cfg rest interval) :=
  Js.all_bind (keeps_stretch fun _ _ => rfl) fun _ => keeps_await fun _ => trivial

theorem keeps_start : Proc.All Keeps (start cfg) := by
  refine Js.all_bind (keeps_stretch fun i s => ?_) fun psk =>
    Js.all_bind (keeps_await fun _ => trivial) fun keys =>
    keeps_stretch fun _ _ => rfl
  split
  · rfl
  · split <;> rfl

theorem keeps_openAndPin {atMs : Nat} {record : CeremonyRecord} :
    Proc.All Keeps (openAndPin atMs record) := by
  refine Js.all_bind (keeps_stretch fun _ _ => rfl) fun keys =>
    Js.all_bind keeps_orThrow fun keys => ?_
  refine Js.all_bind (keeps_await fun _ => trivial) fun payload =>
    Js.all_bind (keeps_stretch fun _ _ => rfl) fun read => ?_
  refine Js.all_bind keeps_orThrow fun keys =>
    Js.all_bind (keeps_await fun _ => trivial) fun opened => ?_
  exact keeps_stretch fun _ _ => rfl

theorem keeps_waitRounds : ∀ {n : Nat} {interval : ℚ} {top : Nat × Option Keys},
    Proc.All Keeps (waitRounds cfg n interval top)
  | 0, _, _ => ⟨trivial, fun r => nomatch r⟩
  | n + 1, interval, (atMs, keys) => by
    have hagain : Proc.All Keeps ((do
        pollSleep cfg .waitRest interval
        let top ← stretch .waitTop pollTop
        waitRounds cfg n (nextInterval cfg interval) top) : Linking OpenedRequest) :=
      Js.all_bind keeps_pollSleep fun _ => Js.all_bind (keeps_stretch keeps_pollTop) fun _ =>
        keeps_waitRounds
    refine Js.all_bind keeps_pollGet fun record => ?_
    cases record with
    | none => exact hagain
    | some record =>
      refine Js.all_attempt keeps_openAndPin fun opened => ?_
      cases opened with
      | ok opened => trivial
      | error e =>
        dsimp only
        split
        · exact keeps_stretch fun _ _ => rfl
        · exact hagain

theorem keeps_waitForRequest {rounds : Nat} : Proc.All Keeps (waitForRequest cfg rounds) := by
  refine Js.all_bind (keeps_stretch fun i s => ?_) fun _ => keeps_waitRounds
  split
  · rfl
  · exact keeps_pollTop i s

theorem keeps_confirms {nowMs : Nat} {record : CeremonyRecord} {response : Response} :
    Proc.All Keeps (confirms nowMs record response) := by
  refine Js.all_attempt ?_ fun confirmed => ?_
  · refine Js.all_bind (keeps_stretch fun _ _ => rfl) fun keys =>
      Js.all_bind keeps_orThrow fun keys => ?_
    exact Js.all_bind (keeps_await fun _ => trivial) fun payload => keeps_await fun _ => trivial
  · cases confirmed <;> trivial

theorem keeps_confirmRounds {pinned : OpenedRequest} {cert : LeafCert} {response : Response} :
    ∀ {n : Nat} {interval : ℚ} {top : Nat × Option Keys},
      Proc.All Keeps (confirmRounds cfg pinned cert response n interval top)
  | 0, _, _ => ⟨trivial, fun r => nomatch r⟩
  | n + 1, interval, (nowMs, keys) => by
    refine Js.all_bind keeps_pollGet fun record => ?_
    cases record with
    | none =>
      exact Js.all_bind keeps_pollSleep fun _ =>
        Js.all_bind (keeps_stretch keeps_confirmTop) fun _ => keeps_confirmRounds
    | some record =>
      refine Js.all_bind keeps_confirms fun confirmed => ?_
      dsimp only
      split
      · refine Js.all_attempt (keeps_await fun _ => trivial) fun marked => keeps_stretch fun i s =>
          ?_
        rcases finish_cases _ marked i s with h | ⟨e, h⟩
          <;> exact congrArg (fun x => x.2.released) h
      · exact keeps_stretch fun _ _ => rfl

theorem keeps_mintLeafCert {key : String} {nowMs : Nat} :
    Proc.All Keeps (mintLeafCert cfg key nowMs) := by
  refine Js.all_bind (keeps_await fun _ => trivial) fun sig =>
    Js.all_bind (Js.all_ensure ..) fun _ => ?_
  refine Js.all_bind (keeps_await fun _ => trivial) fun ok =>
    Js.all_bind (Js.all_ensure ..) fun _ => ?_
  exact Js.all_bind (show Proc.All Keeps (Js.ofExcept _ : Linking Unit) from trivial) fun _ =>
    trivial

/-! ## approve -/

theorem CalledOn.mono {τ τ' : List Exch} {pinned : OpenedRequest} (h : CalledOn τ pinned)
    (hτ : τ <:+ τ') : CalledOn τ' pinned := by
  obtain ⟨g, i, s, hmem, hs⟩ := h
  exact ⟨g, i, s, hτ.subset hmem, hs⟩

theorem SealedIn.mono {τ τ' : List Exch} {cert : LeafCert} {r : CeremonyRecord}
    (h : SealedIn τ cert r) (hτ : τ <:+ τ') : SealedIn τ' cert r := by
  obtain ⟨built, response, sealing, hbuilt, hchain, hsealed, hrest⟩ := h
  exact ⟨built, response, sealing, hτ.subset hbuilt, hchain, hτ.subset hsealed, hrest⟩

section

variable {τ : List Exch}

theorem obeys_stretch {l : Stretch} {f : Input → Approver → Except Err α × Approver}
    {Q : List Exch → Except Err α → Prop} (hf : ∀ i s, (f i s).2.released = s.released)
    (hq : ∀ i s, Q (⟨.run l fun i s => (f i s).2, (i, s)⟩ :: τ) (f i s).1) :
    Obeys monitor Lawful Q τ (stretch l f : Linking α) :=
  ⟨may_keeps hf, fun x _ => hq x.1 x.2⟩

/-- A callback whose failure ends the ceremony. -/
theorem obeys_orFail {o : LinkCall} {p : callbacks.Ans o → Except Err α} {wrapped : Err → Err}
    {Q : List Exch → Except Err α → Prop}
    (hok : ∀ r v, p r = .ok v → Q (⟨.await o, r⟩ :: τ) (.ok v)) (herror : ∀ τ' e, Q τ' (.error e)) :
    Obeys monitor Lawful Q τ (orFail (.ask (.await o) fun r => .ret (p r)) wrapped) := by
  refine obeys_attempt ⟨trivial, fun r _ => ?_⟩
  change Obeys monitor Lawful Q (⟨.await o, r⟩ :: τ) _
  cases hr : p r with
  | ok v => exact hok r v hr
  | error e => exact obeys_stretch (fun _ _ => rfl) fun _ _ => herror _ _

theorem obeys_sealedResponse {pinned : OpenedRequest} {atMs : Nat} {cert : LeafCert}
    {Q : List Exch → Except Err (Response × CeremonyRecord) → Prop}
    (herror : ∀ τ' e, Q τ' (.error e))
    (hok :
        ∀ τ' response record, τ <:+ τ' → SealedIn τ' cert record → Q τ' (.ok (response, record))) :
    Obeys monitor Lawful Q τ (sealedResponse cfg pinned atMs cert) := by
  have hcached : Proc.All Keeps (cachedDeviceSet cfg) := by
    unfold cachedDeviceSet
    cases cfg.hasCachedDeviceSet with
    | true => exact keeps_await (o := .cachedDeviceSet) fun _ => trivial
    | false => trivial
  refine obeys_js_bind (obeys_keeps hcached fun τ₁ cached hτ₁ => ?_)
  cases cached with
  | error e => exact herror _ e
  | ok cached =>
    refine obeys_js_bind (obeys_stretch (fun _ _ => rfl) fun i s => ?_)
    refine obeys_js_bind (obeys_orThrow (fun keys _ => ?_) fun _ => herror _ _)
    refine obeys_js_bind ⟨trivial, fun response _ => ?_⟩
    match response with
    | .error e => exact herror _ e
    | .ok response =>
      refine obeys_js_bind (obeys_stretch (fun _ _ => rfl) fun i' s' => ?_)
      refine obeys_js_bind ⟨trivial, fun record _ => ?_⟩
      match record with
      | .error e => exact herror _ e
      | .ok record =>
        refine hok _ response record ?_ ⟨_, response, _, .tail _ (.tail _ (.head _)),
          rfl, .head _, rfl, rfl⟩
        exact hτ₁.trans (((List.suffix_cons _ _).trans (List.suffix_cons _ _)).trans
          ((List.suffix_cons _ _).trans (List.suffix_cons _ _)))

/-- The response is durable. -/
def Durable (τ : List Exch) (r : CeremonyRecord) : Prop :=
  ∃ newer older p, τ = newer ++ (⟨.await (.persistPending p), .ok ()⟩ : Exch) :: older ∧
  p.sealedResponse = r

theorem obeys_persistPending {pinned : OpenedRequest} {cert : LeafCert} {response : Response}
    {record : CeremonyRecord} {Q : List Exch → Except Err Unit → Prop}
    (herror : ∀ τ' e, Q τ' (.error e)) (hok : ∀ τ', τ <:+ τ' → Durable τ' record → Q τ' (.ok ())) :
    Obeys monitor Lawful Q τ (persistPending pinned cert response record) := by
  refine obeys_js_bind (obeys_stretch (fun _ _ => rfl) fun i s => ?_)
  refine obeys_orFail (fun r v hr => ?_) herror
  have hr : r = .ok v := hr
  subst hr
  refine hok _ ((List.suffix_cons _ _).trans (List.suffix_cons _ _)) ⟨[], _, _, rfl, rfl⟩

theorem obeys_register {pinned : OpenedRequest} {cert : LeafCert}
    {Q : List Exch → Except Err (Option Commit) → Prop} (herror : ∀ τ' e, Q τ' (.error e))
    (hok : ∀ a commit, Q (⟨.await (.registerDevice a), .ok commit⟩ :: τ) (.ok commit)) :
    Obeys monitor Lawful Q τ (register pinned cert) := by
  refine obeys_orFail (fun r v hr => ?_) herror
  have hr : r = .ok v := hr
  subst hr
  exact hok _ v

theorem binds_some {pinned : OpenedRequest} {cert : LeafCert} {commit : Option Commit}
    (h : binds pinned cert commit = true) :
    ∃ c, commit = some c ∧ c.certId = .text cert.certId ∧ c.deviceId = .text pinned.newDeviceId ∧
      c.inboxId = pinned.bindingInboxId := by
  cases commit with
  | none => cases h
  | some c =>
    simp only [binds, Bool.and_eq_true, decide_eq_true_eq] at h
    exact ⟨c, rfl, h.1.1, h.1.2, h.2⟩

/-- The stretch that validates the commit and puts the record. -/
theorem obeys_release {pinned : OpenedRequest} {cert : LeafCert} {record : CeremonyRecord}
    {commit : Option Commit} {Q : List Exch → Except Err Unit → Prop}
    (hregistered : binds pinned cert commit = true → Registered τ record) (hq : ∀ τ' x, Q τ' x) :
    Obeys monitor Lawful Q τ (release pinned cert record commit) := by
  refine obeys_js_bind ⟨fun i s => ?_, fun x _ => ?_⟩
  · cases hbinds : binds pinned cert commit with
    | false => exact .inl rfl
    | true => exact .inr ⟨record, rfl, hregistered hbinds⟩
  · dsimp only [Obeys]
    split
    · refine obeys_js_bind ⟨trivial, fun put _ => ?_⟩
      match put with
      | .error e => exact hq _ _
      | .ok () => exact ⟨trivial, fun _ _ => hq _ _⟩
    · exact hq _ _

theorem obeys_approve {rounds : Nat} {Q : List Exch → Except Err Approved → Prop}
    (hq : ∀ τ' x, Q τ' x) : Obeys monitor Lawful Q τ (approve cfg rounds) := by
  refine obeys_js_bind (obeys_stretch (fun i s => ?_) fun i s => ?_)
  · split <;> rfl
  · generalize hbegun : (⟨.run .approveBegin _, (i, s)⟩ : Exch) :: τ = τ₀
    split
    · rename_i pinned hstatus hpinned
      have hcalled : CalledOn τ₀ pinned := by
        subst hbegun
        exact ⟨_, i, s, .head _, hpinned⟩
      refine obeys_js_bind (obeys_keeps keeps_mintLeafCert fun τ₁ cert hτ₁ => ?_)
      cases cert with
      | error e => exact hq _ _
      | ok cert =>
        refine obeys_js_bind
          (obeys_sealedResponse (fun _ _ => hq _ _) fun τ₂ response record hτ₂ hsealed => ?_)
        refine obeys_js_bind (obeys_persistPending (fun _ _ => hq _ _) fun τ₃ hτ₃ hdurable => ?_)
        refine obeys_js_bind (obeys_register (fun _ _ => hq _ _) fun a commit => ?_)
        refine obeys_js_bind (obeys_release (fun hbinds => ?_) fun τ₄ released => ?_)
        · obtain ⟨c, rfl, hcert, hdevice, hinbox⟩ := binds_some hbinds
          obtain ⟨mid, older, p, rfl, hp⟩ := hdurable
          refine ⟨pinned, cert, c, ?_, ?_, ⟨[], mid, older, p, a, rfl, hp⟩, hcert, hdevice, hinbox⟩
          · exact hcalled.mono (hτ₁.trans (hτ₂.trans (hτ₃.trans (List.suffix_cons _ _))))
          · exact hsealed.mono (hτ₃.trans (List.suffix_cons _ _))
        · cases released with
          | error e => exact hq _ _
          | ok _ =>
            refine obeys_js_bind (obeys_keeps (keeps_stretch fun i s => ?_) fun τ₅ top _ => ?_)
            · exact keeps_confirmTop i _
            · cases top with
              | error e => exact hq _ _
              | ok top => exact obeys_keeps keeps_confirmRounds fun _ _ _ => hq _ _
    · exact hq _ _

end

theorem obeys_run (c : Call) : Obeys monitor Lawful (fun _ _ => True) [] (run cfg c) := by
  cases c with
  | start =>
    refine obeys_keeps (Js.all_bind keeps_start fun _ => ?_) fun _ _ _ => trivial
    trivial
  | waitForRequest rounds =>
    refine obeys_keeps (Js.all_bind keeps_waitForRequest fun _ => ?_) fun _ _ _ => trivial
    trivial
  | approve rounds =>
    refine obeys_js_bind (obeys_approve fun τ x => ?_)
    cases x <;> trivial
  | cancel => exact obeys_keeps (keeps_stretch fun _ _ => rfl) fun _ _ _ => trivial

/-! ## Every run -/

theorem history_eq (t : Nat) (log : List (Event link (ObjFate Input callbacks))) :
    Pool.mon monitor [] t log = history t log := by
  induction log with
  | nil => rfl
  | cons e log ih =>
    by_cases ht : e.tid = t
    · subst ht
      rw [Pool.mon_self, ih]
      simp [history, monitor]
    · rw [Pool.mon_other ht, ih]
      simp [history, ht]

theorem puts_registered {τ : List Exch} {x : Exch} {r : CeremonyRecord} (hmay : monitor.may τ x.op)
    (hx : Puts x r) : Registered τ r := by
  obtain ⟨o, a⟩ := x
  cases o with
  | run l g =>
    obtain ⟨i, s⟩ := a
    have hx : (g i s).released = r :: s.released := hx
    rcases hmay i s with hkept | ⟨r', hput, hr⟩
    · rw [hkept] at hx
      exact absurd hx (List.cons_ne_self _ _).symm
    · rw [hput] at hx
      cases hx
      exact hr
  | await o => exact hx.elim

/-- A stretch that changes the releases puts one record. -/
theorem puts_of_change {s s' : LinkState} {e : Event link (ObjFate Input callbacks)} {c : Call}
    {k : link.Ans e.op → Proc link (Except Err Unit)} {τ : List Exch}
    (hf : Pool.Fires (approver cfg) s e c k s') (hmay : monitor.may τ e.op) :
    s'.mem.released = s.mem.released ∨
    ∃ r, s'.mem.released = r :: s.mem.released ∧ Puts e.exch r := by
  change monitor.may τ e.exch.op at hmay
  obtain ⟨l, g, i, hx, hs⟩ | ⟨o, r, -, -, hs⟩ := object_fires hf
  · rw [hx] at hmay ⊢
    rw [hs]
    rcases hmay i s.mem with hkept | ⟨r, hput, -⟩
    · exact .inl hkept
    · exact .inr ⟨r, hput, hput⟩
  · rw [hs]
    exact .inl rfl

theorem conforms_inductive :
    ((approver cfg).lts anyCeremony).Inductive fun s => (∀ e ∈ s.log, Lawful e.exch) →
      System.Conforms monitor Lawful (fun _ => []) (fun _ _ _ => True) s ∧ System.Allowed monitor
      (fun _ => []) s :=
  System.conforms_within fun _ c _ => obeys_run c

theorem all_inductive : ((approver cfg).lts anyCeremony).Inductive fun s =>
    (System.Conforms monitor Lawful (fun _ => []) (fun _ _ _ => True) s) ∧
      ∀ r ∈ s.mem.released, ∃ e ∈ s.log, Puts e.exch r := by
  refine System.inductive_of (fun m hm => ⟨System.conforms_init m, ?_⟩)
    (fun s c h _ => ?_) fun s e c k s' h hf _ => ?_
  · cases hm
    exact fun r hr => absurd hr List.not_mem_nil
  · exact ⟨System.conforms_spawn h.1 (obeys_run c), h.2⟩
  · refine ⟨System.conforms_fires h.1 hf trivial, fun r hr => ?_⟩
    rw [hf.log]
    have hold : r ∈ s.mem.released → ∃ e' ∈ e :: s.log, Puts e'.exch r := by
      intro hr
      obtain ⟨e', he', hputs⟩ := h.2 r hr
      exact ⟨e', .tail _ he', hputs⟩
    rcases puts_of_change hf (h.1.may hf) with hkept | ⟨r', hput, hputs⟩
    · exact hold (hkept ▸ hr)
    · rw [hput] at hr
      rcases List.mem_cons.mp hr with rfl | hr
      · exact ⟨e, .head _, hputs⟩
      · exact hold hr

/-- **Registration before release**, in every run. -/
theorem released_registered (cfg : Config) (s : LinkState)
    (hr : ((approver cfg).lts anyCeremony).Reachable s) : ReleasedRegistered s where
  each newer e older hlog r hputs := by
    obtain ⟨hconforms, hallowed⟩ := conforms_inductive.reachable s hr fun _ _ => trivial
    have hlt := hconforms.tids e (by rw [hlog]; exact List.mem_append_right _ (.head _))
    have hmay := hallowed newer e older _ hlog (List.getElem?_eq_getElem hlt)
    rw [history_eq] at hmay
    exact puts_registered hmay hputs
  all := (all_inductive.reachable s hr).2

namespace Example

def lib : Lib where
  capabilityPurpose := "purpose"
  leafCapabilities := ["peerLink.create", "deviceSet.publish"]
  deriveCertId f := "cert:" ++ f.granteeDeviceId
  signableBytes _ _ := [1]
  deviceIdFor key := "device:" ++ key
  bytesToBase64 _ := "sig"
  encodeDeviceLinkCode psk _ := match psk with
    | some _ => .ok "code"
    | none => .error { message := "no psk" }
  checkCapability _ := .ok ()

def config : Config where
  lib
  accountSignPublicKeyB64 := "B"
  accountDhKeyPair := ⟨"dh", "dh'"⟩
  hasCachedDeviceSet := false
  pollIntervalMs := 1000
  pollMaxIntervalMs := 5000
  pollBackoff := 3 / 2
  pskTtlMs := 600000
  certTtlMs := 1000

def request : OpenedRequest where
  thRequestB64 := "th"
  ephemeralDhPublicKeyB64 := "e"
  linkRequest := ⟨"key", some ⟨.text "inbox", []⟩⟩
  newDeviceId := "device:key"
  fingerprint := "f"

/-- Every callback succeeds; the home commits what it was asked to. -/
def answer : (o : LinkCall) → Option o.Ans
  | .deriveRendezvous _ => some (.ok ⟨"R", "r"⟩)
  | .get .request _ => some (.ok (some ⟨[1]⟩))
  | .get .response _ => some (.ok none)
  | .get .confirm _ => some (.ok (some ⟨[2]⟩))
  | .verifyRecord .. => some (.ok "payload")
  | .openRequest .. => some (.ok request)
  | .sleep _ => some (.ok ())
  | .accountSign _ => some (.ok [7])
  | .verify .. => some (.ok true)
  | .cachedDeviceSet => some (.ok none)
  | .buildResponse _ => some (.ok ⟨"response", "th'", "tag", [8]⟩)
  | .sealRecord _ => some (.ok ⟨[9]⟩)
  | .persistPending _ => some (.ok ())
  | .registerDevice a =>
    some (.ok (some ⟨.text a.newDeviceId, .text "inbox", .text a.deviceCapability.certId⟩))
  | .put => some (.ok ())
  | .markPublished _ => some (.ok ())
  | .verifyConfirm .. => some (.ok true)
  | .markConfirmed _ => some (.ok ())
  | .stall => none

def smooth (_ : Nat) (_ : link.Op) : ObjFate Input callbacks := ⟨⟨5, .ok [3], .ok ()⟩, answer⟩

def judge : System.Judge anyCeremony where
  may _ _ := true
  ok _ _ := true
  may_iff _ _ _ := trivial
  ok_iff _ _ _ := trivial

end Example

open Example in
/-- A whole ceremony: the response is released, and the link is done. -/
theorem released_registered_ceremony : ∃ s, ((approver config).lts anyCeremony).Reachable s ∧
    s.mem.released = [⟨[9]⟩] ∧ s.mem.status = .done ∧ ReleasedRegistered s := by
  obtain ⟨s, hr, hs⟩ := System.reachable_of_play (S := approver config) judge smooth
    [.call .start, .go 0 3, .call (.waitForRequest 1), .go 1 7, .call (.approve 1),
    .go 2 20] (m := .new)
    (P := fun s => s.mem.released = [⟨[9]⟩] && s.mem.status = .done) rfl (by decide +kernel)
  rw [Bool.and_eq_true, decide_eq_true_iff, decide_eq_true_iff] at hs
  exact ⟨s, hr, hs.1, hs.2, released_registered config s hr⟩

end RezSdk.L4.RegistrationFirst
