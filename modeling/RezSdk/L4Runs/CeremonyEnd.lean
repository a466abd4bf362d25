import RezSdk.L4Runs.RegistrationFirst

/-!
# The end of a ceremony

`cancel` and the failing branches end a ceremony, and an ended ceremony should
stay ended. But `start`, `waitForRequest` and `approve` write the status after
awaits without reading it again. `Stage` says where a call stands: `bound`
ones go on to write whatever has happened meanwhile, a `resting` waiter looks
at the status when it wakes, but only for a cancellation.

* `revived`: a request is pinned after the cancellation.
* `ended_stays`: in every run where no step ends the ceremony over such a
  call, an ended ceremony stays ended: no status, request or secret comes back
  and no record is put.
-/
namespace RezSdk.L4.CeremonyEnd

open RezSdk.L1 RezSdk.L3.DeviceLink

abbrev Exch := Proc.Exch link

/-! ## The property -/

/-- The ceremony is over, and nothing of it is kept. -/
structure Ended (s : Approver) : Prop where
  terminal : s.status.terminal = true
  psk : s.psk = none
  pinned : s.pinned = none

/-- From `s` on nothing comes back and nothing is released. -/
structure StaysEnded (s s' : Approver) : Prop where
  ended : Ended s'
  keys : s'.rendezvousKeyPair = s.rendezvousKeyPair
  released : s'.released = s.released

/-- The stretch of code calls `records.put`. -/
def Puts (x : Exch) : Prop :=
  match x with
  | ⟨.run _ g, (i, s)⟩ => (g i s).released ≠ s.released
  | _ => False

def Cancels (x : Exch) : Prop :=
  match x with
  | ⟨.run .cancel _, _⟩ => True
  | _ => False

/-- No record is put after a cancellation. -/
def NothingAfterCancel (log : List (Event link (ObjFate Input callbacks))) : Prop :=
  ∀ newer e older, log = newer ++ e :: older → Cancels e.exch → ∀ e' ∈ newer, ¬ Puts e'.exch

/-! ## Where a call stands -/

inductive Stage
  | fresh
  /-- goes on to write the status, a request, a secret or a record -/
  | bound
  /-- a waiter between two polls -/
  | resting
  /-- in the confirmation loop, which ends the ceremony or leaves it alone -/
  | confirming
  | over
deriving DecidableEq

/-- The stage after the stretch `l` took `s` to `s'`. -/
def follow (l : Stretch) (i : Input) (s s' : Approver) : Stage :=
  match l with
  | .startBegin | .approveBegin => if s.status.terminal then .over else .bound
  | .waitBegin => if s.status.terminal ∨ s.expiresAtMs ≤ i.nowMs then .over else .bound
  | .waitTop => if s.status = .cancelled ∨ s.expiresAtMs ≤ i.nowMs then .over else .bound
  | .approveRelease => if s'.released = s.released then .over else .bound
  | .waitVerify | .waitOpen | .approveBuild | .approveSeal | .approvePersist => .bound
  | .waitRest => .resting
  | .confirmBegin | .confirmVerify | .confirmRest | .confirmTop => .confirming
  | .startEnd | .waitPin | .waitFail | .approveFail | .confirmDone | .confirmFail | .cancel => .over

/-- A call at this stage does not revive the ended ceremony `s`. -/
def Calm (s : Approver) : Stage → Prop
  | .bound => False
  | .resting => s.status = .cancelled
  | _ => True

/-- What a call at stage `w` may do by the stretch `l`. -/
structure Admits (w : Stage) (l : Stretch) (i : Input) (s s' : Approver) : Prop where
  live : w ≠ .over
  stays : s.status.terminal = true → Calm s w → s' = s ∨ ∃ st, st.terminal = true ∧
    s' = s.terminate st
  ends : s.status.terminal = false → s'.status.terminal = true → ∃ st, s' = s.terminate st
  leaves : (s.status.terminal = true → Calm s w) → s'.status.terminal = true →
    follow l i s s' = .over ∨ follow l i s s' = .confirming
  cancels : l = .cancel → s'.status.terminal = true

def monitor : Monitor link Stage where
  next
    | _, ⟨.run l g, (i, s)⟩ => follow l i s (g i s)
    | w, ⟨.await _, _⟩ => w
  may w
    | .run l g => ∀ i s, Admits w l i s (g i s)
    | .await _ => True

abbrev Lawful : Exch → Prop := fun _ => True

/-! ## The calls -/

variable {α β : Type} {cfg : Config} {w : Stage}

theorem obeys_stretch {l : Stretch} {f : Input → Approver → Except Err α × Approver}
    {Q : Stage → Except Err α → Prop} (hmay : ∀ i s, Admits w l i s (f i s).2)
    (hq : ∀ i s, Q (follow l i s (f i s).2) (f i s).1) :
    Obeys monitor Lawful Q w (stretch l f : Linking α) := ⟨hmay, fun x _ => hq x.1 x.2⟩

theorem quiet_await {o : LinkCall} {k : callbacks.Ans o → Linking α}
    (hk : ∀ r, Proc.All monitor.Quiet (k r)) :
    Proc.All monitor.Quiet (.ask (.await o) k : Linking α) := ⟨fun _ => ⟨trivial, fun _ => rfl⟩, hk⟩

/-- A stretch that only reads. -/
theorem Admits.read {l : Stretch} {i : Input} {s : Approver} (hw : w ≠ .over) (hl : l ≠ .cancel)
    (h :
        s.status.terminal = true → Calm s w →
        follow l i s s = .over ∨ follow l i s s = .confirming) : Admits w l i s s where
  live := hw
  stays _ _ := .inl rfl
  ends h h' := by rw [h] at h'; cases h'
  leaves hc ht := h ht (hc ht)
  cancels h := absurd h hl

/-- A bound call that goes on with an ongoing ceremony. -/
theorem Admits.goesOn {l : Stretch} {i : Input} {s s' : Approver} (hl : l ≠ .cancel)
    (h : s'.status.terminal = false) : Admits .bound l i s s' where
  live := nofun
  stays _ hc := hc.elim
  ends _ h' := by rw [h] at h'; cases h'
  leaves _ h' := by rw [h] at h'; cases h'
  cancels h := absurd h hl

/-- A stretch that ends the ceremony. -/
theorem Admits.ended {l : Stretch} {i : Input} {s : Approver} {st : Status} (hw : w ≠ .over)
    (hst : st.terminal = true)
    (h : follow l i s (s.terminate st) = .over ∨ follow l i s (s.terminate st) = .confirming) :
    Admits w l i s (s.terminate st) where
  live := hw
  stays _ _ := .inr ⟨st, hst, rfl⟩
  ends _ _ := ⟨st, rfl⟩
  leaves _ _ := h
  cancels _ := hst

/-- A bound call that only reads. -/
theorem Admits.bound {l : Stretch} {i : Input} {s : Approver} (hl : l ≠ .cancel) :
    Admits .bound l i s s :=
  .read nofun hl fun _ h => h.elim

theorem obeys_start {Q : Stage → Except Err (String × Nat) → Prop} (hq : ∀ w x, Q w x) :
    Obeys monitor Lawful Q .fresh (start cfg) := by
  refine obeys_js_bind (obeys_stretch (fun i s => ?_) fun i s => ?_)
  · by_cases hs : s.status = .idle
    · have hnot : s.status.terminal = false := by rw [hs]; rfl
      refine ⟨nofun, fun h => ?_, fun _ h => ?_, fun _ h => ?_, nofun⟩
      · rw [hnot] at h
        cases h
      all_goals
        rw [if_neg (not_not.mpr hs)] at h
        cases hpsk : i.psk with
        | error e => rw [hpsk] at h; exact absurd (hnot ▸ h) nofun
        | ok psk => rw [hpsk] at h; exact absurd (hnot ▸ h) nofun
    · rw [if_pos hs]
      exact .read nofun nofun fun h _ => .inl (if_pos h)
  · by_cases hs : s.status = .idle
    · rw [if_neg (not_not.mpr hs)]
      have hbound (s' : Approver) : follow .startBegin i s s' = .bound := if_neg (by rw [hs]; nofun)
      cases hpsk : i.psk with
      | error e => exact hq _ _
      | ok psk =>
        rw [hbound]
        refine obeys_quiet_bind (quiet_await fun _ => trivial) (fun _ => hq _ _) fun keys => ?_
        exact obeys_stretch (fun _ _ => .goesOn (show Stretch.startEnd ≠ .cancel from nofun) rfl)
          fun _ _ => hq _ _
    · rw [if_pos hs]
      exact hq _ _

/-! ## waitForRequest -/

theorem quiet_pollGet {id : RecordId} {keys : Option Keys} :
    Proc.All monitor.Quiet (pollGet id keys) := by
  cases keys with
  | none => trivial
  | some keys =>
    refine Js.all_attempt (quiet_await fun _ => trivial) fun record => ?_
    cases record <;> trivial

theorem obeys_openAndPin {atMs : Nat} {record : CeremonyRecord}
    {Q : Stage → Except Err OpenedRequest → Prop} (herror : ∀ e, Q .bound (.error e))
    (hok : ∀ w opened, Q w (.ok opened)) :
    Obeys monitor Lawful Q .bound (openAndPin atMs record) := by
  refine obeys_js_bind (obeys_stretch (fun _ _ => .bound nofun) fun _ s => ?_)
  refine obeys_js_bind (obeys_orThrow (fun keys _ => ?_) fun _ => herror _)
  refine obeys_quiet_bind (quiet_await fun _ => trivial) herror fun payload => ?_
  refine obeys_js_bind (obeys_stretch (fun _ _ => .bound nofun) fun _ s => ?_)
  refine obeys_js_bind (obeys_orThrow (fun keys _ => ?_) fun _ => herror _)
  refine obeys_quiet_bind (quiet_await fun _ => trivial) herror fun opened => ?_
  exact obeys_stretch (fun _ _ => .goesOn nofun rfl) fun _ _ => hok _ _

/-- The checks at the top of a round. -/
theorem admits_pollTop {l : Stretch} {i : Input} {s : Approver} (hw : w ≠ .over) (hl : l ≠ .cancel)
    (hcancelled : s.status = .cancelled → follow l i s s = .over)
    (hexpired : s.expiresAtMs ≤ i.nowMs → follow l i s (s.terminate .expired) = .over)
    (hcalm : s.status.terminal = true → Calm s w → s.status = .cancelled) :
    Admits w l i s (pollTop i s).2 := by
  unfold pollTop
  split
  · exact .read hw hl fun _ _ => .inl (hcancelled ‹_›)
  · rename_i hnot
    split
    · exact .ended hw rfl (.inl (hexpired ‹_›))
    · exact .read hw hl fun ht hc => absurd (hcalm ht hc) hnot

theorem pollTop_ok {i : Input} {s : Approver} {top : Nat × Option Keys}
    (h : (pollTop i s).1 = .ok top) : s.status ≠ .cancelled ∧ ¬ s.expiresAtMs ≤ i.nowMs := by
  unfold pollTop at h
  split at h
  · cases h
  · split at h
    · cases h
    · exact ⟨‹_›, ‹_›⟩

theorem obeys_waitRounds {Q : Stage → Except Err OpenedRequest → Prop} (hq : ∀ w x, Q w x) :
    ∀ {n : Nat} {interval : ℚ} {top : Nat × Option Keys},
      Obeys monitor Lawful Q .bound (waitRounds cfg n interval top)
  | 0, _, _ => ⟨trivial, fun r => nomatch r⟩
  | n + 1, interval, (atMs, keys) => by
    have hagain : Obeys monitor Lawful Q .bound ((do
        pollSleep cfg .waitRest interval
        let top ← stretch .waitTop pollTop
        waitRounds cfg n (nextInterval cfg interval) top) : Linking OpenedRequest) := by
      refine obeys_js_bind (obeys_js_bind (obeys_stretch (fun _ _ => .bound nofun) fun _ _ => ?_))
      refine obeys_quiet (quiet_await fun _ => trivial) fun slept => ?_
      cases slept with
      | error e => exact hq _ _
      | ok _ =>
        refine obeys_js_bind (obeys_stretch (fun i s => ?_) fun i s => ?_)
        · refine admits_pollTop nofun nofun (fun h => ?_) (fun h => ?_) fun _ hc => hc
          · exact if_pos (.inl h)
          · exact if_pos (.inr h)
        · cases htop : (pollTop i s).1 with
          | error e => exact hq _ _
          | ok top =>
            obtain ⟨hc, he⟩ := pollTop_ok htop
            have hbound : follow .waitTop i s (pollTop i s).2 = .bound :=
              if_neg (not_or.mpr ⟨hc, he⟩)
            rw [hbound]
            exact obeys_waitRounds hq
    refine obeys_quiet_bind quiet_pollGet (fun _ => hq _ _) fun record => ?_
    cases record with
    | none => exact hagain
    | some record =>
      refine obeys_attempt (obeys_openAndPin (fun e => ?_) fun _ _ => hq _ _)
      dsimp only
      split
      · exact obeys_stretch (fun _ _ => .ended nofun rfl (.inl rfl)) fun _ _ => hq _ _
      · exact hagain

theorem obeys_waitForRequest {rounds : Nat} {Q : Stage → Except Err OpenedRequest → Prop}
    (hq : ∀ w x, Q w x) : Obeys monitor Lawful Q .fresh (waitForRequest cfg rounds) := by
  refine obeys_js_bind (obeys_stretch (fun i s => ?_) fun i s => ?_)
  · split
    · exact .read nofun nofun fun h _ => .inl (if_pos (.inl h))
    · rename_i hs
      rw [not_not] at hs
      refine admits_pollTop nofun nofun (fun h => ?_) (fun h => ?_) fun h _ => ?_
      · rw [hs] at h
        cases h
      · exact if_pos (.inr h)
      · rw [hs] at h
        cases h
  · by_cases hs : s.status = .waitingRequest
    · rw [if_neg (not_not.mpr hs)]
      cases htop : (pollTop i s).1 with
      | error e => exact hq _ _
      | ok top =>
        obtain ⟨-, he⟩ := pollTop_ok htop
        have hbound : follow .waitBegin i s (pollTop i s).2 = .bound :=
          if_neg (not_or.mpr ⟨by rw [hs]; nofun, he⟩)
        rw [hbound]
        exact obeys_waitRounds hq
    · rw [if_pos hs]
      exact hq _ _

/-! ## approve -/

theorem quiet_mintLeafCert {key : String} {nowMs : Nat} :
    Proc.All monitor.Quiet (mintLeafCert cfg key nowMs) := by
  refine Js.all_bind (quiet_await fun _ => trivial) fun sig =>
    Js.all_bind (Js.all_ensure ..) fun _ => ?_
  refine Js.all_bind (quiet_await fun _ => trivial) fun ok =>
    Js.all_bind (Js.all_ensure ..) fun _ => ?_
  exact Js.all_bind (show Proc.All monitor.Quiet (Js.ofExcept _ : Linking Unit) from trivial)
    fun _ => trivial

theorem quiet_cachedDeviceSet : Proc.All monitor.Quiet (cachedDeviceSet cfg) := by
  unfold cachedDeviceSet
  cases cfg.hasCachedDeviceSet with
  | true => exact quiet_await (o := .cachedDeviceSet) fun _ => trivial
  | false => trivial

theorem obeys_sealedResponse {pinned : OpenedRequest} {atMs : Nat} {cert : LeafCert}
    {Q : Stage → Except Err (Response × CeremonyRecord) → Prop} (hq : ∀ x, Q .bound x) :
    Obeys monitor Lawful Q .bound (sealedResponse cfg pinned atMs cert) := by
  refine obeys_quiet_bind quiet_cachedDeviceSet (fun _ => hq _) fun cached => ?_
  refine obeys_js_bind (obeys_stretch (fun _ _ => .bound nofun) fun _ s => ?_)
  refine obeys_js_bind (obeys_orThrow (fun keys _ => ?_) fun _ => hq _)
  refine obeys_quiet_bind (quiet_await fun _ => trivial) (fun _ => hq _) fun response => ?_
  refine obeys_js_bind (obeys_stretch (fun _ _ => .bound nofun) fun _ s => ?_)
  exact obeys_quiet_bind (quiet_await fun _ => trivial) (fun _ => hq _) fun record => hq _

theorem obeys_orFail {p : Linking α} {wrapped : Err → Err} {Q : Stage → Except Err α → Prop}
    (hp : Proc.All monitor.Quiet p) (hok : ∀ x, Q .bound (.ok x)) (herror : ∀ w e, Q w (.error e)) :
    Obeys monitor Lawful Q .bound (orFail p wrapped) := by
  refine obeys_attempt (obeys_quiet hp fun x => ?_)
  cases x with
  | ok x => exact hok x
  | error e => exact obeys_stretch (fun _ _ => .ended nofun rfl (.inl rfl)) fun _ _ => herror _ _

theorem obeys_release {pinned : OpenedRequest} {cert : LeafCert} {record : CeremonyRecord}
    {commit : Option Commit} {Q : Stage → Except Err Unit → Prop} (hok : ∀ x, Q .bound x)
    (herror : ∀ w e, Q w (.error e)) :
    Obeys monitor Lawful Q .bound (release pinned cert record commit) := by
  cases hbinds : binds pinned cert commit with
  | false =>
    unfold release
    rw [hbinds]
    exact obeys_js_bind (obeys_stretch (fun _ s => .ended nofun rfl (.inl (if_pos rfl))) fun _ _ =>
      herror _ _)
  | true =>
    unfold release
    rw [hbinds]
    refine obeys_js_bind (obeys_stretch (fun _ s => ⟨nofun, fun _ h => h.elim,
      fun h h' => ?_, fun h h' => ?_, nofun⟩) fun i s => ?_)
    · exact absurd (h'.symm.trans h) nofun
    · exact (h h').elim
    · have hbound :
          follow .approveRelease i s { s with released := record :: s.released } = .bound :=
        if_neg (List.cons_ne_self _ _)
      change Goes monitor Lawful Q _
          (follow .approveRelease i s { s with released := record :: s.released }) (.ok ())
      rw [hbound]
      refine obeys_quiet_bind (quiet_await fun _ => trivial) (fun _ => hok _) fun _ => ?_
      exact obeys_quiet (quiet_await fun _ => trivial) hok

theorem quiet_verify {nowMs : Nat} {record : CeremonyRecord} {response : Response}
    {keys : Option Keys} :
    Proc.All monitor.Quiet ((do
      let keys ← Js.orThrow keys readOfNull
      let payload ← .ask (.await (.verifyRecord nowMs record keys.publicKeyB64 .confirm)) .ret
      .ask (.await (.verifyConfirm response.masterSecret response.thResponseB64 payload)) .ret) :
        Linking Bool) := by
  refine Js.all_bind (Js.all_orThrow ..) fun keys => ?_
  exact Js.all_bind (quiet_await fun _ => trivial) fun _ => quiet_await fun _ => trivial

theorem obeys_confirms {nowMs : Nat} {record : CeremonyRecord} {response : Response}
    {Q : Stage → Except Err Bool → Prop} (hq : ∀ x, Q .confirming x) :
    Obeys monitor Lawful Q .confirming (confirms nowMs record response) := by
  refine obeys_attempt
    (obeys_js_bind (obeys_stretch (fun _ _ => .read nofun nofun fun _ _ => .inr rfl) fun _ s => ?_))
  refine obeys_quiet quiet_verify fun x => ?_
  cases x <;> exact hq _

theorem admits_confirmTop {l : Stretch} {i : Input} {s : Approver} (hl : l = .confirmTop) :
    Admits .confirming l i s (confirmTop i s).2 := by
  subst hl
  unfold confirmTop
  split
  · exact .read nofun nofun fun _ _ => .inr rfl
  · split
    · exact .ended nofun rfl (.inr rfl)
    · exact .read nofun nofun fun _ _ => .inr rfl

theorem obeys_confirmRounds {pinned : OpenedRequest} {cert : LeafCert} {response : Response}
    {Q : Stage → Except Err Approved → Prop} (hq : ∀ w x, Q w x) :
    ∀ {n : Nat} {interval : ℚ} {top : Nat × Option Keys},
      Obeys monitor Lawful Q .confirming (confirmRounds cfg pinned cert response n interval top)
  | 0, _, _ => ⟨trivial, fun r => nomatch r⟩
  | n + 1, interval, (nowMs, keys) => by
    refine obeys_quiet_bind quiet_pollGet (fun _ => hq _ _) fun record => ?_
    cases record with
    | none =>
      refine obeys_js_bind (obeys_js_bind
        (obeys_stretch (fun _ _ => .read nofun nofun fun _ _ => .inr rfl) fun _ _ => ?_))
      refine obeys_quiet (quiet_await fun _ => trivial) fun slept => ?_
      cases slept with
      | error e => exact hq _ _
      | ok _ =>
        refine obeys_js_bind (obeys_stretch (fun i s => admits_confirmTop rfl) fun i s => ?_)
        cases (confirmTop i s).1 with
        | error e => exact hq _ _
        | ok top => exact obeys_confirmRounds hq
    | some record =>
      refine obeys_js_bind (obeys_confirms fun confirmed => ?_)
      match confirmed with
      | .error e => exact hq _ _
      | .ok true =>
        refine obeys_attempt (obeys_quiet (quiet_await fun _ => trivial) fun marked => ?_)
        refine obeys_stretch (fun i s => ?_) fun _ _ => hq _ _
        rcases finish_cases _ marked i s with h | ⟨e, h⟩ <;> rw [h]
        · exact .ended nofun rfl (.inl rfl)
        · exact .read nofun nofun fun _ _ => .inl rfl
      | .ok false => exact obeys_stretch (fun _ _ => .ended nofun rfl (.inl rfl)) fun _ _ => hq _ _

/-- The stretch that enters the confirmation loop. -/
theorem admits_confirmBegin {i : Input} {s : Approver} :
    Admits .bound .confirmBegin i s (confirmTop i { s with status := .waitingConfirm }).2 := by
  refine ⟨nofun, fun _ h => h.elim, fun _ h => ?_, fun _ _ => .inr rfl, nofun⟩
  unfold confirmTop at h ⊢
  split
  · rename_i h
    cases h
  · rename_i hnot
    split
    · exact ⟨.failed, rfl⟩
    · rename_i hlive
      rw [if_neg hnot, if_neg hlive] at h
      cases h

theorem obeys_approve {rounds : Nat} {Q : Stage → Except Err Approved → Prop} (hq : ∀ w x, Q w x) :
    Obeys monitor Lawful Q .fresh (approve cfg rounds) := by
  refine obeys_js_bind (obeys_stretch (fun i s => ?_) fun i s => ?_)
  · split
    · rename_i hs _
      refine ⟨nofun, fun h => ?_, fun _ h => ?_, fun _ h => ?_, nofun⟩
      · rw [hs] at h
        cases h
      · cases h
      · cases h
    · exact .read nofun nofun fun h _ => .inl (if_pos h)
  · split
    · rename_i pinned hs _
      have hbound (s' : Approver) : follow .approveBegin i s s' = .bound :=
        if_neg (by rw [hs]; nofun)
      rw [hbound]
      refine obeys_quiet_bind quiet_mintLeafCert (fun _ => hq _ _) fun cert => ?_
      refine obeys_js_bind (obeys_sealedResponse fun x => ?_)
      match x with
      | .error e => exact hq _ _
      | .ok (response, record) =>
        refine obeys_js_bind (obeys_js_bind (obeys_stretch (fun _ _ => .bound nofun) fun _ s => ?_))
        refine obeys_orFail (quiet_await fun _ => trivial) (fun _ => ?_) fun _ _ => hq _ _
        refine obeys_js_bind
          (obeys_orFail (quiet_await fun _ => trivial) (fun commit => ?_) fun _ _ => hq _ _)
        refine obeys_js_bind (obeys_release (fun x => ?_) fun _ _ => hq _ _)
        cases x with
        | error e => exact hq _ _
        | ok _ =>
          refine obeys_js_bind (obeys_stretch (fun _ _ => admits_confirmBegin) fun i s => ?_)
          cases (confirmTop i { s with status := .waitingConfirm }).1 with
          | error e => exact hq _ _
          | ok top => exact obeys_confirmRounds hq
    · exact hq _ _

theorem obeys_run (c : Call) : Obeys monitor Lawful (fun _ _ => True) .fresh (run cfg c) := by
  cases c with
  | start =>
    refine obeys_js_bind (obeys_start fun _ x => ?_)
    cases x <;> trivial
  | waitForRequest rounds =>
    refine obeys_js_bind (obeys_waitForRequest fun _ x => ?_)
    cases x <;> trivial
  | approve rounds =>
    refine obeys_js_bind (obeys_approve fun _ x => ?_)
    cases x <;> trivial
  | cancel => exact obeys_stretch (fun _ _ => .ended nofun rfl (.inl rfl)) fun _ _ => trivial

/-! ## Every run -/

/-- The stage call `t` has reached. -/
def stage (s : LinkState) (t : Nat) : Stage := Pool.mon monitor .fresh t s.log

/-- Call `t` has not returned. -/
def InFlight (s : LinkState) (t : Nat) : Prop := ∃ c o k, s.threads[t]? = some ⟨c, .ask o k⟩

/-- The event gives the ceremony a terminal status, `s'` being what it leaves. -/
def Ends (x : Exch) (s' : Approver) : Prop :=
  match x with
  | ⟨.run _ g, (i, s)⟩ => s' = g i s ∧ s'.status.terminal = true ∧ s'.status ≠ s.status
  | _ => False

/-- No step ends the ceremony over a call that would not notice. -/
def attentive : LinkRules where
  init s := s = .new
  may _ _ := True
  ok s e := ∀ s', Ends e.exch s' → ∀ t, t ≠ e.tid → InFlight s t → Calm s' (stage s t)

abbrev Conforms : LinkState → Prop :=
  System.Conforms monitor Lawful (fun _ => .fresh) fun _ _ _ => True

structure Inv (s : LinkState) : Prop where
  conforms : Conforms s
  ended : s.mem.status.terminal = true → Ended s.mem
  calm : s.mem.status.terminal = true → ∀ t, InFlight s t → Calm s.mem (stage s t)
  cancelled : (∃ e ∈ s.log, Cancels e.exch) → s.mem.status.terminal = true
  nothing : NothingAfterCancel s.log

theorem Inv.init : Inv ⟨.new, [], []⟩ where
  conforms := System.conforms_init _
  ended h := nomatch h
  calm h := nomatch h
  cancelled := by
    rintro ⟨e, he, -⟩
    exact absurd he List.not_mem_nil
  nothing newer e older h := by simp at h

section

variable {s s' : LinkState} {e : Event link (ObjFate Input callbacks)} {c : Call}
  {k : link.Ans e.op → Proc link (Except Err Unit)}

theorem Inv.spawn (h : Inv s) (c : Call) : Inv (s.spawn (approver cfg) c) where
  conforms := System.conforms_spawn h.conforms (obeys_run c)
  ended := h.ended
  calm ht t hin := by
    by_cases hlt : t < s.threads.length
    · refine h.calm ht t ?_
      obtain ⟨c', o, k, hth⟩ := hin
      exact ⟨c', o, k, by rw [← hth, Pool.spawn_lt hlt]⟩
    · -- the new call has done nothing yet
      have hfresh : stage s t = .fresh :=
        Pool.mon_start fun e he heq => hlt (heq ▸ h.conforms.tids e he)
      change Calm s.mem (stage s t)
      rw [hfresh]
      trivial
  cancelled := h.cancelled
  nothing := h.nothing

theorem inFlight_other (hf : Pool.Fires (approver cfg) s e c k s') {t : Nat} (ht : e.tid ≠ t)
    (h : InFlight s' t) : InFlight s t := by
  obtain ⟨c', o, k', hth⟩ := h
  rw [hf.threads, List.getElem?_set_ne ht] at hth
  exact ⟨c', o, k', hth⟩

theorem stage_self (hf : Pool.Fires (approver cfg) s e c k s') :
    stage s' e.tid = monitor.next (stage s e.tid) e.exch := by
  unfold stage
  rw [hf.log, Pool.mon_self]

theorem stage_other (hf : Pool.Fires (approver cfg) s e c k s') {t : Nat} (ht : e.tid ≠ t) :
    stage s' t = stage s t := by
  unfold stage
  rw [hf.log, Pool.mon_other ht]

theorem inFlight_self (hf : Pool.Fires (approver cfg) s e c k s') : InFlight s e.tid :=
  ⟨c, e.op, k, hf.thread⟩

/-- What one event does to the approver. -/
theorem event_cases (h : Inv s) (hf : Pool.Fires (approver cfg) s e c k s') :
    (∃ l g i, e.exch = ⟨.run l g, (i, s.mem)⟩ ∧ s'.mem = g i s.mem ∧
        Admits (stage s e.tid) l i s.mem (g i s.mem)) ∨
    ∃ o r, e.exch = ⟨.await o, r⟩ ∧ s'.mem = s.mem := by
  have hmay : monitor.may (stage s e.tid) e.exch.op := h.conforms.may hf
  obtain ⟨l, g, i, hx, hs⟩ | ⟨o, r, hx, -, hs⟩ := object_fires hf
  · rw [hx] at hmay
    exact .inl ⟨l, g, i, hx, hs, hmay i s.mem⟩
  · exact .inr ⟨o, r, hx, hs⟩

/-- An event keeps the approver of an ended ceremony, up to its status. -/
theorem Inv.step_ended (h : Inv s) (hf : Pool.Fires (approver cfg) s e c k s')
    (ht : s.mem.status.terminal = true) : StaysEnded s.mem s'.mem := by
  have hcalm := h.calm ht e.tid (inFlight_self hf)
  obtain ⟨l, g, i, hx, hs, hadmits⟩ | ⟨o, r, hx, hs⟩ := event_cases h hf
  · rw [hs]
    rcases hadmits.stays ht hcalm with hg | ⟨st, hst, hg⟩
    · rw [hg]
      exact ⟨h.ended ht, rfl, rfl⟩
    · rw [hg]
      exact ⟨⟨hst, rfl, rfl⟩, rfl, rfl⟩
  · rw [hs]
    exact ⟨h.ended ht, rfl, rfl⟩

theorem Inv.fires (h : Inv s) (hf : Pool.Fires (approver cfg) s e c k s') (hok : attentive.ok s e) :
    Inv s' where
  conforms := System.conforms_fires h.conforms hf trivial
  ended ht := by
    cases hbefore : s.mem.status.terminal with
    | true => exact (h.step_ended hf hbefore).ended
    | false =>
      obtain ⟨l, g, i, hx, hs, hadmits⟩ | ⟨o, r, hx, hs⟩ := event_cases h hf
      · rw [hs] at ht ⊢
        obtain ⟨st, hg⟩ := hadmits.ends hbefore ht
        rw [hg] at ht ⊢
        exact ⟨ht, rfl, rfl⟩
      · rw [hs, hbefore] at ht
        cases ht
  calm ht t hin := by
    obtain ⟨l, g, i, hx, hs, hadmits⟩ | ⟨o, r, hx, hs⟩ := event_cases h hf
    · by_cases hself : e.tid = t
      · subst hself
        have hcalm (hb : s.mem.status.terminal = true) := h.calm hb e.tid (inFlight_self hf)
        rw [hs] at ht ⊢
        rw [stage_self hf, hx]
        change Calm _ (follow l i s.mem (g i s.mem))
        rcases hadmits.leaves hcalm ht with hw | hw <;> (rw [hw]; trivial)
      · have hin := inFlight_other hf hself hin
        rw [stage_other hf hself]
        by_cases hsame : s'.mem.status = s.mem.status
        · have hold := h.calm (hsame ▸ ht) t hin
          cases hw : stage s t <;> rw [hw] at hold
          case resting => exact hsame.trans hold
          case bound => exact hold
          all_goals trivial
        · refine hok s'.mem ?_ t (Ne.symm hself) hin
          rw [hx]
          exact ⟨hs, ht, hsame⟩
    · rw [hs] at ht ⊢
      by_cases hself : e.tid = t
      · subst hself
        rw [stage_self hf, hx]
        exact h.calm ht _ (inFlight_self hf)
      · rw [stage_other hf hself]
        exact h.calm ht t (inFlight_other hf hself hin)
  cancelled := by
    rintro ⟨e', he', hc⟩
    rw [hf.log] at he'
    rcases List.mem_cons.mp he' with rfl | he'
    · obtain ⟨l, g, i, hx, hs, hadmits⟩ | ⟨o, r, hx, hs⟩ := event_cases h hf
      · rw [hx] at hc
        rw [hs]
        cases l <;> first | exact hadmits.cancels rfl | exact hc.elim
      · rw [hx] at hc
        exact hc.elim
    · exact (h.step_ended hf (h.cancelled ⟨e', he', hc⟩)).ended.terminal
  nothing := by
    intro newer e' older hlog hc e₁ he₁ hputs
    rw [hf.log] at hlog
    cases newer with
    | nil => cases he₁
    | cons e₂ newer =>
      rw [List.cons_append, List.cons.injEq] at hlog
      obtain ⟨rfl, hlog⟩ := hlog
      rcases List.mem_cons.mp he₁ with rfl | he₁
      · have ht := h.cancelled ⟨e', by rw [hlog]; simp, hc⟩
        have hstays := h.step_ended hf ht
        obtain ⟨l, g, i, hx, hs, -⟩ | ⟨o, r, hx, hs⟩ := event_cases h hf
        · rw [hx] at hputs
          exact hputs (hs ▸ hstays.released)
        · rw [hx] at hputs
          exact hputs
      · exact h.nothing newer e' older hlog hc e₁ he₁ hputs

end

theorem inv_inductive : ((approver cfg).lts attentive).Inductive Inv :=
  System.inductive_of (fun _ hm => hm ▸ Inv.init) (fun _ c h _ => h.spawn c)
    fun _ _ _ _ _ h hf hok => h.fires hf hok

theorem StaysEnded.trans {s s₁ s' : Approver} (h : StaysEnded s s₁) (h' : StaysEnded s₁ s') :
    StaysEnded s s' :=
  ⟨h'.ended, h'.keys.trans h.keys, h'.released.trans h.released⟩

theorem Inv.step {s s' : LinkState} {l : Label (ObjFate Input callbacks) Call} (h : Inv s)
    (hs : ((approver cfg).lts attentive).step s l s') (ht : s.mem.status.terminal = true) :
    StaysEnded s.mem s'.mem := by
  obtain ⟨c, -, rfl⟩ | ⟨e, c, k, hf, -⟩ := System.step_cases hs
  · exact ⟨h.ended ht, rfl, rfl⟩
  · exact h.step_ended hf ht

/-- **An ended ceremony stays ended**, in every run where no step ends it over
a call that would not notice. -/
theorem ended_stays (cfg : Config) (s s' : LinkState)
    (ls : List (Label (ObjFate Input callbacks) Call))
    (hr : ((approver cfg).lts attentive).Reachable s)
    (hrun : ((approver cfg).lts attentive).Run s ls s') :
    (s.mem.status.terminal = true → StaysEnded s.mem s'.mem) ∧ NothingAfterCancel s'.log := by
  have hinv := inv_inductive.reachable s hr
  have hinv' := hrun.keeps inv_inductive.step hinv
  refine ⟨fun ht => ?_, hinv'.nothing⟩
  induction hrun with
  | nil s => exact ⟨hinv.ended ht, rfl, rfl⟩
  | @cons s s₁ s' l ls hs hrest ih =>
    have hstep := hinv.step hs ht
    have hinv₁ := inv_inductive.step _ _ _ hinv hs
    obtain ⟨s₀, ls₀, hi, hrun₀⟩ := hr
    have hr₁ : ((approver cfg).lts attentive).Reachable s₁ :=
      ⟨s₀, ls₀ ++ [l], hi, hrun₀.append (.cons hs (.nil _))⟩
    exact hstep.trans (ih hr₁ hinv₁ hinv' hstep.ended.terminal)

/-! ## Runs -/

namespace Example

open RegistrationFirst.Example

/-- The rendezvous slot is still empty. -/
def nothingYet : ObjFate Input callbacks where
  input := ⟨5, .ok [3], .ok ()⟩
  answer
    | .get .. => some (.ok none)
    | _ => none

def calm (s : Approver) : Stage → Bool
  | .bound => false
  | .resting => s.status = .cancelled
  | _ => true

theorem calm_iff {s : Approver} {w : Stage} (h : calm s w = true) : Calm s w := by
  cases w with
  | bound => cases h
  | resting =>
    have h : s.status = .cancelled := of_decide_eq_true h
    exact h
  | _ => trivial

/-- Call `t` has returned, or stands where the end of the ceremony does not
matter. -/
def noticesAt (s : LinkState) (s' : Approver) (t : Nat) : Bool :=
  match s.threads[t]? with
  | some ⟨_, .ask _ _⟩ => calm s' (stage s t)
  | _ => true

theorem calm_of_noticesAt {s : LinkState} {s' : Approver} {t : Nat} (h : noticesAt s s' t = true)
    (hin : InFlight s t) : Calm s' (stage s t) := by
  obtain ⟨c, o, k, hth⟩ := hin
  unfold noticesAt at h
  rw [hth] at h
  exact calm_iff h

def notices (s : LinkState) (e : Event link (ObjFate Input callbacks)) : Bool :=
  match e.exch with
  | ⟨.run _ g, (i, s₀)⟩ =>
    !(g i s₀).status.terminal || (g i s₀).status = s₀.status ||
      (List.range s.threads.length).all fun t => t = e.tid || noticesAt s (g i s₀) t
  | ⟨.await _, _⟩ => true

def judge : System.Judge attentive where
  may _ _ := true
  ok := notices
  may_iff _ _ _ := trivial
  ok_iff s e h s' hends t ht hin := by
    unfold notices at h
    split at h
    · rename_i l g i s₀ hx
      rw [hx] at hends
      obtain ⟨rfl, hterminal, hne⟩ := hends
      rw [hterminal, decide_eq_false hne, Bool.not_true, Bool.false_or, Bool.false_or] at h
      have hlt : t < s.threads.length := by
        obtain ⟨c, o, k, hth⟩ := hin
        exact (List.getElem?_eq_some_iff.mp hth).1
      have hat := List.all_eq_true.mp h t (List.mem_range.mpr hlt)
      rw [decide_eq_false ht, Bool.false_or] at hat
      exact calm_of_noticesAt hat hin
    · rename_i hx
      rw [hx] at hends
      exact hends.elim

end Example

open Example RegistrationFirst.Example in
/-- A waiter is cancelled between two polls and stops. -/
theorem ended_stays_cancelled :
    ∃ s s' ls, ((approver config).lts attentive).Reachable s ∧
      ((approver config).lts attentive).Run s ls s' ∧ s.mem.status = .cancelled ∧
      StaysEnded s.mem s'.mem ∧ NothingAfterCancel s'.log := by
  obtain ⟨s, hr, hs⟩ := System.reachable_of_play (S := approver config) Example.judge smooth
    [.call .start, .go 0 3, .call (.waitForRequest 2), .go 1 1, .run 1 nothingYet,
    .go 1 1, .call .cancel, .go 2 1] (m := .new)
    (P := fun s => s.mem.status = .cancelled &&
    ((approver config).goOn Example.judge smooth 1 2 s).isSome) rfl
    (by decide +kernel)
  rw [Bool.and_eq_true, decide_eq_true_iff, Option.isSome_iff_exists] at hs
  obtain ⟨hcancelled, s', hgo⟩ := hs
  obtain ⟨ls, hrun⟩ := System.run_of_goOn Example.judge hgo
  have h := ended_stays config s s' ls hr hrun
  exact ⟨s, s', ls, hr, hrun, hcancelled, h.1 (by rw [hcancelled]; rfl), h.2⟩

open RegistrationFirst.Example in
/-- The ceremony is cancelled while the request is being opened: the request is
pinned after that, and the ceremony awaits approval again. -/
theorem revived :
    ∃ s s' ls, ((approver config).lts anyCeremony).Reachable s ∧
      ((approver config).lts anyCeremony).Run s ls s' ∧ s.mem.status = .cancelled ∧
      s'.mem.status = .awaitingApproval ∧ s'.mem.pinned = some request ∧
      ¬ StaysEnded s.mem s'.mem := by
  obtain ⟨s, hr, hs⟩ := System.reachable_of_play (S := approver config) judge smooth
    [.call .start, .go 0 3, .call (.waitForRequest 1), .go 1 6, .call .cancel, .go 2 1] (m := .new)
    (P := fun s => s.mem.status = .cancelled &&
    ((approver config).goOn judge smooth 1 1 s).any fun s' =>
      s'.mem.status = .awaitingApproval && s'.mem.pinned = some request) rfl (by decide +kernel)
  rw [Bool.and_eq_true, decide_eq_true_iff, Option.any_eq_true_iff_get] at hs
  obtain ⟨hcancelled, hsome, hs'⟩ := hs
  rw [Bool.and_eq_true, decide_eq_true_iff, decide_eq_true_iff] at hs'
  obtain ⟨ls, hrun⟩ := System.run_of_goOn judge (Option.some_get hsome).symm
  refine ⟨s, _, ls, hr, hrun, hcancelled, hs'.1, hs'.2, fun h => ?_⟩
  have := h.ended.terminal
  rw [hs'.1] at this
  cases this

end RezSdk.L4.CeremonyEnd
