import RezSdk.L4Runs.CeremonyEnd

/-!
# One ceremony for one code

The human gate approves one request: an instance should give out one code, pin
the first valid request and certify one device. `approve` takes the pinned
request and moves the status on in one stretch. `start` and `waitForRequest`
test the status, await, and write it later, so a second call of the same
method passes the guard as well while the first is under way. `Stage` says how
far a call is, and `Board` what the run has given out.

* `single_use`: in every run where no `start` passes its guard while another is
  past it, and no `waitForRequest` passes its guard while another still polls,
  at most one code is returned, one request pinned (the first one opened), one
  certificate signed and one response put.
* `certified_twice`: two waiters pin two requests, and both are certified.
-/
namespace RezSdk.L4.SingleUse

open RezSdk.L1 RezSdk.L3.DeviceLink

abbrev Exch := Proc.Exch link
abbrev LinkEvent := Event link (ObjFate Input callbacks)

/-! ## The property -/

/-- The code that the call returns. -/
def code (cfg : Config) : Exch → Option String
  | ⟨.run .startEnd _, (_, s)⟩ =>
    (cfg.lib.encodeDeviceLinkCode s.psk cfg.accountSignPublicKeyB64).toOption
  | _ => none

/-- The request that the event pins. -/
def pins : Exch → Option OpenedRequest
  | ⟨.run .waitPin g, (i, s)⟩ => (g i s).pinned
  | _ => none

/-- The valid request that the event opens. -/
def opens : Exch → Option OpenedRequest
  | ⟨.await (.openRequest ..), .ok r⟩ => some r
  | _ => none

/-- The account key signs a leaf certificate. -/
def signs : Exch → Bool
  | ⟨.await (.accountSign _), _⟩ => true
  | _ => false

def codes (cfg : Config) (log : List LinkEvent) : List String :=
  log.filterMap fun e => code cfg e.exch
def pinned (log : List LinkEvent) : List OpenedRequest := log.filterMap fun e => pins e.exch
def opened (log : List LinkEvent) : List OpenedRequest := log.filterMap fun e => opens e.exch

structure UsedOnce (cfg : Config) (s : LinkState) : Prop where
  codes : (codes cfg s.log).length ≤ 1
  requests : (pinned s.log).length ≤ 1
  /-- the logs have the newest first -/
  first : pinned s.log <:+ opened s.log
  certificates : (s.log.countP fun e => signs e.exch) ≤ 1
  responses : s.mem.released.length ≤ 1

/-! ## How far a call is -/

inductive Stage
  | fresh
  /-- between the guard of `start` and its end -/
  | starting
  /-- in the polling loop -/
  | waiting
  /-- about to pin what it has opened -/
  | opened (r : OpenedRequest)
  /-- past the guard of `approve` -/
  | signing
  | signed
  | published
  | over
deriving DecidableEq

/-- The call is in the polling loop, or about to pin. -/
def Stage.polls : Stage → Bool
  | .waiting | .opened _ => true
  | _ => false

def Stage.approves : Stage → Bool
  | .signing | .signed | .published => true
  | _ => false

/-- A call that has returned leaves nothing half done. -/
def Stage.rests : Stage → Bool
  | .starting | .waiting | .opened _ => false
  | _ => true

/-- Whether a call at stage `w` may come to the stretch `l`. -/
def Stage.at : Stage → Stretch → Bool
  | .fresh, .startBegin | .fresh, .waitBegin | .fresh, .approveBegin | .fresh, .cancel => true
  | .starting, .startEnd => true
  | .waiting, .waitVerify | .waiting, .waitOpen | .waiting, .waitFail => true
  | .waiting, .waitRest | .waiting, .waitTop => true
  | .opened _, .waitPin => true
  | .signed, .approveBuild | .signed, .approveSeal | .signed, .approvePersist => true
  | .signed, .approveFail | .signed, .approveRelease => true
  | .published, .confirmBegin | .published, .confirmVerify | .published, .confirmDone => true
  | .published, .confirmFail | .published, .confirmRest | .published, .confirmTop => true
  | _, _ => false

/-- The stage after the stretch `l`, run on `s`. -/
def Stage.follow (w : Stage) (l : Stretch) (i : Input) (s : Approver) : Stage :=
  match l with
  | .startBegin => if s.status = .idle ∧ i.psk.isOk then .starting else .over
  | .waitBegin => if s.status = .waitingRequest ∧ i.nowMs < s.expiresAtMs then .waiting else .over
  | .waitTop => if s.status = .cancelled ∨ s.expiresAtMs ≤ i.nowMs then .over else .waiting
  | .approveBegin => if s.status = .awaitingApproval ∧ s.pinned.isSome then .signing else .over
  | .approveRelease => .published
  | .startEnd | .waitPin | .waitFail | .cancel => .over
  | _ => w

/-- The stage after the outcome of an awaited call. -/
def Stage.hears (w : Stage) : (o : LinkCall) → o.Ans → Stage
  | .deriveRendezvous _, .error _ => .over
  | .sleep _, .error _ => if w = .waiting then .over else w
  | .openRequest .., .ok r => .opened r
  | .accountSign _, _ => .signed
  | _, _ => w

/-- A status that no guard tests for. -/
def Late (st : Status) : Prop := st ≠ .idle ∧ st ≠ .waitingRequest ∧ st ≠ .awaitingApproval

/-- What the stretch `l` of a call at stage `w` writes. -/
def Writes (w : Stage) (l : Stretch) (i : Input) (s s' : Approver) : Prop :=
  match l with
  | .startEnd => s'.status = .waitingRequest ∧ s'.released = s.released
  | .waitPin =>
    s'.status = .awaitingApproval ∧ s'.released = s.released ∧ ∀ r, w = .opened r →
      s'.pinned = some r
  | .approveBegin =>
    (s'.status = if w.follow l i s = .signing then .responding else s.status) ∧
    s'.released = s.released
  | .approveRelease =>
    (s'.status = s.status ∧ ∃ r, s'.released = r :: s.released) ∨ Late s'.status ∧
    s'.released = s.released
  | _ => (s'.status = s.status ∨ Late s'.status) ∧ s'.released = s.released

def monitor : Monitor link Stage where
  next
    | w, ⟨.run l _, (i, s)⟩ => w.follow l i s
    | w, ⟨.await o, r⟩ => w.hears o r
  may w
    | .run l g => w.at l = true ∧ ∀ i s, Writes w l i s (g i s)
    | .await (.deriveRendezvous _) => w = .starting
    | .await (.openRequest ..) => w = .waiting
    | .await (.accountSign _) => w = .signing
    | .await _ => True

abbrev Lawful : Exch → Prop := fun _ => True

/-! ## The calls -/

variable {α β : Type} {cfg : Config} {w : Stage}

theorem obeys_stretch {l : Stretch} {f : Input → Approver → Except Err α × Approver}
    {Q : Stage → Except Err α → Prop} (hat : w.at l = true)
    (hwrites : ∀ i s, Writes w l i s (f i s).2) (hq : ∀ i s, Q (w.follow l i s) (f i s).1) :
    Obeys monitor Lawful Q w (stretch l f : Linking α) := ⟨⟨hat, hwrites⟩, fun x _ => hq x.1 x.2⟩

/-- A call whose outcome changes no stage. -/
def Plain : LinkCall → Bool
  | .deriveRendezvous _ | .sleep _ | .openRequest .. | .accountSign _ => false
  | _ => true

theorem quiet_await {o : LinkCall} (ho : Plain o = true) {k : callbacks.Ans o → Linking α}
    (hk : ∀ r, Proc.All monitor.Quiet (k r)) :
    Proc.All monitor.Quiet (.ask (.await o) k : Linking α) := by
  refine ⟨fun w => ?_, hk⟩
  cases o <;> first | exact ⟨trivial, fun _ => rfl⟩ | cases ho

theorem late_terminal {st : Status} (h : st.terminal = true) : Late st := by
  refine ⟨?_, ?_, ?_⟩ <;> (rintro rfl; cases h)

theorem obeys_start {Q : Stage → Except Err (String × Nat) → Prop} (hq : ∀ x, Q .over x) :
    Obeys monitor Lawful Q .fresh (start cfg) := by
  refine obeys_js_bind (obeys_stretch rfl (fun i s => ?_) fun i s => ?_)
  · split
    · exact ⟨.inl rfl, rfl⟩
    · split <;> exact ⟨.inl rfl, rfl⟩
  · by_cases hs : s.status = .idle
    · rw [if_neg (not_not.mpr hs)]
      cases hpsk : i.psk with
      | error e =>
        have hover : Stage.follow .fresh .startBegin i s = .over :=
          if_neg (by rw [hpsk]; exact fun h => by cases h.2)
        rw [hover]
        exact hq _
      | ok psk =>
        have hstarting : Stage.follow .fresh .startBegin i s = .starting :=
          if_pos ⟨hs, by rw [hpsk]; rfl⟩
        rw [hstarting]
        refine obeys_js_bind ⟨rfl, fun keys _ => ?_⟩
        match keys with
        | .error e => exact hq _
        | .ok keys => exact obeys_stretch rfl (fun _ _ => ⟨rfl, rfl⟩) fun _ _ => hq _
    · have hover : Stage.follow .fresh .startBegin i s = .over := if_neg fun h => hs h.1
      rw [if_pos hs, hover]
      exact hq _

/-! ## waitForRequest -/

/-- A failure counts as an empty slot. -/
theorem obeys_pollGet {id : RecordId} {keys : Option Keys}
    {Q : Stage → Except Err (Option CeremonyRecord) → Prop} (hq : ∀ record, Q w (.ok record)) :
    Obeys monitor Lawful Q w (pollGet id keys) := by
  cases keys with
  | none => exact hq none
  | some keys =>
    refine obeys_attempt ⟨trivial, fun record _ => ?_⟩
    match record with
    | .ok record => exact hq record
    | .error e => exact hq none

theorem obeys_openAndPin {atMs : Nat} {record : CeremonyRecord}
    {Q : Stage → Except Err OpenedRequest → Prop} (herror : ∀ e, Q .waiting (.error e))
    (hok : ∀ opened, Q .over (.ok opened)) :
    Obeys monitor Lawful Q .waiting (openAndPin atMs record) := by
  refine obeys_js_bind (obeys_stretch rfl (fun _ _ => ⟨.inl rfl, rfl⟩) fun _ s => ?_)
  refine obeys_js_bind (obeys_orThrow (fun keys _ => ?_) fun _ => herror _)
  refine obeys_quiet_bind (quiet_await rfl fun _ => trivial) herror fun payload => ?_
  refine obeys_js_bind (obeys_stretch rfl (fun _ _ => ⟨.inl rfl, rfl⟩) fun _ s => ?_)
  refine obeys_js_bind (obeys_orThrow (fun keys _ => ?_) fun _ => herror _)
  refine obeys_js_bind ⟨rfl, fun opened _ => ?_⟩
  match opened with
  | .error e => exact herror e
  | .ok opened =>
    refine obeys_stretch rfl (fun _ _ => ⟨rfl, rfl, fun r hr => ?_⟩) fun _ _ => hok _
    cases hr
    rfl

theorem writes_pollTop (i : Input) (s : Approver) :
    ((pollTop i s).2.status = s.status ∨ Late (pollTop i s).2.status) ∧
    (pollTop i s).2.released = s.released := by
  unfold pollTop
  split
  · exact ⟨.inl rfl, rfl⟩
  · split
    · exact ⟨.inr (late_terminal rfl), rfl⟩
    · exact ⟨.inl rfl, rfl⟩

theorem pollTop_ok {i : Input} {s : Approver} {top : Nat × Option Keys}
    (h : (pollTop i s).1 = .ok top) : ¬ (s.status = .cancelled ∨ s.expiresAtMs ≤ i.nowMs) := by
  unfold pollTop at h
  split at h
  · cases h
  · split at h
    · cases h
    · exact not_or.mpr ⟨‹_›, ‹_›⟩

theorem pollTop_error {i : Input} {s : Approver} {e : Err} (h : (pollTop i s).1 = .error e) :
    s.status = .cancelled ∨ s.expiresAtMs ≤ i.nowMs := by
  unfold pollTop at h
  split at h
  · exact .inl ‹_›
  · split at h
    · exact .inr ‹_›
    · cases h

/-- Sleep, and go on only if that did not fail. -/
theorem obeys_pollSleep {rest : Stretch} {interval : ℚ} {Q : Stage → Except Err Unit → Prop}
    (hat : w.at rest = true) (hwrites : ∀ i s, Writes w rest i s s)
    (hfollow : ∀ i s, w.follow rest i s = w) (hok : Q w (.ok ()))
    (herror : ∀ e, Q (if w = .waiting then .over else w) (.error e)) :
    Obeys monitor Lawful Q w (pollSleep cfg rest interval) := by
  refine obeys_js_bind (obeys_stretch hat hwrites fun i s => ?_)
  rw [hfollow]
  refine ⟨trivial, fun slept _ => ?_⟩
  match slept with
  | .ok () => exact hok
  | .error e => exact herror e

theorem obeys_waitRounds {Q : Stage → Except Err OpenedRequest → Prop} (hq : ∀ x, Q .over x) :
    ∀ {n : Nat} {interval : ℚ} {top : Nat × Option Keys},
      Obeys monitor Lawful Q .waiting (waitRounds cfg n interval top)
  | 0, _, _ => ⟨trivial, fun r => nomatch r⟩
  | n + 1, interval, (atMs, keys) => by
    have hagain : Obeys monitor Lawful Q .waiting ((do
        pollSleep cfg .waitRest interval
        let top ← stretch .waitTop pollTop
        waitRounds cfg n (nextInterval cfg interval) top) : Linking OpenedRequest) := by
      refine obeys_js_bind
        (obeys_pollSleep rfl (fun _ _ => ⟨.inl rfl, rfl⟩) (fun _ _ => rfl) ?_ fun _ => hq _)
      refine obeys_js_bind (obeys_stretch rfl writes_pollTop fun i s => ?_)
      cases htop : (pollTop i s).1 with
      | error e =>
        have hover : Stage.follow .waiting .waitTop i s = .over := if_pos (pollTop_error htop)
        rw [hover]
        exact hq _
      | ok top =>
        have hwaiting : Stage.follow .waiting .waitTop i s = .waiting := if_neg (pollTop_ok htop)
        rw [hwaiting]
        exact obeys_waitRounds hq
    refine obeys_js_bind (obeys_pollGet fun record => ?_)
    cases record with
    | none => exact hagain
    | some record =>
      refine obeys_attempt (obeys_openAndPin (fun e => ?_) fun _ => hq _)
      dsimp only
      split
      · exact obeys_stretch rfl (fun _ _ => ⟨.inr (late_terminal rfl), rfl⟩) fun _ _ => hq _
      · exact hagain

theorem obeys_waitForRequest {rounds : Nat} {Q : Stage → Except Err OpenedRequest → Prop}
    (hq : ∀ x, Q .over x) : Obeys monitor Lawful Q .fresh (waitForRequest cfg rounds) := by
  refine obeys_js_bind (obeys_stretch rfl (fun i s => ?_) fun i s => ?_)
  · split
    · exact ⟨.inl rfl, rfl⟩
    · exact writes_pollTop i s
  · by_cases hs : s.status = .waitingRequest
    · rw [if_neg (not_not.mpr hs)]
      cases htop : (pollTop i s).1 with
      | error e =>
        have hover : Stage.follow .fresh .waitBegin i s = .over := by
          refine if_neg fun h => ?_
          rcases pollTop_error htop with hc | he
          · rw [hs] at hc
            cases hc
          · exact absurd h.2 (Nat.not_lt.mpr he)
        rw [hover]
        exact hq _
      | ok top =>
        have hlive := not_or.mp (pollTop_ok htop)
        have hwaiting : Stage.follow .fresh .waitBegin i s = .waiting :=
          if_pos ⟨hs, Nat.not_le.mp hlive.2⟩
        rw [hwaiting]
        exact obeys_waitRounds hq
    · have hover : Stage.follow .fresh .waitBegin i s = .over := if_neg fun h => hs h.1
      rw [if_pos hs, hover]
      exact hq _

/-! ## approve -/

theorem obeys_mintLeafCert {key : String} {nowMs : Nat} {Q : Stage → Except Err LeafCert → Prop}
    (hq : ∀ x, Q .signed x) : Obeys monitor Lawful Q .signing (mintLeafCert cfg key nowMs) := by
  refine obeys_js_bind ⟨rfl, fun sig _ => ?_⟩
  match sig with
  | .error e => exact hq _
  | .ok sig =>
    refine obeys_js_bind (obeys_ensure (fun _ => ?_) fun _ => hq _)
    refine obeys_quiet_bind (quiet_await rfl fun _ => trivial) (fun _ => hq _) fun ok => ?_
    refine obeys_js_bind (obeys_ensure (fun _ => ?_) fun _ => hq _)
    refine obeys_quiet (Js.all_bind
      (show Proc.All monitor.Quiet (Js.ofExcept _ : Linking Unit) from trivial) fun _ => ?_) hq
    trivial

theorem quiet_cachedDeviceSet : Proc.All monitor.Quiet (cachedDeviceSet cfg) := by
  unfold cachedDeviceSet
  cases cfg.hasCachedDeviceSet with
  | true => exact quiet_await (o := .cachedDeviceSet) rfl fun _ => trivial
  | false => trivial

theorem obeys_sealedResponse {pinned : OpenedRequest} {atMs : Nat} {cert : LeafCert}
    {Q : Stage → Except Err (Response × CeremonyRecord) → Prop} (hq : ∀ x, Q .signed x) :
    Obeys monitor Lawful Q .signed (sealedResponse cfg pinned atMs cert) := by
  refine obeys_quiet_bind quiet_cachedDeviceSet (fun _ => hq _) fun cached => ?_
  refine obeys_js_bind (obeys_stretch rfl (fun _ _ => ⟨.inl rfl, rfl⟩) fun _ s => ?_)
  refine obeys_js_bind (obeys_orThrow (fun keys _ => ?_) fun _ => hq _)
  refine obeys_quiet_bind (quiet_await rfl fun _ => trivial) (fun _ => hq _) fun response => ?_
  refine obeys_js_bind (obeys_stretch rfl (fun _ _ => ⟨.inl rfl, rfl⟩) fun _ s => ?_)
  exact obeys_quiet_bind (quiet_await rfl fun _ => trivial) (fun _ => hq _) fun record => hq _

theorem obeys_orFail {p : Linking α} {wrapped : Err → Err} {Q : Stage → Except Err α → Prop}
    (hp : Proc.All monitor.Quiet p) (hq : ∀ x, Q .signed x) :
    Obeys monitor Lawful Q .signed (orFail p wrapped) := by
  refine obeys_attempt (obeys_quiet hp fun x => ?_)
  cases x with
  | ok x => exact hq _
  | error e => exact obeys_stretch rfl (fun _ _ => ⟨.inr (late_terminal rfl), rfl⟩) fun _ _ => hq _

theorem obeys_release {pinned : OpenedRequest} {cert : LeafCert} {record : CeremonyRecord}
    {commit : Option Commit} {Q : Stage → Except Err Unit → Prop} (hq : ∀ x, Q .published x) :
    Obeys monitor Lawful Q .signed (release pinned cert record commit) := by
  refine obeys_js_bind (obeys_stretch rfl (fun i s => ?_) fun i s => ?_)
  · split
    · exact .inl ⟨rfl, record, rfl⟩
    · exact .inr ⟨late_terminal rfl, rfl⟩
  · dsimp only
    split
    · refine obeys_quiet_bind (quiet_await rfl fun _ => trivial) (fun _ => hq _) fun _ => ?_
      exact obeys_quiet (quiet_await rfl fun _ => trivial) hq
    · exact hq _

theorem obeys_confirms {nowMs : Nat} {record : CeremonyRecord} {response : Response}
    {Q : Stage → Except Err Bool → Prop} (hq : ∀ x, Q .published x) :
    Obeys monitor Lawful Q .published (confirms nowMs record response) := by
  refine obeys_attempt
    (obeys_js_bind (obeys_stretch rfl (fun _ _ => ⟨.inl rfl, rfl⟩) fun _ s => ?_))
  refine obeys_js_bind (obeys_orThrow (fun keys _ => ?_) fun _ => hq _)
  refine obeys_quiet_bind (quiet_await rfl fun _ => trivial) (fun _ => hq _) fun payload => ?_
  refine obeys_quiet (quiet_await rfl fun _ => trivial) fun x => ?_
  cases x <;> exact hq _

theorem writes_confirmTop (i : Input) (s : Approver) :
    ((confirmTop i s).2.status = s.status ∨ Late (confirmTop i s).2.status) ∧
    (confirmTop i s).2.released = s.released := by
  unfold confirmTop
  split
  · exact ⟨.inl rfl, rfl⟩
  · split
    · exact ⟨.inr (late_terminal rfl), rfl⟩
    · exact ⟨.inl rfl, rfl⟩

theorem obeys_confirmRounds {pinned : OpenedRequest} {cert : LeafCert} {response : Response}
    {Q : Stage → Except Err Approved → Prop} (hq : ∀ w x, w.rests = true → Q w x) :
    ∀ {n : Nat} {interval : ℚ} {top : Nat × Option Keys},
      Obeys monitor Lawful Q .published (confirmRounds cfg pinned cert response n interval top)
  | 0, _, _ => ⟨trivial, fun r => nomatch r⟩
  | n + 1, interval, (nowMs, keys) => by
    refine obeys_js_bind (obeys_pollGet fun record => ?_)
    cases record with
    | none =>
      refine obeys_js_bind
        (obeys_pollSleep rfl (fun _ _ => ⟨.inl rfl, rfl⟩) (fun _ _ => rfl) ?_ fun _ => hq _ _ rfl)
      refine obeys_js_bind (obeys_stretch rfl writes_confirmTop fun i s => ?_)
      cases (confirmTop i s).1 with
      | error e => exact hq _ _ rfl
      | ok top => exact obeys_confirmRounds hq
    | some record =>
      refine obeys_js_bind (obeys_confirms fun confirmed => ?_)
      match confirmed with
      | .error e => exact hq _ _ rfl
      | .ok true =>
        refine obeys_attempt (obeys_quiet (quiet_await rfl fun _ => trivial) fun marked => ?_)
        refine obeys_stretch rfl (fun i s => ?_) fun _ _ => hq _ _ rfl
        rcases finish_cases _ marked i s with h | ⟨e, h⟩ <;> rw [h]
        · exact ⟨.inr (late_terminal rfl), rfl⟩
        · exact ⟨.inl rfl, rfl⟩
      | .ok false =>
        exact obeys_stretch rfl (fun _ _ => ⟨.inr (late_terminal rfl), rfl⟩) fun _ _ => hq _ _ rfl

theorem obeys_approve {rounds : Nat} {Q : Stage → Except Err Approved → Prop}
    (hq : ∀ w x, w.rests = true → Q w x) : Obeys monitor Lawful Q .fresh (approve cfg rounds) := by
  refine obeys_js_bind (obeys_stretch rfl (fun i s => ?_) fun i s => ?_)
  · split
    · rename_i hs hpinned
      have hsigning : Stage.follow .fresh .approveBegin i s = .signing :=
        if_pos ⟨hs, by rw [hpinned]; rfl⟩
      refine ⟨?_, rfl⟩
      rw [if_pos hsigning]
    · rename_i hnot
      have hover : Stage.follow .fresh .approveBegin i s = .over := by
        refine if_neg fun h => ?_
        obtain ⟨pinned, hpinned⟩ := Option.isSome_iff_exists.mp h.2
        exact hnot _ h.1 hpinned
      refine ⟨?_, rfl⟩
      rw [hover]
      rfl
  · split
    · rename_i pinned hs hpinned
      have hsigning : Stage.follow .fresh .approveBegin i s = .signing :=
        if_pos ⟨hs, by rw [hpinned]; rfl⟩
      rw [hsigning]
      refine obeys_js_bind (obeys_mintLeafCert fun cert => ?_)
      cases cert with
      | error e => exact hq _ _ rfl
      | ok cert =>
        refine obeys_js_bind (obeys_sealedResponse fun x => ?_)
        match x with
        | .error e => exact hq _ _ rfl
        | .ok (response, record) =>
          refine obeys_js_bind
            (obeys_js_bind (obeys_stretch rfl (fun _ _ => ⟨.inl rfl, rfl⟩) fun _ s => ?_))
          refine obeys_orFail (quiet_await rfl fun _ => trivial) fun persisted => ?_
          cases persisted with
          | error e => exact hq _ _ rfl
          | ok _ =>
            refine obeys_js_bind (obeys_orFail (quiet_await rfl fun _ => trivial) fun commit => ?_)
            cases commit with
            | error e => exact hq _ _ rfl
            | ok commit =>
              refine obeys_js_bind (obeys_release fun put => ?_)
              cases put with
              | error e => exact hq _ _ rfl
              | ok _ =>
                refine obeys_js_bind (obeys_stretch rfl (fun i s => ?_) fun i s => ?_)
                · obtain ⟨hstatus, hreleased⟩ :=
                    writes_confirmTop i { s with status := .waitingConfirm }
                  refine ⟨.inr ?_, hreleased⟩
                  rcases hstatus with h | h
                  · rw [h]
                    exact ⟨nofun, nofun, nofun⟩
                  · exact h
                · cases (confirmTop i { s with status := .waitingConfirm }).1 with
                  | error e => exact hq _ _ rfl
                  | ok top => exact obeys_confirmRounds hq
    · have hrests : (Stage.follow .fresh .approveBegin i s).rests = true := by
        unfold Stage.follow
        dsimp only
        split <;> rfl
      exact hq _ _ hrests

theorem obeys_run (c : Call) :
    Obeys monitor Lawful (fun w _ => w.rests = true) .fresh (run cfg c) := by
  cases c with
  | start =>
    refine obeys_js_bind (obeys_start fun x => ?_)
    cases x <;> exact rfl
  | waitForRequest rounds =>
    refine obeys_js_bind (obeys_waitForRequest fun x => ?_)
    cases x <;> exact rfl
  | approve rounds =>
    refine obeys_js_bind (obeys_approve fun _ x h => ?_)
    cases x <;> exact h
  | cancel => exact obeys_stretch rfl (fun _ _ => ⟨.inr (late_terminal rfl), rfl⟩) fun _ _ => rfl

/-! ## What the run has given out -/

/-- What of a run the ceremony is judged by. -/
structure Board where
  status : Status
  codes : Nat
  opened : List OpenedRequest
  pinned : List OpenedRequest
  signatures : Nat
  released : Nat
  stage : Nat → Stage

/-- Between a guard and the write that makes it fail stands at most one call;
what is issued, pinned, signed or released is still none as long as a call may
yet do it. -/
structure Sound (b : Board) : Prop where
  startOnce : b.codes ≤ 1
  oneStart : ∀ t t', b.stage t = .starting → b.stage t' = .starting → t = t'
  idle : b.status = .idle → b.codes = 0
  starting : ∀ t, b.stage t = .starting → b.codes = 0
  waits : b.status = .waitingRequest → b.codes ≠ 0 ∧ b.pinned = []
  polls : ∀ t, (b.stage t).polls = true → b.codes ≠ 0 ∧ b.pinned = []
  unstarted : b.codes = 0 → b.pinned = []
  pinOnce : b.pinned.length ≤ 1
  oneWaiter : ∀ t t', (b.stage t).polls = true → (b.stage t').polls = true → t = t'
  toPin : ∀ t r, b.stage t = .opened r → b.opened = [r]
  first : b.opened = b.pinned ∨ ∃ t r, b.stage t = .opened r
  awaiting : b.status = .awaitingApproval → b.pinned ≠ [] ∧ b.signatures = 0 ∧
    b.released = 0 ∧ ∀ t, (b.stage t).approves = false
  unpinned : b.pinned = [] → b.signatures = 0 ∧ b.released = 0 ∧ ∀ t, (b.stage t).approves = false
  oneApprover : ∀ t t', (b.stage t).approves = true → (b.stage t').approves = true → t = t'
  signOnce : b.signatures ≤ 1
  signing : ∀ t, b.stage t = .signing → b.signatures = 0 ∧ b.released = 0
  releaseOnce : b.released ≤ 1
  signed : ∀ t, b.stage t = .signed → b.released = 0

def Board.put (b : Board) (t : Nat) (w : Stage) : Board :=
  { b with stage := fun t' => if t' = t then w else b.stage t' }

section

variable {b : Board} {t t' : Nat} {w : Stage}

attribute [local grind] Stage.polls Stage.approves Late
attribute [local grind cases] Sound

-- Every part of `Sound` is a case split over stages and counters: there is no algebra to look for.

/-- Nothing is issued, opened, pinned, signed or released. -/
theorem Sound.quiet (h : Sound b) {st : Status} (hst : st = b.status ∨ Late st)
    (hw : w = b.stage t ∨
      (w = .over ∨ w = .published ∧ b.stage t = .signed) ∧ ∀ r, b.stage t ≠ .opened r) :
    Sound { b.put t w with status := st } := by
  constructor <;> dsimp only [Board.put] <;> grind -ring -linarith

/-- `start` passes its guard. -/
theorem Sound.beginStart (h : Sound b) (hidle : b.status = .idle)
    (hone : ∀ t', b.stage t' ≠ .starting) {st : Status} (hst : st = b.status ∨ Late st) :
    Sound { b.put t .starting with status := st } := by
  constructor <;> dsimp only [Board.put] <;> grind -ring -linarith

theorem Sound.endStart (h : Sound b) (hw : b.stage t = .starting) :
    Sound { b.put t .over with status := .waitingRequest, codes := b.codes + 1 } := by
  constructor <;> dsimp only [Board.put] <;> grind -ring -linarith

/-- `waitForRequest` passes its guard. -/
theorem Sound.beginWait (h : Sound b) (hwaits : b.status = .waitingRequest)
    (hone : ∀ t', (b.stage t').polls = false) {st : Status} (hst : st = b.status ∨ Late st) :
    Sound { b.put t .waiting with status := st } := by
  constructor <;> dsimp only [Board.put] <;> grind -ring -linarith

theorem Sound.openRequest (h : Sound b) (hw : b.stage t = .waiting) (r : OpenedRequest) :
    Sound { b.put t (.opened r) with opened := r :: b.opened } := by
  constructor <;> dsimp only [Board.put] <;> grind -ring -linarith

theorem Sound.pin (h : Sound b) {r : OpenedRequest} (hw : b.stage t = .opened r) :
    Sound { b.put t .over with status := .awaitingApproval, pinned := r :: b.pinned } := by
  constructor <;> dsimp only [Board.put] <;> grind -ring -linarith

/-- `approve` passes its guard. -/
theorem Sound.beginApprove (h : Sound b) (hst : b.status = .awaitingApproval) :
    Sound { b.put t .signing with status := .responding } := by
  constructor <;> dsimp only [Board.put] <;> grind -ring -linarith

theorem Sound.sign (h : Sound b) (hw : b.stage t = .signing) :
    Sound { b.put t .signed with signatures := b.signatures + 1 } := by
  constructor <;> dsimp only [Board.put] <;> grind -ring -linarith

theorem Sound.release (h : Sound b) (hw : b.stage t = .signed) :
    Sound { b.put t .published with released := b.released + 1 } := by
  constructor <;> dsimp only [Board.put] <;> grind -ring -linarith

end

/-! ## Every run -/

/-- `start` has come to its end. -/
def ends : Exch → Bool
  | ⟨.run .startEnd _, _⟩ => true
  | _ => false

/-- The stage call `t` has reached. -/
def stage (s : LinkState) (t : Nat) : Stage := Pool.mon monitor .fresh t s.log

def board (s : LinkState) : Board where
  status := s.mem.status
  codes := s.log.countP fun e => ends e.exch
  opened := opened s.log
  pinned := pinned s.log
  signatures := s.log.countP fun e => signs e.exch
  released := s.mem.released.length
  stage := stage s

/-- No call passes a guard that another call has passed and not yet spent. -/
def sequential : LinkRules where
  init s := s = .new
  may _ _ := True
  ok s e := ∀ l g i m, e.exch = ⟨.run l g, (i, m)⟩ →
    (l = .startBegin → m.status = .idle → ∀ t, stage s t ≠ .starting) ∧
      (l = .waitBegin → m.status = .waitingRequest → ∀ t, (stage s t).polls = false)

abbrev Conforms : LinkState → Prop :=
  System.Conforms monitor Lawful (fun _ => .fresh) fun _ w _ => w.rests = true

/-- What an event adds. -/
def Board.after (b : Board) (t : Nat) (x : Exch) (m : Approver) : Board where
  status := m.status
  codes := b.codes + (ends x).toNat
  opened := (opens x).toList ++ b.opened
  pinned := (pins x).toList ++ b.pinned
  signatures := b.signatures + (signs x).toNat
  released := m.released.length
  stage t' := if t' = t then monitor.next (b.stage t) x else b.stage t'

theorem filterMap_cons_toList {α β : Type} (f : α → Option β) (a : α) (l : List α) :
    (a :: l).filterMap f = (f a).toList ++ l.filterMap f := by
  cases h : f a with
  | none => rw [List.filterMap_cons_none h]; rfl
  | some v => rw [List.filterMap_cons_some h]; rfl

theorem countP_cons_toNat {α : Type} (p : α → Bool) (a : α) (l : List α) :
    (a :: l).countP p = l.countP p + (p a).toNat := by
  rw [List.countP_cons]
  cases p a <;> rfl

section

variable {s s' : LinkState} {e : LinkEvent} {c : Call}
  {k : link.Ans e.op → Proc link (Except Err Unit)}

theorem board_fires (hf : Pool.Fires (approver cfg) s e c k s') :
    board s' = (board s).after e.tid e.exch s'.mem := by
  unfold board Board.after opened pinned
  rw [hf.log]
  simp only [filterMap_cons_toList, countP_cons_toNat]
  congr
  funext t
  unfold stage
  rw [hf.log]
  split
  · rename_i ht
    subst ht
    exact Pool.mon_self
  · exact Pool.mon_other (Ne.symm ‹_›)

end

section

variable {b : Board} {t : Nat} {s : Approver}

/-- An event that gives nothing out. -/
theorem Sound.kept {x : Exch} {m : Approver} (h : Sound b) (hstatus : b.status = s.status)
    (hreleased : b.released = s.released.length) (hends : ends x = false) (hopens : opens x = none)
    (hpins : pins x = none) (hsigns : signs x = false)
    (hm : (m.status = s.status ∨ Late m.status) ∧ m.released = s.released)
    (hw : monitor.next (b.stage t) x = b.stage t ∨
      (monitor.next (b.stage t) x = .over ∨
        monitor.next (b.stage t) x = .published ∧ b.stage t = .signed) ∧
      ∀ r, b.stage t ≠ .opened r) : Sound (b.after t x m) := by
  have hafter :
      b.after t x m = { b.put t (monitor.next (b.stage t) x) with status := m.status } := by
    unfold Board.after Board.put
    rw [hends, hopens, hpins, hsigns, hm.2, ← hreleased]
    rfl
  rw [hafter]
  refine h.quiet ?_ hw
  rw [hstatus]
  exact hm.1

/-- One stretch of a call keeps the board sound. -/
theorem Sound.ran {l : Stretch} {g : Input → Approver → Approver} {i : Input} (h : Sound b)
    (hstatus : b.status = s.status) (hreleased : b.released = s.released.length)
    (hat : (b.stage t).at l = true) (hwrites : Writes (b.stage t) l i s (g i s))
    (hstart : l = .startBegin → s.status = .idle → ∀ t, b.stage t ≠ .starting)
    (hwait : l = .waitBegin → s.status = .waitingRequest → ∀ t, (b.stage t).polls = false) :
    Sound (b.after t ⟨.run l g, (i, s)⟩ (g i s)) := by
  have hnext : monitor.next (b.stage t) ⟨.run l g, (i, s)⟩ = (b.stage t).follow l i s := rfl
  have hunopened (hl : l ≠ .waitPin) (r : OpenedRequest) : b.stage t ≠ .opened r := by
    intro hw
    rw [hw] at hat
    cases l <;> first | exact hl rfl | cases hat
  cases l with
  | startBegin =>
    by_cases hp : s.status = .idle ∧ i.psk.isOk
    · have hstarting : (b.stage t).follow .startBegin i s = .starting := if_pos hp
      have hsound :=
        h.beginStart (t := t) (hstatus.trans hp.1) (hstart rfl hp.1) (hstatus ▸ hwrites.1)
      rw [← hstarting] at hsound
      unfold Board.after
      rw [hwrites.2, ← hreleased]
      exact hsound
    · refine h.kept hstatus hreleased rfl rfl rfl rfl hwrites (.inr ⟨.inl ?_, hunopened nofun⟩)
      rw [hnext]
      exact if_neg hp
  | waitBegin =>
    by_cases hp : s.status = .waitingRequest ∧ i.nowMs < s.expiresAtMs
    · have hwaiting : (b.stage t).follow .waitBegin i s = .waiting := if_pos hp
      have hsound :=
        h.beginWait (t := t) (hstatus.trans hp.1) (hwait rfl hp.1) (hstatus ▸ hwrites.1)
      rw [← hwaiting] at hsound
      unfold Board.after
      rw [hwrites.2, ← hreleased]
      exact hsound
    · refine h.kept hstatus hreleased rfl rfl rfl rfl hwrites (.inr ⟨.inl ?_, hunopened nofun⟩)
      rw [hnext]
      exact if_neg hp
  | approveBegin =>
    by_cases hp : s.status = .awaitingApproval ∧ s.pinned.isSome
    · have hsigning : (b.stage t).follow .approveBegin i s = .signing := if_pos hp
      have hsound := h.beginApprove (t := t) (hstatus.trans hp.1)
      obtain ⟨hs, hr⟩ := hwrites
      rw [if_pos hsigning] at hs
      rw [← hsigning, ← hs] at hsound
      unfold Board.after
      rw [hr, ← hreleased]
      exact hsound
    · have hover : (b.stage t).follow .approveBegin i s = .over := if_neg hp
      obtain ⟨hs, hr⟩ := hwrites
      rw [hover] at hs
      exact h.kept hstatus hreleased rfl rfl rfl rfl ⟨.inl hs,
        hr⟩ (.inr ⟨.inl hover, hunopened nofun⟩)
  | startEnd =>
    have hw : b.stage t = .starting := by
      cases hw : b.stage t <;> rw [hw] at hat <;> first | rfl | cases hat
    have hsound := h.endStart hw
    rw [← hwrites.1] at hsound
    unfold Board.after
    rw [hwrites.2, ← hreleased]
    exact hsound
  | waitPin =>
    obtain ⟨hs, hr, hpin⟩ := hwrites
    cases hw : b.stage t with
    | opened r =>
      have hsound := h.pin hw
      rw [← hs] at hsound
      have hpins : pins ⟨.run .waitPin g, (i, s)⟩ = some r := hpin r hw
      unfold Board.after
      rw [hr, ← hreleased, hpins]
      exact hsound
    | _ => rw [hw] at hat; cases hat
  | approveRelease =>
    have hw : b.stage t = .signed := by
      cases hw : b.stage t <;> rw [hw] at hat <;> first | rfl | cases hat
    rcases hwrites with ⟨hs, r, hr⟩ | ⟨hlate, hr⟩
    · have hsound := h.release hw
      unfold Board.after
      rw [hr, hs, List.length_cons, ← hreleased, ← hstatus]
      exact hsound
    · exact h.kept hstatus hreleased rfl rfl rfl rfl ⟨.inr hlate,
        hr⟩ (.inr ⟨.inr ⟨rfl, hw⟩, hunopened nofun⟩)
  | waitTop =>
    refine h.kept hstatus hreleased rfl rfl rfl rfl hwrites ?_
    have hw : b.stage t = .waiting := by
      cases hw : b.stage t <;> rw [hw] at hat <;> first | rfl | cases hat
    rw [hnext, hw]
    by_cases hp : s.status = .cancelled ∨ s.expiresAtMs ≤ i.nowMs
    · exact .inr ⟨.inl (if_pos hp), nofun⟩
    · exact .inl (if_neg hp)
  | cancel | waitFail =>
    exact h.kept hstatus hreleased rfl rfl rfl rfl hwrites (.inr ⟨.inl rfl, hunopened nofun⟩)
  | _ => exact h.kept hstatus hreleased rfl rfl rfl rfl hwrites (.inl rfl)

/-- The outcome of an awaited call keeps the board sound. -/
theorem Sound.heard {o : LinkCall} {r : o.Ans} (h : Sound b) (hstatus : b.status = s.status)
    (hreleased : b.released = s.released.length) (hmay : monitor.may (b.stage t) (.await o)) :
    Sound (b.after t ⟨.await o, r⟩ s) := by
  have hkeep {x : Exch} (hends : ends x = false) (hopens : opens x = none) (hpins : pins x = none)
      (hsigns : signs x = false)
      (hw : monitor.next (b.stage t) x = b.stage t ∨ monitor.next (b.stage t) x = .over ∧
      ∀ r, b.stage t ≠ .opened r) :
      Sound (b.after t x s) := by
    refine h.kept hstatus hreleased hends hopens hpins hsigns ⟨.inl rfl,
      rfl⟩ (hw.imp_right fun hw => ⟨.inl hw.1, hw.2⟩)
  cases o with
  | deriveRendezvous psk =>
    have hw : b.stage t = .starting := hmay
    cases r with
    | ok keys => exact hkeep rfl rfl rfl rfl (.inl rfl)
    | error e => exact hkeep rfl rfl rfl rfl (.inr ⟨rfl, by rw [hw]; nofun⟩)
  | sleep ms =>
    cases r with
    | ok _ => exact hkeep rfl rfl rfl rfl (.inl rfl)
    | error e =>
      refine hkeep rfl rfl rfl rfl ?_
      by_cases hw : b.stage t = .waiting
      · exact .inr ⟨if_pos hw, by rw [hw]; nofun⟩
      · exact .inl (if_neg hw)
  | openRequest nowMs psk key payload =>
    have hw : b.stage t = .waiting := hmay
    cases r with
    | ok opened =>
      have hsound := h.openRequest hw opened
      unfold Board.after
      rw [← hreleased, ← hstatus]
      exact hsound
    | error e => exact hkeep rfl rfl rfl rfl (.inl rfl)
  | accountSign bytes =>
    have hsound := h.sign hmay
    unfold Board.after
    rw [← hreleased, ← hstatus]
    exact hsound
  | _ => exact hkeep rfl rfl rfl rfl (.inl rfl)

end

theorem Sound.new {s : LinkState} (hmem : s.mem = .new) (hlog : s.log = []) : Sound (board s) := by
  have hboard : board s = ⟨.idle, 0, [], [], 0, 0, fun _ => .fresh⟩ := by
    unfold board stage opened pinned
    rw [hmem, hlog]
    rfl
  rw [hboard]
  constructor <;> grind -ring -linarith [Stage.polls, Stage.approves]

theorem sound_inductive :
    ((approver cfg).lts sequential).Inductive fun s => Conforms s ∧ Sound (board s) := by
  refine System.inductive_of (fun m hm => ⟨System.conforms_init m, .new hm rfl⟩) (fun s c h _ => ?_)
    fun s e c k s' h hf hok => ?_
  · exact ⟨System.conforms_spawn h.1 (obeys_run c), h.2⟩
  · refine ⟨System.conforms_fires h.1 hf trivial, ?_⟩
    have hmay : monitor.may (stage s e.tid) e.exch.op := h.1.may hf
    rw [board_fires hf]
    obtain ⟨l, g, i, hx, hs⟩ | ⟨o, r, hx, -, hs⟩ := object_fires hf
    · obtain ⟨hstart, hwait⟩ := hok l g i s.mem hx
      rw [hx] at hmay ⊢
      rw [hs]
      exact h.2.ran rfl rfl hmay.1 (hmay.2 i s.mem) hstart hwait
    · rw [hx] at hmay ⊢
      rw [hs]
      exact h.2.heard rfl rfl hmay

theorem codes_le (cfg : Config) (log : List LinkEvent) :
    (codes cfg log).length ≤ log.countP fun e => ends e.exch := by
  unfold codes
  rw [List.length_filterMap_eq_countP]
  refine List.countP_mono_left fun e _ h => ?_
  obtain ⟨v, hv⟩ := Option.isSome_iff_exists.mp h
  obtain ⟨t, op, ans, fate⟩ := e
  cases op with
  | run l g =>
    cases l with
    | startEnd => rfl
    | _ => cases hv
  | await o => cases hv

/-- **One ceremony for one code**, in every run where no call passes a guard
that another call has passed and not yet spent. -/
theorem single_use (cfg : Config) (s : LinkState)
    (hr : ((approver cfg).lts sequential).Reachable s) : UsedOnce cfg s := by
  have h := (sound_inductive.reachable s hr).2
  refine ⟨(codes_le cfg s.log).trans h.startOnce, h.pinOnce, ?_, h.signOnce, h.releaseOnce⟩
  rcases h.first with hfirst | ⟨t, r, hw⟩
  · have hfirst : opened s.log = pinned s.log := hfirst
    simp only [hfirst, List.suffix_refl]
  · have hpolls : ((board s).stage t).polls = true := by rw [hw]; rfl
    have hnone : pinned s.log = [] := (h.polls t hpolls).2
    rw [hnone]
    exact List.nil_suffix

namespace Example

open RegistrationFirst.Example

/-- Nobody else is past the guard. -/
def undisputed (s : LinkState) : Stretch → Bool
  | .startBegin => (List.range s.threads.length).all fun t => stage s t ≠ .starting
  | .waitBegin => (List.range s.threads.length).all fun t => !(stage s t).polls
  | _ => true

theorem all_stages {s : LinkState} {p : Stage → Bool}
    (h : ((List.range s.threads.length).all fun t => p (stage s t)) = true)
    (hfresh : p .fresh = true) (hlog : ∀ e ∈ s.log, e.tid < s.threads.length) (t : Nat) :
    p (stage s t) = true := by
  by_cases ht : t < s.threads.length
  · exact List.all_eq_true.mp h t (List.mem_range.mpr ht)
  · have hstart : stage s t = .fresh := Pool.mon_start fun e he heq => ht (heq ▸ hlog e he)
    rw [hstart]
    exact hfresh

def judge : System.Judge sequential where
  may _ _ := true
  ok s e := match e.exch with
    | ⟨.run l _, _⟩ => undisputed s l && s.log.all fun e => e.tid < s.threads.length
    | _ => true
  may_iff _ _ _ := trivial
  ok_iff s e h l g i m hx := by
    rw [hx] at h
    have h := Bool.and_eq_true_iff.mp h
    have hlog (e : LinkEvent) (he : e ∈ s.log) : e.tid < s.threads.length :=
      of_decide_eq_true (List.all_eq_true.mp h.2 e he)
    refine ⟨fun hl _ t => ?_, fun hl _ t => ?_⟩
    · subst hl
      have hall := all_stages (p := fun w => w ≠ .starting) h.1 rfl hlog t
      exact of_decide_eq_true hall
    · subst hl
      have hall := all_stages (p := fun w => !w.polls) h.1 rfl hlog t
      exact Bool.not_eq_true' _ ▸ hall

/-- The request of another device. -/
def intruder : OpenedRequest :=
  { request with
    linkRequest := ⟨"other", some ⟨.text "inbox", []⟩⟩
    newDeviceId := "device:other" }

/-- The other request is in the slot. -/
def contested : ObjFate Input callbacks where
  input := ⟨5, .ok [3], .ok ()⟩
  answer
    | .openRequest .. => some (.ok intruder)
    | _ => none

end Example

open RegistrationFirst.Example in
/-- A whole ceremony. -/
theorem single_use_ceremony :
    ∃ s, ((approver config).lts sequential).Reachable s ∧ codes config s.log = ["code"] ∧
      pinned s.log = [request] ∧ s.mem.released = [⟨[9]⟩] ∧ UsedOnce config s := by
  obtain ⟨s, hr, hs⟩ := System.reachable_of_play (S := approver config) Example.judge smooth
    [.call .start, .go 0 3, .call (.waitForRequest 1), .go 1 7, .call (.approve 1),
    .go 2 20] (m := .new)
    (P := fun s => codes config s.log = ["code"] && pinned s.log = [request] &&
    s.mem.released = [⟨[9]⟩]) rfl (by decide +kernel)
  rw [Bool.and_eq_true, Bool.and_eq_true, decide_eq_true_iff, decide_eq_true_iff,
    decide_eq_true_iff] at hs
  exact ⟨s, hr, hs.1.1, hs.1.2, hs.2, single_use config s hr⟩

open RegistrationFirst.Example Example in
/-- Two overlapping waiters pin two requests, and both devices are certified. -/
theorem certified_twice :
    ∃ s, ((approver config).lts anyCeremony).Reachable s ∧ pinned s.log = [intruder, request] ∧
      (s.log.countP fun e => signs e.exch) = 2 ∧ s.mem.released.length = 2 ∧
      ¬ UsedOnce config s := by
  obtain ⟨s, hr, hs⟩ :=
    System.reachable_of_play (S := approver config) RegistrationFirst.Example.judge smooth
    [.call .start, .go 0 3, .call (.waitForRequest 1), .call (.waitForRequest 1),
    .go 2 1, .go 1 7, .call (.approve 1), .go 3 13,
      .go 2 4, .run 2 contested, .go 2 1, .call (.approve 1), .go 4 13] (m := .new)
    (P := fun s => pinned s.log = [intruder, request] && (s.log.countP fun e => signs e.exch) = 2 &&
    s.mem.released.length = 2)
    rfl (by decide +kernel)
  rw [Bool.and_eq_true, Bool.and_eq_true, decide_eq_true_iff, decide_eq_true_iff,
    decide_eq_true_iff] at hs
  obtain ⟨⟨hpinned, hsigns⟩, hreleased⟩ := hs
  refine ⟨s, hr, hpinned, hsigns, hreleased, fun h => ?_⟩
  have hresponses := h.responses
  rw [hreleased] at hresponses
  omega

end RezSdk.L4.SingleUse
