import RezSdk.L4Runs.RegistrationFirst

/-!
# A failed approval

An approval that fails should end the ceremony and drop its secrets. Some of
the failures of `approve` go through `terminate` (`Caught`): those of the
journal's `persistPending` and of `registerDevice`, a commit that does not
bind, a deadline, a confirmation that does not verify. The others leave the
approver as it is: minting, the cached device set, building and sealing the
response, publishing it, `markPublished`, a sleep, a warning.

* `tidy`: an ended ceremony keeps neither the code's secret nor what was pinned
  with it, in every run. The key pair of the rendezvous stays, in every run:
  `terminate` does not clear `#rendezvousKeyPair`.
* `closed_iff`: exactly when the approver is closed after `approve` has
  rejected.
-/
namespace RezSdk.L4.FailedApproval

open RezSdk.L1 RezSdk.L3.DeviceLink

abbrev Exch := Proc.Exch link

/-! ## The property -/

/-- The call throws at once and changes nothing. -/
def Refuses (p : Linking Unit) (s : Approver) : Prop :=
  ∃ l g k, p = .ask (.run l g) k ∧ ∀ i, g i s = s ∧ ∃ e, k (i, s) = .ret (.error e)

/-- The ceremony is over: the code's secret and what was pinned with it are gone,
and every call but `cancel` is refused. -/
structure Closed (cfg : Config) (s : Approver) : Prop where
  terminal : s.status.terminal = true
  psk : s.psk = none
  pinned : s.pinned = none
  refuses : ∀ c, c ≠ .cancel → Refuses (run cfg c) s

/-- The stretch is one that rejects through `terminate`, or sees that the
ceremony is cancelled. -/
def Caught : Exch → Bool
  | ⟨.run .approveFail _, _⟩ | ⟨.run .approveRelease _, _⟩ | ⟨.run .confirmBegin _,
      _⟩ | ⟨.run .confirmTop _, _⟩
  | ⟨.run .confirmFail _, _⟩ => true
  | _ => false

/-- An ended ceremony keeps no secret. -/
def Tidy (s : Approver) : Prop := s.status.terminal = true → s.psk = none ∧ s.pinned = none

/-! ## What the stretches do -/

/-- What is left when `approve` rejects right after this exchange. -/
def Fails : Exch → Prop
  | ⟨.run l g, (i, s)⟩ =>
    if Caught ⟨.run l g, (i, s)⟩ then (g i s).status.terminal = true else g i s = s
  | ⟨.await _, _⟩ => True

/-- Remembers the last exchange. -/
def monitor : Monitor link (Option Exch) where
  next _ x := some x
  may _
    | .run _ g => ∀ i s, Tidy s → Tidy (g i s)
    | .await _ => True

abbrev Lawful : Exch → Prop := fun _ => True

/-- The call may reject now. -/
def Ready (w : Option Exch) : Prop := ∃ x, w = some x ∧ Fails x

/-- A call of `approve` rejects only where it is ready to. -/
def Rejects {α : Type} (w : Option Exch) (x : Except Err α) : Prop := ∀ e, x = .error e → Ready w

section

variable {α β : Type} {cfg : Config} {w : Option Exch}

theorem tidy_terminate (s : Approver) (st : Status) : Tidy (s.terminate st) := fun _ => ⟨rfl, rfl⟩

theorem tidy_live {s : Approver} (h : s.status.terminal = false) : Tidy s := by
  intro ht
  rw [h] at ht
  cases ht

theorem obeys_stretch {l : Stretch} {f : Input → Approver → Except Err α × Approver}
    {Q : Option Exch → Except Err α → Prop} (htidy : ∀ i s, Tidy s → Tidy (f i s).2)
    (hq : ∀ i s, Q (some ⟨.run l fun i s => (f i s).2, (i, s)⟩) (f i s).1) :
    Obeys monitor Lawful Q w (stretch l f : Linking α) := ⟨htidy, fun x _ => hq x.1 x.2⟩

theorem obeys_await {o : LinkCall} {f : callbacks.Ans o → Linking α}
    {Q : Option Exch → Except Err α → Prop} (hf : ∀ r w, Ready w → Obeys monitor Lawful Q w (f r)) :
    Obeys monitor Lawful Q w (.ask (.await o) f : Linking α) :=
  ⟨trivial, fun r _ => hf r _ ⟨_, rfl, trivial⟩⟩

/-- From a place where it may reject, the program gets to such a place. -/
def Steady (p : Linking α) : Prop := ∀ w, Ready w → Obeys monitor Lawful (fun w _ => Ready w) w p

theorem steady_ret {x : Except Err α} : Steady (.ret x : Linking α) := fun _ h => h

theorem steady_await {o : LinkCall} {f : callbacks.Ans o → Linking α} (hf : ∀ r, Steady (f r)) :
    Steady (.ask (.await o) f : Linking α) := fun _ _ => obeys_await fun r w hw => hf r w hw

/-- A stretch that only reads. -/
theorem steady_read {l : Stretch} {f : Input → Approver → Except Err α}
    (hl : ∀ g x, Caught ⟨.run l g, x⟩ = false) :
    Steady (stretch l fun i s => (f i s, s) : Linking α) := fun _ _ =>
  obeys_stretch (fun _ _ h => h) fun i s => ⟨_, rfl, by
    unfold Fails
    dsimp only
    rw [hl, if_neg Bool.false_ne_true]⟩

theorem steady_bind {p : Linking α} {f : α → Linking β} (hp : Steady p) (hf : ∀ a, Steady (f a)) :
    Steady (p >>= f : Linking β) := by
  intro w hw
  refine obeys_js_bind ((hp w hw).mono fun w x hw => ?_)
  cases x with
  | error e => exact hw
  | ok a => exact hf a w hw

theorem steady_orThrow {x : Option α} {e : Err} : Steady (Js.orThrow x e : Linking α) := by
  cases x <;> exact steady_ret

theorem steady_ensure {c : Bool} {e : Err} : Steady (Js.ensure c e : Linking Unit) := by
  cases c <;> exact steady_ret

/-- After a steady program. -/
theorem Steady.bind {p : Linking α} {f : α → Linking β} {Q : Option Exch → Except Err β → Prop}
    (hp : Steady p) (hw : Ready w) (herror : ∀ w e, Ready w → Q w (.error e))
    (hf : ∀ a w, Ready w → Obeys monitor Lawful Q w (f a)) :
    Obeys monitor Lawful Q w (p >>= f : Linking β) := by
  refine obeys_js_bind ((hp w hw).mono fun w x hw => ?_)
  cases x with
  | error e => exact herror w e hw
  | ok a => exact hf a w hw

/-! ## approve -/

theorem rejects_error {w : Option Exch} {e : Err} (h : Ready w) :
    Rejects w (.error e : Except Err α) := fun _ _ => h

theorem rejects_ok {w : Option Exch} {x : α} : Rejects w (.ok x : Except Err α) := fun _ h => by
  cases h

/-- A stretch that ends the ceremony and rejects. -/
theorem obeys_caught {l : Stretch} {st : Status} {f : Input → Approver → Err}
    {Q : Option Exch → Except Err α → Prop} (hl : ∀ g x, Caught ⟨.run l g, x⟩ = true)
    (hst : st.terminal = true) (herror : ∀ w e, Ready w → Q w (.error e)) :
    Obeys monitor Lawful Q w (stretch l fun i s => (.error (f i s), s.terminate st) : Linking α) :=
  obeys_stretch (fun _ s _ => tidy_terminate s st) fun i s => herror _ _ ⟨_, rfl, by
    unfold Fails
    dsimp only
    rw [hl, if_pos rfl]
    exact hst⟩

theorem steady_mintLeafCert {key : String} {nowMs : Nat} :
    Obeys monitor Lawful (fun w _ => Ready w) w (mintLeafCert cfg key nowMs) := by
  refine obeys_js_bind (obeys_await fun sig w hw => ?_)
  cases sig with
  | error e => exact hw
  | ok sig =>
    refine (steady_bind steady_ensure fun _ =>
      steady_bind (steady_await fun _ => steady_ret) fun ok => ?_) w hw
    refine steady_bind steady_ensure fun _ => steady_bind ?_ fun _ => steady_ret
    exact steady_ret (x := cfg.lib.checkCapability _)

theorem steady_sealedResponse {pinned : OpenedRequest} {atMs : Nat} {cert : LeafCert} :
    Steady (sealedResponse cfg pinned atMs cert) := by
  have hcached : Steady (cachedDeviceSet cfg) := by
    unfold cachedDeviceSet
    cases cfg.hasCachedDeviceSet with
    | true => exact steady_await (o := .cachedDeviceSet) fun _ => steady_ret
    | false => exact steady_ret (x := .ok none)
  refine steady_bind hcached fun cached => steady_bind (steady_read fun _ _ => rfl) fun keys => ?_
  refine steady_bind steady_orThrow fun keys =>
    steady_bind (steady_await fun _ => steady_ret) fun response => ?_
  exact steady_bind (steady_read fun _ _ => rfl) fun _ =>
    steady_bind (steady_await fun _ => steady_ret) fun _ => steady_ret

/-- A callback whose failure ends the ceremony. -/
theorem obeys_orFail {o : LinkCall} {f : callbacks.Ans o → Linking α} {wrapped : Err → Err}
    {Q : Option Exch → Except Err α → Prop} (hf : ∀ r, Steady (f r))
    (hok : ∀ x w, Ready w → Q w (.ok x)) (herror : ∀ w e, Ready w → Q w (.error e)) :
    Obeys monitor Lawful Q w (orFail (.ask (.await o) f) wrapped) := by
  refine obeys_attempt (obeys_await fun r w hw => (hf r w hw).mono fun w x hw => ?_)
  cases x with
  | ok x => exact hok x w hw
  | error e => exact obeys_caught (fun _ _ => rfl) rfl herror

/-- The checks at the top of a round. -/
theorem confirmTop_cases (i : Input) (s : Approver) :
    (∃ e, confirmTop i s = (.error e, s) ∧ s.status = .cancelled) ∨
    (∃ e, confirmTop i s = (.error e, s.terminate .failed)) ∨
    ∃ top, confirmTop i s = (.ok top, s) := by
  unfold confirmTop
  split
  · exact .inl ⟨_, rfl, ‹_›⟩
  · split
    · exact .inr (.inl ⟨_, rfl⟩)
    · exact .inr (.inr ⟨_, rfl⟩)

theorem tidy_confirmTop {i : Input} {s : Approver} (h : Tidy s) : Tidy (confirmTop i s).2 := by
  obtain ⟨e, heq, -⟩ | ⟨e, heq⟩ | ⟨top, heq⟩ := confirmTop_cases i s <;> rw [heq]
  · exact h
  · exact tidy_terminate s .failed
  · exact h

/-- When the checks reject, the ceremony is over. -/
theorem confirmTop_over {i : Input} {s : Approver} {e : Err} (h : (confirmTop i s).1 = .error e) :
    (confirmTop i s).2.status.terminal = true := by
  obtain ⟨e, heq, hs⟩ | ⟨e, heq⟩ | ⟨top, heq⟩ := confirmTop_cases i s <;> rw [heq] at h ⊢
  · dsimp only
    rw [hs]
    rfl
  · rfl
  · cases h

theorem steady_pollGet {id : RecordId} {keys : Option Keys} : ∀ w : Option Exch,
    Obeys monitor Lawful (fun _ x => ∃ record, x = .ok record) w (pollGet id keys) := by
  intro w
  cases keys with
  | none => exact ⟨none, rfl⟩
  | some keys =>
    refine obeys_attempt (obeys_await fun record w _ => ?_)
    cases record with
    | ok record => exact ⟨record, rfl⟩
    | error e => exact ⟨none, rfl⟩

theorem obeys_confirms {nowMs : Nat} {record : CeremonyRecord} {response : Response} :
    ∀ w : Option Exch,
      Obeys monitor Lawful (fun _ x => ∃ confirmed, x = .ok confirmed) w
        (confirms nowMs record response) := by
  intro w
  have hread : Steady (stretch .confirmVerify fun _ s => (.ok s.rendezvousKeyPair,
      s) : Linking (Option Keys)) :=
    steady_read fun _ _ => rfl
  refine obeys_attempt (obeys_js_bind (obeys_stretch (fun _ _ h => h) fun i s => ?_))
  have hready : Ready (some ⟨.run .confirmVerify fun _ s => s, (i, s)⟩) := ⟨_, rfl, rfl⟩
  refine ((?_ : Steady _) _ hready).mono fun _ x _ => ?_
  · refine steady_bind steady_orThrow fun keys => ?_
    exact steady_bind (steady_await fun _ => steady_ret) fun _ => steady_await fun _ => steady_ret
  · cases x with
    | ok confirmed => exact ⟨confirmed, rfl⟩
    | error e => exact ⟨false, rfl⟩

theorem obeys_confirmRounds {pinned : OpenedRequest} {cert : LeafCert} {response : Response} :
    ∀ {n : Nat} {interval : ℚ} {top : Nat × Option Keys} {w : Option Exch},
      Obeys monitor Lawful Rejects w (confirmRounds cfg pinned cert response n interval top)
  | 0, _, _, _ => ⟨trivial, fun r => nomatch r⟩
  | n + 1, interval, (nowMs, keys), w => by
    refine obeys_js_bind ((steady_pollGet w).mono ?_)
    rintro w _ ⟨record, rfl⟩
    cases record with
    | none =>
      refine obeys_js_bind
        (obeys_js_bind (obeys_stretch (fun _ _ h => h) fun _ _ => obeys_await fun slept w hw => ?_))
      cases slept with
      | error e => exact rejects_error hw
      | ok _ =>
        refine obeys_js_bind (obeys_stretch (fun _ _ => tidy_confirmTop) fun i s => ?_)
        cases htop : (confirmTop i s).1 with
        | error e => exact rejects_error ⟨_, rfl, confirmTop_over htop⟩
        | ok top => exact obeys_confirmRounds
    | some record =>
      refine obeys_js_bind ((obeys_confirms w).mono ?_)
      rintro w _ ⟨confirmed, rfl⟩
      cases confirmed with
      | true =>
        refine obeys_attempt (obeys_await fun marked w _ =>
          obeys_stretch (fun i s h => ?_) fun i s => ?_)
        · rcases finish_cases _ marked i s with heq | ⟨e, heq⟩ <;> rw [heq]
          · exact tidy_terminate s .done
          · exact h
        · intro e he
          rcases finish_cases _ marked i s with heq | ⟨e, heq⟩
          · rw [heq] at he
            cases he
          · exact ⟨_, rfl, congrArg Prod.snd heq⟩
      | false => exact obeys_caught (fun _ _ => rfl) rfl fun _ _ => rejects_error

theorem obeys_approve {rounds : Nat} : Obeys monitor Lawful Rejects w (approve cfg rounds) := by
  refine obeys_js_bind (obeys_stretch (fun i s h => ?_) fun i s => ?_)
  · split
    · exact tidy_live rfl
    · exact h
  · split
    · rename_i pinned hs hpinned
      refine obeys_js_bind (steady_mintLeafCert.mono fun w cert hw => ?_)
      cases cert with
      | error e => exact rejects_error hw
      | ok cert =>
        refine steady_sealedResponse.bind hw (fun _ _ => rejects_error) fun x w hw => ?_
        refine obeys_js_bind (obeys_js_bind (obeys_stretch (fun _ _ h => h) fun _ s => ?_))
        refine obeys_orFail (fun _ => steady_ret) (fun _ w hw => ?_) fun _ _ => rejects_error
        refine obeys_js_bind (obeys_orFail (fun _ => steady_ret) (fun commit w hw => ?_) fun _ _ =>
          rejects_error)
        refine obeys_js_bind (obeys_js_bind ?_)
        cases hbinds : binds pinned cert commit with
        | false => exact obeys_caught (fun _ _ => rfl) rfl fun _ _ => rejects_error
        | true =>
          refine obeys_stretch (fun _ _ h => h) fun _ _ => ?_
          refine obeys_js_bind (obeys_await fun put w hw => ?_)
          cases put with
          | error e => exact rejects_error hw
          | ok _ =>
            refine obeys_await fun marked w hw => ?_
            cases marked with
            | error e => exact rejects_error hw
            | ok _ =>
              refine obeys_js_bind (obeys_stretch (fun i s _ => ?_) fun i s => ?_)
              · exact tidy_confirmTop (tidy_live rfl)
              · cases htop : (confirmTop i { s with status := .waitingConfirm }).1 with
                | error e => exact rejects_error ⟨_, rfl, confirmTop_over htop⟩
                | ok top => exact obeys_confirmRounds
    · rename_i hnot
      refine rejects_error ⟨_, rfl, ?_⟩
      unfold Fails
      dsimp only
      split
      · rename_i h
        cases h
      · split
        · rename_i pinned hs hpinned
          exact absurd hpinned (hnot pinned hs)
        · rfl

/-! ## The other calls -/

def Keeps : link.Op → Prop := monitor.may none

theorem obeys_all {p : Linking α} (hp : Proc.All Keeps p) :
    ∀ {w : Option Exch}, Obeys monitor Lawful (fun _ _ => True) w p := by
  induction p with
  | ret x => exact trivial
  | ask o k ih => exact ⟨by cases o <;> exact hp.1, fun r _ => ih r (hp.2 r)⟩

theorem keeps_await {o : LinkCall} {f : callbacks.Ans o → Linking α}
    (hf : ∀ r, Proc.All Keeps (f r)) : Proc.All Keeps (.ask (.await o) f : Linking α) :=
  ⟨trivial, hf⟩

theorem keeps_stretch {l : Stretch} {f : Input → Approver → Except Err α × Approver}
    (hf : ∀ i s, Tidy s → Tidy (f i s).2) : Proc.All Keeps (stretch l f : Linking α) :=
  ⟨hf, fun _ => trivial⟩

theorem keeps_start : Proc.All Keeps (start cfg) := by
  refine Js.all_bind (keeps_stretch fun i s h => ?_) fun psk =>
    Js.all_bind (keeps_await fun _ => trivial) fun keys => ?_
  · split
    · exact h
    · rename_i hs
      rw [not_not] at hs
      cases i.psk with
      | error e => exact h
      | ok psk => exact tidy_live (by rw [hs]; rfl)
  · exact keeps_stretch fun i s _ => tidy_live rfl

theorem tidy_pollTop {i : Input} {s : Approver} (h : Tidy s) : Tidy (pollTop i s).2 := by
  unfold pollTop
  split
  · exact h
  · split
    · exact tidy_terminate s .expired
    · exact h

theorem keeps_pollGet {id : RecordId} {keys : Option Keys} : Proc.All Keeps (pollGet id keys) := by
  cases keys with
  | none => trivial
  | some keys =>
    exact Js.all_attempt (keeps_await fun _ => trivial) fun record => by cases record <;> trivial

theorem keeps_openAndPin {atMs : Nat} {record : CeremonyRecord} :
    Proc.All Keeps (openAndPin atMs record) := by
  refine Js.all_bind (keeps_stretch fun _ _ h => h) fun keys =>
    Js.all_bind (Js.all_orThrow ..) fun keys => ?_
  refine Js.all_bind (keeps_await fun _ => trivial) fun payload =>
    Js.all_bind (keeps_stretch fun _ _ h => h) fun psk => ?_
  refine Js.all_bind (Js.all_orThrow ..) fun keys =>
    Js.all_bind (keeps_await fun _ => trivial) fun opened => ?_
  exact keeps_stretch fun _ _ _ => tidy_live rfl

theorem keeps_waitRounds :
    ∀ {n : Nat} {interval : ℚ} {top : Nat × Option Keys},
      Proc.All Keeps (waitRounds cfg n interval top)
  | 0, _, _ => ⟨trivial, fun r => nomatch r⟩
  | n + 1, interval, (atMs, keys) => by
    have hagain : Proc.All Keeps ((do
        pollSleep cfg .waitRest interval
        let top ← stretch .waitTop pollTop
        waitRounds cfg n (nextInterval cfg interval) top) : Linking OpenedRequest) := by
      refine Js.all_bind (Js.all_bind (keeps_stretch fun _ _ h => h) fun _ =>
        keeps_await fun _ => trivial) fun _ => ?_
      exact Js.all_bind (keeps_stretch fun _ _ h => tidy_pollTop h) fun _ => keeps_waitRounds
    refine Js.all_bind keeps_pollGet fun record => ?_
    cases record with
    | none => exact hagain
    | some record =>
      refine Js.all_attempt keeps_openAndPin fun x => ?_
      cases x with
      | ok opened => trivial
      | error e =>
        dsimp only
        split
        · exact keeps_stretch fun _ s _ => tidy_terminate s .failed
        · exact hagain

theorem keeps_waitForRequest {rounds : Nat} : Proc.All Keeps (waitForRequest cfg rounds) := by
  refine Js.all_bind (keeps_stretch fun i s h => ?_) fun _ => keeps_waitRounds
  split
  · exact h
  · exact tidy_pollTop h

/-- A call that rejects, seen from the call it belongs to. -/
def Ended (c : Call) (w : Option Exch) (x : Except Err Unit) : Prop :=
  match c with
  | .approve _ => Rejects w x
  | _ => True

theorem obeys_run (c : Call) : Obeys monitor Lawful (Ended c) none (run cfg c) := by
  cases c with
  | start => exact obeys_all (Js.all_bind (f := fun _ => pure ()) keeps_start fun _ => trivial)
  | waitForRequest rounds =>
    exact obeys_all (Js.all_bind (f := fun _ => pure ()) keeps_waitForRequest fun _ => trivial)
  | approve rounds =>
    refine obeys_js_bind (obeys_approve.mono fun w x h => ?_)
    cases x with
    | error e => exact rejects_error (h e rfl)
    | ok _ => exact rejects_ok
  | cancel => exact obeys_all (keeps_stretch fun _ s _ => tidy_terminate s .cancelled)

end

/-! ## Every run -/

abbrev Conforms : LinkState → Prop := System.Conforms monitor Lawful (fun _ => none) Ended

variable {cfg : Config} {s s' : LinkState} {e : Event link (ObjFate Input callbacks)} {c : Call}
  {k : link.Ans e.op → Proc link (Except Err Unit)}

theorem event_tidy (h : Conforms s) (hf : Pool.Fires (approver cfg) s e c k s') (ht : Tidy s.mem) :
    Tidy s'.mem := by
  have hmay : monitor.may _ e.exch.op := h.may hf
  obtain ⟨l, g, i, hx, hs⟩ | ⟨o, r, hx, -, hs⟩ := object_fires hf
  · rw [hx] at hmay
    rw [hs]
    exact hmay i s.mem ht
  · rw [hs]
    exact ht

/-- An ended ceremony keeps no secret, whatever the interleaving. -/
theorem tidy : ((approver cfg).lts anyCeremony).Inductive fun s => Conforms s ∧ Tidy s.mem := by
  refine System.inductive_of (fun m hm => ⟨System.conforms_init m, ?_⟩)
    (fun s c h _ => ⟨?_, h.2⟩) ?_
  · rw [hm]
    exact tidy_live rfl
  · exact System.conforms_spawn h.1 (obeys_run c)
  · intro s e c k s' h hf _
    exact ⟨System.conforms_fires h.1 hf trivial, event_tidy h.1 hf h.2⟩

theorem refuses_of_terminal {m : Approver} (h : m.status.terminal = true) (c : Call)
    (hc : c ≠ .cancel) : Refuses (run cfg c) m := by
  have hidle : m.status ≠ .idle := by
    rintro hs
    rw [hs] at h
    cases h
  have hwaiting : m.status ≠ .waitingRequest := by
    rintro hs
    rw [hs] at h
    cases h
  cases c with
  | start =>
    refine ⟨_, _, _, rfl, fun i => ⟨?_, ?_⟩⟩
    · dsimp only
      rw [if_pos hidle]
    · dsimp only
      rw [if_pos hidle]
      exact ⟨_, rfl⟩
  | waitForRequest rounds =>
    refine ⟨_, _, _, rfl, fun i => ⟨?_, ?_⟩⟩
    · dsimp only
      rw [if_pos hwaiting]
    · dsimp only
      rw [if_pos hwaiting]
      exact ⟨_, rfl⟩
  | approve rounds =>
    refine ⟨_, _, _, rfl, fun i => ?_⟩
    dsimp only
    split
    · rename_i hs _
      rw [hs] at h
      cases h
    · exact ⟨rfl, _, rfl⟩
  | cancel => exact absurd rfl hc

theorem closed_of_terminal {m : Approver} (ht : Tidy m) (h : m.status.terminal = true) :
    Closed cfg m :=
  ⟨h, (ht h).1, (ht h).2, refuses_of_terminal h⟩

/-- **Exactly when the approver is closed after a failed approval**: the step
that failed is one of those that are caught, or the ceremony had ended before. -/
theorem closed_iff (cfg : Config) (s s' : LinkState) (e : Event link (ObjFate Input callbacks))
    (rounds : Nat) (k : link.Ans e.op → Proc link (Except Err Unit)) (err : Err)
    (hr : ((approver cfg).lts anyCeremony).Reachable s)
    (hf : Pool.Fires (approver cfg) s e (.approve rounds) k s')
    (hrejects : k e.ans = .ret (.error err)) :
    Closed cfg s'.mem ↔ Caught e.exch = true ∨ s.mem.status.terminal = true := by
  obtain ⟨hconforms, htidy⟩ := tidy.reachable s hr
  have htidy' := event_tidy hconforms hf htidy
  have hlt : e.tid < s.threads.length := (List.getElem?_eq_some_iff.mp hf.thread).1
  have hthread : s'.threads[e.tid]? = some ⟨.approve rounds, .ret (.error err)⟩ := by
    rw [hf.threads, List.getElem?_set_self hlt, hrejects]
  have hresult : Rejects (Pool.mon monitor none e.tid s'.log) (.error err : Except Err Unit) :=
    (System.conforms_fires hconforms hf trivial).result hthread
  obtain ⟨x, hx, hfails⟩ := hresult err rfl
  rw [hf.log, Pool.mon_self] at hx
  cases hx
  obtain ⟨l, g, i, hexch, hs⟩ | ⟨o, r, hexch, -, hs⟩ := object_fires hf
  · rw [hexch] at hfails ⊢
    unfold Fails at hfails
    dsimp only at hfails
    split at hfails
    · rename_i hcaught
      rw [← hs] at hfails
      exact ⟨fun _ => .inl hcaught, fun _ => closed_of_terminal htidy' hfails⟩
    · rename_i hcaught
      have hsame : s'.mem = s.mem := hs.trans hfails
      rw [hsame]
      exact ⟨fun h => .inr h.terminal, fun h => closed_of_terminal htidy (h.resolve_left hcaught)⟩
  · have hsame : s'.mem = s.mem := hs
    rw [hexch, hsame]
    exact ⟨fun h => .inr h.terminal, fun h => closed_of_terminal htidy (h.resolve_left nofun)⟩

/-! ## Runs -/

namespace Example

open RegistrationFirst.Example

/-- The account key cannot be used, and the home does not answer. -/
def failing : ObjFate Input callbacks where
  input := ⟨5, .ok [3], .ok ()⟩
  answer
    | .accountSign _ => some (.error { message := "locked" })
    | .registerDevice _ => some (.error { message := "offline" })
    | _ => none

/-- The next event of call `t` makes `approve` reject; `P` looks at the
exchange and at what it leaves. -/
def rejectsNext (s : LinkState) (t : Nat) (f : ObjFate Input callbacks)
    (P : Exch → Approver → Bool) : Bool :=
  match s.threads[t]? with
  | some ⟨.approve _, .ask o k⟩ =>
    match (approver config).act t s.mem o f with
    | some (r, m) =>
      match k r with
      | .ret (.error _) => P ⟨o, r⟩ m
      | _ => false
    | none => false
  | _ => false

theorem fires_of_rejectsNext {s : LinkState} {t : Nat} {f : ObjFate Input callbacks}
    {P : Exch → Approver → Bool} (h : rejectsNext s t f P = true) :
    ∃ rounds e k err s', Pool.Fires (approver config) s e (.approve rounds) k s' ∧
      k e.ans = .ret (.error err) ∧ P e.exch s'.mem = true := by
  unfold rejectsNext at h
  split at h
  · rename_i rounds o k hthread
    split at h
    · rename_i r m hact
      split at h
      · rename_i err hk
        exact ⟨rounds, ⟨t, o, r, f⟩, k, err,
          ⟨m, s.threads.set t ⟨.approve rounds, k r⟩, ⟨t, o, r, f⟩ :: s.log⟩,
          ⟨hthread, hact, rfl, rfl⟩, hk, h⟩
      · cases h
    · cases h
  · cases h

end Example

open Example RegistrationFirst.Example in
/-- The home cannot be reached: the ceremony is over. -/
theorem closed_unregistered :
    ∃ s s' e rounds k err, ((approver config).lts anyCeremony).Reachable s ∧
      Pool.Fires (approver config) s e (.approve rounds) k s' ∧ k e.ans = .ret (.error err) ∧
      Closed config s'.mem := by
  obtain ⟨s, hr, hs⟩ := System.reachable_of_play (S := approver config) judge smooth
    [.call .start, .go 0 3, .call (.waitForRequest 1), .go 1 7, .call (.approve 1),
    .go 2 9, .run 2 failing] (m := .new)
    (P := fun s => rejectsNext s 2 (smooth 0 (.await .stall)) fun x _ => Caught x) rfl
    (by decide +kernel)
  obtain ⟨rounds, e, k, err, s', hf, hk, hcaught⟩ := fires_of_rejectsNext hs
  exact ⟨s, s', e, rounds, k, err, hr, hf, hk,
    (closed_iff config s s' e rounds k err hr hf hk).mpr (.inl hcaught)⟩

open Example RegistrationFirst.Example in
/-- The account key cannot sign: `approve` rejects, and the approver keeps the
shared secret and the request, with a status from which nothing goes on. -/
theorem secrets_kept :
    ∃ s s' e rounds k err, ((approver config).lts anyCeremony).Reachable s ∧
      Pool.Fires (approver config) s e (.approve rounds) k s' ∧ k e.ans = .ret (.error err) ∧
      s'.mem.status = .responding ∧ s'.mem.psk = some [3] ∧ s'.mem.pinned = some request ∧
      ¬ Closed config s'.mem := by
  obtain ⟨s, hr, hs⟩ := System.reachable_of_play (S := approver config) judge smooth
    [.call .start, .go 0 3, .call (.waitForRequest 1), .go 1 7, .call (.approve 1),
    .go 2 1] (m := .new)
    (P := fun s => rejectsNext s 2 failing fun _ m => m.status = .responding &&
    m.psk = some [3] && m.pinned = some request) rfl
    (by decide +kernel)
  obtain ⟨rounds, e, k, err, s', hf, hk, hs'⟩ := fires_of_rejectsNext hs
  rw [Bool.and_eq_true, Bool.and_eq_true, decide_eq_true_iff, decide_eq_true_iff,
    decide_eq_true_iff] at hs'
  obtain ⟨⟨hstatus, hpsk⟩, hpinned⟩ := hs'
  refine ⟨s, s', e, rounds, k, err, hr, hf, hk, hstatus, hpsk, hpinned, fun h => ?_⟩
  have hterminal := h.terminal
  rw [hstatus] at hterminal
  cases hterminal

end RezSdk.L4.FailedApproval
