import RezSdk.L3Service.ConnectionStateMachine

/-!
# Stray reconnects

A reconnect timer should not be armed while the machine is connected, and after
`disconnect` nothing but another `connect` should bring the connection back.
`connect` looks at neither when it goes on after an await.

* `no_stray`: in every run where the timer is not armed while a `connect` is in
  progress, and no `connect` gets past an await once it was hung up.
* `strayed`: a transport state that arrives during `connect` leaves a timer
  behind, and a `connect` that is in progress survives `disconnect`.
-/
namespace RezSdk.L4.StrayReconnects

open RezSdk.L1 RezSdk.L3.Connection

abbrev ConnEvent := Event machine (ObjFate Unit outside)

variable {r : ReconnectOptions}

/-! ## Where a call stands -/

inductive Watch
  | idle
  /-- a `connect` is in progress -/
  | going
  | ended
deriving DecidableEq

/-- The stretches a call may run from where it stands. -/
def Legal : Watch → Stretch → Prop
  | .going, .listen => True
  | .going, .authenticating => True
  | .going, .connected => True
  | .going, .failed => True
  | .idle, .begin => True
  | .idle, .fired => True
  | .idle, .heard _ => True
  | .idle, .hangUp => True
  | .ended, .hungUp => True
  | .ended, .reconnected => True
  | .ended, .retry => True
  | _, _ => False

def follow (s : Fields) : Stretch → Watch
  | .begin => .going
  | .fired => if s.fired.1 then .going else .ended
  | .listen => .going
  | .authenticating => .going
  | _ => .ended

def monitor (r : ReconnectOptions) : Monitor machine Watch where
  next
    | _, ⟨.run l _, (_, s)⟩ => follow s l
    | w, _ => w
  may w
    | .run l g => (g = fun _ s => l.apply r s) ∧ Legal w l
    | .await _ => True

abbrev watch (r : ReconnectOptions) : ConnState → Nat → Option Watch :=
  System.view (monitor r) fun _ => .idle

/-! ## The property -/

/-- The stretch that an event ran. -/
def ran (e : ConnEvent) : Option Stretch :=
  match e.op with
  | .run l _ => some l
  | .await _ => none

/-- `disconnect` was called, and `connect` was not called since. -/
def HungUp : List ConnEvent → Prop
  | [] => False
  | e :: log => ran e = some .hangUp ∨ ran e ≠ some .begin ∧ HungUp log

def Active : ConnectionState → Bool
  | .disconnected => false
  | .failed => false
  | _ => true

structure NoStray (s : ConnState) : Prop where
  connected : s.mem.state = .connected → s.mem.reconnectTimer = false
  /-- no event makes the state active any more -/
  quiet : ∀ newer e older, s.log = newer ++ e :: older → HungUp (e :: older) →
    ∀ l g i m, e.exch = ⟨.run l g, (i, m)⟩ → (g i m).state = m.state ∨ Active (g i m).state = false

/-- `#scheduleReconnect` would arm the timer. -/
def schedules (r : ReconnectOptions) (s : Fields) : Bool :=
  !s.closed && !s.reconnectTimer && !r.exhausted (s.reconnectAttempts + 1)

/-- The transport state would arm the timer. -/
def arms (r : ReconnectOptions) (s : Fields) (phase : String) : Bool :=
  s.listening && (phase == "disconnected" || phase == "error") &&
    decide (s.state ≠ .disconnected) &&
    decide (s.state ≠ .reconnecting) && r.enabled && schedules r s

/-- No `connect` is in progress. -/
def Free (r : ReconnectOptions) (s : ConnState) : Prop := ∀ t, watch r s t ≠ some .going

/-- What may run next: a `connect` goes on only while it was not hung up, a
transport state arms the timer only when no `connect` is in progress, and a
failed reconnect does so only when no other has taken its place. -/
def Calm (r : ReconnectOptions) (s : ConnState) : Stretch → Prop
  | .authenticating => s.mem.closed = false
  | .connected => s.mem.closed = false
  | .heard phase => arms r s.mem phase = true → Free r s
  | .retry => schedules r s.mem = true → Free r s ∧ s.mem.state ≠ .connected
  | _ => True

def calm (r : ReconnectOptions) : ConnRules where
  init s := s = .new
  may _ _ := True
  ok s e := ∀ l, ran e = some l → Calm r s l

/-! ## The calls obey -/

section

variable {α : Type} {Q : Watch → Except Err α → Prop}

theorem obeys_does {l : Stretch} {w : Watch} {f : Unit → Connecting α} (hl : Legal w l)
    (hf : ∀ s, Obeys (monitor r) (fun _ => True) Q (follow s l) (f ())) :
    Obeys (monitor r) (fun _ => True) Q w (does r l >>= f : Connecting α) :=
  obeys_js_bind ⟨⟨rfl, hl⟩, fun x _ => hf x.2⟩

theorem obeys_connectRest {Q : Watch → Except Err Unit → Prop} (hQ : ∀ x, Q .ended x) :
    Obeys (monitor r) (fun _ => True) Q .going (connectRest r) := by
  refine obeys_attempt ?_
  -- whatever fails, the rest is one stretch
  have hfailed (err : Err) : Obeys (monitor r) (fun _ => True) Q .going
      (stretch .failed fun _ s => (if s.closed then .ok () else .error err,
      Stretch.failed.apply r s) : Connecting Unit) :=
    ⟨⟨rfl, trivial⟩, fun x _ => hQ _⟩
  unfold establish
  refine obeys_js_bind ⟨trivial, fun _ _ => ?_⟩
  refine obeys_does trivial fun s => ?_
  refine obeys_js_bind ⟨trivial, fun x _ => ?_⟩
  match x with
  | .error err => exact hfailed err
  | .ok () =>
    refine obeys_does trivial fun s => ?_
    refine obeys_js_bind ⟨trivial, fun x _ => ?_⟩
    match x with
    | .error err => exact hfailed err
    | .ok () => exact ⟨⟨rfl, trivial⟩, fun x _ => hQ _⟩

end

theorem obeys_run (c : Call) :
    Obeys (monitor r) (fun _ => True) (fun _ _ => True) .idle (run r c) := by
  cases c with
  | connect =>
    refine obeys_does trivial fun s => ?_
    exact obeys_connectRest fun _ => trivial
  | disconnect =>
    refine obeys_does trivial fun s => ?_
    exact obeys_js_bind ⟨trivial, fun _ _ => ⟨⟨rfl, trivial⟩, fun _ _ => trivial⟩⟩
  | state phase => exact ⟨⟨rfl, trivial⟩, fun _ _ => trivial⟩
  | timer =>
    refine obeys_js_bind ⟨⟨rfl, trivial⟩, fun x _ => ?_⟩
    change Obeys (monitor r) _ _ (if x.2.fired.1 then Watch.going else Watch.ended)
      (if x.2.fired.1 = true then Js.attempt (connectRest r) _ else (pure () : Connecting Unit))
    cases x.2.fired.1 with
    | false => trivial
    | true =>
      refine obeys_attempt (obeys_connectRest fun y => ?_)
      cases y with
      | ok u => exact ⟨⟨rfl, trivial⟩, fun _ _ => trivial⟩
      | error err => exact ⟨⟨rfl, trivial⟩, fun _ _ => trivial⟩

/-! ## Every run -/

section

variable {s : Fields}

/-- A timer is armed only by what schedules it. -/
theorem scheduleReconnect_timer (h : (s.scheduleReconnect r).reconnectTimer = true) :
    s.reconnectTimer = true ∨ schedules r s = true := by
  unfold Fields.scheduleReconnect at h
  unfold schedules
  grind [Fields.transition]

theorem scheduleReconnect_state :
    (s.scheduleReconnect r).state = s.state ∨ (s.scheduleReconnect r).state = .failed := by
  unfold Fields.scheduleReconnect
  grind [Fields.transition]

theorem heard_timer {phase : String} (h : (s.heard r phase).reconnectTimer = true) :
    s.reconnectTimer = true ∨ arms r s phase = true := by
  unfold Fields.heard Fields.onTransportDisconnect at h
  split at h
  · split at h
    · exact .inl h
    · split at h
      · exact .inl h
      · split at h
        · exact .inl h
        · split at h
          · exact .inl h
          · rcases scheduleReconnect_timer h with hold | hschedules
            · exact .inl hold
            · right
              have hschedules : schedules r s = true := hschedules
              unfold arms
              simp_all
  · exact .inl h

theorem heard_state {phase : String} (h : (s.heard r phase).state = .connected) :
    s.heard r phase = s := by
  unfold Fields.heard Fields.onTransportDisconnect at h ⊢
  grind [Fields.transition, scheduleReconnect_state]

/-- What was hung up stays so. -/
theorem heard_closed {phase : String} (h : s.closed = true) : s.heard r phase = s := by
  unfold Fields.heard Fields.onTransportDisconnect
  rw [if_pos h, ite_self]

theorem fired_closed (h : s.closed = true) :
    s.fired.2.closed = true ∧ s.fired.2.state = s.state := by
  unfold Fields.fired Fields.stopReconnectTimer
  grind

end

structure Inv (r : ReconnectOptions) (s : ConnState) : Prop where
  conforms : System.Conforms (monitor r) (fun _ => True) (fun _ => .idle) (fun _ _ _ => True) s
  noStray : NoStray s
  /-- an armed timer means that no `connect` is in progress -/
  armed : s.mem.reconnectTimer = true → Free r s
  hungUp : HungUp s.log → s.mem.closed = true

section

variable {s s' : ConnState} {e : ConnEvent} {c : Call}
  {k : machine.Ans e.op → Proc machine (Except Err Unit)}

/-- What an event does: it lets a call go on, or runs a stretch. -/
theorem turn
    (hc : System.Conforms (monitor r) (fun _ => True) (fun _ => .idle) (fun _ _ _ => True) s)
    (hf : Pool.Fires (connections r) s e c k s') :
    (s'.mem = s.mem ∧ ran e = none ∧ (∀ t, watch r s' t = watch r s t) ∧
      ∀ l g i m, e.exch ≠ ⟨.run l g, (i, m)⟩) ∨
    ∃ l w, ran e = some l ∧ s'.mem = l.apply r s.mem ∧ watch r s e.tid = some w ∧ Legal w l ∧
      watch r s' e.tid = some (follow s.mem l) ∧ (∀ t, e.tid ≠ t → watch r s' t = watch r s t) ∧
      ∀ l' g i m, e.exch = ⟨.run l' g, (i, m)⟩ → l' = l ∧ m = s.mem ∧ g i m = l.apply r s.mem := by
  have hmay := hc.may hf
  have hself : watch r s' e.tid = some _ := System.view_self hf
  have hbefore : watch r s e.tid = some _ := System.view_fired hf
  have hother (t : Nat) (ht : e.tid ≠ t) : watch r s' t = watch r s t := System.view_other hf ht
  generalize Pool.mon (monitor r) .idle e.tid s.log = w at hmay hself hbefore
  obtain ⟨l, g, i, hx, hmem⟩ | ⟨o, x, hx, -, hmem⟩ := object_fires hf
  · have hop : e.op = .run l g := congrArg Proc.Exch.op hx
    rw [hop] at hmay
    rw [hx] at hself
    obtain ⟨hg, hlegal⟩ := hmay
    subst hg
    refine .inr ⟨l, w, ?_, hmem, hbefore, hlegal, hself, hother, ?_⟩
    · unfold ran
      rw [hop]
    · intro l' g i' m hx'
      cases hx.symm.trans hx'
      exact ⟨rfl, rfl, rfl⟩
  · have hop : e.op = .await o := congrArg Proc.Exch.op hx
    rw [hx] at hself
    refine .inl ⟨hmem, ?_, fun t => ?_, ?_⟩
    · unfold ran
      rw [hop]
    · by_cases ht : e.tid = t
      · subst ht
        exact hself.trans hbefore.symm
      · exact hother t ht
    · intro l g i m hx'
      cases hx.symm.trans hx'

/-- What a stretch leaves armed was armed, or may be armed. -/
theorem apply_timer {l : Stretch} (hcalm : Calm r s l)
    (hfree : s.mem.reconnectTimer = true → Free r s) (h : (l.apply r s.mem).reconnectTimer = true) :
    Free r s ∧ l ≠ .begin ∧ l ≠ .fired := by
  cases l with
  | begin => cases h
  | hangUp => cases h
  | fired =>
    have h : s.mem.fired.2.reconnectTimer = true := h
    unfold Fields.fired at h
    grind [Fields.begin, Fields.stopReconnectTimer, Fields.transition]
  | heard phase =>
    rcases heard_timer h with hold | harms
    · exact ⟨hfree hold, nofun, nofun⟩
    · exact ⟨hcalm harms, nofun, nofun⟩
  | retry =>
    unfold Stretch.apply at h
    dsimp only at h
    split at h
    · exact ⟨hfree h, nofun, nofun⟩
    · rcases scheduleReconnect_timer h with hold | hschedules
      · exact ⟨hfree hold, nofun, nofun⟩
      · exact ⟨(hcalm hschedules).1, nofun, nofun⟩
  | failed =>
    unfold Stretch.apply at h
    dsimp only at h
    split at h
    · exact ⟨hfree h, nofun, nofun⟩
    · exact ⟨hfree h, nofun, nofun⟩
  | _ => exact ⟨hfree h, nofun, nofun⟩

/-- A stretch that leaves the machine connected leaves no timer. -/
theorem apply_connected {l : Stretch} {w : Watch} {t : Nat} (hcalm : Calm r s l) (h : Inv r s)
    (hw : watch r s t = some w) (hlegal : Legal w l)
    (hstate : (l.apply r s.mem).state = .connected) : (l.apply r s.mem).reconnectTimer = false := by
  have hkept := h.noStray.connected
  cases l with
  | connected =>
    -- the call that gets here is itself in progress
    have hgoing : watch r s t = some .going := by
      cases w with
      | going => exact hw
      | _ => exact hlegal.elim
    exact Bool.eq_false_iff.mpr fun harmed => h.armed harmed t hgoing
  | heard phase =>
    have hsame := heard_state hstate
    change (s.mem.heard r phase).reconnectTimer = false
    change (s.mem.heard r phase).state = .connected at hstate
    rw [hsame] at hstate ⊢
    exact hkept hstate
  | retry =>
    unfold Stretch.apply at hstate ⊢
    dsimp only at hstate ⊢
    split
    · rw [if_pos ‹_›] at hstate
      exact hkept hstate
    · rw [if_neg ‹_›] at hstate
      rcases scheduleReconnect_state (r := r) (s := s.mem) with hsame | hfailed
      · rw [hsame] at hstate
        refine Bool.eq_false_iff.mpr fun harmed => ?_
        rcases scheduleReconnect_timer harmed with hold | hschedules
        · rw [hkept hstate] at hold
          cases hold
        · exact (hcalm hschedules).2 hstate
      · rw [hfailed] at hstate
        cases hstate
  | failed =>
    unfold Stretch.apply at hstate ⊢
    dsimp only at hstate ⊢
    split
    · rw [if_pos ‹_›] at hstate
      exact hkept hstate
    · rw [if_neg ‹_›] at hstate
      cases hstate
  | fired =>
    change s.mem.fired.2.reconnectTimer = false
    unfold Fields.fired
    grind [Fields.begin, Fields.stopReconnectTimer, Fields.transition]
  | listen => exact hkept hstate
  | reconnected => exact hkept hstate
  | hangUp => rfl
  | _ => cases hstate

/-- A stretch of a machine that is hung up. -/
theorem apply_closed {l : Stretch} (hcalm : Calm r s l) (hclosed : s.mem.closed = true)
    (hl : l ≠ .begin) :
    (l.apply r s.mem).closed = true ∧
    ((l.apply r s.mem).state = s.mem.state ∨ Active (l.apply r s.mem).state = false) := by
  cases l with
  | begin => exact absurd rfl hl
  | authenticating => cases hclosed.symm.trans hcalm
  | connected => cases hclosed.symm.trans hcalm
  | heard phase =>
    change (s.mem.heard r phase).closed = true ∧ ((s.mem.heard r phase).state = _ ∨ _)
    rw [heard_closed hclosed]
    exact ⟨hclosed, .inl rfl⟩
  | fired =>
    obtain ⟨hstill, hsame⟩ := fired_closed hclosed
    exact ⟨hstill, .inl hsame⟩
  | failed =>
    unfold Stretch.apply
    dsimp only
    rw [if_pos hclosed]
    exact ⟨hclosed, .inl rfl⟩
  | retry =>
    unfold Stretch.apply
    dsimp only
    rw [if_pos hclosed]
    exact ⟨hclosed, .inl rfl⟩
  | hangUp => exact ⟨rfl, .inl rfl⟩
  | hungUp => exact ⟨hclosed, .inr rfl⟩
  | listen => exact ⟨hclosed, .inl rfl⟩
  | reconnected => exact ⟨hclosed, .inl rfl⟩

theorem Inv.fires (h : Inv r s) (hf : Pool.Fires (connections r) s e c k s')
    (hok : (calm r).ok s e) : Inv r s' := by
  have hconforms := System.conforms_fires h.conforms hf trivial
  obtain ⟨hmem, hran, hwatch, hnot⟩ | ⟨l, w, hran, hmem, hw, hlegal, hself, hother, hexch⟩ :=
    turn h.conforms hf
  · refine ⟨hconforms, ⟨?_, ?_⟩, ?_, ?_⟩
    · rw [hmem]
      exact h.noStray.connected
    · intro newer e' older hlog hhung l g i m hx
      rw [hf.log] at hlog
      cases newer with
      | nil =>
        cases hlog
        exact absurd hx (hnot l g i m)
      | cons e₁ newer =>
        rw [List.cons_append, List.cons.injEq] at hlog
        exact h.noStray.quiet newer e' older hlog.2 hhung l g i m hx
    · intro harmed t
      rw [hmem] at harmed
      rw [hwatch t]
      exact h.armed harmed t
    · intro hhung
      rw [hf.log] at hhung
      rw [hmem]
      rcases hhung with hhang | ⟨-, hhung⟩
      · cases hran.symm.trans hhang
      · exact h.hungUp hhung
  · have hcalm := hok l hran
    -- before and after this stretch, unless `connect` was called
    have hclosed (hhung : HungUp (e :: s.log)) :
        (l.apply r s.mem).closed = true ∧
        ((l.apply r s.mem).state = s.mem.state ∨ Active (l.apply r s.mem).state = false) := by
      rcases hhung with hhang | ⟨hbegin, hhung⟩
      · cases hran.symm.trans hhang
        exact ⟨rfl, .inl rfl⟩
      · refine apply_closed hcalm (h.hungUp hhung) ?_
        rintro rfl
        exact hbegin hran
    refine ⟨hconforms, ⟨?_, ?_⟩, ?_, ?_⟩
    · intro hstate
      rw [hmem] at hstate ⊢
      exact apply_connected hcalm h hw hlegal hstate
    · intro newer e' older hlog hhung l' g i m hx
      rw [hf.log] at hlog
      cases newer with
      | nil =>
        cases hlog
        obtain ⟨rfl, rfl, hg⟩ := hexch l' g i m hx
        rw [hg]
        exact (hclosed hhung).2
      | cons e₁ newer =>
        rw [List.cons_append, List.cons.injEq] at hlog
        exact h.noStray.quiet newer e' older hlog.2 hhung l' g i m hx
    · intro harmed t
      rw [hmem] at harmed
      obtain ⟨hfree, hbegin, hfired⟩ := apply_timer hcalm h.armed harmed
      by_cases ht : e.tid = t
      · subst ht
        rw [hself]
        -- a call that is in progress now was so before
        intro hgoing
        have hnot := hfree e.tid
        rw [hw] at hnot
        cases l with
        | begin => exact hbegin rfl
        | fired => exact hfired rfl
        | listen =>
          cases w with
          | going => exact hnot rfl
          | _ => exact hlegal
        | authenticating =>
          cases w with
          | going => exact hnot rfl
          | _ => exact hlegal
        | _ => cases hgoing
      · rw [hother t ht]
        exact hfree t
    · intro hhung
      rw [hf.log] at hhung
      rw [hmem]
      exact (hclosed hhung).1

end

theorem inv_inductive (r : ReconnectOptions) :
    ((connections r).lts (calm r)).Inductive (Inv r) := by
  refine System.inductive_of (fun m hm => ?_) (fun s c h _ => ?_) fun s e c k s' h hf hok =>
    h.fires hf hok
  · cases hm
    refine ⟨System.conforms_init _, ⟨nofun, ?_⟩, nofun, nofun⟩
    intro newer e older hlog
    simp at hlog
  · refine ⟨System.conforms_spawn h.conforms (obeys_run c), ⟨h.noStray.connected, h.noStray.quiet⟩,
      fun harmed t hgoing => ?_, h.hungUp⟩
    rcases h.conforms.view_spawned hgoing with ⟨-, hidle⟩ | hold
    · cases hidle
    · exact h.armed harmed t hold

/-- In every calm run no timer is armed while the machine is connected, and
after `disconnect` only `connect` makes it active again. -/
theorem no_stray (r : ReconnectOptions) :
    ∀ s, ((connections r).lts (calm r)).Reachable s → NoStray s := by
  intro s hr
  exact ((inv_inductive r).reachable s hr).noStray

instance decidableHungUp : ∀ log, Decidable (HungUp log)
  | [] => isFalse id
  | e :: log =>
    have := decidableHungUp log
    inferInstanceAs (Decidable (ran e = some .hangUp ∨ ran e ≠ some .begin ∧ HungUp log))

namespace Example

def always : ReconnectOptions := ⟨true, none⟩

/-- Whatever is awaited goes well. -/
def smooth : Nat → machine.Op → ObjFate Unit outside := fun _ _ =>
  { input := ()
    answer := fun
      | .close => some ()
      | .connect => some (.ok ())
      | .authenticate => some (.ok ()) }

def anyJudge : System.Judge anyOrder where
  may _ _ := true
  ok _ _ := true
  may_iff _ _ _ := trivial
  ok_iff _ _ _ := trivial

def free (s : ConnState) : Bool :=
  (List.range s.threads.length).all fun t => decide (watch always s t ≠ some .going)

theorem free_of {s : ConnState} (h : free s = true) : Free always s := by
  intro t hgoing
  have hlt : t < s.threads.length := by
    by_contra hge
    have hnone : watch always s t = none := by
      unfold watch System.view
      rw [List.getElem?_eq_none (Nat.le_of_not_lt hge)]
      rfl
    cases hnone.symm.trans hgoing
  have hnot := List.all_eq_true.mp h t (List.mem_range.mpr hlt)
  exact of_decide_eq_true hnot hgoing

/-- Nothing fails, and the transport reports only when no `connect` is in
progress. -/
def calmJudge : System.Judge (calm always) where
  may _ _ := true
  ok s e := match ran e with
    | some .retry => false
    | some (.heard _) => free s
    | _ => !s.mem.closed
  may_iff _ _ _ := trivial
  ok_iff s e h := by
    intro l hl
    rw [hl] at h
    cases l with
    | retry => cases h
    | heard phase => exact fun _ => free_of h
    | authenticating => exact (Bool.not_eq_true' _).mp h
    | connected => exact (Bool.not_eq_true' _).mp h
    | _ => trivial

/-- The last event made a machine active that was hung up. -/
def revived (s : ConnState) : Bool :=
  match s.log with
  | [] => false
  | e :: older => decide (HungUp (e :: older)) && match e.exch with
    | ⟨.run _ g, (i, m)⟩ => decide ((g i m).state ≠ m.state) && Active (g i m).state
    | _ => false

theorem not_noStray_of_revived {s : ConnState} (h : revived s = true) : ¬ NoStray s := by
  intro hno
  unfold revived at h
  split at h
  · cases h
  · rename_i e older hlog
    rw [Bool.and_eq_true, decide_eq_true_iff] at h
    obtain ⟨hhung, h⟩ := h
    split at h
    · rename_i l g i m hx
      rw [Bool.and_eq_true, decide_eq_true_iff] at h
      rcases hno.quiet [] e older hlog hhung l g i m hx with hsame | hinactive
      · exact h.1 hsame
      · exact absurd h.2 (by rw [hinactive]; decide)
    · cases h

end Example

open Example in
/-- The connection is lost, the timer fires and the machine connects again. -/
theorem no_stray_reconnected :
    ∃ s, ((connections always).lts (calm always)).Reachable s ∧ s.mem.state = .connected ∧
      NoStray s := by
  obtain ⟨s, hr, hs⟩ := System.reachable_of_play (S := connections always) calmJudge smooth
    [.call .connect, .go 0 7, .call (.state "disconnected"), .go 1 1, .call .timer, .go 2 8]
    (m := .new) (P := fun s => decide (s.mem.state = .connected)) rfl (by decide +kernel)
  exact ⟨s, hr, of_decide_eq_true hs, no_stray always s hr⟩

open Example in
/-- The transport reports an error while `connect` authenticates, which then
succeeds; and `disconnect` is called while `connect` waits for the transport. -/
theorem strayed :
    (∃ s, ((connections always).lts anyOrder).Reachable s ∧ s.mem.state = .connected ∧
        s.mem.reconnectTimer = true ∧ ¬ NoStray s) ∧
    ∃ s, ((connections always).lts anyOrder).Reachable s ∧ s.mem.state = .connected ∧
      s.mem.closed = true ∧ ¬ NoStray s := by
  constructor
  · obtain ⟨s, hr, hs⟩ := System.reachable_of_play (S := connections always) anyJudge smooth
      [.call .connect, .go 0 5, .call (.state "error"), .go 1 1, .go 0 2]
      (m := .new) (P := fun s => decide (s.mem.state = .connected ∧ s.mem.reconnectTimer = true))
      rfl (by decide +kernel)
    obtain ⟨hstate, htimer⟩ := of_decide_eq_true hs
    refine ⟨s, hr, hstate, htimer, fun hno => ?_⟩
    cases htimer.symm.trans (hno.connected hstate)
  · obtain ⟨s, hr, hs⟩ := System.reachable_of_play (S := connections always) anyJudge smooth
      [.call .connect, .go 0 4, .call .disconnect, .go 1 3, .go 0 3]
      (m := .new) (P := fun s => decide (s.mem.state = .connected ∧ s.mem.closed = true) &&
      revived s) rfl (by decide +kernel)
    rw [Bool.and_eq_true, decide_eq_true_iff] at hs
    exact ⟨s, hr, hs.1.1, hs.1.2, not_noStray_of_revived hs.2⟩

end RezSdk.L4.StrayReconnects
