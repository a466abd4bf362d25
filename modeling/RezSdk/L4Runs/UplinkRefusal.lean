import RezSdk.L4Runs.UplinkGuards

/-!
# A terminal refusal

An uplink that refuses the device on the merits ends the connect attempt with
its own code, and `#runConnect` schedules no reconnect. The callers of
`connect` have failure handling of their own.

* `refusal_final`: if no reconnect attempt started or joined the refused attempt,
  nothing else connects or fails over at that moment, and no request tries all
  uplinks afterwards, then no timer is armed and no uplink is connected until
  the application connects again.
* `refusal_rescheduled`: a refused `connectNow` arms the timer, which connects
  again.
-/
namespace RezSdk.L4.UplinkRefusal

open RezSdk.L1 RezSdk.L3.Uplinks RezSdk.L4.UplinkCalls RezSdk.L4.UplinkMoves RezSdk.L4.UplinkGuards

/-! ## The property -/

/-- A connect attempt ends with a terminal code. -/
def isRefusal (s : UplinkPool) : Stretch → Bool
  | .connectEnd err => (!s.ready || s.activeUrl.isNone) && (terminalHomeRejectionCode err).isSome
  | _ => false

/-- The application calls `connect` or `connectNow`, on the pool or through the
client. -/
def asksFor : Stretch → Bool
  | .connect => true
  | .connectNow => true
  | .clientConnect => true
  | .clientPool => true
  | _ => false

/-- A connect attempt begins, or an uplink is connected. -/
def attempts (s : UplinkPool) : Stretch → Bool
  | .begin _ => true
  | l => begins s l

/-- After a refusal, until the application asks again. -/
def RefusalFinal (s : UplinkState) : Prop :=
  ∀ (newer : List UplinkEvent) e older, s.log = newer ++ e :: older →
    ran isRefusal e.exch = true → (∀ e' ∈ newer, ran (fun _ => asksFor) e'.exch = false) →
    s.mem.reconnectTimer = none ∧ ∀ e' ∈ newer, ran attempts e'.exch = false

/-- A connect attempt was refused and the application has not asked since. -/
def RefusedSince (log : List UplinkEvent) : Prop :=
  ∃ newer : List UplinkEvent, ∃ e older, log = newer ++ e :: older ∧ ran isRefusal e.exch = true ∧
  ∀ e' ∈ newer, ran (fun _ => asksFor) e'.exch = false

/-- The call is in no reconnect attempt, no failover, no upkeep of the spares and
no request that tries all uplinks. -/
structure Settled (w : Place) : Prop where
  attempting : w.attempting = false
  failover : w.failover = .none
  sparing : w.sparing = none
  asking : w.asking = false

structure Alone (cfg : Config) (s : UplinkState) (l : Stretch) : Prop where
  timer : isRefusal s.mem l = true → s.mem.reconnectTimer = none
  active : isRefusal s.mem l = true → s.mem.activeUrl = none
  calls : isRefusal s.mem l = true → ∀ t w, place cfg s t = some w → Settled w
  request : ∀ skip, l = .requestAll skip → ¬ RefusedSince s.log

def alone (cfg : Config) : UplinkRules where
  init s := s = .new
  may _ _ := True
  ok s e := ∀ l g i m, e.exch = ⟨.run l g, (i, m)⟩ → Alone cfg s l

/-! ## After the refusal -/

/-- Nothing connects, and nothing will by itself. -/
structure Stopped (m : Core) (P : Nat → Option Place) : Prop where
  timer : m.reconnectTimer = none
  active : m.activeUrl = none
  calls : ∀ t w, P t = some w → Settled w
  connecting : ∀ t w, P t = some w → w.connecting = none

section

variable {cfg : Config} {i : Input} {s : UplinkPool} {m : Core} {P P' : Nat → Option Place}
  {t : Nat} {w w' : Place}

theorem Stopped.joined (h : Stopped m P) (hj : Joined P P') : Stopped m P' := by
  refine ⟨h.timer, h.active, fun u v hv => ?_, fun u v hv => ?_⟩
  · rcases hj.fresh u v hv with hv | rfl
    · exact h.calls u v hv
    · exact ⟨rfl, rfl, rfl, rfl⟩
  · rcases hj.fresh u v hv with hv | rfl
    · exact h.connecting u v hv
    · rfl

/-- What the stopped pool's own timer and calls can do. -/
theorem Stopped.not_kicks (h : Stopped (.of s) P) {l : Stretch} (hl : asksFor l = false) :
    kicks s l = false := by
  cases l with
  | connectNow => cases hl
  | timer =>
    have htimer : s.reconnectTimer = none := h.timer
    unfold kicks
    rw [htimer]
    rfl
  | _ => rfl

theorem Stopped.not_begins (h : Stopped (.of s) P) {l : Stretch} (hl : asksFor l = false) :
    begins s l = false := by
  have hkicks := h.not_kicks hl
  cases l with
  | connect => cases hl
  | clientPool => cases hl
  | clientConnect => cases hl
  | connectNow => cases hl
  | timer =>
    unfold begins
    dsimp only
    rw [hkicks]
    rfl
  | _ => rfl

theorem Stopped.not_attempts (h : Stopped (.of s) P) (hw : P t = some w) {l : Stretch}
    (hlegal : Legal cfg w l) (hl : asksFor l = false) : attempts s l = false := by
  cases l with
  | begin url =>
    obtain ⟨-, -, hworks⟩ := hlegal
    have hcalls := h.calls t w hw
    rw [h.connecting t w hw, hcalls.sparing, hcalls.asking] at hworks
    simp at hworks
  | _ => exact h.not_begins hl

/-- The call that has moved is still in none of the routines. -/
theorem Stopped.settled (h : Stopped (.of s) P) (hw : P t = some w) {l : Stretch}
    (hl : asksFor l = false) (hrequest : ∀ skip, l ≠ .requestAll skip)
    (hroutines : Routines s w w' l) (hfailover : w'.failover = .none) : Settled w' := by
  have hcalls := h.calls t w hw
  refine ⟨?_, hfailover, ?_, ?_⟩
  · by_contra hne
    rcases hroutines.attempting (Bool.not_eq_false _ ▸ hne) with ha | hk
    · cases hcalls.attempting.symm.trans ha
    · cases (h.not_kicks hl).symm.trans hk
  · by_contra hne
    obtain ⟨p, hp⟩ := Option.ne_none_iff_exists'.mp hne
    rcases hroutines.sparing p hp with hs | ⟨-, hactive, -⟩
    · cases hcalls.sparing.symm.trans hs
    · have hnone : s.activeUrl = none := h.active
      rw [hnone] at hactive
      cases hactive
  · by_contra hne
    rcases hroutines.asking (Bool.not_eq_false _ ▸ hne) with ha | ⟨skip, hskip⟩
    · cases hcalls.asking.symm.trans ha
    · exact hrequest skip hskip

theorem stopped_move {l : Stretch} {m' : Core} (h : Move cfg i s w l m' w') (hlegal : Legal cfg w l)
    (hroutines : Routines s w w' l) (hs : Stopped (.of s) P) (hturn : Turn P P' t w w')
    (hl : asksFor l = false) (hrequest : ∀ skip, l ≠ .requestAll skip) : Stopped m' P' := by
  have hw := hs.calls t w hturn.before
  have hnot : w.connecting = none := hs.connecting t w hturn.before
  have hgo : m'.reconnectTimer = none → m'.activeUrl = none → w'.failover = .none →
      w'.connecting = none → Stopped m' P' := by
    intro htimer hactive hfailover hconnecting
    refine ⟨htimer, hactive, fun u v hv => ?_, fun u v hv => ?_⟩
    · obtain ⟨rfl, rfl⟩ | ⟨-, hv⟩ := hturn.cases hv
      · exact hs.settled hturn.before hl hrequest hroutines hfailover
      · exact hs.calls u v hv
    · obtain ⟨rfl, rfl⟩ | ⟨-, hv⟩ := hturn.cases hv
      · exact hconnecting
      · exact hs.connecting u v hv
  have hworks : ¬ (w.connecting.isSome ∨ w.sparing.isSome ∨ w.asking = true) := by
    rw [hnot, hw.sparing, hw.asking]
    simp
  cases h with
  | stay _ _ keeps =>
    exact hgo hs.timer hs.active (keeps.failover.trans hw.failover) (keeps.connecting.trans hnot)
  | disarm _ _ kick why keeps =>
    exact hgo rfl hs.active (keeps.failover.trans hw.failover) (keeps.connecting.trans hnot)
  | enter _ _ p starts begun => cases (hs.not_begins hl).symm.trans starts
  | close _ leaving closing =>
    obtain ⟨-, hactive, -, htimer, -⟩ :=
      clear_down { Core.of s with closed := true, reconnectTimer := none }
    exact hgo htimer hactive hw.failover hnot
  | restoreClear => cases hw.attempting.symm.trans hlegal.1
  | hangUp tr =>
    refine hgo ?_ ?_ hw.failover hnot
    · cases tr <;> exact hs.timer
    · cases tr <;> exact hs.active
  | reuse url c conn ready => exact absurd hlegal.2.2 hworks
  | create url conn made => exact absurd hlegal.2.2 hworks
  | authStart tr => exact hgo hs.timer hs.active hw.failover hnot
  | markReady url => exact hgo hs.timer hs.active hw.failover hnot
  | spareFailed url => exact hgo hs.timer hs.active hw.failover hnot
  | activate url => exact absurd (.inl hlegal.1) hworks
  | adopt url other => cases hw.asking.symm.trans hlegal.1
  | connectEnd err down soft => exact absurd (.inl hlegal) hworks
  | refused err down code => exact absurd (.inl hlegal) hworks
  | connected err up active => exact absurd (.inl hlegal) hworks
  | connectFinally => exact hgo hs.timer hs.active hw.failover hnot
  | retry _ _ failed =>
    rcases failed with ⟨rfl, -⟩ | ⟨rfl, -⟩
    · cases hw.attempting.symm.trans hlegal
    · cases hw.attempting.symm.trans hlegal.2
  | offline _ _ lost =>
    rcases lost with ⟨rfl, -⟩ | ⟨rfl, -⟩
    · obtain ⟨p, hp⟩ := hlegal
      cases hw.failover.symm.trans hp
    · cases hw.failover.symm.trans hlegal
  | died tr x => exact hgo hs.timer hs.active hw.failover hnot
  | join tr x p at_ subscribed active promotion => cases hs.active.symm.trans active
  | search tr x p at_ subscribed active promotion => cases hs.active.symm.trans active
  | failover tr x p url at_ subscribed active promotion found => cases hs.active.symm.trans active
  | promote p url searching found => cases hw.failover.symm.trans searching
  | promoteEnd p b =>
    rcases hlegal with ⟨hp, -⟩ | hp
    · cases hw.failover.symm.trans hp
    · cases hw.failover.symm.trans hp

theorem Stopped.answer {o : Await} {r : o.Ans} (hmay : (monitor cfg).may w (.await o))
    (hs : Stopped (.of s) P) (hturn : Turn P P' t w ((monitor cfg).next w ⟨.await o, r⟩)) :
    Stopped (.of (outsideWorld.effect s o r)) P' := by
  have hans := answered r hmay
  have hw := hs.calls t w hturn.before
  have hfailover : ((monitor cfg).next w ⟨.await o, r⟩).failover = .none := by
    cases o with
    | connect tr =>
      match r with
      | .ok () => exact hw.failover
      | .error err => exact hw.failover
    | authenticate tr =>
      match r with
      | .ok session => exact hw.failover
      | .error err => exact hw.failover
    | joinPromotion p => cases hw.failover.symm.trans hmay
    | _ => exact hw.failover
  rw [of_effect]
  refine ⟨hs.timer, hs.active, fun u v hv => ?_, fun u v hv => ?_⟩
  · obtain ⟨rfl, rfl⟩ | ⟨-, hv⟩ := hturn.cases hv
    · exact ⟨hans.routines.attempting.trans hw.attempting, hfailover,
        hans.routines.sparing.trans hw.sparing, hans.routines.asking.trans hw.asking⟩
    · exact hs.calls u v hv
  · obtain ⟨rfl, rfl⟩ | ⟨-, hv⟩ := hturn.cases hv
    · exact hans.connecting.trans (hs.connecting u w hturn.before)
    · exact hs.connecting u v hv

/-- The refusal itself changes nothing but the place of its call. -/
theorem refusal_apply {l : Stretch} (h : isRefusal s l = true) :
    l.apply cfg i s = s ∧ follow cfg w i s l = { w with connecting := none } := by
  cases l with
  | connectEnd err =>
    have h : ((!s.ready || s.activeUrl.isNone) && (terminalHomeRejectionCode err).isSome) = true :=
      h
    rw [Bool.and_eq_true] at h
    obtain ⟨code, hcode⟩ := Option.isSome_iff_exists.mp h.2
    refine ⟨?_, rfl⟩
    change (s.connectEnd cfg err).2 = s
    unfold UplinkPool.connectEnd
    dsimp only
    rw [if_pos h.1, hcode]
  | _ => cases h

theorem stopped_refusal {l : Stretch} (hlegal : Legal cfg w l) (h : isRefusal s l = true)
    (hone : OneAttempt (.of s) P) (htimer : s.reconnectTimer = none) (hactive : s.activeUrl = none)
    (hcalls : ∀ t w, P t = some w → Settled w) (hturn : Turn P P' t w (follow cfg w i s l)) :
    Stopped (.of (l.apply cfg i s)) P' := by
  obtain ⟨happly, hfollow⟩ : l.apply cfg i s = s ∧
    follow cfg w i s l = { w with connecting := none } := refusal_apply h
  rw [hfollow] at hturn
  rw [happly]
  have hconnecting : w.connecting ≠ none := by
    cases l with
    | connectEnd err =>
      have hlegal : w.connecting.isSome = true := hlegal
      exact Option.isSome_iff_ne_none.mp hlegal
    | _ => cases h
  refine ⟨htimer, hactive, fun u v hv => ?_, fun u v hv => ?_⟩
  · obtain ⟨rfl, rfl⟩ | ⟨-, hv⟩ := hturn.cases hv
    · have hw := hcalls u w hturn.before
      exact ⟨hw.attempting, hw.failover, hw.sparing, hw.asking⟩
    · exact hcalls u v hv
  · obtain ⟨rfl, rfl⟩ | ⟨hne, hv⟩ := hturn.cases hv
    · rfl
    · -- the refused attempt was the only one
      by_contra hother
      exact hne (hone.one t u w v hturn.before hv (hone.inConnect t w hturn.before hconnecting)
        (hone.inConnect u v hv hother))

end

/-! ## Every run -/

structure Inv (cfg : Config) (s : UplinkState) : Prop where
  base : Base cfg s
  single : OneOfEach s.mem (place cfg s)
  stopped : RefusedSince s.log → Stopped (.of s.mem) (place cfg s)
  quiet : ∀ (newer : List UplinkEvent) e older, s.log = newer ++ e :: older →
    ran isRefusal e.exch = true → (∀ e' ∈ newer, ran (fun _ => asksFor) e'.exch = false) →
    ∀ e' ∈ newer, ran attempts e'.exch = false

section

variable {cfg : Config} {rounds : Nat} {s s' : UplinkState} {e : UplinkEvent} {c : Call}
  {k : uplinkPool.Ans e.op → Proc uplinkPool (Except Failure Unit)}

theorem refusedSince_cons {log : List UplinkEvent} (h : RefusedSince (e :: log)) :
    ran isRefusal e.exch = true ∨ ran (fun _ => asksFor) e.exch = false ∧ RefusedSince log := by
  obtain ⟨newer, e', older, hlog, href, hnone⟩ := h
  obtain ⟨rfl, rfl, rfl⟩ | ⟨rest, rfl, hrest⟩ := split_cons hlog
  · exact .inl href
  · exact .inr ⟨hnone e (.head _), rest, e', older, hrest, href,
      fun e₁ he₁ => hnone e₁ (.tail _ he₁)⟩

theorem Inv.quiet_cons (h : Inv cfg s)
    (hattempts :
        RefusedSince s.log → ran (fun _ => asksFor) e.exch = false → ran attempts e.exch = false) :
    ∀ (newer : List UplinkEvent) e' older, e :: s.log = newer ++ e' :: older →
      ran isRefusal e'.exch = true → (∀ e₁ ∈ newer, ran (fun _ => asksFor) e₁.exch = false) →
      ∀ e₁ ∈ newer, ran attempts e₁.exch = false := by
  intro newer e' older hlog href hnone e₁ he₁
  obtain ⟨rfl, rfl, rfl⟩ | ⟨rest, rfl, hrest⟩ := split_cons hlog
  · exact absurd he₁ List.not_mem_nil
  · have hrestNone : ∀ e₂ ∈ rest, ran (fun _ => asksFor) e₂.exch = false :=
      fun e₂ he₂ => hnone e₂ (.tail _ he₂)
    rcases List.mem_cons.mp he₁ with rfl | he₁
    · exact hattempts ⟨rest, e', older, hrest, href, hrestNone⟩ (hnone e₁ (.head _))
    · exact h.quiet rest e' older hrest href hrestNone e₁ he₁

theorem Inv.stretch (h : Inv cfg s) (hf : Pool.Fires (uplinks cfg rounds) s e c k s') {w : Place}
    (hw : place cfg s e.tid = some w) {l : Stretch} {i : Input}
    (hx : e.exch = ⟨.run l fun i s => l.apply cfg i s, (i, s.mem)⟩) (hl : Legal cfg w l)
    (hmem : s'.mem = l.apply cfg i s.mem)
    (hnext : place cfg s' e.tid = some (follow cfg w i s.mem l))
    (hmove : Move cfg i s.mem w l (.of s'.mem) (follow cfg w i s.mem l)) (hok : Alone cfg s l) :
    Inv cfg s' := by
  have hturn := turn_fires hf hw hnext
  refine ⟨h.base.fires hf, h.single.fires h.base hf, fun href => ?_, ?_⟩
  · rw [hf.log] at href
    rcases refusedSince_cons href with hhere | ⟨hasks, hold⟩
    · rw [ran_stretch hx] at hhere
      rw [hmem]
      exact stopped_refusal hl hhere h.single.attempt (hok.timer hhere) (hok.active hhere)
        (hok.calls hhere) hturn
    · rw [ran_stretch hx] at hasks
      exact stopped_move hmove hl routines_follow (h.stopped hold) hturn hasks fun skip hskip =>
        hok.request skip hskip hold
  · rw [hf.log]
    refine h.quiet_cons fun href hasks => ?_
    rw [ran_stretch hx] at hasks ⊢
    exact (h.stopped href).not_attempts hw hl hasks

theorem Inv.answer (h : Inv cfg s) (hf : Pool.Fires (uplinks cfg rounds) s e c k s') {w : Place}
    (hw : place cfg s e.tid = some w) {o : Await} {r : o.Ans} (hx : e.exch = ⟨.await o, r⟩)
    (hmay : (monitor cfg).may w (.await o)) (hmem : s'.mem = outsideWorld.effect s.mem o r)
    (hnext : place cfg s' e.tid = some ((monitor cfg).next w ⟨.await o, r⟩)) : Inv cfg s' := by
  have hturn := turn_fires hf hw hnext
  refine ⟨h.base.fires hf, h.single.fires h.base hf, fun href => ?_, ?_⟩
  · rw [hf.log] at href
    rcases refusedSince_cons href with hhere | ⟨-, hold⟩
    · cases (ran_answer hx).symm.trans hhere
    · rw [hmem]
      exact (h.stopped hold).answer hmay hturn
  · rw [hf.log]
    exact h.quiet_cons fun _ _ => ran_answer hx

theorem inv_inductive : ((uplinks cfg rounds).lts (alone cfg)).Inductive (Inv cfg) := by
  refine System.inductive_of (fun m hm => ?_) (fun s c h _ => ?_) fun s e c k s' h hf hok => ?_
  · subst hm
    have hsplit : ∀ (newer : List UplinkEvent) e older, [] ≠ newer ++ e :: older :=
      fun newer e older h => by
        cases newer <;> cases h
    refine ⟨.init, .init, ?_, fun newer e older h => absurd h (hsplit newer e older)⟩
    rintro ⟨newer, e, older, h, -⟩
    exact absurd h (hsplit newer e older)
  · have hj : Joined (place cfg s) (place cfg (s.spawn (uplinks cfg rounds) c)) := h.base.joined c
    exact ⟨h.base.spawn c, h.single.spawn h.base c, fun href => (h.stopped href).joined hj,
      h.quiet⟩
  · obtain ⟨w, hw, heff⟩ := h.base.effect hf
    cases heff with
    | stretch l i exch legal mem next move =>
      exact h.stretch hf hw exch legal mem next move (hok l _ i s.mem exch)
    | answer o r exch allows may mem next => exact h.answer hf hw exch may mem next

end

/-- **A terminal refusal is final**, in every run where nothing else is under way
when it comes. -/
theorem refusal_final (cfg : Config) (rounds : Nat) (s : UplinkState)
    (hr : ((uplinks cfg rounds).lts (alone cfg)).Reachable s) : RefusalFinal s := by
  have h := inv_inductive.reachable s hr
  intro newer e older hlog href hnone
  exact ⟨(h.stopped ⟨newer, e, older, hlog, href, hnone⟩).timer,
    h.quiet newer e older hlog href hnone⟩

namespace Example

open UplinkMoves.Example

/-- The uplinks refuse the device. -/
def refusing : ObjFate Input outside := { smooth 0 with
  answer := fun
    | .authenticate _ =>
      some (.error ⟨"AUTH_FAILED", "DELEGATED_DEVICES_UNSUPPORTED", "home refused", false⟩)
    | o => (smooth 0).answer o }

def settled (w : Place) : Bool :=
  !w.attempting && w.failover = .none && w.sparing.isNone && !w.asking

theorem settled_iff {w : Place} (h : settled w = true) : Settled w := by
  unfold settled at h
  rw [Bool.and_eq_true, Bool.and_eq_true, Bool.and_eq_true, Bool.not_eq_true', Bool.not_eq_true',
    decide_eq_true_iff, Option.isNone_iff_eq_none] at h
  obtain ⟨⟨⟨hattempting, hfailover⟩, hsparing⟩, hasking⟩ := h
  exact ⟨hattempting, hfailover, hsparing, hasking⟩

def asksAll : Stretch → Bool
  | .requestAll _ => true
  | _ => false

def calm (cfg : Config) (s : UplinkState) (l : Stretch) : Bool :=
  (!isRefusal s.mem l || s.mem.reconnectTimer = none && s.mem.activeUrl = none &&
  allPlaces cfg s settled) && !asksAll l

theorem alone_of_calm {cfg : Config} {s : UplinkState} {l : Stretch} (h : calm cfg s l = true) :
    Alone cfg s l := by
  unfold calm at h
  rw [Bool.and_eq_true, Bool.not_eq_true'] at h
  have hrefusal : isRefusal s.mem l = true → s.mem.reconnectTimer = none ∧ s.mem.activeUrl = none ∧
      allPlaces cfg s settled = true := by
    intro href
    have hguard := h.1
    rw [href, Bool.not_true, Bool.false_or, Bool.and_eq_true, Bool.and_eq_true,
      decide_eq_true_iff, decide_eq_true_iff] at hguard
    exact ⟨hguard.1.1, hguard.1.2, hguard.2⟩
  refine ⟨fun href => (hrefusal href).1, fun href => (hrefusal href).2.1,
    fun href t w hw => settled_iff (allPlaces_iff (hrefusal href).2.2 t w hw),
    fun skip hl => ?_⟩
  subst hl
  cases h.2

def aloneJudge (cfg : Config) : System.Judge (alone cfg) where
  may _ _ := true
  ok s e := match e.exch with
    | ⟨.run l _, _⟩ => calm cfg s l
    | _ => true
  may_iff _ _ _ := trivial
  ok_iff s e h l g i m hx := by
    rw [hx] at h
    exact alone_of_calm h

end Example

open UplinkMoves.Example Example in
/-- A refused `connect` arms no timer. -/
theorem refusal_final_connect :
    ∃ s, ((uplinks urls 3).lts (alone urls)).Reachable s ∧ Returned s ∧ RefusedSince s.log ∧
      s.mem.reconnectTimer = none ∧ RefusalFinal s := by
  obtain ⟨s, hr, hs⟩ := System.reachable_of_play (S := uplinks urls 3) (aloneJudge urls)
    (fun _ _ => refusing) [.call .connect, .go 0 12]
    (m := .new) (P := fun s => returned s && s.mem.reconnectTimer = none &&
    (s.log.drop 2).head?.any (fun e => ran isRefusal e.exch) &&
      (s.log.take 2).all fun e => !ran (fun _ => asksFor) e.exch) rfl (by decide +kernel)
  rw [Bool.and_eq_true, Bool.and_eq_true, Bool.and_eq_true, decide_eq_true_iff] at hs
  obtain ⟨⟨⟨hret, htimer⟩, href⟩, hnone⟩ := hs
  obtain ⟨e, he, href⟩ := (Option.any_eq_true _ _).mp href
  obtain ⟨older, holder⟩ := List.head?_eq_some_iff.mp he
  have hlog : s.log = s.log.take 2 ++ e :: older := by rw [← holder, List.take_append_drop]
  refine ⟨s, hr, returned_iff hret, ⟨_, e, older, hlog, href, fun e' he' => ?_⟩,
    htimer, refusal_final urls 3 s hr⟩
  simpa using List.all_eq_true.mp hnone e' he'

open UplinkMoves.Example Example in
/-- A refused `connectNow` arms the timer, and the timer connects again. -/
theorem refusal_rescheduled :
    ∃ s, ((uplinks urls 3).lts anyUse).Reachable s ∧ s.mem.promises.length = 4 ∧
      ¬ RefusalFinal s := by
  obtain ⟨s, hr, hs⟩ :=
    System.reachable_of_play (S := uplinks urls 3) anyJudge (fun _ _ => refusing)
    [.call .connectNow, .go 0 15, .call .timer, .go 1 1] (m := .new)
    (P := fun s => s.mem.promises.length = 4 &&
    (s.log.drop 6).head?.any (fun e => ran isRefusal e.exch) &&
      (s.log.take 6).all (fun e => !ran (fun _ => asksFor) e.exch) &&
      (s.log.take 6).any fun e => ran attempts e.exch) rfl (by decide +kernel)
  rw [Bool.and_eq_true, Bool.and_eq_true, Bool.and_eq_true, decide_eq_true_iff] at hs
  obtain ⟨⟨⟨hpromises, href⟩, hnone⟩, hattempt⟩ := hs
  obtain ⟨e, he, href⟩ := (Option.any_eq_true _ _).mp href
  obtain ⟨older, holder⟩ := List.head?_eq_some_iff.mp he
  have hlog : s.log = s.log.take 6 ++ e :: older := by rw [← holder, List.take_append_drop]
  refine ⟨s, hr, hpromises, fun h => ?_⟩
  obtain ⟨e', he', hattempts⟩ := List.any_eq_true.mp hattempt
  have hquiet :=
    (h _ e older hlog href fun e₁ he₁ => by simpa using List.all_eq_true.mp hnone e₁ he₁).2 e' he'
  cases hquiet.symm.trans hattempts

end RezSdk.L4.UplinkRefusal
