import RezSdk.L4Runs.UplinkRefusal

/-!
# The pool at rest

* `quiescent`: whenever no call is in flight, the pool is ready with an active
  uplink whose connection is ready, or it is offline and was never connected, is
  closed, has a timer armed or was refused, in every run in which no step of the
  following kind happens: an uplink is activated or adopted that is not ready, or
  adopted while the pool is offline; a failed spare is the active uplink; the
  active uplink is lost while its own promotion runs its hooks; a reconnect joins
  an attempt that is no longer connecting.
* `dead_active`: the promoted spare is lost while its hooks run.
-/
namespace RezSdk.L4.UplinkQuiescent

open RezSdk.L1 RezSdk.L3.Uplinks RezSdk.L4.UplinkCalls RezSdk.L4.UplinkMoves RezSdk.L4.UplinkRefusal

/-! ## The property -/

/-- No connect attempt was ever begun. -/
def NeverConnected (log : List UplinkEvent) : Prop := ∀ e ∈ log, ran begins e.exch = false

/-- The last connect attempt was refused. -/
def LastRefused (log : List UplinkEvent) : Prop :=
  ∃ newer : List UplinkEvent, ∃ e older, log = newer ++ e :: older ∧ ran isRefusal e.exch = true ∧
  ∀ e' ∈ newer, ran begins e'.exch = false

/-- The uplink's connection is marked ready. -/
def ConnReady (s : UplinkPool) (url : String) : Prop := ∃ c, s.conn url = some c ∧ c.ready = true

/-- Ready on a ready uplink, or offline for a reason. -/
def AtPeace (cfg : Config) (s : UplinkState) : Prop :=
  (s.mem.ready = true ∧ ∃ u ∈ cfg.uplinks, s.mem.activeUrl = some u ∧ ConnReady s.mem u) ∨
    (s.mem.ready = false ∧ s.mem.activeUrl = none ∧
      (NeverConnected s.log ∨ s.mem.closed = true ∨ s.mem.reconnectTimer.isSome ∨
      LastRefused s.log))

/-- The call looks for another uplink, or is about to take the pool offline. -/
def Failing (w : Place) : Prop := (∃ p, w.failover = .searching p) ∨ w.failover = .lost

/-- The call connects, or is about to schedule a reconnect. -/
def Recovering (w : Place) : Prop := w.connecting ≠ none ∨ w.restoring = true

/-- When a stretch may be run, for the pool to come to rest well. -/
structure Timely (cfg : Config) (s : UplinkState) (l : Stretch) : Prop where
  activate : ∀ url, l = .activate url → ConnReady s.mem url
  adopt : ∀ url, l = .adopt url → s.mem.activeUrl ≠ some url → s.mem.ready = true ∧
    ConnReady s.mem url
  spareFailed : ∀ url, l = .spareFailed url → s.mem.activeUrl ≠ some url
  lost : ∀ tr t, l = .stateEvent tr → s.mem.transports[tr]? = some t → t.subscribed = true →
    s.mem.activeUrl = some t.url →
    s.mem.promotePromise ≠ none → ∃ u w, place cfg s u = some w ∧ Failing w
  joins : joins s.mem l = true → s.mem.activeUrl = none → ∃ u w, place cfg s u = some w ∧
    Recovering w

def timely (cfg : Config) : UplinkRules where
  init s := s = .new
  may _ _ := True
  ok s e := ∀ l g i m, e.exch = ⟨.run l g, (i, m)⟩ → Timely cfg s l

/-! ## The invariant -/

/-- Why the pool is offline, or how it will get out of that. -/
def Reason (m : Core) (P : Nat → Option Place) (log : List UplinkEvent) : Prop :=
  NeverConnected log ∨ m.closed = true ∨ m.reconnectTimer.isSome ∨ LastRefused log ∨
    ∃ u w, P u = some w ∧ Recovering w

def Ready (m : Core) (url : String) : Prop := ∃ c, OMap.get url m.conns = some c ∧ c.ready = true

structure Sound (m : Core) (P : Nat → Option Place) (log : List UplinkEvent) : Prop where
  ready : m.ready = m.activeUrl.isSome
  active : ∀ u, m.activeUrl = some u → Ready m u ∨ ∃ t w, P t = some w ∧ Failing w
  offline : m.activeUrl = none → Reason m P log

section

variable {m m' : Core} {P P' : Nat → Option Place} {log : List UplinkEvent}
  {e : UplinkEvent} {t : Nat} {w w' : Place}

theorem neverConnected_cons (he : ran begins e.exch = false) (h : NeverConnected log) :
    NeverConnected (e :: log) := by
  intro e' he'
  rcases List.mem_cons.mp he' with rfl | he'
  · exact he
  · exact h e' he'

theorem lastRefused_cons (he : ran begins e.exch = false) (h : LastRefused log) :
    LastRefused (e :: log) := by
  obtain ⟨newer, e', older, hlog, href, hnone⟩ := h
  refine ⟨e :: newer, e', older, by rw [hlog]; rfl, href, fun e₁ he₁ => ?_⟩
  rcases List.mem_cons.mp he₁ with rfl | he₁
  · exact he
  · exact hnone e₁ he₁

/-- A reason stays one while nothing that it hangs on changes. -/
theorem Reason.cons (he : ran begins e.exch = false) (h : Reason m P log)
    (hclosed : m'.closed = m.closed) (htimer : m'.reconnectTimer = m.reconnectTimer)
    (hplaces : ∀ u w, P u = some w → Recovering w → ∃ u w, P' u = some w ∧ Recovering w) :
    Reason m' P' (e :: log) := by
  rcases h with h | h | h | h | ⟨u, w, hw, hr⟩
  · exact .inl (neverConnected_cons he h)
  · exact .inr (.inl (hclosed.trans h))
  · exact .inr (.inr (.inl (htimer ▸ h)))
  · exact .inr (.inr (.inr (.inl (lastRefused_cons he h))))
  · exact .inr (.inr (.inr (.inr (hplaces u w hw hr))))

/-- What a call that has not moved is in, it is still in. -/
theorem turn_kept {Φ : Place → Prop} (hturn : Turn P P' t w w') (hw : Φ w → Φ w')
    (h : ∃ u v, P u = some v ∧ Φ v) : ∃ u v, P' u = some v ∧ Φ v := by
  obtain ⟨u, v, hv, hΦ⟩ := h
  obtain ⟨rfl, rfl⟩ | ⟨-, hv⟩ := hturn.cases_before hv
  · exact ⟨u, w', hturn.after, hw hΦ⟩
  · exact ⟨u, v, hv, hΦ⟩

theorem failing_of_eq (h : w'.failover = w.failover) : Failing w → Failing w' := by
  unfold Failing
  rw [h]
  exact id

theorem recovering_of_eq (hc : w'.connecting = w.connecting) (hr : w'.restoring = w.restoring) :
    Recovering w → Recovering w' := by
  unfold Recovering
  rw [hc, hr]
  exact id

/-- The active uplink and the reasons for being offline are as before. -/
theorem Sound.same (h : Sound m P log) (he : ran begins e.exch = false) (hturn : Turn P P' t w w')
    (hready : m'.ready = m.ready) (hactive : m'.activeUrl = m.activeUrl)
    (hconn : ∀ u, m.activeUrl = some u → Ready m u → Ready m' u) (hfailing : Failing w → Failing w')
    (hclosed : m'.closed = m.closed) (htimer : m'.reconnectTimer = m.reconnectTimer)
    (hrec : Recovering w → Recovering w') : Sound m' P' (e :: log) := by
  refine ⟨?_, fun u hu => ?_, fun hnone => ?_⟩
  · rw [hready, hactive]
    exact h.ready
  · rw [hactive] at hu
    exact (h.active u hu).imp (hconn u hu) (turn_kept hturn hfailing)
  · rw [hactive] at hnone
    exact (h.offline hnone).cons he hclosed htimer fun u v hv hr =>
      turn_kept hturn hrec ⟨u, v, hv, hr⟩

/-- An uplink with a ready connection is active. -/
theorem sound_active {u : String} (hready : m.ready = true) (hactive : m.activeUrl = some u)
    (hconn : Ready m u) : Sound m P log := by
  refine ⟨by rw [hready, hactive]; rfl, fun v hv => .inl ?_, fun hnone => ?_⟩
  · cases hactive.symm.trans hv
    exact hconn
  · cases hactive.symm.trans hnone

/-- The pool is offline with a reason. -/
theorem sound_offline (hready : m.ready = false) (hactive : m.activeUrl = none)
    (hreason : Reason m P log) : Sound m P log := by
  refine ⟨by rw [hready, hactive]; rfl, fun v hv => ?_, fun _ => hreason⟩
  cases hactive.symm.trans hv

theorem ready_mark_true {url u : String} (h : Ready m u) : Ready (m.mark url true true) u := by
  obtain ⟨c, hc, hr⟩ := h
  unfold Ready Core.mark
  dsimp only
  split
  · rename_i c' hc'
    rw [OMap.get_set]
    split
    · exact ⟨_, rfl, rfl⟩
    · exact ⟨c, hc, hr⟩
  · exact ⟨c, hc, hr⟩

theorem ready_mark_false {url u : String} (hne : url ≠ u) (h : Ready m u) :
    Ready (m.mark url false false) u := by
  obtain ⟨c, hc, hr⟩ := h
  unfold Ready Core.mark
  dsimp only
  split
  · rw [OMap.get_set_ne hne]
    exact ⟨c, hc, hr⟩
  · exact ⟨c, hc, hr⟩

end

section

variable {cfg : Config} {i : Input} {s : UplinkPool} {m m' : Core} {P P' : Nat → Option Place}
  {log : List UplinkEvent} {e : UplinkEvent}
  {t : Nat} {w w' : Place}

theorem schedule_reason (m : Core) (n : Nat) :
    (m.schedule cfg n).closed = true ∨ (m.schedule cfg n).reconnectTimer.isSome := by
  unfold Core.schedule
  dsimp only
  cases hclosed : m.closed with
  | true => exact .inl rfl
  | false =>
    refine .inr ?_
    cases htimer : m.reconnectTimer with
    | some d => rfl
    | none => rfl

/-- A reconnect was scheduled, or the pool is closed. -/
theorem reason_schedule (m : Core) (n : Nat) : Reason (m.schedule cfg n) P log := by
  have hreason : (m.schedule cfg n).closed = true ∨ (m.schedule cfg n).reconnectTimer.isSome :=
    schedule_reason m n
  rcases hreason with h | h
  · exact .inr (.inl h)
  · exact .inr (.inr (.inl h))

theorem ready_of_spare {p : UplinkPool} {url : String} (h : p.findConnectedSpare cfg = some url) :
    p.activeUrl ≠ some url ∧ ConnReady p url := by
  have hspare := List.find?_some h
  unfold UplinkPool.isSpare at hspare
  rw [Bool.and_eq_true, decide_eq_true_iff] at hspare
  obtain ⟨c, hc, hready⟩ := (Option.any_eq_true _ _).mp hspare.2
  rw [Bool.and_eq_true] at hready
  exact ⟨hspare.1, c, hc, hready.1⟩

/-- The connections are gone, and the reason is known. -/
theorem sound_clear {m₁ : Core} (h : Reason m₁.clear P log) : Sound m₁.clear P log := by
  obtain ⟨hready, hactive, -⟩ := clear_down m₁
  exact sound_offline hready hactive h

/-- The facts that a step uses of its condition. -/
structure Allowed (s : UplinkPool) (P : Nat → Option Place) (l : Stretch) : Prop where
  activate : ∀ url, l = .activate url → ConnReady s url
  adopt : ∀ url, l = .adopt url → s.activeUrl ≠ some url → s.ready = true ∧ ConnReady s url
  spareFailed : ∀ url, l = .spareFailed url → s.activeUrl ≠ some url
  lost : ∀ tr t, l = .stateEvent tr → s.transports[tr]? = some t → t.subscribed = true →
    s.activeUrl = some t.url →
    s.promotePromise ≠ none → ∃ u w, P u = some w ∧ Failing w
  joins : joins s l = true → s.activeUrl = none → ∃ u w, P u = some w ∧ Recovering w

theorem sound_move {l : Stretch} (h : Move cfg i s w l m' w') (hl : Legal cfg w l)
    (hs : Sound (.of s) P log) (hturn : Turn P P' t w w') (he : ran begins e.exch = false)
    (hbegins : begins s l = false) (hrefusal : ran isRefusal e.exch = isRefusal s l)
    (hok : Allowed s P l) : Sound m' P' (e :: log) := by
  have hconn : ∀ u, s.activeUrl = some u → Ready (.of s) u → Ready (.of s) u := fun _ _ h => h
  have hkeep : ∀ {Φ : Place → Prop}, (Φ w → Φ w') → (∃ u v, P u = some v ∧ Φ v) →
      ∃ u v, P' u = some v ∧ Φ v := fun hw h => turn_kept hturn hw h
  cases h with
  | stay _ _ keeps =>
    exact hs.same he hturn rfl rfl hconn (failing_of_eq keeps.failover) rfl rfl
      (recovering_of_eq keeps.connecting keeps.restoring)
  | disarm _ _ kick why keeps =>
    refine ⟨hs.ready, fun u hu => (hs.active u hu).imp id (hkeep (failing_of_eq keeps.failover)),
      fun hnone => ?_⟩
    rcases why with hclosed | hjoins
    · exact .inr (.inl hclosed)
    · exact .inr (.inr (.inr (.inr (hkeep (recovering_of_eq keeps.connecting keeps.restoring)
          (hok.joins hjoins hnone)))))
  | enter _ _ p starts begun => cases hbegins.symm.trans starts
  | close _ leaving closing => exact sound_clear (.inr (.inl (clear_down _).2.2.2.2))
  | restoreClear => exact sound_clear (.inr (.inr (.inr (.inr ⟨t, _, hturn.after, .inr rfl⟩))))
  | hangUp tr =>
    cases tr <;> exact hs.same he hturn rfl rfl hconn id rfl rfl id
  | reuse url c conn ready => exact hs.same he hturn rfl rfl hconn id rfl rfl id
  | create url conn made =>
    refine hs.same he hturn rfl rfl (fun u hu hready => ?_) id rfl rfl id
    obtain ⟨c, hc, hr⟩ := hready
    refine ⟨c, ?_, hr⟩
    have hne : url ≠ u := by
      rintro rfl
      cases conn.symm.trans hc
    exact (OMap.get_set_ne hne _ _).trans hc
  | authStart tr => exact hs.same he hturn rfl rfl hconn id rfl rfl id
  | markReady url => exact hs.same he hturn rfl rfl (fun u _ h => ready_mark_true h) id rfl rfl id
  | spareFailed url =>
    refine hs.same he hturn rfl rfl (fun u hu h => ready_mark_false ?_ h) id rfl rfl id
    rintro rfl
    exact hok.spareFailed url rfl hu
  | activate url => exact sound_active rfl rfl (hok.activate url rfl)
  | adopt url other =>
    obtain ⟨hready, hconn⟩ := hok.adopt url rfl other
    exact sound_active hready rfl hconn
  | connectEnd err down soft =>
    refine ⟨hs.ready, fun u hu => (hs.active u hu).imp id (hkeep id), fun _ => reason_schedule _ _⟩
  | refused err down code =>
    refine ⟨hs.ready, fun u hu => (hs.active u hu).imp id (hkeep id), fun _ =>
      .inr (.inr (.inr (.inl ⟨[], e, log, rfl, ?_, fun e' he' => absurd he' List.not_mem_nil⟩)))⟩
    rw [hrefusal]
    have hdown : (!s.ready || s.activeUrl.isNone) = true := by
      rcases down with hready | hactive
      · rw [hready]
        rfl
      · rw [hactive]
        exact Bool.or_true _
    change ((!s.ready || s.activeUrl.isNone) && (terminalHomeRejectionCode err).isSome) = true
    rw [hdown, code]
    rfl
  | connected err up active =>
    refine ⟨hs.ready, fun u hu => (hs.active u hu).imp id (hkeep id), fun hnone => ?_⟩
    have hnone : s.activeUrl = none := hnone
    rw [hnone] at active
    cases active
  | connectFinally => exact hs.same he hturn rfl rfl hconn id rfl rfl id
  | retry _ _ failed =>
    refine ⟨hs.ready, fun u hu => (hs.active u hu).imp id (hkeep ?_), fun _ => reason_schedule _ _⟩
    rcases failed with ⟨-, rfl⟩ | ⟨-, rfl⟩ <;> exact id
  | offline _ _ lost => exact sound_offline rfl rfl (reason_schedule _ _)
  | died tr x at_ subscribed other =>
    refine hs.same he hturn rfl rfl (fun u hu h => ready_mark_false ?_ h) id rfl rfl id
    rintro rfl
    exact other hu
  | join tr x p at_ subscribed active promotion =>
    have hfailing := hok.lost tr x rfl at_ subscribed active (by rw [promotion]; nofun)
    refine ⟨hs.ready, fun u hu => .inr ?_, fun hnone => ?_⟩
    · obtain ⟨v, hv, hP⟩ := hfailing
      obtain ⟨rfl, rfl⟩ | ⟨-, hP'⟩ := hturn.cases_before hP.1
      · have hidle : hv = idle := hl
        rw [hidle] at hP
        rcases hP.2 with ⟨p, hp⟩ | hp <;> cases hp
      · exact ⟨v, hv, hP', hP.2⟩
    · cases active.symm.trans hnone
  | search tr x p at_ subscribed active promotion =>
    refine ⟨hs.ready, fun u hu => .inr ⟨t, _, hturn.after, .inl ⟨p, rfl⟩⟩, fun hnone => ?_⟩
    cases active.symm.trans hnone
  | failover tr x p url at_ subscribed active promotion found =>
    obtain ⟨hne, hready⟩ := ready_of_spare found
    exact sound_active rfl rfl hready
  | promote p url searching found => exact sound_active rfl rfl (ready_of_spare found).2
  | promoteEnd p b =>
    refine hs.same he hturn rfl rfl hconn (fun hf => ?_) rfl rfl id
    rcases hl with ⟨hsearching, rfl⟩ | hpromoted
    · exact .inr rfl
    · rcases hf with ⟨q, hq⟩ | hq
      · cases hpromoted.symm.trans hq
      · cases hpromoted.symm.trans hq

/-- A connect attempt has begun. -/
theorem sound_begins {l : Stretch} (h : Move cfg i s w l m' w') (hs : Sound (.of s) P log)
    (hturn : Turn P P' t w w') (hbegins : begins s l = true) (hconnecting : w'.connecting ≠ none) :
    Sound m' P' (e :: log) := by
  have hreason : ∀ m, Reason m P' (e :: log) :=
    fun m => .inr (.inr (.inr (.inr ⟨t, w', hturn.after, .inl hconnecting⟩)))
  cases h with
  | stay _ _ keeps =>
    exact ⟨hs.ready, fun u hu =>
      (hs.active u hu).imp id (turn_kept hturn (failing_of_eq keeps.failover)), fun _ => hreason _⟩
  | disarm _ _ kick why keeps =>
    exact ⟨hs.ready, fun u hu =>
      (hs.active u hu).imp id (turn_kept hturn (failing_of_eq keeps.failover)), fun _ => hreason _⟩
  | enter _ _ p starts begun => exact sound_clear (hreason _)
  | close _ leaving closing => exact sound_clear (hreason _)
  | retry _ _ failed => rcases failed with ⟨rfl, -⟩ | ⟨rfl, -⟩ <;> cases hbegins
  | offline _ _ lost => rcases lost with ⟨rfl, -⟩ | ⟨rfl, -⟩ <;> cases hbegins
  | _ => cases hbegins

theorem Sound.answer {o : Await} {r : o.Ans} (hmay : (monitor cfg).may w (.await o))
    (hs : Sound (.of s) P log) (hturn : Turn P P' t w ((monitor cfg).next w ⟨.await o, r⟩))
    (he : ran begins e.exch = false) : Sound (.of (outsideWorld.effect s o r)) P' (e :: log) := by
  have hans := answered r hmay
  rw [of_effect]
  refine hs.same he hturn rfl rfl (fun _ _ h => h) (fun hf => ?_) rfl rfl
    (recovering_of_eq hans.connecting hans.restoring)
  cases o with
  | connect tr =>
    match r with
    | .ok () => exact hf
    | .error err => exact hf
  | authenticate tr =>
    match r with
    | .ok session => exact hf
    | .error err => exact hf
  | joinPromotion p =>
    have hjoined : w.failover = .joined := hmay
    rcases hf with ⟨q, hq⟩ | hq
    · cases hjoined.symm.trans hq
    · cases hjoined.symm.trans hq
  | _ => exact hf

theorem Sound.joined (h : Sound m P log) (hj : Joined P P') : Sound m P' log := by
  refine ⟨h.ready, fun u hu => (h.active u hu).imp id fun ⟨v, w, hw, hf⟩ =>
    ⟨v, w, hj.kept v w hw, hf⟩, fun hnone => ?_⟩
  rcases h.offline hnone with h | h | h | h | ⟨u, w, hw, hr⟩
  · exact .inl h
  · exact .inr (.inl h)
  · exact .inr (.inr (.inl h))
  · exact .inr (.inr (.inr (.inl h)))
  · exact .inr (.inr (.inr (.inr ⟨u, w, hj.kept u w hw, hr⟩)))

end

/-! ## Every run -/

theorem sound_inductive {cfg : Config} {rounds : Nat} :
    ((uplinks cfg rounds).lts (timely cfg)).Inductive fun s => Base cfg s ∧ Sound (.of s.mem)
      (place cfg s) s.log := by
  refine System.inductive_of (fun m hm => ?_) (fun s c h _ => ⟨h.1.spawn c,
    h.2.joined (h.1.joined c)⟩) fun s e c k s' h hf hok => ⟨h.1.fires hf, ?_⟩
  · subst hm
    exact ⟨.init, sound_offline rfl rfl (.inl fun e he => absurd he List.not_mem_nil)⟩
  · obtain ⟨hbase, hsound⟩ := h
    obtain ⟨w, hw, heff⟩ := hbase.effect hf
    rw [hf.log]
    cases heff with
    | stretch l i exch legal mem next move =>
      have hturn := turn_fires hf hw next
      have hallowed : Timely cfg s l := hok l _ i s.mem exch
      cases hb : begins s.mem l with
      | true => exact sound_begins move hsound hturn hb (connecting_of_begins hb)
      | false =>
        refine sound_move move legal hsound hturn ?_ hb (ran_stretch exch) ?_
        · rw [ran_stretch exch]
          exact hb
        · exact ⟨hallowed.activate, hallowed.adopt, hallowed.spareFailed, hallowed.lost,
            hallowed.joins⟩
    | answer o r exch allows may mem next =>
      rw [mem]
      exact hsound.answer may (turn_fires hf hw next) (ran_answer exch)

/-- **The pool comes to rest ready, or offline for a reason**, in every timely
run. -/
theorem quiescent (cfg : Config) (rounds : Nat) (s : UplinkState)
    (hr : ((uplinks cfg rounds).lts (timely cfg)).Reachable s) (hret : Returned s) :
    AtPeace cfg s := by
  obtain ⟨hbase, hsound⟩ := sound_inductive.reachable s hr
  cases hactive : s.mem.activeUrl with
  | some u =>
    refine .inl ⟨?_, u, hbase.active u hactive, hactive, ?_⟩
    · have hready : s.mem.ready = s.mem.activeUrl.isSome := hsound.ready
      rw [hready, hactive]
      rfl
    · rcases hsound.active u hactive with hready | ⟨t, w, hw, hf⟩
      · exact hready
      · rw [hbase.idle_of_returned hret hw] at hf
        rcases hf with ⟨p, hp⟩ | hp <;> cases hp
  | none =>
    refine .inr ⟨?_, hactive, ?_⟩
    · have hready : s.mem.ready = s.mem.activeUrl.isSome := hsound.ready
      rw [hready, hactive]
      rfl
    · rcases hsound.offline hactive with h | h | h | h | ⟨t, w, hw, hrec⟩
      · exact .inl h
      · exact .inr (.inl h)
      · exact .inr (.inr (.inl h))
      · exact .inr (.inr (.inr h))
      · rw [hbase.idle_of_returned hret hw] at hrec
        rcases hrec with hrec | hrec
        · exact absurd rfl hrec
        · cases hrec

namespace Example

open UplinkMoves.Example

def isReady (s : UplinkPool) (url : String) : Bool := (s.conn url).any Conn.ready

theorem connReady_iff {s : UplinkPool} {url : String} (h : isReady s url = true) :
    ConnReady s url := (Option.any_eq_true _ _).mp h

def onTime (s : UplinkPool) : Stretch → Bool
  | .activate url => isReady s url
  | .adopt _ => false
  | .spareFailed url => s.activeUrl ≠ some url
  | .stateEvent _ => s.promotePromise = none
  | l => !joins s l

theorem timely_of_onTime {cfg : Config} {s : UplinkState} {l : Stretch}
    (h : onTime s.mem l = true) : Timely cfg s l := by
  refine ⟨fun url hl => ?_, fun url hl => ?_, fun url hl => ?_, fun tr t hl _ _ _ hne => ?_,
    fun hj => ?_⟩
  · subst hl
    exact connReady_iff h
  · subst hl
    cases h
  · subst hl
    exact of_decide_eq_true h
  · subst hl
    have hnone : s.mem.promotePromise = none := of_decide_eq_true h
    exact absurd hnone hne
  · cases l with
    | connectNow =>
      have h : (!joins s.mem .connectNow) = true := h
      rw [hj] at h
      cases h
    | timer =>
      have h : (!joins s.mem .timer) = true := h
      rw [hj] at h
      cases h
    | _ => cases hj

def timelyJudge (cfg : Config) : System.Judge (timely cfg) where
  may _ _ := true
  ok s e := match e.exch with
    | ⟨.run l _, _⟩ => onTime s.mem l
    | _ => true
  may_iff _ _ _ := trivial
  ok_iff s e h l g i m hx := by
    rw [hx] at h
    exact timely_of_onTime h

/-- As in `smooth`, and a call that joins a promotion finds that it succeeded. -/
def joined : ObjFate Input outside :=
  { smooth 1 with answer := fun
    | .joinPromotion _ => some true
    | o => (smooth 1).answer o }

end Example

open UplinkMoves.Example Example in
/-- The active uplink is lost, and its spare takes over. -/
theorem quiescent_promoted :
    ∃ s, ((uplinks urls 3).lts (timely urls)).Reachable s ∧ Returned s ∧
      s.mem.activeUrl = some "wss://b" ∧ AtPeace urls s := by
  obtain ⟨s, hr, hs⟩ :=
    System.reachable_of_play (S := uplinks urls 3) (timelyJudge urls) (fun _ _ => smooth 1)
    [.call .connect, .go 0 19, .call (.connState 0), .go 1 13] (m := .new)
    (P := fun s => returned s && s.mem.activeUrl = some "wss://b") rfl (by decide +kernel)
  rw [Bool.and_eq_true, decide_eq_true_iff] at hs
  exact ⟨s, hr, returned_iff hs.1, hs.2, quiescent urls 3 s hr (returned_iff hs.1)⟩

open UplinkMoves.Example Example in
/-- The promoted spare is lost while its own promotion runs the restoration hook,
so its state event joins that promotion, and the pool rests on a dead uplink. -/
theorem dead_active :
    ∃ s, ((uplinks urls 3).lts anyUse).Reachable s ∧ Returned s ∧ s.mem.activeUrl = some "wss://b" ∧
      ¬ AtPeace urls s := by
  obtain ⟨s, hr, hs⟩ := System.reachable_of_play (S := uplinks urls 3) anyJudge (fun _ _ => joined)
    [.call .connect, .go 0 19, .call (.connState 0), .go 1 1, .call (.connState 1),
    .go 2 1, .go 1 12, .go 2 1] (m := .new)
    (P := fun s => returned s && s.mem.activeUrl = some "wss://b" &&
    !isReady s.mem "wss://b") rfl (by decide +kernel)
  rw [Bool.and_eq_true, Bool.and_eq_true, decide_eq_true_iff, Bool.not_eq_true'] at hs
  obtain ⟨⟨hret, hactive⟩, hdead⟩ := hs
  refine ⟨s, hr, returned_iff hret, hactive, ?_⟩
  rintro (⟨-, u, -, hu, hready⟩ | ⟨-, hnone, -⟩)
  · have hurl : "wss://b" = u := Option.some.inj (hactive.symm.trans hu)
    subst hurl
    have hlive : isReady s.mem "wss://b" = true := (Option.any_eq_true _ _).mpr hready
    cases hdead.symm.trans hlive
  · cases hactive.symm.trans hnone

end RezSdk.L4.UplinkQuiescent
