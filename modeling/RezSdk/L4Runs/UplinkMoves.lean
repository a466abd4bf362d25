import RezSdk.L4Runs.UplinkCalls

/-!
# What an event does to the uplink pool

`Core` holds the fields that make up the pool: the connections and their
transports, the active uplink, the timer. `Move` lists what a stretch can do to
them, and what it does to the place of its call (`move_apply`), so that an
invariant is checked once for each kind of move and not for every stretch.
-/
namespace RezSdk.L4.UplinkMoves

open RezSdk.L1 RezSdk.L3.Uplinks RezSdk.L4.UplinkCalls

structure Core where
  transports : List Transport
  conns : List (String × Conn)
  activeUrl : Option String
  sessionInfo : Option Session
  ready : Bool
  promotePromise : Option Nat
  reconnectTimer : Option Nat
  closed : Bool
  connectPromise : Option Nat
  authSession : Option Session

namespace Core

def of (s : UplinkPool) : Core :=
  ⟨s.transports, s.conns, s.activeUrl, s.sessionInfo, s.ready, s.promotePromise,
  s.reconnectTimer, s.closed, s.connectPromise, s.authSession⟩

def onTransport (c : Core) (tr : Nat) (f : Transport → Transport) : Core :=
  { c with transports := c.transports.modify tr f }

def hangUp (c : Core) : Option Nat → Core
  | some tr => c.onTransport tr fun t => { t with subscribed := false, opened := false }
  | none => c

def entries (c : Core) : List Nat := c.conns.map fun p => p.2.transport

def clear (c : Core) : Core :=
  { c with
    conns := []
    activeUrl := none
    sessionInfo := none
    ready := false
    promotePromise := none }.hangUp c.entries.head?

def mark (c : Core) (url : String) (ready healthy : Bool) : Core :=
  { c with conns := match OMap.get url c.conns with
    | some x => OMap.set url { x with ready, healthy } c.conns
    | none => c.conns }

def setActive (c : Core) (url : String) : Core :=
  { c with activeUrl := some url, sessionInfo := c.authSession }

def schedule (cfg : Config) (attempts : Nat) (c : Core) : Core :=
  { c with reconnectTimer := if c.closed || c.reconnectTimer.isSome then c.reconnectTimer
    else some (min cfg.reconnectBackoffCapMs (cfg.reconnectBackoffMs * 2 ^ attempts)) }

end Core

/-- The timer or `connectNow` asks for a reconnect attempt. -/
def kicks (s : UplinkPool) : Stretch → Bool
  | .connectNow => !s.closed && s.attemptReconnectPromise.isNone && !(s.ready && s.activeUrl.isSome)
  | .timer => s.reconnectTimer.isSome && !s.closed
  | _ => false

/-- A stretch that begins a connect attempt. -/
def begins (s : UplinkPool) : Stretch → Bool
  | .connect => s.connectPromise.isNone
  | .clientPool => s.connectPromise.isNone
  | .clientConnect =>
    !s.client.connected && s.client.connectPromise.isNone && s.client.started &&
      s.connectPromise.isNone
  | l => kicks s l && s.attemptReconnectPromise.isNone && s.connectPromise.isNone

/-- A stretch that stops the timer and joins what is in flight. -/
def joins (s : UplinkPool) (l : Stretch) : Bool :=
  kicks s l && (s.attemptReconnectPromise.isSome || s.connectPromise.isSome)

/-- A stretch that runs `close`. -/
def closes (s : UplinkPool) : Stretch → Bool
  | .close => true
  | .clientDisconnect => s.client.connected
  | .clientStop => s.client.stopPromise.isNone
  | _ => false

/-- Nothing of the pool hangs on what has changed in the place. -/
structure Keeps (w w' : Place) : Prop where
  shaking : w'.shaking = w.shaking
  connecting : w'.connecting = w.connecting
  inConnect : w'.inConnect = w.inConnect
  failover : w'.failover = w.failover
  restoring : w'.restoring = w.restoring
  draining : w'.draining = w.draining

theorem Keeps.refl (w : Place) : Keeps w w := ⟨rfl, rfl, rfl, rfl, rfl, rfl⟩

/-- A connect attempt begins. -/
structure Begins (w w' : Place) (p : Nat) (entries : List Nat) : Prop where
  shaking : w'.shaking = w.shaking
  connecting : w'.connecting = some p
  inConnect : w'.inConnect = true
  failover : w'.failover = w.failover
  restoring : w'.restoring = w.restoring
  draining : w'.draining = entries.tail.map (·, false)

/-- What a stretch does, from a place that allows it. -/
inductive Move (cfg : Config) (i : Input) (s : UplinkPool) (w : Place) :
    Stretch → Core → Place → Prop
  | stay (l : Stretch) (w' : Place) (keeps : Keeps w w') : Move cfg i s w l (.of s) w'
  /-- the timer is consumed, or stopped to join a connect attempt -/
  | disarm (l : Stretch) (w' : Place) (kick : l = .timer ∨ l = .connectNow) (why : s.closed = true ∨
      joins s l = true) (keeps : Keeps w w') :
      Move cfg i s w l { Core.of s with reconnectTimer := none } w'
  | enter (l : Stretch) (w' : Place) (p : Nat) (starts : begins s l = true)
      (begun : Begins w w' p (Core.of s).entries) :
      Move cfg i s w l
        { Core.of s with connectPromise := some p, closed := false, reconnectTimer := none }.clear
        w'
  | close (l : Stretch) (leaving : Bool) (closing : closes s l = true) :
      Move cfg i s w l { Core.of s with closed := true, reconnectTimer := none }.clear
        { w.closes (Core.of s).entries with leaving }
  | restoreClear : Move cfg i s w .restoreClear (Core.of s).clear
      { w with restoring := true, draining := (Core.of s).entries.tail.map (·, false) }
  | hangUp (tr : Option Nat) :
      Move cfg i s w (.hangUp tr) ((Core.of s).hangUp tr) { w with draining := w.draining.tail }
  | reuse (url : String) (c : Conn) (conn : s.conn url = some c) (ready : c.ready = false) :
      Move cfg i s w (.begin url) ((Core.of s).onTransport c.transport fun t =>
        { t with connects := t.connects + 1 })
        { w with shaking := some (c.transport, .connecting) }
  | create (url : String) (conn : s.conn url = none) (made : i.factoryThrows = none) :
      Move cfg i s w (.begin url)
      { Core.of s with
        transports := s.transports ++ [⟨url, false, true, none, 1, 0⟩]
        conns := OMap.set url ⟨s.transports.length, false, false⟩ s.conns }
      { w with shaking := some (s.transports.length, .connecting) }
  | authStart (tr : Nat) : Move cfg i s w (.authStart tr)
      { (Core.of
      s).onTransport tr fun t => { t with auths := t.auths + 1 } with authSession := none }
      { w with shaking := some (tr, .authenticating) }
  | markReady (url : String) :
      Move cfg i s w (.markReady url) ((Core.of s).mark url true true) { w with shaking := none }
  | spareFailed (url : String) :
      Move cfg i s w (.spareFailed url) ((Core.of s).mark url false false) w
  | activate (url : String) : Move cfg i s w (.activate url)
      { (Core.of s).setActive url with ready := true } { w with connecting := none }
  | adopt (url : String) (other : s.activeUrl ≠ some url) :
      Move cfg i s w (.adopt url) ((Core.of s).setActive url) w
  | connectEnd (err : Option Failure) (down : s.ready = false ∨
      s.activeUrl = none) (soft : terminalHomeRejectionCode err = none) :
      Move cfg i s w (.connectEnd err) ((Core.of s).schedule cfg s.reconnectAttempts)
        { w with connecting := none }
  | refused (err : Option Failure) (down : s.ready = false ∨
      s.activeUrl = none) (code : (terminalHomeRejectionCode err).isSome) :
      Move cfg i s w (.connectEnd err) (.of s) { w with connecting := none }
  | connected (err : Option Failure) (up : s.ready = true) (active : s.activeUrl.isSome) :
      Move cfg i s w (.connectEnd err) (.of s) { w with connecting := none }
  | connectFinally : Move cfg i s w .connectFinally { Core.of s with connectPromise := none }
      { w with inConnect := false }
  | retry (l : Stretch) (w' : Place) (failed : l = .attemptFailed ∧ w' = w ∨
      l = .restoreFailed ∧ w' = { w with restoring := false }) :
      Move cfg i s w l ((Core.of s).schedule cfg s.reconnectAttempts) w'
  | offline (l : Stretch) (w' : Place) (lost : l = .promoteFailed ∧ w' = w ∨
      l = .promoteLost ∧ w' = { w with failover := .none }) :
      Move cfg i s w l
        ({ Core.of s with ready := false, activeUrl := none, sessionInfo := none }.schedule
          cfg s.reconnectAttempts) w'
  | died (tr : Nat) (t : Transport) (at_ : s.transports[tr]? = some t)
      (subscribed : t.subscribed = true) (other : s.activeUrl ≠ some t.url) :
      Move cfg i s w (.stateEvent tr) ((Core.of s).mark t.url false false) w
  | join (tr : Nat) (t : Transport) (p : Nat) (at_ : s.transports[tr]? = some t)
      (subscribed : t.subscribed = true)
      (active : s.activeUrl = some t.url) (promotion : s.promotePromise = some p) :
      Move cfg i s w (.stateEvent tr) ((Core.of s).mark t.url false false)
        { w with failover := .joined }
  | search (tr : Nat) (t : Transport) (p : Nat) (at_ : s.transports[tr]? = some t)
      (subscribed : t.subscribed = true)
      (active : s.activeUrl = some t.url) (promotion : s.promotePromise = none) :
      Move cfg i s w (.stateEvent tr)
        { (Core.of s).mark t.url false false with promotePromise := some p }
        { w with failover := .searching p }
  | failover (tr : Nat) (t : Transport) (p : Nat) (url : String) (at_ : s.transports[tr]? = some t)
      (subscribed : t.subscribed = true)
      (active : s.activeUrl = some t.url) (promotion : s.promotePromise = none)
      (found : (s.mark t.url false false).findConnectedSpare cfg = some url) :
      Move cfg i s w (.stateEvent tr)
        { { (Core.of
        s).mark t.url false false with promotePromise := some p }.setActive url with ready := true }
        { w with failover := .promoted p }
  | promote (p : Nat) (url : String) (searching : w.failover = .searching p)
      (found : s.findConnectedSpare cfg = some url) :
      Move cfg i s w .promoteFind { (Core.of s).setActive url with ready := true }
        { w with failover := .promoted p }
  | promoteEnd (p : Nat) (b : Bool) :
      Move cfg i s w (.promoteEnd p b) { Core.of s with promotePromise := none } (w.promotion b)

section

variable {cfg : Config} {i : Input} {s : UplinkPool} {w : Place}

theorem of_hangUp (s : UplinkPool) (tr : Option Nat) :
    Core.of (s.hangUp tr) = (Core.of s).hangUp tr := by
  cases tr <;> rfl

theorem of_clear (s : UplinkPool) : Core.of s.clear.2 = (Core.of s).clear := of_hangUp _ _

/-- A connect attempt is joined or begun. -/
theorem connectEnter_cases (s : UplinkPool) :
    (∃ p, s.connectPromise = some p ∧ s.connectEnter = (.join p, s)) ∨
    (s.connectPromise = none ∧
      ∃ p, s.connectEnter.1 = .run p (Core.of s).entries ∧
        Core.of s.connectEnter.2 = { Core.of s with
          connectPromise := some p, closed := false, reconnectTimer := none }.clear) := by
  unfold UplinkPool.connectEnter
  cases h : s.connectPromise with
  | some p => exact .inl ⟨p, rfl, rfl⟩
  | none => exact .inr ⟨rfl, _, rfl, of_clear _⟩

theorem move_connect {l : Stretch} {v : Place} {s₁ : UplinkPool} (hcore : Core.of s₁ = Core.of s)
    (hpromise : s₁.connectPromise = s.connectPromise) (hw : Keeps w v)
    (hbegins : s.connectPromise = none → begins s l = true) :
    Move cfg i s w l (.of s₁.connectEnter.2) (v.enter s₁.connectEnter.1) := by
  obtain ⟨p, -, heq⟩ | ⟨hnone, p, hrun, hclear⟩ := connectEnter_cases s₁
  · rw [heq, hcore]
    exact .stay l _ hw
  · rw [hclear, hrun, hcore]
    exact .enter l _ p (hbegins (hpromise.symm.trans hnone)) ⟨hw.shaking, rfl,
      rfl, hw.failover, hw.restoring, rfl⟩

theorem move_attempt {l : Stretch} (hl : l = .timer ∨ l = .connectNow) (hkicks : kicks s l = true)
    {s₁ : UplinkPool} (hcore : Core.of s₁ = { Core.of s with reconnectTimer := none })
    (hpromise : s₁.connectPromise = s.connectPromise)
    (hattempt : s₁.attemptReconnectPromise = s.attemptReconnectPromise) :
    Move cfg i s w l (.of s₁.attemptEnter.2) (w.kick s₁.attemptEnter.1) := by
  unfold UplinkPool.attemptEnter
  cases ha : s₁.attemptReconnectPromise with
  | some a =>
    have hjoins : joins s l = true := by
      unfold joins
      rw [hkicks, ← hattempt, ha]
      rfl
    dsimp only
    rw [hcore]
    exact .disarm l _ hl (.inr hjoins) (.refl w)
  | none =>
    dsimp only
    generalize hs₂ : { s₁.promise.2 with attemptReconnectPromise := some s₁.promise.1 } = s₂
    have hcore₂ : Core.of s₂ = { Core.of s with reconnectTimer := none } := by
      rw [← hs₂, ← hcore]; rfl
    have hpromise₂ : s₂.connectPromise = s.connectPromise := by rw [← hs₂, ← hpromise]; rfl
    obtain ⟨p, hsome, heq⟩ | ⟨hnone, p, hrun, hclear⟩ := connectEnter_cases s₂
    · have hjoins : joins s l = true := by
        unfold joins
        rw [hkicks, ← hpromise₂, hsome]
        exact Bool.or_true _
      rw [heq]
      dsimp only
      rw [hcore₂]
      exact .disarm l _ hl (.inr hjoins) ⟨rfl, rfl, rfl, rfl, rfl, rfl⟩
    · have hbegins : begins s l = true := by
        have hkick : begins s l = (kicks s l && s.attemptReconnectPromise.isNone &&
            s.connectPromise.isNone) := by
          rcases hl with rfl | rfl <;> rfl
        rw [hkick, hkicks, ← hattempt, ha, ← hpromise₂, hnone]
        rfl
      rw [hclear]
      have hkick : w.kick (.attempt s₁.promise.1 s₂.connectEnter.1) =
          { w with attempting := true }.enter s₂.connectEnter.1 := rfl
      rw [hkick, hrun, hcore₂]
      exact .enter l _ p hbegins ⟨rfl, rfl, rfl, rfl, rfl, rfl⟩

theorem move_connectNow :
    Move cfg i s w .connectNow (.of s.connectNow.2) (w.kick s.connectNow.1) := by
  unfold UplinkPool.connectNow
  split
  · exact .stay _ _ (.refl w)
  · rename_i hopen
    split
    · exact .stay _ _ (.refl w)
    · rename_i ha
      split
      · exact .stay _ _ (.refl w)
      · rename_i hdown
        have hkicks : kicks s .connectNow = true := by
          unfold kicks
          rw [Bool.not_eq_true] at hopen hdown
          dsimp only
          rw [hopen, ha, hdown]
          rfl
        exact move_attempt (.inr rfl) hkicks rfl rfl rfl

theorem move_timer : Move cfg i s w .timer (.of s.timer.2) (w.kick s.timer.1) := by
  unfold UplinkPool.timer
  split
  · exact .stay _ _ (.refl w)
  · rename_i delay harmed
    dsimp only
    split
    · rename_i hclosed
      exact .disarm _ _ (.inl rfl) (.inl hclosed) (.refl w)
    · rename_i hopen
      have hkicks : kicks s .timer = true := by
        unfold kicks
        rw [Bool.not_eq_true] at hopen
        dsimp only
        rw [harmed, hopen]
        rfl
      exact move_attempt (.inl rfl) hkicks rfl rfl rfl

theorem move_clientConnect :
    Move cfg i s w .clientConnect (.of s.clientConnect.2) (w.clientEnter s.clientConnect.1) := by
  unfold UplinkPool.clientConnect
  split
  · exact .stay _ _ (.refl w)
  · rename_i hoff
    split
    · exact .stay _ _ (.refl w)
    · rename_i hfree
      dsimp only
      split
      · rename_i hstarted
        refine move_connect rfl rfl (w := w) (v := { w with clienting := true }) ⟨rfl,
          rfl, rfl, rfl, rfl, rfl⟩ fun hnone => ?_
        have hstarted : s.client.started = true := hstarted
        unfold begins
        rw [Bool.not_eq_true] at hoff
        dsimp only
        rw [hoff, hfree, hstarted, hnone]
        rfl
      · exact .stay _ _ ⟨rfl, rfl, rfl, rfl, rfl, rfl⟩

theorem move_begin (url : String) :
    Move cfg i s w (.begin url) (.of (s.begin i url).2) (follow cfg w i s (.begin url)) := by
  unfold follow UplinkPool.begin
  dsimp only
  cases hconn : s.conn url with
  | some c =>
    dsimp only
    cases hready : c.ready with
    | true => exact .stay _ _ (.refl w)
    | false => exact .reuse url c hconn hready
  | none =>
    dsimp only
    cases hmade : i.factoryThrows with
    | some err => exact .stay _ _ (.refl w)
    | none => exact .create url hconn hmade

theorem move_connectEnd (err : Option Failure) :
    Move cfg i s w (.connectEnd err) (.of (s.connectEnd cfg err).2)
      { w with connecting := none } := by
  unfold UplinkPool.connectEnd
  dsimp only
  split
  · rename_i hdown
    have hdown : s.ready = false ∨ s.activeUrl = none := by
      rw [Bool.or_eq_true, Bool.not_eq_true', Option.isNone_iff_eq_none] at hdown
      exact hdown
    cases hcode : terminalHomeRejectionCode err with
    | some code => exact .refused err hdown (by rw [hcode]; rfl)
    | none => exact .connectEnd err hdown hcode
  · rename_i hup
    rw [Bool.not_eq_true, Bool.or_eq_false_iff, Bool.not_eq_false', Option.isNone_eq_false_iff]
      at hup
    exact .connected err hup.1 hup.2

theorem move_promoteFind {p : Nat} (hw : w.failover = .searching p) :
    Move cfg i s w .promoteFind (.of (s.promoteFind cfg i).2) (follow cfg w i s .promoteFind) := by
  unfold follow UplinkPool.promoteFind
  dsimp only
  rw [hw]
  cases hfind : s.findConnectedSpare cfg with
  | none => exact .stay _ _ (.refl w)
  | some url => exact .promote p url hw hfind

theorem move_stateEvent (tr : Nat) :
    Move cfg i s w (.stateEvent tr) (.of (s.stateEvent cfg i tr).2)
      (w.event (s.stateEvent cfg i tr).1) := by
  unfold UplinkPool.stateEvent
  split
  · exact .stay _ _ (.refl w)
  · rename_i t htr
    split
    · exact .stay _ _ (.refl w)
    · rename_i hsub
      have hsub : t.subscribed = true := by simpa using hsub
      dsimp only
      split
      · rename_i hactive
        have hactive : s.activeUrl = some t.url := hactive
        split
        · rename_i p hp
          exact .join tr t p htr hsub hactive hp
        · rename_i hp
          have hfound : ∀ p, { (s.mark t.url false
              false).promise.2 with promotePromise := some p }.findConnectedSpare cfg
              = (s.mark t.url false false).findConnectedSpare cfg := fun _ => rfl
          unfold UplinkPool.promoteFind
          rw [hfound]
          cases hfind : (s.mark t.url false false).findConnectedSpare cfg with
          | none => exact .search tr t _ htr hsub hactive hp
          | some url => exact .failover tr t _ url htr hsub hactive hp hfind
      · rename_i hother
        have hother : s.activeUrl ≠ some t.url := hother
        have hcore : ∀ b : Bool, Core.of (if b
            then { s.mark t.url false false with spareEnsureQueued := true }
            else s.mark t.url false false)
            = (Core.of s).mark t.url false false := by
          intro b
          cases b <;> rfl
        dsimp only
        rw [hcore]
        exact .died tr t htr hsub hother

theorem of_spareFinally (s : UplinkPool) : Core.of s.spareFinally.2 = Core.of s := by
  unfold UplinkPool.spareFinally
  dsimp only
  split <;> rfl

theorem of_spareEnter (s : UplinkPool) : Core.of (s.spareEnter cfg).2 = Core.of s := by
  unfold UplinkPool.spareEnter
  split <;> rfl

theorem keeps_spareEnter : Keeps w (follow cfg w i s .spareEnter) := by
  unfold follow
  dsimp only
  split
  · exact ⟨rfl, rfl, rfl, rfl, rfl, rfl⟩
  · exact .refl w

theorem move_adopt (url : String) : Move cfg i s w (.adopt url) (.of (s.adopt url)) w := by
  unfold UplinkPool.adopt
  split
  · exact .stay _ _ (.refl w)
  · rename_i hother
    exact .adopt url hother

theorem move_clientDisconnect :
    Move cfg i s w .clientDisconnect (.of s.clientDisconnect.2)
      (follow cfg w i s .clientDisconnect) := by
  unfold follow UplinkPool.clientDisconnect
  dsimp only
  split
  · rename_i hconnected
    change Move cfg i s w _ (.of s.close.2) { w.closes _ with leaving := true }
    unfold UplinkPool.close
    rw [of_clear]
    exact .close _ true hconnected
  · exact .stay _ _ (.refl w)

theorem move_clientStop :
    Move cfg i s w .clientStop (.of s.clientStop.2) (w.stops s.clientStop.1) := by
  unfold UplinkPool.clientStop
  split
  · exact .stay _ _ (.refl w)
  · rename_i hfree
    have hcloses : closes s .clientStop = true := by
      unfold closes
      dsimp only
      rw [hfree]
      rfl
    dsimp only [UplinkPool.close]
    rw [of_clear]
    exact .close _ _ hcloses

/-- A stretch that changes neither the pool's core nor what hangs on the place. -/
theorem move_stay {l : Stretch} (hcore : Core.of (l.apply cfg i s) = Core.of s)
    (hw : Keeps w (follow cfg w i s l)) :
    Move cfg i s w l (.of (l.apply cfg i s)) (follow cfg w i s l) := by
  rw [hcore]
  exact .stay l _ hw

/-- What every stretch does. -/
theorem move_apply {l : Stretch} (h : Legal cfg w l) :
    Move cfg i s w l (.of (l.apply cfg i s)) (follow cfg w i s l) := by
  cases l with
  | connect => exact move_connect rfl rfl (.refl w) fun hnone => by rw [begins, hnone]; rfl
  | clientPool => exact move_connect rfl rfl (.refl w) fun hnone => by rw [begins, hnone]; rfl
  | connectNow => exact move_connectNow
  | timer => exact move_timer
  | close =>
    change Move cfg i s w _ (.of s.close.2) _
    unfold UplinkPool.close
    rw [of_clear]
    exact .close _ w.leaving rfl
  | restoreClear =>
    change Move cfg i s w _ (.of s.clear.2) _
    rw [of_clear]
    exact .restoreClear
  | hangUp tr =>
    change Move cfg i s w _ (.of (s.hangUp tr)) _
    rw [of_hangUp]
    exact .hangUp tr
  | begin url => exact move_begin url
  | authStart tr => exact .authStart tr
  | markReady url => exact .markReady url
  | activate url => exact .activate url
  | connectEnd err => exact move_connectEnd err
  | connectSettle p r => exact move_stay rfl ⟨rfl, rfl, rfl, rfl, rfl, rfl⟩
  | connectFinally => exact .connectFinally
  | spareEnter => exact move_stay (of_spareEnter s) keeps_spareEnter
  | spareNext url => exact move_stay rfl (.refl w)
  | spareFailed url => exact .spareFailed url
  | spareSettle p => exact move_stay rfl ⟨rfl, rfl, rfl, rfl, rfl, rfl⟩
  | spareFinally => exact move_stay (of_spareFinally s) (.refl w)
  | stateEvent tr => exact move_stateEvent tr
  | promoteFind => exact move_promoteFind h.choose_spec
  | promoteFailed => exact .offline _ _ (.inl ⟨rfl, rfl⟩)
  | promoteEnd p b => exact .promoteEnd p b
  | promoteLost => exact .offline _ _ (.inr ⟨rfl, rfl⟩)
  | attemptFailed => exact .retry _ _ (.inl ⟨rfl, rfl⟩)
  | restore => exact move_stay rfl (.refl w)
  | attemptDone => exact move_stay rfl (.refl w)
  | restoreFailed => exact .retry _ _ (.inr ⟨rfl, rfl⟩)
  | attemptSettle a r => exact move_stay rfl ⟨rfl, rfl, rfl, rfl, rfl, rfl⟩
  | attemptFinally => exact move_stay rfl (.refl w)
  | request => exact move_stay rfl (.refl w)
  | requestAll skip => exact move_stay rfl ⟨rfl, rfl, rfl, rfl, rfl, rfl⟩
  | requestVia url => exact move_stay rfl (.refl w)
  | adopt url => exact move_adopt url
  | requestSettle => exact move_stay rfl ⟨rfl, rfl, rfl, rfl, rfl, rfl⟩
  | clientConnect => exact move_clientConnect
  | clientConnected p r => exact move_stay rfl ⟨rfl, rfl, rfl, rfl, rfl, rfl⟩
  | clientDisconnect => exact move_clientDisconnect
  | clientDisconnected => exact move_stay rfl ⟨rfl, rfl, rfl, rfl, rfl, rfl⟩
  | clientStop => exact move_clientStop
  | clientStopped p => exact move_stay rfl (.refl w)

theorem clear_down (m : Core) :
    m.clear.ready = false ∧ m.clear.activeUrl = none ∧ m.clear.conns = [] ∧
    m.clear.reconnectTimer = m.reconnectTimer ∧ m.clear.closed = m.closed := by
  unfold Core.clear
  cases m.entries.head? <;> exact ⟨rfl, rfl, rfl, rfl, rfl⟩

theorem conns_mark (m : Core) (url : String) (ready healthy : Bool) :
    ∀ p' ∈ (m.mark url ready healthy).conns, ∃ p ∈ m.conns, p'.2.transport = p.2.transport := by
  intro p' hp'
  unfold Core.mark at hp'
  dsimp only at hp'
  split at hp'
  · rename_i c hc
    rcases OMap.mem_set hp' with rfl | hp'
    · exact ⟨_, OMap.mem_of_get hc, rfl⟩
    · exact ⟨p', hp', rfl⟩
  · exact ⟨p', hp', rfl⟩

theorem mark_empty {m : Core} (h : m.conns = []) (url : String) (ready healthy : Bool) :
    (m.mark url ready healthy).conns = [] := by
  unfold Core.mark
  dsimp only
  rw [h]
  rfl

theorem no_spare {p : UplinkPool} (h : p.conns = []) : p.findConnectedSpare cfg = none := by
  refine List.find?_eq_none.mpr fun url _ => ?_
  unfold UplinkPool.isSpare UplinkPool.conn
  rw [h]
  simp [OMap.get]

theorem schedule_closed {m : Core} {n : Nat} (hclosed : m.closed = true)
    (ht : m.reconnectTimer = none) : (m.schedule cfg n).reconnectTimer = none := by
  unfold Core.schedule
  dsimp only
  rw [hclosed]
  exact ht

/-- A call that begins a connect attempt, or closes the pool, has nothing else to
close. -/
theorem drained_of_begins {l : Stretch} (hl : Legal cfg w l) (h : begins s l = true) :
    w.draining = [] := by
  cases l with
  | connect => exact congrArg Place.draining hl
  | clientPool => exact congrArg Place.draining hl
  | connectNow => exact congrArg Place.draining hl
  | timer => exact congrArg Place.draining hl
  | clientConnect => exact congrArg Place.draining hl
  | _ => cases h

theorem drained_of_closes {l : Stretch} (hl : Legal cfg w l) (h : closes s l = true) :
    w.draining = [] := by
  cases l with
  | close => exact congrArg Place.draining hl
  | clientDisconnect => exact congrArg Place.draining hl
  | clientStop => exact congrArg Place.draining hl
  | _ => cases h

/-! ## Where the call of a stretch is afterwards -/

theorem enter_connecting (v : Place) (s₁ : UplinkPool) (h : s₁.connectPromise = none) :
    (v.enter s₁.connectEnter.1).connecting ≠ none := by
  obtain ⟨p, hsome, -⟩ | ⟨-, p, hrun, -⟩ := connectEnter_cases s₁
  · cases h.symm.trans hsome
  · rw [hrun]
    nofun

theorem attempt_connecting {s₁ : UplinkPool} (ha : s₁.attemptReconnectPromise = none)
    (hp : s₁.connectPromise = none) : (w.kick s₁.attemptEnter.1).connecting ≠ none := by
  unfold UplinkPool.attemptEnter
  rw [ha]
  refine enter_connecting { w with attempting := true } _ ?_
  exact hp

/-- The call that begins a connect attempt connects. -/
theorem connecting_of_begins {l : Stretch} (h : begins s l = true) :
    (follow cfg w i s l).connecting ≠ none := by
  cases l with
  | connect => exact enter_connecting w s (Option.isNone_iff_eq_none.mp h)
  | clientPool => exact enter_connecting w s (Option.isNone_iff_eq_none.mp h)
  | clientConnect =>
    have h : (!s.client.connected && s.client.connectPromise.isNone && s.client.started &&
        s.connectPromise.isNone) = true := h
    rw [Bool.and_eq_true, Bool.and_eq_true, Bool.and_eq_true, Bool.not_eq_true',
      Option.isNone_iff_eq_none, Option.isNone_iff_eq_none] at h
    obtain ⟨⟨⟨hoff, hfree⟩, hstarted⟩, hnone⟩ := h
    change (w.clientEnter s.clientConnect.1).connecting ≠ none
    unfold UplinkPool.clientConnect
    rw [if_neg (by rw [hoff]; nofun), hfree]
    dsimp only
    have hstarted : s.promise.2.client.started = true := hstarted
    rw [if_pos hstarted]
    refine enter_connecting { w with clienting := true } _ ?_
    exact hnone
  | connectNow =>
    have h : (!s.closed && s.attemptReconnectPromise.isNone && !(s.ready && s.activeUrl.isSome) &&
        s.attemptReconnectPromise.isNone &&
      s.connectPromise.isNone) = true := h
    rw [Bool.and_eq_true, Bool.and_eq_true, Bool.and_eq_true, Bool.and_eq_true,
      Bool.not_eq_true', Bool.not_eq_true', Option.isNone_iff_eq_none,
      Option.isNone_iff_eq_none] at h
    obtain ⟨⟨⟨⟨hopen, ha⟩, hdown⟩, -⟩, hnone⟩ := h
    change (w.kick s.connectNow.1).connecting ≠ none
    unfold UplinkPool.connectNow
    rw [if_neg (by rw [hopen]; nofun), ha]
    dsimp only
    rw [if_neg (by rw [hdown]; nofun)]
    exact attempt_connecting rfl hnone
  | timer =>
    have h : (s.reconnectTimer.isSome && !s.closed && s.attemptReconnectPromise.isNone &&
        s.connectPromise.isNone) = true := h
    rw [Bool.and_eq_true, Bool.and_eq_true, Bool.and_eq_true, Bool.not_eq_true',
      Option.isNone_iff_eq_none, Option.isNone_iff_eq_none] at h
    obtain ⟨⟨⟨harmed, hopen⟩, ha⟩, hnone⟩ := h
    obtain ⟨delay, hdelay⟩ := Option.isSome_iff_exists.mp harmed
    change (w.kick s.timer.1).connecting ≠ none
    unfold UplinkPool.timer
    rw [hdelay]
    dsimp only
    rw [if_neg (by rw [hopen]; nofun)]
    exact attempt_connecting ha hnone
  | _ => cases h

/-- The routines a call is in, other than a handshake, a connect attempt, a
failover or the closing of connections. -/
structure SameRoutines (w w' : Place) : Prop where
  sparing : w'.sparing = w.sparing
  asking : w'.asking = w.asking
  attempting : w'.attempting = w.attempting
  clienting : w'.clienting = w.clienting
  leaving : w'.leaving = w.leaving

/-- What brings a call into a routine. -/
structure Routines (s : UplinkPool) (w w' : Place) (l : Stretch) : Prop where
  sparing : ∀ p, w'.sparing = some p →
    w.sparing = some p ∨ l = .spareEnter ∧ s.activeUrl.isSome ∧ s.spareEnsurePromise = none ∧
      p = s.promises.length
  asking : w'.asking = true → w.asking = true ∨ ∃ skip, l = .requestAll skip
  attempting : w'.attempting = true → w.attempting = true ∨ kicks s l = true
  clienting : w'.clienting = true → w.clienting = true ∨ l = .clientConnect
  leaving : w.leaving = true → w'.leaving = true ∨ l = .clientDisconnected ∨ l = .clientStop

theorem SameRoutines.refl (w : Place) : SameRoutines w w := ⟨rfl, rfl, rfl, rfl, rfl⟩

theorem SameRoutines.routines {w' : Place} {l : Stretch} (h : SameRoutines w w') :
    Routines s w w' l where
  sparing _ hw := .inl (h.sparing.symm.trans hw)
  asking hw := .inl (h.asking.symm.trans hw)
  attempting hw := .inl (h.attempting.symm.trans hw)
  clienting hw := .inl (h.clienting.symm.trans hw)
  leaving hw := .inl (h.leaving.trans hw)

theorem same_enter (w : Place) (e : UplinkPool.Entered) : SameRoutines w (w.enter e) := by
  cases e <;> exact ⟨rfl, rfl, rfl, rfl, rfl⟩

theorem routines_kick {l : Stretch} {k : UplinkPool.Kick}
    (h : ∀ a e, k = .attempt a e → kicks s l = true) : Routines s w (w.kick k) l := by
  cases k with
  | attempt a e =>
    have hsame := same_enter { w with attempting := true } e
    exact ⟨fun _ hw => .inl (hsame.sparing.symm.trans hw),
      fun hw => .inl (hsame.asking.symm.trans hw), fun _ => .inr (h a e rfl),
      fun hw => .inl (hsame.clienting.symm.trans hw), fun hw => .inl (hsame.leaving.trans hw)⟩
  | _ => exact (SameRoutines.refl w).routines

theorem kicks_connectNow {a : Nat} {e : UplinkPool.Entered} (h : s.connectNow.1 = .attempt a e) :
    kicks s .connectNow = true := by
  unfold UplinkPool.connectNow at h
  split at h
  · cases h
  · rename_i hopen
    split at h
    · cases h
    · rename_i ha
      split at h
      · cases h
      · rename_i hdown
        unfold kicks
        rw [Bool.not_eq_true] at hopen hdown
        dsimp only
        rw [hopen, ha, hdown]
        rfl

theorem kicks_timer {a : Nat} {e : UplinkPool.Entered} (h : s.timer.1 = .attempt a e) :
    kicks s .timer = true := by
  unfold UplinkPool.timer at h
  split at h
  · cases h
  · rename_i delay harmed
    dsimp only at h
    split at h
    · cases h
    · rename_i hopen
      unfold kicks
      rw [Bool.not_eq_true] at hopen
      dsimp only
      rw [harmed, hopen]
      rfl

theorem routines_clientEnter {k : UplinkPool.ClientEntered} :
    Routines s w (w.clientEnter k) .clientConnect := by
  have hinto : ∀ w', SameRoutines { w with clienting := true } w' →
      Routines s w w' .clientConnect := fun w' h =>
    ⟨fun _ hw => .inl (h.sparing.symm.trans hw), fun hw => .inl (h.asking.symm.trans hw),
    fun hw => .inl (h.attempting.symm.trans hw),
      fun _ => .inr rfl, fun hw => .inl (h.leaving.trans hw)⟩
  cases k with
  | starting p => exact hinto _ (.refl _)
  | connecting p e => exact hinto _ (same_enter _ e)
  | _ => exact (SameRoutines.refl w).routines

theorem routines_spareEnter : Routines s w (follow cfg w i s .spareEnter) .spareEnter := by
  unfold follow
  dsimp only
  split
  · rename_i p hgo
    have hbegun : s.activeUrl.isSome ∧ s.spareEnsurePromise = none ∧ p = s.promises.length := by
      unfold UplinkPool.spareEnter at hgo
      split at hgo
      · cases hgo
      · rename_i hfree
        injection hgo with hp hgo
        rw [Bool.and_eq_true, Bool.and_eq_true] at hgo
        exact ⟨hgo.1.1, hfree, hp.symm⟩
    refine ⟨fun q hq => ?_, fun hw => .inl hw, fun hw => .inl hw, fun hw => .inl hw,
      fun hw => .inl hw⟩
    cases hq
    exact .inr ⟨rfl, hbegun⟩
  · exact (SameRoutines.refl w).routines

theorem routines_follow {l : Stretch} : Routines s w (follow cfg w i s l) l := by
  cases l with
  | connect => exact (same_enter w _).routines
  | clientPool => exact (same_enter w _).routines
  | connectNow => exact routines_kick fun a e h => kicks_connectNow h
  | timer => exact routines_kick fun a e h => kicks_timer h
  | clientConnect => exact routines_clientEnter
  | spareEnter => exact routines_spareEnter
  | spareSettle p =>
    exact ⟨fun _ h => (by cases h), fun h => .inl h, fun h => .inl h, fun h => .inl h,
      fun h => .inl h⟩
  | requestAll skip =>
    exact ⟨fun _ h => .inl h, fun _ => .inr ⟨skip, rfl⟩, fun h => .inl h, fun h => .inl h,
      fun h => .inl h⟩
  | requestSettle =>
    exact ⟨fun _ h => .inl h, fun h => (by cases h), fun h => .inl h, fun h => .inl h,
      fun h => .inl h⟩
  | attemptSettle a r =>
    exact ⟨fun _ h => .inl h, fun h => .inl h, fun h => (by cases h), fun h => .inl h,
      fun h => .inl h⟩
  | clientConnected p r =>
    exact ⟨fun _ h => .inl h, fun h => .inl h, fun h => .inl h, fun h => (by cases h),
      fun h => .inl h⟩
  | clientDisconnected =>
    exact ⟨fun _ h => .inl h, fun h => .inl h, fun h => .inl h, fun h => .inl h,
      fun _ => .inr (.inl rfl)⟩
  | clientDisconnect =>
    unfold follow
    dsimp only
    split
    · exact ⟨fun _ h => .inl h, fun h => .inl h, fun h => .inl h, fun h => .inl h,
        fun _ => .inl rfl⟩
    · exact (SameRoutines.refl w).routines
  | clientStop =>
    change Routines s w (w.stops s.clientStop.1) _
    cases s.clientStop.1 with
    | join p => exact (SameRoutines.refl w).routines
    | run p wasConnected entries =>
      exact ⟨fun _ h => .inl h, fun h => .inl h, fun h => .inl h, fun h => .inl h,
        fun _ => .inr (.inr rfl)⟩
  | begin url =>
    unfold follow
    dsimp only
    split
    · exact SameRoutines.routines ⟨rfl, rfl, rfl, rfl, rfl⟩
    · exact (SameRoutines.refl w).routines
  | promoteFind =>
    unfold follow
    dsimp only
    split
    · exact SameRoutines.routines ⟨rfl, rfl, rfl, rfl, rfl⟩
    · exact (SameRoutines.refl w).routines
  | stateEvent tr =>
    change Routines s w (w.event (s.stateEvent cfg i tr).1) _
    cases (s.stateEvent cfg i tr).1 <;> exact SameRoutines.routines ⟨rfl, rfl, rfl, rfl, rfl⟩
  | _ => exact SameRoutines.routines ⟨rfl, rfl, rfl, rfl, rfl⟩

/-- What the active uplink can be after a stretch. -/
theorem Move.active {l : Stretch} {m : Core} {w' : Place} (h : Move cfg i s w l m w')
    (hl : Legal cfg w l) {u : String} (hu : m.activeUrl = some u) :
    s.activeUrl = some u ∨ u ∈ cfg.uplinks := by
  have hspare : ∀ {p : UplinkPool} {v : String}, p.findConnectedSpare cfg = some v →
      v ∈ cfg.uplinks :=
    fun h => List.mem_of_find?_eq_some h
  have hhang : ∀ (c : Core) (tr : Option Nat), (c.hangUp tr).activeUrl = c.activeUrl := by
    intro c tr
    cases tr <;> rfl
  cases h with
  | activate url =>
    cases hu
    exact .inr hl.2
  | adopt url other =>
    cases hu
    exact .inr hl.2
  | failover tr t p url at_ subscribed active promotion found =>
    cases hu
    exact .inr (hspare found)
  | promote p url searching found =>
    cases hu
    exact .inr (hspare found)
  | enter =>
    rw [Core.clear, hhang] at hu
    cases hu
  | close =>
    rw [Core.clear, hhang] at hu
    cases hu
  | restoreClear =>
    rw [Core.clear, hhang] at hu
    cases hu
  | hangUp tr =>
    rw [hhang] at hu
    exact .inl hu
  | offline => cases hu
  | _ => exact .inl hu

end

/-! ## One event -/

abbrev Conforms (cfg : Config) : UplinkState → Prop :=
  System.Conforms (monitor cfg) (Lawful cfg) (fun _ => idle) fun _ w x => Back idle w x

/-- Where call `t` is. -/
abbrev place (cfg : Config) (s : UplinkState) (t : Nat) : Option Place :=
  System.view (monitor cfg) (fun _ => idle) s t

/-- What one event does: a stretch that its call's place allows, or an answer. -/
inductive Effect (cfg : Config) (s s' : UplinkState) (e : UplinkEvent) (w : Place) : Prop
  | stretch (l : Stretch) (i : Input) (exch : e.exch = ⟨.run l fun i s => l.apply cfg i s,
      (i, s.mem)⟩) (legal : Legal cfg w l)
      (mem : s'.mem = l.apply cfg i s.mem)
      (next : place cfg s' e.tid = some (follow cfg w i s.mem l))
      (move : Move cfg i s.mem w l (.of s'.mem) (follow cfg w i s.mem l))
  | answer (o : Await) (r : o.Ans) (exch : e.exch = ⟨.await o, r⟩)
      (allows : outsideWorld.allows s.mem o r = true)
      (may : (monitor cfg).may w (.await o)) (mem : s'.mem = outsideWorld.effect s.mem o r)
      (next : place cfg s' e.tid = some ((monitor cfg).next w ⟨.await o, r⟩))

/-- One call has moved. -/
structure Turn (P P' : Nat → Option Place) (t : Nat) (w w' : Place) : Prop where
  before : P t = some w
  after : P' t = some w'
  others : ∀ u, t ≠ u → P' u = P u

/-- A call has come that is in no routine. -/
structure Joined (P P' : Nat → Option Place) : Prop where
  kept : ∀ t w, P t = some w → P' t = some w
  fresh : ∀ t w, P' t = some w → P t = some w ∨ w = idle

/-- Every call has returned. -/
def Returned (s : UplinkState) : Prop :=
  ∀ (t : Nat) (c : Call) (p : Proc uplinkPool (Except Failure Unit)),
  s.threads[t]? = some ⟨c, p⟩ → ∃ x, p = .ret x

/-- Every call is where its routines allow, and the active uplink is one of the
pool's. -/
structure Base (cfg : Config) (s : UplinkState) : Prop where
  conforms : Conforms cfg s
  active : ∀ u, s.mem.activeUrl = some u → u ∈ cfg.uplinks

section

variable {P P' : Nat → Option Place} {t : Nat} {w w' : Place}

/-- Where a call is now, it was before, or it is the call that has moved. -/
theorem Turn.cases (h : Turn P P' t w w') {u : Nat} {v : Place} (hv : P' u = some v) :
    (u = t ∧ v = w') ∨ (t ≠ u ∧ P u = some v) := by
  by_cases hu : t = u
  · subst hu
    exact .inl ⟨rfl, Option.some.inj (hv.symm.trans h.after)⟩
  · exact .inr ⟨hu, (h.others u hu).symm.trans hv⟩

/-- Where a call was, it is still, or it is the call that has moved. -/
theorem Turn.cases_before (h : Turn P P' t w w') {u : Nat} {v : Place} (hv : P u = some v) :
    (u = t ∧ v = w) ∨ (t ≠ u ∧ P' u = some v) := by
  by_cases hu : t = u
  · subst hu
    exact .inl ⟨rfl, Option.some.inj (hv.symm.trans h.before)⟩
  · exact .inr ⟨hu, (h.others u hu).trans hv⟩

end

section

variable {cfg : Config} {rounds : Nat} {s s' : UplinkState} {e : UplinkEvent} {c : Call}
  {k : uplinkPool.Ans e.op → Proc uplinkPool (Except Failure Unit)}

theorem Base.effect (h : Base cfg s) (hf : Pool.Fires (uplinks cfg rounds) s e c k s') :
    ∃ w, place cfg s e.tid = some w ∧ Effect cfg s s' e w := by
  refine ⟨_, System.view_fired hf, ?_⟩
  have hmay : (monitor cfg).may (Pool.mon (monitor cfg) idle e.tid s.log) e.exch.op :=
    h.conforms.may hf
  have hself : place cfg s' e.tid = some ((monitor cfg).next
      (Pool.mon (monitor cfg) idle e.tid s.log) e.exch) := System.view_self hf
  generalize Pool.mon (monitor cfg) idle e.tid s.log = w at hmay hself
  obtain ⟨l, g, i, hx, hs⟩ | ⟨o, r, hx, hallows, hs⟩ := object_fires hf
  · rw [hx] at hmay hself
    obtain ⟨rfl, hlegal⟩ := hmay
    refine .stretch l i hx hlegal hs hself ?_
    rw [hs]
    exact move_apply hlegal
  · rw [hx] at hmay hself
    exact .answer o r hx hallows hmay hs hself

/-- An answer changes nothing but the transports and the auth machine. -/
theorem of_effect (p : UplinkPool) (o : Await) (r : o.Ans) :
    Core.of (outsideWorld.effect p o r) = { Core.of p with
      transports := (outsideWorld.effect p o r).transports
      authSession := (outsideWorld.effect p o r).authSession } := by
  cases o with
  | connect tr =>
    match r with
    | .ok () => rfl
    | .error err => rfl
  | authenticate tr =>
    match r with
    | .ok session => rfl
    | .error err => rfl
  | _ => rfl

/-- Where a call is after an answer. -/
structure Answered (w w' : Place) : Prop where
  routines : SameRoutines w w'
  connecting : w'.connecting = w.connecting
  inConnect : w'.inConnect = w.inConnect
  restoring : w'.restoring = w.restoring
  draining : w'.draining = w.draining
  shaking : ∀ tr st, w'.shaking = some (tr, st) → ∃ st', w.shaking = some (tr, st')

theorem answered {w : Place} {o : Await} (r : o.Ans) (hmay : (monitor cfg).may w (.await o)) :
    Answered w ((monitor cfg).next w ⟨.await o, r⟩) := by
  have hsame : ∀ w', w' = w → Answered w w' := by
    rintro w' rfl
    exact ⟨.refl w', rfl, rfl, rfl, rfl, fun tr st h => ⟨st, h⟩⟩
  have hover : Answered w { w with shaking := none } :=
    ⟨⟨rfl, rfl, rfl, rfl, rfl⟩, rfl, rfl, rfl, rfl, fun tr st h => by cases h⟩
  have hon : ∀ {tr : Nat} {st : Stage} (st' : Stage), w.shaking = some (tr, st) →
      Answered w { w with shaking := some (tr, st') } :=
    fun st' h => ⟨⟨rfl, rfl, rfl, rfl, rfl⟩, rfl, rfl, rfl, rfl,
      fun tr' st h' => by cases h'; exact ⟨_, h⟩⟩
  cases o with
  | connect tr =>
    match r with
    | .ok () => exact hon _ hmay
    | .error err => exact hover
  | authenticate tr =>
    match r with
    | .ok session => exact hon _ hmay
    | .error err => exact hover
  | joinPromotion p => exact ⟨⟨rfl, rfl, rfl, rfl, rfl⟩, rfl, rfl, rfl, rfl, fun tr st h => ⟨st, h⟩⟩
  | _ => exact hsame _ rfl

theorem Base.fires (h : Base cfg s) (hf : Pool.Fires (uplinks cfg rounds) s e c k s') :
    Base cfg s' := by
  obtain ⟨w, -, heff⟩ := h.effect hf
  refine ⟨System.conforms_fires h.conforms hf ?_, fun u hu => ?_⟩
  · cases heff with
    | stretch l i exch legal mem next move =>
      rw [exch]
      cases l with
      | requestAll skip => exact h.active
      | _ => trivial
    | answer o r exch allows may mem next =>
      rw [exch]
      trivial
  · cases heff with
    | stretch l i exch legal mem next move => exact (move.active legal hu).elim (h.active u) id
    | answer o r exch allows may mem next =>
      have hcore := congrArg Core.activeUrl (of_effect s.mem o r)
      rw [mem] at hu
      exact h.active u (hcore.symm.trans hu)

theorem turn_fires (hf : Pool.Fires (uplinks cfg rounds) s e c k s') {w w' : Place}
    (hw : place cfg s e.tid = some w) (hw' : place cfg s' e.tid = some w') :
    Turn (place cfg s) (place cfg s') e.tid w w' :=
  ⟨hw, hw', fun _ hu => System.view_other hf hu⟩

theorem Base.joined (h : Base cfg s) (c : Call) :
    Joined (place cfg s) (place cfg (s.spawn (uplinks cfg rounds) c)) :=
  ⟨fun _ _ hw => h.conforms.view_kept hw,
  fun _ _ hw => (h.conforms.view_spawned hw).symm.imp id And.right⟩

/-- A call that has returned is in no routine. -/
theorem Base.idle_of_returned (h : Base cfg s) (hr : Returned s) {t : Nat} {w : Place}
    (hw : place cfg s t = some w) : w = idle := by
  have hthread := hw
  unfold place System.view at hthread
  obtain ⟨⟨c, p⟩, ht, -⟩ := Option.map_eq_some_iff.mp hthread
  obtain ⟨x, rfl⟩ := hr t c p ht
  rw [place, System.view_thread ht, Option.some.injEq] at hw
  rw [← hw]
  exact h.conforms.result ht

theorem Base.init : Base cfg ⟨.new, [], []⟩ := ⟨System.conforms_init _, fun _ h => by cases h⟩

theorem Base.spawn (h : Base cfg s) (c : Call) : Base cfg (s.spawn (uplinks cfg rounds) c) :=
  ⟨System.conforms_spawn h.conforms (obeys_run c), h.active⟩

end

/-! ## The log -/

/-- The event ran a stretch of this kind. -/
def ran (kind : UplinkPool → Stretch → Bool) : Exch → Bool
  | ⟨.run l _, (_, m)⟩ => kind m l
  | _ => false

section

variable {cfg : Config} {s : UplinkState} {e : UplinkEvent}

/-- A stretch at the head of the log, and what it found. -/
theorem ran_stretch {kind : UplinkPool → Stretch → Bool} {l : Stretch} {i : Input}
    (hx : e.exch = ⟨.run l fun i s => l.apply cfg i s, (i, s.mem)⟩) :
    ran kind e.exch = kind s.mem l := by
  rw [hx]; rfl

theorem ran_answer {kind : UplinkPool → Stretch → Bool} {o : Await} {r : o.Ans}
    (hx : e.exch = ⟨.await o, r⟩) : ran kind e.exch = false := by
  rw [hx]
  rfl

/-- A part of the log that an event was added to. -/
theorem split_cons {log newer older : List UplinkEvent} {e e' : UplinkEvent}
    (h : e :: log = newer ++ e' :: older) :
    (newer = [] ∧ e' = e ∧ older = log) ∨
    ∃ rest, newer = e :: rest ∧ log = rest ++ e' :: older := by
  cases newer with
  | nil =>
    rw [List.nil_append, List.cons.injEq] at h
    exact .inl ⟨rfl, h.1.symm, h.2.symm⟩
  | cons e₁ rest =>
    rw [List.cons_append, List.cons.injEq] at h
    exact .inr ⟨rest, by rw [h.1], h.2⟩

end

/-! ## Runs to look at -/

namespace Example

/-- Two uplinks, one warm spare. -/
def urls : Config := ⟨["wss://a", "wss://b"], 1, 2000, 60000⟩

/-- Every transport connects, and authenticates with a session of its own; `n`
hooks are registered, and succeed. -/
def smooth (n : Nat) : ObjFate Input outside where
  input := ⟨n, none⟩
  answer
    | .connect _ => some (.ok ())
    | .authenticate tr => some (.ok ⟨toString tr, "relay", "body"⟩)
    | .close _ => some ()
    | .request _ => some (.ok ⟨none⟩)
    | .hook => some (.ok ())
    | _ => none

def anyJudge : System.Judge anyUse :=
  ⟨fun _ _ => true, fun _ _ => true, fun _ _ _ => trivial, fun _ _ _ => trivial⟩

/-- A request that tries all uplinks. -/
def everywhere : Call := .sendRequest ⟨"inbox.list", true, [], false, false⟩

def allPlaces (cfg : Config) (s : UplinkState) (p : Place → Bool) : Bool :=
  (List.range s.threads.length).all fun t => (place cfg s t).all p

theorem allPlaces_iff {cfg : Config} {s : UplinkState} {p : Place → Bool}
    (h : allPlaces cfg s p = true) (t : Nat) (w : Place) (hw : place cfg s t = some w) :
    p w = true := by
  have hlt : t < s.threads.length := by
    by_contra hge
    unfold place System.view at hw
    rw [List.getElem?_eq_none (Nat.not_lt.mp hge)] at hw
    cases hw
  have hall := List.all_eq_true.mp h t (List.mem_range.mpr hlt)
  rw [hw] at hall
  exact hall

def returned (s : UplinkState) : Bool :=
  s.threads.all fun th => match th.proc with
    | .ret _ => true
    | _ => false

theorem returned_iff {s : UplinkState} (h : returned s = true) : Returned s := by
  intro t c p ht
  have hp := List.all_eq_true.mp h _ (List.mem_of_getElem? ht)
  cases p with
  | ret x => exact ⟨x, rfl⟩
  | ask o k => cases hp

end Example

end RezSdk.L4.UplinkMoves
