import RezSdk.L3Service.UplinkPool

/-!
# The calls of the uplink pool

`Place` says which routines of the pool a call is in: a handshake, a connect
attempt, the upkeep of the spares, a request that tries all uplinks, a
failover, a reconnect attempt, or the closing of connections. Every routine
leaves the place it was entered from (`Back`), so a call that has returned is
in none (`obeys_run`), and every stretch is run from a place that allows it
(`Legal`).
-/
namespace RezSdk.L4.UplinkCalls

open RezSdk.L1 RezSdk.L3.Uplinks

abbrev Exch := Proc.Exch uplinkPool

/-! ## Places -/

/-- How far the failover of a call is. -/
inductive Failover
  | none
  /-- waits for another call's promotion -/
  | joined
  | searching (p : Nat)
  /-- has activated its candidate and restores the session -/
  | promoted (p : Nat)
  /-- no spare was promoted; the pool has still to go offline -/
  | lost
deriving DecidableEq

/-- How far a handshake is. -/
inductive Stage | connecting | connected | authenticating | authenticated
deriving DecidableEq

structure Place where
  /-- the transport it shakes hands with -/
  shaking : Option (Nat × Stage)
  /-- runs a connect attempt that has neither activated an uplink nor given up -/
  connecting : Option Nat
  inConnect : Bool
  /-- runs the upkeep of the spares, with this promise -/
  sparing : Option Nat
  /-- tries all uplinks for a request -/
  asking : Bool
  failover : Failover
  attempting : Bool
  /-- has closed the connections after a failed restoration -/
  restoring : Bool
  /-- the transports it has still to close, and whether for `close` -/
  draining : List (Nat × Bool)
  /-- connects the client -/
  clienting : Bool
  /-- the client has still to note that it is disconnected -/
  leaving : Bool
deriving DecidableEq

def idle : Place := ⟨none, none, false, none, false, .none, false, false, [], false, false⟩

namespace Place

def enter (w : Place) : UplinkPool.Entered → Place
  | .join _ => w
  | .run p entries =>
    { w with connecting := some p, inConnect := true, draining := entries.tail.map (·, false) }

def kick (w : Place) : UplinkPool.Kick → Place
  | .attempt _ e => { w with attempting := true }.enter e
  | _ => w

def event (w : Place) : UplinkPool.StateEvent → Place
  | .join _ => { w with failover := .joined }
  | .search p => { w with failover := .searching p }
  | .promoted p _ => { w with failover := .promoted p }
  | _ => w

def clientEnter (w : Place) : UplinkPool.ClientEntered → Place
  | .starting _ => { w with clienting := true }
  | .connecting _ e => { w with clienting := true }.enter e
  | _ => w

def closes (w : Place) (entries : List Nat) : Place :=
  { w with draining := entries.tail.map (·, true) }

def stops (w : Place) : UplinkPool.Stopping → Place
  | .join _ => w
  | .run _ wasConnected entries => { w.closes entries with leaving := wasConnected }

/-- Whether the promotion it waited for, or ran, has given a new uplink. -/
def promotion (w : Place) (promoted : Bool) : Place :=
  { w with failover := if promoted then .none else .lost }

end Place

/-- Where a call at `w` is after a stretch on the pool `s`. -/
def follow (cfg : Config) (w : Place) (i : Input) (s : UplinkPool) : Stretch → Place
  | .connect => w.enter s.connectEnter.1
  | .clientPool => w.enter s.connectEnter.1
  | .connectNow => w.kick s.connectNow.1
  | .timer => w.kick s.timer.1
  | .close => w.closes s.close.1
  | .clientDisconnect => match s.clientDisconnect.1 with
    | some entries => { w.closes entries with leaving := true }
    | none => w
  | .clientStop => w.stops s.clientStop.1
  | .clientConnect => w.clientEnter s.clientConnect.1
  | .clientConnected _ _ => { w with clienting := false }
  | .clientDisconnected => { w with leaving := false }
  | .restoreClear => { w with restoring := true, draining := s.clear.1.tail.map (·, false) }
  | .restoreFailed => { w with restoring := false }
  | .hangUp _ => { w with draining := w.draining.tail }
  | .begin url => match (s.begin i url).1 with
    | .ok (some tr) => { w with shaking := some (tr, .connecting) }
    | _ => w
  | .authStart tr => { w with shaking := some (tr, .authenticating) }
  | .markReady _ => { w with shaking := none }
  | .activate _ => { w with connecting := none }
  | .connectEnd _ => { w with connecting := none }
  | .connectFinally => { w with inConnect := false }
  | .spareEnter => match (s.spareEnter cfg).1 with
    | .run p true => { w with sparing := some p }
    | _ => w
  | .spareSettle _ => { w with sparing := none }
  | .stateEvent tr => w.event (s.stateEvent cfg i tr).1
  | .promoteFind => match w.failover, (s.promoteFind cfg i).1 with
    | .searching p, some _ => { w with failover := .promoted p }
    | _, _ => w
  | .promoteEnd _ promoted => w.promotion promoted
  | .promoteLost => { w with failover := .none }
  | .attemptSettle _ _ => { w with attempting := false }
  | .requestAll _ => { w with asking := true }
  | .requestSettle => { w with asking := false }
  | _ => w

/-- The stretches a call may run from its place. -/
def Legal (cfg : Config) (w : Place) : Stretch → Prop
  | .connect => w = idle
  | .connectNow => w = idle
  | .timer => w = idle
  | .close => w = idle
  | .stateEvent _ => w = idle
  | .requestAll _ => w = idle
  | .clientConnect => w = idle
  | .clientDisconnect => w = idle
  | .clientStop => w = idle
  | .clientPool => w = { idle with clienting := true }
  | .begin url =>
    w.shaking = none ∧ url ∈ cfg.uplinks ∧
      (w.connecting.isSome ∨ w.sparing.isSome ∨ w.asking = true)
  | .authStart tr => w.shaking = some (tr, .connected)
  | .markReady _ => ∃ tr, w.shaking = some (tr, .authenticated)
  | .activate url => w.connecting.isSome ∧ url ∈ cfg.uplinks
  | .connectEnd _ => w.connecting.isSome
  | .connectFinally => w.inConnect = true ∧ w.connecting = none
  | .spareEnter => w.sparing = none
  | .spareFailed _ => w.sparing.isSome
  | .promoteFind => ∃ p, w.failover = .searching p
  | .promoteFailed => ∃ p, w.failover = .promoted p
  | .promoteEnd p promoted =>
    w.failover = .searching p ∧ promoted = false ∨ w.failover = .promoted p
  | .promoteLost => w.failover = .lost
  | .attemptFailed => w.attempting = true
  | .restoreClear => w.attempting = true ∧ w.draining = []
  | .restoreFailed => w.restoring = true ∧ w.attempting = true
  | .adopt url => w.asking = true ∧ url ∈ cfg.uplinks
  | .hangUp tr => tr = w.draining.head?.map Prod.fst
  | .clientConnected _ _ => w.clienting = true
  | _ => True

def monitor (cfg : Config) : Monitor uplinkPool Place where
  next
    | w, ⟨.run l _, (i, s)⟩ => follow cfg w i s l
    | w, ⟨.await (.connect tr), .ok _⟩ => { w with shaking := some (tr, .connected) }
    | w, ⟨.await (.connect _), .error _⟩ => { w with shaking := none }
    | w, ⟨.await (.authenticate tr), .ok _⟩ => { w with shaking := some (tr, .authenticated) }
    | w, ⟨.await (.authenticate _), .error _⟩ => { w with shaking := none }
    | w, ⟨.await (.joinPromotion _), promoted⟩ => w.promotion promoted
    | w, _ => w
  may w
    | .run l g => g = (fun i s => l.apply cfg i s) ∧ Legal cfg w l
    | .await (.connect tr) => w.shaking = some (tr, .connecting)
    | .await (.authenticate tr) => w.shaking = some (tr, .authenticating)
    | .await (.joinPromotion _) => w.failover = .joined
    | .await _ => True

/-- The active uplink is one of the pool's. -/
def Lawful (cfg : Config) : Exch → Prop
  | ⟨.run (.requestAll _) _, (_, s)⟩ => ∀ u, s.activeUrl = some u → u ∈ cfg.uplinks
  | _ => True

/-- A routine leaves the place it was entered from. -/
abbrev Back {α : Type} (w : Place) : Place → α → Prop := fun w' _ => w' = w

/-! ## The calls obey -/

section

variable {cfg : Config} {rounds : Nat} {α β : Type} {w : Place}

theorem obeys_act {l : Stretch} {f : Input → UplinkPool → α} {Q : Place → Except Failure α → Prop}
    (hl : Legal cfg w l)
    (h : ∀ i s, Lawful cfg ⟨.run l fun i s => l.apply cfg i s, (i, s)⟩ →
        Q (follow cfg w i s l) (.ok (f i s))) :
    Obeys (monitor cfg) (Lawful cfg) Q w (act cfg l f) :=
  ⟨⟨rfl, hl⟩, fun x hx => h x.1 x.2 hx⟩

theorem obeys_tryAct {l : Stretch} {f : Input → UplinkPool → Except Failure α}
    {Q : Place → Except Failure α → Prop} (hl : Legal cfg w l)
    (h : ∀ i s, Lawful cfg ⟨.run l fun i s => l.apply cfg i s, (i, s)⟩ →
        Q (follow cfg w i s l) (f i s)) : Obeys (monitor cfg) (Lawful cfg) Q w (tryAct cfg l f) :=
  ⟨⟨rfl, hl⟩, fun x hx => h x.1 x.2 hx⟩

theorem obeys_act_bind {l : Stretch} {f : Input → UplinkPool → α} {k : α → Pooling β}
    {Q : Place → Except Failure β → Prop} (hl : Legal cfg w l)
    (h : ∀ i s, Lawful cfg ⟨.run l fun i s => l.apply cfg i s, (i, s)⟩ →
        Obeys (monitor cfg) (Lawful cfg) Q (follow cfg w i s l) (k (f i s))) :
    Obeys (monitor cfg) (Lawful cfg) Q w (act cfg l f >>= k : Pooling β) :=
  obeys_js_bind (obeys_act hl h)

theorem back_bind {p : Pooling α} {k : α → Pooling β} {Q : Place → Except Failure β → Prop}
    (hp : Obeys (monitor cfg) (Lawful cfg) (Back w) w p)
    (hk : ∀ x, Obeys (monitor cfg) (Lawful cfg) Q w (k x)) (he : ∀ e, Q w (.error e)) :
    Obeys (monitor cfg) (Lawful cfg) Q w (p >>= k : Pooling β) := by
  refine obeys_js_bind (hp.mono fun w' x hx => ?_)
  subst hx
  cases x with
  | ok v => exact hk v
  | error e => exact he e

theorem back_attempt {p : Pooling α} {k : Except Failure α → Pooling β}
    {Q : Place → Except Failure β → Prop} (hp : Obeys (monitor cfg) (Lawful cfg) (Back w) w p)
    (hk : ∀ x, Obeys (monitor cfg) (Lawful cfg) Q w (k x)) :
    Obeys (monitor cfg) (Lawful cfg) Q w (p.attempt k) := by
  refine obeys_attempt (hp.mono fun w' x hx => ?_)
  subst hx
  exact hk x

theorem back_join {p : Nat} :
    Obeys (monitor cfg) (Lawful cfg) (Back w) w (do let _ ← joined p; return () : Pooling Unit) :=
  back_bind ⟨trivial, fun _ _ => rfl⟩ (fun _ => rfl) fun _ => rfl

theorem obeys_drain : ∀ {entries : List Nat} {b : Bool} {Q : Place → Except Failure Unit → Prop},
    w.draining = entries.tail.map (·, b) → Q { w with draining := [] } (.ok ()) →
    Obeys (monitor cfg) (Lawful cfg) Q w (drain cfg entries) := by
  intro entries
  induction entries generalizing w with
  | nil =>
    intro b Q h hq
    have hsame : { w with draining := [] } = w := by
      obtain ⟨_, _, _, _, _, _, _, _, _, _, _⟩ := w
      cases h
      rfl
    rwa [hsame] at hq
  | cons tr rest ih =>
    intro b Q h hq
    refine obeys_js_bind ⟨trivial, fun _ _ => ?_⟩
    change Obeys (monitor cfg) (Lawful cfg) Q w
        (act cfg (.hangUp rest.head?) (fun _ _ => ()) >>= fun _ => drain cfg rest : Pooling Unit)
    refine obeys_act_bind ?_ fun i s _ => ?_
    · change rest.head? = w.draining.head?.map Prod.fst
      rw [h]
      cases rest <;> rfl
    · refine ih (b := b) ?_ hq
      change w.draining.tail = _
      rw [h]
      cases rest <;> rfl

/-- A call with something to connect for. -/
def Works (w : Place) : Prop := w.connecting.isSome ∨ w.sparing.isSome ∨ w.asking = true

theorem back_ensureConnected {url : String} (hs : w.shaking = none) (hu : url ∈ cfg.uplinks)
    (hw : Works w) : Obeys (monitor cfg) (Lawful cfg) (Back w) w (ensureConnected cfg url) := by
  have hoff : ∀ x :
      Nat × Stage, ({ { w with shaking := some x } with shaking := none } : Place) = w := by
    intro x
    obtain ⟨_, _, _, _, _, _, _, _, _, _, _⟩ := w
    cases hs
    rfl
  refine obeys_js_bind (obeys_tryAct ⟨hs, hu, hw⟩ fun i s _ => ?_)
  unfold follow
  dsimp only
  cases (s.begin i url).1 with
  | error err => rfl
  | ok b =>
    cases b with
    | none => rfl
    | some tr =>
      refine obeys_js_bind ⟨rfl, fun r _ => ?_⟩
      match r with
      | .error err => exact hoff (tr, .connecting)
      | .ok () =>
        change Obeys (monitor cfg) (Lawful cfg) (Back w) { w with shaking := some (tr, .connected) }
          (act cfg (.authStart tr) (fun _ _ => ()) >>= fun _ => _ : Pooling Unit)
        refine obeys_act_bind rfl fun i' s' _ => ?_
        refine obeys_js_bind ⟨rfl, fun r' _ => ?_⟩
        match r' with
        | .error err => exact hoff (tr, .authenticating)
        | .ok session =>
          change Obeys (monitor cfg) (Lawful cfg) (Back w)
              { w with shaking := some (tr, .authenticated) }
            (act cfg (.markReady url) fun _ _ => ())
          exact obeys_act ⟨tr, rfl⟩ fun _ _ _ => hoff (tr, .authenticated)

/-- The upkeep of the spares throws nothing. -/
theorem obeys_spareLoop (hs : w.shaking = none) (hw : w.sparing.isSome)
    {Q : Place → Except Failure Unit → Prop} (hq : Q w (.ok ())) :
    ∀ {urls : List String}, (∀ u ∈ urls, u ∈ cfg.uplinks) →
      Obeys (monitor cfg) (Lawful cfg) Q w (spareLoop cfg urls) := by
  intro urls
  induction urls with
  | nil => exact fun _ => hq
  | cons url rest ih =>
    intro hurls
    have hrest := ih fun u hu => hurls u (.tail _ hu)
    refine obeys_act_bind trivial fun i s _ => ?_
    change Obeys (monitor cfg) (Lawful cfg) Q w _
    cases s.spareNext cfg url with
    | stop => exact hq
    | skip => exact hrest
    | connect =>
      refine obeys_js_bind
        (back_attempt (back_ensureConnected hs (hurls url (.head _)) (.inr (.inl hw))) fun x => ?_)
      cases x with
      | ok u => exact hrest
      | error err => exact obeys_act hw fun _ _ _ => hrest

theorem obeys_spares (hs : w.shaking = none) (hw : w.sparing = none)
    {Q : Place → Except Failure Unit → Prop} (hq : Q w (.ok ())) :
    ∀ {rounds : Nat}, Obeys (monitor cfg) (Lawful cfg) Q w (ensureWarmSpareTarget cfg rounds) := by
  intro rounds
  induction rounds with
  | zero => exact ⟨trivial, nofun⟩
  | succ rounds ih =>
    have hdone : Obeys (monitor cfg) (Lawful cfg) Q w (do
        if ← act cfg .spareFinally fun _ s => s.spareFinally.1
          then ensureWarmSpareTarget cfg rounds : Pooling Unit) := by
      refine obeys_act_bind trivial fun i s _ => ?_
      change Obeys (monitor cfg) (Lawful cfg) Q w (if s.spareFinally.1 then _ else _)
      cases s.spareFinally.1 with
      | true => exact ih
      | false => exact hq
    refine obeys_act_bind hw fun i s _ => ?_
    unfold follow
    dsimp only
    cases (s.spareEnter cfg).1 with
    | join p => exact ⟨trivial, fun _ _ => hq⟩
    | run p go =>
      have hsettled : ∀ q :
          Option Nat, ({ { w with sparing := q } with sparing := none } : Place) = w := by
        intro q
        obtain ⟨_, _, _, _, _, _, _, _, _, _, _⟩ := w
        cases hw
        rfl
      cases go with
      | true =>
        refine obeys_js_bind
          (obeys_spareLoop (w := { w with sparing := some p }) hs rfl ?_ fun _ hu => hu)
        change Obeys (monitor cfg) (Lawful cfg) Q { w with sparing := some p }
          (act cfg (.spareSettle p) (fun _ _ => ()) >>= fun _ => _ : Pooling Unit)
        refine obeys_act_bind trivial fun i' s' _ => ?_
        change Obeys (monitor cfg) (Lawful cfg) Q
            { { w with sparing := some p } with sparing := none } _
        rw [hsettled]
        exact hdone
      | false =>
        refine obeys_act_bind trivial fun i' s' _ => ?_
        change Obeys (monitor cfg) (Lawful cfg) Q
            { { w with sparing := w.sparing } with sparing := none } _
        rw [hsettled]
        exact hdone

/-- A call that runs a connect attempt and nothing inside it. -/
structure Attempt (w : Place) (p : Nat) : Prop where
  shaking : w.shaking = none
  connecting : w.connecting = some p

theorem obeys_connectLoop {p : Nat} (h : Attempt w p)
    {Q : Place → Except Failure (Option (Option Failure)) → Prop}
    (hactive : Q { w with connecting := none } (.ok none)) (hfail : ∀ err, Q w (.ok (some err))) :
    ∀ {urls : List String} {firstErr : Option Failure}, (∀ u ∈ urls, u ∈ cfg.uplinks) →
      Obeys (monitor cfg) (Lawful cfg) Q w (connectLoop cfg urls firstErr) := by
  have hconnecting : w.connecting.isSome = true := by rw [h.connecting]; rfl
  intro urls
  induction urls with
  | nil => exact fun _ => hfail _
  | cons url rest ih =>
    intro firstErr hurls
    refine obeys_attempt (back_bind (back_ensureConnected h.shaking (hurls url (.head _))
      (.inl hconnecting)) (fun _ => ?_) fun err => ?_)
    · exact obeys_act ⟨hconnecting, hurls url (.head _)⟩ fun _ _ _ => hactive
    · exact ih fun u hu => hurls u (.tail _ hu)

theorem back_connectWith {e : UplinkPool.Entered} (hs : w.shaking = none) (hc : w.connecting = none)
    (hi : w.inConnect = false) (hw : w.sparing = none) (hd : w.draining = []) :
    Obeys (monitor cfg) (Lawful cfg) (Back w) (w.enter e) (connectWith cfg rounds e) := by
  cases e with
  | join p => exact back_join
  | run p entries =>
    have hlast : ∀ r : Except Failure Unit, Obeys (monitor cfg) (Lawful cfg)
        (Back w) { w with inConnect := true } (do
        act cfg (.connectSettle p (asOutcome r)) fun _ _ => ()
        act cfg .connectFinally fun _ _ => ()
        Js.ofExcept r : Pooling Unit) := by
      intro r
      refine obeys_act_bind trivial fun i s _ => obeys_act_bind ⟨rfl, hc⟩ fun i' s' _ => ?_
      change Back w { w with inConnect := false } r
      obtain ⟨_, _, _, _, _, _, _, _, _, _, _⟩ := w
      cases hi
      rfl
    have hspares : Obeys (monitor cfg) (Lawful cfg)
        (fun w' r => Obeys (monitor cfg) (Lawful cfg) (Back w) w' (do
        act cfg (.connectSettle p (asOutcome r)) fun _ _ => ()
        act cfg .connectFinally fun _ _ => ()
        Js.ofExcept r :
          Pooling Unit)) { w with inConnect := true } (ensureWarmSpareTarget cfg rounds) :=
      obeys_spares (w := { w with inConnect := true }) hs hw (hlast (.ok ()))
    have hout : ({ w with connecting := none, inConnect := true, draining := [] } : Place) =
        { w with inConnect := true } := by
      obtain ⟨_, _, _, _, _, _, _, _, _, _, _⟩ := w
      cases hc
      cases hd
      rfl
    refine obeys_attempt (obeys_js_bind (obeys_drain (b := false) rfl ?_))
    refine obeys_js_bind (obeys_connectLoop
      (w := { w with connecting := some p, inConnect := true, draining := [] })
      (p := p) ⟨hs, rfl⟩ ?_ (fun err => ?_) fun _ hu => hu)
    · change Obeys (monitor cfg) (Lawful cfg) _
          { w with connecting := none, inConnect := true, draining := [] } _
      rw [hout]
      exact hspares
    · refine obeys_js_bind (obeys_tryAct (l := .connectEnd err) rfl fun i s _ => ?_)
      change Goes _ _ _ _ ({ w with connecting := none, inConnect := true, draining := [] } : Place)
          _
      rw [hout]
      cases (s.connectEnd cfg err).1 with
      | error e => exact hlast (.error e)
      | ok u => exact hspares

theorem back_notify :
    ∀ {n : Nat}, Obeys (monitor cfg) (Lawful cfg) (Back w) w (notifyReconnected n) := by
  intro n
  induction n with
  | zero => rfl
  | succ n ih =>
    refine obeys_js_bind ⟨trivial, fun r _ => ?_⟩
    match r with
    | .ok () => exact ih
    | .error e => rfl

/-- A call that is in no routine, or only connects the client. -/
structure Free (w : Place) : Prop where
  shaking : w.shaking = none
  connecting : w.connecting = none
  inConnect : w.inConnect = false
  sparing : w.sparing = none
  failover : w.failover = .none
  attempting : w.attempting = false
  restoring : w.restoring = false
  draining : w.draining = []

theorem free_idle : Free idle := ⟨rfl, rfl, rfl, rfl, rfl, rfl, rfl, rfl⟩

theorem Free.back_connect {e : UplinkPool.Entered} (h : Free w) :
    Obeys (monitor cfg) (Lawful cfg) (Back w) (w.enter e) (connectWith cfg rounds e) :=
  back_connectWith h.shaking h.connecting h.inConnect h.sparing h.draining

theorem Free.enter_attempting (h : Free w) (e : UplinkPool.Entered) :
    Obeys (monitor cfg) (Lawful cfg) (Back { w with attempting := true })
      ({ w with attempting := true }.enter e) (connectWith cfg rounds e) :=
  back_connectWith h.shaking h.connecting h.inConnect h.sparing h.draining

theorem back_attemptReconnect (h : Free w) {a : Nat} {e : UplinkPool.Entered} :
    Obeys (monitor cfg) (Lawful cfg) (Back w) (w.kick (.attempt a e))
      (attemptReconnect cfg rounds a e) := by
  have hlast : ∀ r : Except Failure Unit, Obeys (monitor cfg) (Lawful cfg) (Back w)
      { w with attempting := true } (do
      act cfg (.attemptSettle a (asOutcome r)) fun _ _ => ()
      act cfg .attemptFinally fun _ _ => ()
      Js.ofExcept r : Pooling Unit) := by
    intro r
    refine obeys_act_bind trivial fun i s _ => obeys_act_bind trivial fun i' s' _ => ?_
    change Back w { w with attempting := false } r
    obtain ⟨_, _, _, _, _, _, _, _, _, _, _⟩ := w
    cases h.attempting
    rfl
  refine obeys_attempt (obeys_attempt ((h.enter_attempting e).mono fun w' x hback => ?_))
  subst hback
  cases x with
  | error err => exact obeys_act_bind rfl fun i s _ => hlast (.error err)
  | ok u =>
    refine obeys_act_bind trivial fun i s _ => ?_
    refine back_attempt (w := { w with attempting := true }) back_notify fun x => ?_
    cases x with
    | ok u => exact obeys_act trivial fun i' s' _ => hlast (.ok u)
    | error err =>
      refine obeys_act_bind ⟨rfl, h.draining⟩ fun i' s' _ => ?_
      refine obeys_js_bind (obeys_drain (b := false) rfl ?_)
      change Obeys (monitor cfg) (Lawful cfg) _
          { w with attempting := true, restoring := true, draining := [] }
        (act cfg .restoreFailed (fun _ _ => ()) >>= fun _ => _ : Pooling Unit)
      refine obeys_act_bind ⟨rfl, rfl⟩ fun i'' s'' _ => ?_
      have hsame : ({ w with attempting := true, restoring := false, draining := [] } : Place) =
          { w with attempting := true } := by
        obtain ⟨_, _, _, _, _, _, _, _, _, _, _⟩ := w
        cases h.restoring
        cases h.draining
        rfl
      change Obeys (monitor cfg) (Lawful cfg) (Back w)
          { w with attempting := true, restoring := false, draining := [] } _
      rw [hsame]
      exact hlast (.error err)

theorem back_kicked (h : Free w) {k : UplinkPool.Kick} :
    Obeys (monitor cfg) (Lawful cfg) (Back w) (w.kick k) (kicked cfg rounds k) := by
  cases k with
  | done => rfl
  | refused => rfl
  | join a => exact back_join
  | attempt a e => exact back_attemptReconnect h

/-- The promotion has ended. -/
theorem back_unlessPromoted {promoted : Bool} (h : w.failover = .none) :
    Obeys (monitor cfg) (Lawful cfg) (Back w) (w.promotion promoted)
      (unlessPromoted cfg promoted) := by
  cases promoted with
  | true =>
    obtain ⟨_, _, _, _, _, _, _, _, _, _, _⟩ := w
    cases h
    rfl
  | false =>
    change Obeys (monitor cfg) (Lawful cfg) (Back w) (w.promotion false)
        (act cfg .promoteLost fun _ _ => ())
    refine obeys_act rfl fun i s _ => ?_
    obtain ⟨_, _, _, _, _, _, _, _, _, _, _⟩ := w
    cases h
    rfl

theorem obeys_restoreSpare (h : Free w) {p n : Nat} {Q : Place → Except Failure Bool → Prop}
    (hq : ∀ b, Q (w.promotion b) (.ok b)) :
    Obeys (monitor cfg) (Lawful cfg) Q { w with failover := .promoted p }
      (restoreSpare cfg rounds p n) := by
  refine back_attempt (w := { w with failover := .promoted p }) back_notify fun x => ?_
  cases x with
  | ok u =>
    refine obeys_js_bind
      (obeys_spares (w := { w with failover := .promoted p }) h.shaking h.sparing ?_)
    change Obeys (monitor cfg) (Lawful cfg) Q { w with failover := .promoted p }
        (act cfg (.promoteEnd p true) fun _ _ => true)
    exact obeys_act (.inr rfl) fun i s _ => hq true
  | error err =>
    refine obeys_act_bind ⟨p, rfl⟩ fun i s _ => ?_
    change Obeys (monitor cfg) (Lawful cfg) Q { w with failover := .promoted p }
        (act cfg (.promoteEnd p false) fun _ _ => false)
    exact obeys_act (.inr rfl) fun i' s' _ => hq false

theorem back_onConnState (tr : Nat) :
    Obeys (monitor cfg) (Lawful cfg) (Back idle) idle (onConnState cfg rounds tr) := by
  have hrestored : ∀ p n :
      Nat, Obeys (monitor cfg) (Lawful cfg) (Back idle) { idle with failover := .promoted p }
      (do let promoted ← restoreSpare cfg rounds p n; unlessPromoted cfg promoted : Pooling Unit) :=
    fun p n => obeys_js_bind (obeys_restoreSpare free_idle fun b => back_unlessPromoted rfl)
  refine obeys_act_bind rfl fun i s _ => ?_
  unfold follow
  dsimp only
  cases (s.stateEvent cfg i tr).1 with
  | unheard => rfl
  | spare => exact obeys_spares rfl rfl rfl
  | join p => exact obeys_js_bind ⟨rfl, fun promoted _ => back_unlessPromoted rfl⟩
  | promoted p n => exact hrestored p n
  | search p =>
    refine obeys_js_bind (obeys_spares (w := { idle with failover := .searching p }) rfl rfl ?_)
    change Obeys (monitor cfg) (Lawful cfg) (Back idle) { idle with failover := .searching p }
      (act cfg .promoteFind (fun i s => (s.promoteFind cfg i).1) >>= fun _ => _ : Pooling Unit)
    refine obeys_act_bind ⟨p, rfl⟩ fun i' s' _ => ?_
    unfold follow
    dsimp only
    cases (s'.promoteFind cfg i').1 with
    | some n => exact hrestored p n
    | none =>
      refine obeys_act_bind (l := .promoteEnd p false) (.inl ⟨rfl, rfl⟩) fun i'' s'' _ => ?_
      exact back_unlessPromoted rfl

/-- A call that tries all uplinks. -/
def asks : Place := { idle with asking := true }

theorem back_requestLoop {a : RequestArgs} :
    ∀ {urls : List String} {lastErr : Option Failure}, (∀ u ∈ urls, u ∈ cfg.uplinks) →
      Obeys (monitor cfg) (Lawful cfg) (Back asks) asks (requestLoop cfg a urls lastErr) := by
  intro urls
  induction urls with
  | nil => exact fun _ => rfl
  | cons url rest ih =>
    intro lastErr hurls
    have hurl := hurls url (.head _)
    have hrest :
        ∀ err, Obeys (monitor cfg) (Lawful cfg) (Back asks) asks (requestLoop cfg a rest err) :=
      fun err => ih fun u hu => hurls u (.tail _ hu)
    refine back_attempt (back_ensureConnected rfl hurl (.inr (.inr rfl))) fun x => ?_
    cases x with
    | error err => exact hrest _
    | ok u =>
      refine obeys_act_bind trivial fun i s _ => ?_
      change Obeys (monitor cfg) (Lawful cfg) (Back asks) asks _
      cases s.readyTransport url with
      | none => exact hrest _
      | some tr =>
        refine obeys_attempt ⟨trivial, fun r _ => ?_⟩
        match r with
        | .ok frame =>
          change Obeys (monitor cfg) (Lawful cfg) (Back asks) asks (if a.adoptSuccessfulUplink
              then _ else _)
          cases a.adoptSuccessfulUplink with
          | true =>
            change Obeys (monitor cfg) (Lawful cfg) (Back asks) asks
                (act cfg (.adopt url) fun _ _ => frame)
            exact obeys_act ⟨rfl, hurl⟩ fun _ _ _ => rfl
          | false => rfl
        | .error err =>
          change Obeys (monitor cfg) (Lawful cfg) (Back asks) asks
            (if (a.continueOnCodes.map trim).contains (trim err.code) then _ else _)
          cases (a.continueOnCodes.map trim).contains (trim err.code) with
          | true => exact hrest _
          | false => rfl

theorem ordered_uplinks {s : UplinkPool} (h : ∀ u, s.activeUrl = some u → u ∈ cfg.uplinks)
    (skip : Bool) : ∀ u ∈ s.ordered cfg skip, u ∈ cfg.uplinks := by
  intro u hu
  have hcases : u ∈ s.activeUrl.toList ∨ u ∈ cfg.uplinks.filter fun v => s.activeUrl ≠ some v := by
    unfold UplinkPool.ordered at hu
    dsimp only at hu
    cases skip with
    | true => exact (List.mem_append.mp hu).symm
    | false => exact List.mem_append.mp hu
  rcases hcases with hu | hu
  · exact h u (Option.mem_toList.mp hu)
  · exact (List.mem_filter.mp hu).1

/-- A call that starts in no routine and is in none when it returns. -/
structure Homes (cfg : Config) (p : Pooling α) : Prop where
  back : Obeys (monitor cfg) (Lawful cfg) (Back idle) idle p

theorem homes_sendRequest (a : RequestArgs) : Homes cfg (sendRequest cfg a) := by
  constructor
  unfold sendRequest
  generalize (trim a.type).isEmpty = blank
  cases blank with
  | true => rfl
  | false =>
    rw [if_neg Bool.false_ne_true]
    rcases Bool.eq_false_or_eq_true a.tryAllUplinks with hall | hall
    · rw [if_pos hall]
      refine obeys_act_bind rfl fun i s hlaw => ?_
      have hurls := ordered_uplinks hlaw a.skipActiveUplink
      generalize hordered : s.ordered cfg a.skipActiveUplink = urls at hurls
      have hfollow : follow cfg idle i s (.requestAll a.skipActiveUplink) = asks := rfl
      rw [hfollow]
      cases urls with
      | nil =>
        change Obeys (monitor cfg) (Lawful cfg) (Back idle) asks
            (act cfg .requestSettle (fun _ _ => ()) >>= fun _ => throw _ : Pooling Frame)
        exact obeys_act_bind trivial fun _ _ _ => rfl
      | cons url rest =>
        refine back_attempt (back_requestLoop hurls) fun r => ?_
        change Obeys (monitor cfg) (Lawful cfg) (Back idle) asks
          (act cfg .requestSettle (fun _ _ => ()) >>= fun _ => Js.ofExcept r : Pooling Frame)
        exact obeys_act_bind trivial fun _ _ _ => rfl
    · rw [if_neg (ne_true_of_eq_false hall)]
      refine obeys_js_bind (obeys_tryAct trivial fun i s _ => ?_)
      change Goes _ _ _ _ idle s.activeTransport
      cases s.activeTransport with
      | error err => rfl
      | ok tr => exact ⟨trivial, fun _ _ => rfl⟩

theorem homes_request (type : String) : Homes cfg (request cfg type) := by
  have hsend : ∀ a : RequestArgs, Homes cfg (sendRequest cfg a) := homes_sendRequest
  constructor
  unfold request
  split
  · rfl
  · generalize sendRequest cfg = send at hsend
    refine back_attempt (hsend _).back fun r => ?_
    cases r with
    | ok frame => rfl
    | error err =>
      dsimp only
      split
      · rfl
      · exact back_bind (hsend _).back (fun _ => rfl) fun _ => rfl

/-- A call whose value nobody looks at. -/
theorem back_discard {p : Pooling α} (hp : Obeys (monitor cfg) (Lawful cfg) (Back w) w p) :
    Obeys (monitor cfg) (Lawful cfg) (Back w) w (p >>= fun _ => pure () : Pooling Unit) :=
  back_bind hp (fun _ => rfl) fun _ => rfl

theorem back_clientConnecting {p : Nat} {e : UplinkPool.Entered} :
    Obeys (monitor cfg) (Lawful cfg) (Back idle) ({ idle with clienting := true }.enter e)
      (clientConnecting cfg rounds p e) := by
  refine obeys_attempt ((back_connectWith (w := { idle with clienting := true })
    rfl rfl rfl rfl rfl).mono fun w' r hback => ?_)
  subst hback
  exact obeys_act_bind rfl fun _ _ _ => rfl

theorem back_clientConnect :
    Obeys (monitor cfg) (Lawful cfg) (Back idle) idle (clientConnect cfg rounds) := by
  refine obeys_act_bind rfl fun i s _ => ?_
  unfold follow
  dsimp only
  cases s.clientConnect.1 with
  | done => rfl
  | join p => exact back_join
  | starting p => exact obeys_act_bind rfl fun i' s' _ => back_clientConnecting
  | connecting p e => exact back_clientConnecting

theorem back_clientStop : Obeys (monitor cfg) (Lawful cfg) (Back idle) idle (clientStop cfg) := by
  refine obeys_act_bind rfl fun i s _ => ?_
  unfold follow
  dsimp only
  cases s.clientStop.1 with
  | join p => exact back_join
  | run p wasConnected entries =>
    have hlast : Obeys (monitor cfg) (Lawful cfg) (Back idle) idle
        (act cfg (.clientStopped p) fun _ _ => ()) :=
      obeys_act trivial fun _ _ _ => rfl
    refine obeys_js_bind (obeys_drain (b := true) rfl ?_)
    change Obeys (monitor cfg) (Lawful cfg) (Back idle) { idle with leaving := wasConnected } (do
      if wasConnected then act cfg .clientDisconnected fun _ _ => ()
      act cfg (.clientStopped p) fun _ _ => () : Pooling Unit)
    cases wasConnected with
    | true => exact obeys_act_bind trivial fun _ _ _ => hlast
    | false => exact hlast

theorem back_clientDisconnect :
    Obeys (monitor cfg) (Lawful cfg) (Back idle) idle (clientDisconnect cfg) := by
  refine obeys_act_bind rfl fun i s _ => ?_
  unfold follow
  dsimp only
  cases s.clientDisconnect.1 with
  | none => rfl
  | some entries =>
    refine obeys_js_bind (obeys_drain (b := true) rfl ?_)
    change Obeys (monitor cfg) (Lawful cfg) (Back idle) { idle with leaving := true }
        (act cfg .clientDisconnected fun _ _ => ())
    exact obeys_act trivial fun _ _ _ => rfl

/-- Every call obeys, and is in no routine when it has returned. -/
theorem obeys_run (c : Call) :
    Obeys (monitor cfg) (Lawful cfg) (Back idle) idle (run cfg rounds c) := by
  cases c with
  | connect => exact obeys_act_bind rfl fun i s _ => free_idle.back_connect
  | connectNow => exact obeys_act_bind rfl fun i s _ => back_kicked free_idle
  | timer =>
    refine obeys_act_bind rfl fun i s _ => ?_
    refine obeys_attempt ((back_kicked free_idle).mono fun w' x hback => ?_)
    exact hback
  | close => exact obeys_act_bind rfl fun i s _ => obeys_drain (b := true) rfl rfl
  | connState tr => exact back_onConnState tr
  | sendRequest a =>
    have hrun : run cfg rounds (.sendRequest a) =
        (sendRequest cfg a >>= fun _ => pure () : Pooling Unit) := rfl
    rw [hrun]
    have hsend : Homes cfg (sendRequest cfg a) := homes_sendRequest a
    generalize sendRequest cfg a = send at hsend
    exact back_discard hsend.back
  | request type =>
    have hrun : run cfg rounds (.request type) =
        (request cfg type >>= fun _ => pure () : Pooling Unit) := rfl
    rw [hrun]
    have hrequest : Homes cfg (request cfg type) := homes_request type
    generalize request cfg type = ask at hrequest
    exact back_discard hrequest.back
  | clientConnect => exact back_clientConnect
  | clientDisconnect => exact back_clientDisconnect
  | clientStop => exact back_clientStop

end

end RezSdk.L4.UplinkCalls
