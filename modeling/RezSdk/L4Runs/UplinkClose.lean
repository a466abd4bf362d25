import RezSdk.L4Runs.UplinkMoves

/-!
# Closing the pool

`close` forgets every connection and closes its transports. What resumes
afterwards may register new ones, or open one that was closed.

* `close_absorbing`: if no call goes on to connect or to activate an uplink of a
  closed pool, no `connect` of a transport succeeds then, and connections are
  closed for a new attempt only while no call shakes hands, then after `close`,
  with no `connect` since and every call returned, the pool is offline, nothing
  it has created is open and no timer is armed. After `RezClient.stop` the
  client is disconnected too, if no `RezClient.connect` was under way.
* `close_reopened`: `close` in the middle of a connect attempt.
-/
namespace RezSdk.L4.UplinkClose

open RezSdk.L1 RezSdk.L3.Uplinks RezSdk.L4.UplinkCalls RezSdk.L4.UplinkMoves

/-! ## The property -/

/-- The pool is closed: offline, with nothing open and no timer. -/
structure Shut (s : UplinkPool) : Prop where
  ready : s.ready = false
  active : s.activeUrl = none
  timer : s.reconnectTimer = none
  transports : ∀ t ∈ s.transports, t.opened = false

/-- A call of the pool's `connect`. -/
def callsConnect (s : UplinkPool) : Stretch → Bool
  | .connect => true
  | .clientPool => true
  | .clientConnect => !s.client.connected && s.client.connectPromise.isNone && s.client.started
  | _ => false

/-- The application connects the pool, or the client. -/
def isConnect : Stretch → Bool
  | .connect => true
  | .clientConnect => true
  | _ => false

def isStop (_ : UplinkPool) : Stretch → Bool
  | .clientStop => true
  | _ => false

/-- What `close` and `stop` leave behind once everything has returned. -/
structure Absorbing (s : UplinkState) : Prop where
  pool : ∀ (newer : List UplinkEvent) e older, s.log = newer ++ e :: older →
    ran closes e.exch = true → (∀ e' ∈ newer, ran callsConnect e'.exch = false) →
    Returned s → Shut s.mem
  client : ∀ (newer : List UplinkEvent) e older, s.log = newer ++ e :: older →
    ran isStop e.exch = true → (∀ e' ∈ newer, ran (fun _ => isConnect) e'.exch = false) →
    Returned s → s.mem.client.connected = false ∧ Shut s.mem

/-- A stretch that starts to connect an uplink, or makes one active. -/
def revives (s : UplinkPool) (i : Input) : Stretch → Bool
  | .begin url => match (s.begin i url).1 with
    | .ok (some _) => true
    | _ => false
  | .activate _ => true
  | .adopt _ => true
  | _ => false

/-- A transport connects. -/
def opens : Exch → Bool
  | ⟨.await (.connect _), .ok ()⟩ => true
  | _ => false

/-- `stop` was called, and ran, and the application has not connected since. -/
def StoppedSince (log : List UplinkEvent) : Prop :=
  ∃ newer : List UplinkEvent, ∃ e older, log = newer ++ e :: older ∧
    ran (fun m l => isStop m l && m.client.stopPromise.isNone) e.exch = true ∧
    ∀ e' ∈ newer, ran (fun _ => isConnect) e'.exch = false

/-- When a stretch may be run, for `close` to be absorbing. -/
structure Undisturbed (cfg : Config) (s : UplinkState) (i : Input) (l : Stretch) : Prop where
  closed : s.mem.closed = true → revives s.mem i l = false
  clear : begins s.mem l = true ∨ l = .restoreClear → ∀ t w, place cfg s t = some w →
    w.shaking = none
  stop : l = .clientStop → s.mem.client.stopPromise = none → ∀ t w, place cfg s t = some w →
    w.clienting = false
  stopAgain : l = .clientStop → s.mem.client.stopPromise ≠ none → StoppedSince s.log

def undisturbed (cfg : Config) : UplinkRules where
  init s := s = .new
  may _ _ := True
  ok s e := (∀ l g i m, e.exch = ⟨.run l g, (i, m)⟩ → Undisturbed cfg s i l) ∧
    (s.mem.closed = true → opens e.exch = false)

/-! ## What is open -/

/-- Everything open is in use or about to be closed, and a pool that is not closed
uses what a call shakes hands with. -/
structure Held (m : Core) (P : Nat → Option Place) : Prop where
  opened : ∀ tr x, m.transports[tr]? = some x → x.opened = true →
    (∃ p ∈ m.conns, p.2.transport = tr) ∨ ∃ t w b, P t = some w ∧ (tr, b) ∈ w.draining
  shaking : m.closed = false → ∀ t w tr st, P t = some w → w.shaking = some (tr, st) →
    ∃ p ∈ m.conns, p.2.transport = tr

section

variable {m m' : Core} {P P' : Nat → Option Place} {t : Nat} {w w' : Place}

theorem Held.calm (h : Held m P) (hclosed : m'.closed = m.closed)
    (hopened : ∀ (tr : Nat) (x' : Transport), m'.transports[tr]? = some x' → x'.opened = true →
        ∃ x : Transport, m.transports[tr]? = some x ∧ x.opened = true)
    (hconns : ∀ p ∈ m.conns, ∃ p' ∈ m'.conns, p'.2.transport = p.2.transport)
    (hdrain : ∀ t v x, P t = some v → x ∈ v.draining → ∃ v', P' t = some v' ∧ x ∈ v'.draining)
    (hshaking : ∀ t v tr st, P' t = some v → v.shaking = some (tr, st) →
        (∃ v₀ st', P t = some v₀ ∧ v₀.shaking = some (tr, st')) ∨
        ∃ p ∈ m'.conns, p.2.transport = tr) : Held m' P' := by
  have hused : ∀ tr, (∃ p ∈ m.conns, p.2.transport = tr) → ∃ p ∈ m'.conns, p.2.transport = tr := by
    rintro tr ⟨p, hp, rfl⟩
    exact hconns p hp
  refine ⟨fun tr x' hx' hop => ?_, fun hopen u v tr st hv hs => ?_⟩
  · obtain ⟨x, hx, hop⟩ := hopened tr x' hx' hop
    rcases h.opened tr x hx hop with hp | ⟨u, v, b, hv, hmem⟩
    · exact .inl (hused tr hp)
    · obtain ⟨v', hv', hmem'⟩ := hdrain u v _ hv hmem
      exact .inr ⟨u, v', b, hv', hmem'⟩
  · rcases hshaking u v tr st hv hs with ⟨v₀, st', hv₀, hs₀⟩ | hp
    · exact hused tr (h.shaking (hclosed.symm.trans hopen) u v₀ tr st' hv₀ hs₀)
    · exact hp

theorem opened_onTransport {tr : Nat} {f : Transport → Transport}
    (hf : ∀ x, (f x).opened = x.opened) (tr' : Nat) (x' : Transport)
    (hx' : (m.onTransport tr f).transports[tr']? = some x') (hop : x'.opened = true) :
    ∃ x, m.transports[tr']? = some x ∧ x.opened = true := by
  have hx' : (m.transports.modify tr f)[tr']? = some x' := hx'
  rw [List.getElem?_modify] at hx'
  obtain ⟨x, hx, rfl⟩ := Option.map_eq_some_iff.mp hx'
  refine ⟨x, hx, ?_⟩
  split at hop
  · exact (hf x).symm.trans hop
  · exact hop

/-- What is open after a transport was closed is another one. -/
theorem opened_hangUp {tr : Option Nat} {tr' : Nat} {x' : Transport}
    (hx' : (m.hangUp tr).transports[tr']? = some x') (hop : x'.opened = true) :
    tr ≠ some tr' ∧ ∃ x, m.transports[tr']? = some x ∧ x.opened = true := by
  cases tr with
  | none => exact ⟨by nofun, x', hx', hop⟩
  | some tr =>
    have hx' : (m.transports.modify tr fun t =>
        { t with subscribed := false, opened := false })[tr']? = some x' := hx'
    rw [List.getElem?_modify] at hx'
    obtain ⟨x, hx, rfl⟩ := Option.map_eq_some_iff.mp hx'
    split at hop
    · cases hop
    · rename_i hne
      exact ⟨fun h => hne (Option.some.inj h), x, hx, hop⟩

theorem conns_mark_back (m : Core) (url : String) (ready healthy : Bool) :
    ∀ p ∈ m.conns, ∃ p' ∈ (m.mark url ready healthy).conns, p'.2.transport = p.2.transport := by
  intro p hp
  unfold Core.mark
  dsimp only
  split
  · rename_i c hc
    rcases OMap.mem_set_of_mem (k := url) (v := { c with ready, healthy }) hp with hmem | ⟨-, hget⟩
    · exact ⟨p, hmem, rfl⟩
    · cases hget.symm.trans hc
      exact ⟨_, OMap.mem_of_get (OMap.get_set_self url _ _), rfl⟩
  · exact ⟨p, hp, rfl⟩

theorem drain_kept (hturn : Turn P P' t w w') (hd : w'.draining = w.draining) (u : Nat) (v : Place)
    (x : Nat × Bool) (hv : P u = some v) (hx : x ∈ v.draining) :
    ∃ v', P' u = some v' ∧ x ∈ v'.draining := by
  obtain ⟨rfl, rfl⟩ | ⟨-, hv⟩ := hturn.cases_before hv
  · exact ⟨w', hturn.after, hd ▸ hx⟩
  · exact ⟨v, hv, hx⟩

/-- The call goes on with the same handshake, or none, and the same transports to
close. -/
theorem Held.same (h : Held m P) (hclosed : m'.closed = m.closed) (hturn : Turn P P' t w w')
    (hd : w'.draining = w.draining)
    (hs : ∀ tr st, w'.shaking = some (tr, st) →
        (∃ st', w.shaking = some (tr, st')) ∨ ∃ p ∈ m'.conns, p.2.transport = tr)
    (hopened : ∀ (tr : Nat) (x' : Transport), m'.transports[tr]? = some x' → x'.opened = true →
        ∃ x : Transport, m.transports[tr]? = some x ∧ x.opened = true)
    (hconns : ∀ p ∈ m.conns, ∃ p' ∈ m'.conns, p'.2.transport = p.2.transport) : Held m' P' := by
  refine h.calm hclosed hopened hconns (drain_kept hturn hd) fun u v tr st hv hx => ?_
  obtain ⟨rfl, rfl⟩ | ⟨-, hv⟩ := hturn.cases hv
  · exact (hs tr st hx).imp (fun ⟨st', hst'⟩ => ⟨w, st', hturn.before, hst'⟩) id
  · exact .inl ⟨v, st, hv, hx⟩

theorem Held.joined (h : Held m P) (hj : Joined P P') : Held m P' := by
  refine h.calm rfl (fun tr x hx hop => ⟨x, hx, hop⟩) (fun p hp => ⟨p, hp, rfl⟩)
    (fun u v x hv hx => ⟨v, hj.kept u v hv, hx⟩) fun u v tr st hv hs => ?_
  rcases hj.fresh u v hv with hv | rfl
  · exact .inl ⟨v, st, hv, hs⟩
  · cases hs

/-- The connections are forgotten, and their transports closed one by one. -/
theorem Held.clear {m₁ : Core} (h : Held m P) (hm : m₁.transports = m.transports)
    (hentries : m₁.entries = m.entries)
    (hnone : m₁.closed = false → ∀ t v, P t = some v → v.shaking = none) (hturn : Turn P P' t w w')
    (hs : w'.shaking = w.shaking) (hempty : w.draining = []) {b : Bool}
    (hd : w'.draining = m.entries.tail.map (·, b)) : Held m₁.clear P' := by
  refine ⟨fun tr x' hx' hop => .inr ?_, fun hopen u v tr st hv hx => ?_⟩
  · obtain ⟨hhead, x, hx, hop⟩ := opened_hangUp hx' hop
    have hx : m.transports[tr]? = some x := hm ▸ hx
    rcases h.opened tr x hx hop with ⟨p, hp, htr⟩ | ⟨u, v, b', hv, hmem⟩
    · have hmem : tr ∈ m.entries := List.mem_map.mpr ⟨p, hp, htr⟩
      refine ⟨t, w', b, hturn.after, ?_⟩
      rw [hd]
      refine List.mem_map.mpr ⟨tr, ?_, rfl⟩
      rw [hentries] at hhead
      cases hlist : m.entries with
      | nil =>
        rw [hlist] at hmem
        exact absurd hmem List.not_mem_nil
      | cons first rest =>
        rw [hlist] at hmem hhead
        rcases List.mem_cons.mp hmem with rfl | hmem
        · exact absurd rfl hhead
        · exact hmem
    · obtain ⟨rfl, rfl⟩ | ⟨-, hv⟩ := hturn.cases_before hv
      · rw [hempty] at hmem
        exact absurd hmem List.not_mem_nil
      · exact ⟨u, v, b', hv, hmem⟩
  · have hnone := hnone ((clear_down m₁).2.2.2.2.symm.trans hopen)
    obtain ⟨rfl, rfl⟩ | ⟨-, hv⟩ := hturn.cases hv
    · rw [hs, hnone u w hturn.before] at hx
      cases hx
    · cases (hnone u v hv).symm.trans hx

theorem Held.hangUp (h : Held m P) (hturn : Turn P P' t w w') (hs : w'.shaking = w.shaking)
    {tr : Option Nat} (htr : tr = w.draining.head?.map Prod.fst)
    (hd : w'.draining = w.draining.tail) : Held (m.hangUp tr) P' := by
  have hconns : (m.hangUp tr).conns = m.conns := by cases tr <;> rfl
  have hclosed : (m.hangUp tr).closed = m.closed := by cases tr <;> rfl
  refine ⟨fun tr' x' hx' hop => ?_, fun hopen u v tr' st hv hx => ?_⟩
  · obtain ⟨hne, x, hx, hop⟩ := opened_hangUp hx' hop
    rw [hconns]
    refine (h.opened tr' x hx hop).imp id fun ⟨u, v, b, hv, hmem⟩ => ?_
    obtain ⟨rfl, rfl⟩ | ⟨-, hv⟩ := hturn.cases_before hv
    · refine ⟨u, w', b, hturn.after, ?_⟩
      rw [hd]
      cases hlist : v.draining with
      | nil =>
        rw [hlist] at hmem
        exact absurd hmem List.not_mem_nil
      | cons first rest =>
        rw [hlist] at hmem htr
        rcases List.mem_cons.mp hmem with rfl | hmem
        · exact absurd htr hne
        · exact hmem
    · exact ⟨u, v, b, hv, hmem⟩
  · rw [hconns]
    obtain ⟨rfl, rfl⟩ | ⟨-, hv⟩ := hturn.cases hv
    · exact h.shaking (hclosed.symm.trans hopen) u w tr' st hturn.before (hs.symm.trans hx)
    · exact h.shaking (hclosed.symm.trans hopen) u v tr' st hv hx

end

section

variable {cfg : Config} {i : Input} {s : UplinkPool} {P P' : Nat → Option Place}
  {t : Nat} {w w' : Place}

theorem held_move {l : Stretch} {m' : Core} (h : Move cfg i s w l m' w') (hl : Legal cfg w l)
    (hs : Held (.of s) P) (hturn : Turn P P' t w w')
    (hclear : begins s l = true ∨ l = .restoreClear → ∀ t v, P t = some v → v.shaking = none) :
    Held m' P' := by
  have hsame : ∀ p ∈ s.conns, ∃ p' ∈ s.conns, p'.2.transport = p.2.transport :=
    fun p hp => ⟨p, hp, rfl⟩
  have hopen : ∀ (tr : Nat) (x' : Transport), s.transports[tr]? = some x' → x'.opened = true →
    ∃ x : Transport, s.transports[tr]? = some x ∧ x.opened = true :=
  fun tr x' hx' hop => ⟨x', hx', hop⟩
  cases h with
  | stay _ _ keeps =>
    exact hs.same rfl hturn keeps.draining (fun tr st h => .inl ⟨st, keeps.shaking.symm.trans h⟩)
      hopen hsame
  | disarm _ _ kick why keeps =>
    exact hs.same rfl hturn keeps.draining (fun tr st h => .inl ⟨st, keeps.shaking.symm.trans h⟩)
      hopen hsame
  | enter _ _ p starts begun =>
    exact hs.clear rfl rfl (fun _ => hclear (.inl starts)) hturn begun.shaking
      (drained_of_begins hl starts) begun.draining
  | restoreClear => exact hs.clear rfl rfl (fun _ => hclear (.inr rfl)) hturn rfl hl.2 rfl
  | close _ leaving closing =>
    exact hs.clear rfl rfl (fun hopen => by cases hopen) hturn rfl
      (drained_of_closes hl closing) rfl
  | hangUp tr => exact hs.hangUp hturn rfl hl rfl
  | reuse url c conn ready =>
    refine hs.same rfl hturn rfl (fun tr st h => .inr ?_)
      (opened_onTransport (f := fun t => { t with connects := t.connects + 1 }) fun _ => rfl) hsame
    cases h
    exact ⟨_, OMap.mem_of_get conn, rfl⟩
  | create url conn made =>
    refine hs.same rfl hturn rfl (fun tr st h => .inr ?_) (fun tr x' hx' hop => ?_) fun p hp => ?_
    · cases h
      exact ⟨_, OMap.mem_of_get (OMap.get_set_self url _ _), rfl⟩
    · have hx' : (s.transports ++ [(⟨url, false, true, none, 1, 0⟩ : Transport)])[tr]? = some x' :=
        hx'
      rcases Nat.lt_or_ge tr s.transports.length with hlt | hge
      · rw [List.getElem?_append_left hlt] at hx'
        exact ⟨x', hx', hop⟩
      · rw [List.getElem?_append_right hge] at hx'
        cases List.mem_singleton.mp (List.mem_of_getElem? hx')
        cases hop
    · rcases OMap.mem_set_of_mem (k := url) (v := (⟨s.transports.length, false, false⟩ : Conn))
        hp with hmem | ⟨-, hget⟩
      · exact ⟨p, hmem, rfl⟩
      · cases hget.symm.trans conn
  | authStart tr =>
    refine hs.same rfl hturn rfl (fun tr' st h => .inl ?_)
      (opened_onTransport (f := fun t => { t with auths := t.auths + 1 }) fun _ => rfl) hsame
    cases h
    exact ⟨_, hl⟩
  | markReady url =>
    exact hs.same rfl hturn rfl (fun tr st h => by cases h) hopen (conns_mark_back (.of s) url _ _)
  | spareFailed url =>
    exact hs.same rfl hturn rfl (fun tr st h => .inl ⟨st, h⟩) hopen
      (conns_mark_back (.of s) url _ _)
  | died tr x =>
    exact hs.same rfl hturn rfl (fun tr st h => .inl ⟨st, h⟩) hopen
      (conns_mark_back (.of s) x.url _ _)
  | join tr x =>
    exact hs.same rfl hturn rfl (fun tr st h => .inl ⟨st, h⟩) hopen
      (conns_mark_back (.of s) x.url _ _)
  | search tr x =>
    exact hs.same rfl hturn rfl (fun tr st h => .inl ⟨st, h⟩) hopen
      (conns_mark_back (.of s) x.url _ _)
  | failover tr x =>
    exact hs.same rfl hturn rfl (fun tr st h => .inl ⟨st, h⟩) hopen
      (conns_mark_back (.of s) x.url _ _)
  | retry _ _ failed =>
    rcases failed with ⟨-, rfl⟩ | ⟨-, rfl⟩
    · exact hs.same rfl hturn rfl (fun tr st h => .inl ⟨st, h⟩) hopen hsame
    · exact hs.same rfl hturn rfl (fun tr st h => .inl ⟨st, h⟩) hopen hsame
  | offline _ _ lost =>
    rcases lost with ⟨-, rfl⟩ | ⟨-, rfl⟩
    · exact hs.same rfl hturn rfl (fun tr st h => .inl ⟨st, h⟩) hopen hsame
    · exact hs.same rfl hturn rfl (fun tr st h => .inl ⟨st, h⟩) hopen hsame
  | _ => exact hs.same rfl hturn rfl (fun tr st h => .inl ⟨st, h⟩) hopen hsame

theorem held_answer {o : Await} {r : o.Ans} (hmay : (monitor cfg).may w (.await o))
    (hs : Held (.of s) P) (hok : s.closed = true → opens ⟨.await o, r⟩ = false)
    (hturn : Turn P P' t w ((monitor cfg).next w ⟨.await o, r⟩)) :
    Held (.of (outsideWorld.effect s o r)) P' := by
  have hans := answered r hmay
  have hsame : ∀ p ∈ s.conns, ∃ p' ∈ s.conns, p'.2.transport = p.2.transport :=
    fun p hp => ⟨p, hp, rfl⟩
  have hquiet : ∀ (m' : Core), m'.conns = s.conns → m'.closed = s.closed →
      (∀ (tr : Nat) (x' : Transport), m'.transports[tr]? = some x' → x'.opened = true →
      ∃ x : Transport, s.transports[tr]? = some x ∧
      x.opened = true) → Held m' P' := fun m' hconns hclosed hopened =>
    hs.same hclosed hturn hans.draining (fun tr st h => .inl (hans.shaking tr st h))
      hopened fun p hp => ⟨p, hconns ▸ hp, rfl⟩
  cases o with
  | connect tr =>
    match r with
    | .error err =>
      exact hquiet _ rfl rfl (opened_onTransport (m := .of s)
        (f := fun t => { t with connects := t.connects - 1 }) fun _ => rfl)
    | .ok () =>
      -- the pool is not closed, and the transport that opens is in use
      have hopen : s.closed = false := by
        by_contra hclosed
        cases hok (Bool.not_eq_false _ ▸ hclosed)
      have hused := hs.shaking hopen t w tr .connecting hturn.before hmay
      refine ⟨fun tr' x' hx' hop => ?_, fun _ u v tr' st hv hx => ?_⟩
      · by_cases htr : tr = tr'
        · subst htr
          exact .inl hused
        · have hother : (s.transports.modify tr fun t =>
              { t with connects := t.connects - 1, opened := true, session := none })[tr']? =
              s.transports[tr']? := List.getElem?_modify_ne _ _ htr
          refine (hs.opened tr' x' (hother.symm.trans hx') hop).imp id fun ⟨u, v, b, hv, hmem⟩ => ?_
          obtain ⟨v', hv', hmem'⟩ := drain_kept hturn hans.draining u v _ hv hmem
          exact ⟨u, v', b, hv', hmem'⟩
      · obtain ⟨rfl, rfl⟩ | ⟨-, hv⟩ := hturn.cases hv
        · obtain ⟨st', hst'⟩ := hans.shaking tr' st hx
          exact hs.shaking hopen u w tr' st' hturn.before hst'
        · exact hs.shaking hopen u v tr' st hv hx
  | authenticate tr =>
    match r with
    | .ok session =>
      exact hquiet _ rfl rfl (opened_onTransport (m := .of s)
        (f := fun t => { t with auths := t.auths - 1, session := some session }) fun _ => rfl)
    | .error err =>
      exact hquiet _ rfl rfl (opened_onTransport (m := .of s)
        (f := fun t => { t with auths := t.auths - 1 }) fun _ => rfl)
  | _ => exact hquiet _ rfl rfl fun tr x' hx' hop => ⟨x', hx', hop⟩

/-! ## A closed pool -/

/-- Nothing is left of the pool. -/
structure Down (m : Core) : Prop where
  ready : m.ready = false
  active : m.activeUrl = none
  timer : m.reconnectTimer = none
  conns : m.conns = []

theorem down_move {l : Stretch} {m' : Core} (h : Move cfg i s w l m' w')
    (hdown : s.closed = true → Down (.of s)) (hrevive : s.closed = true → revives s i l = false)
    (hclosed : m'.closed = true) : Down m' := by
  cases h with
  | enter _ _ p starts begun =>
    obtain ⟨-, -, -, -, hopen⟩ := clear_down
      { Core.of s with connectPromise := some p, closed := false, reconnectTimer := none }
    cases hopen.symm.trans hclosed
  | close _ leaving closing =>
    obtain ⟨hready, hactive, hconns, htimer, -⟩ :=
      clear_down { Core.of s with closed := true, reconnectTimer := none }
    exact ⟨hready, hactive, htimer, hconns⟩
  | restoreClear =>
    obtain ⟨hready, hactive, hconns, htimer, hsame⟩ := clear_down (.of s)
    exact ⟨hready, hactive, htimer.trans (hdown (hsame.symm.trans hclosed)).timer, hconns⟩
  | hangUp tr =>
    have hd := fun hs : s.closed = true => hdown hs
    cases tr with
    | none => exact hd hclosed
    | some tr =>
      exact ⟨(hd hclosed).ready, (hd hclosed).active, (hd hclosed).timer, (hd hclosed).conns⟩
  | stay _ _ keeps => exact hdown hclosed
  | disarm _ _ kick why keeps =>
    have hd := hdown hclosed
    exact ⟨hd.ready, hd.active, rfl, hd.conns⟩
  | reuse url c conn ready =>
    have hnone : s.conns = [] := (hdown hclosed).conns
    unfold UplinkPool.conn at conn
    rw [hnone] at conn
    cases conn
  | create url conn made =>
    have hrevives := hrevive hclosed
    unfold revives UplinkPool.begin at hrevives
    dsimp only at hrevives
    rw [conn, made] at hrevives
    cases hrevives
  | activate url => cases hrevive hclosed
  | adopt url other => cases hrevive hclosed
  | markReady url =>
    have hd := hdown hclosed
    exact ⟨hd.ready, hd.active, hd.timer, mark_empty hd.conns url _ _⟩
  | spareFailed url =>
    have hd := hdown hclosed
    exact ⟨hd.ready, hd.active, hd.timer, mark_empty hd.conns url _ _⟩
  | died tr x =>
    have hd := hdown hclosed
    exact ⟨hd.ready, hd.active, hd.timer, mark_empty hd.conns x.url _ _⟩
  | connectEnd err down soft =>
    have hd := hdown hclosed
    exact ⟨hd.ready, hd.active, schedule_closed hclosed hd.timer, hd.conns⟩
  | retry _ _ failed =>
    have hd := hdown hclosed
    exact ⟨hd.ready, hd.active, schedule_closed hclosed hd.timer, hd.conns⟩
  | offline _ _ lost =>
    have hd := hdown hclosed
    have htimer : (Core.schedule cfg s.reconnectAttempts
        { Core.of s with
          ready := false
          activeUrl := none
          sessionInfo := none }).reconnectTimer = none :=
      schedule_closed hclosed hd.timer
    exact ⟨rfl, rfl, htimer, hd.conns⟩
  | join tr x p at_ subscribed active promotion => cases (hdown hclosed).active.symm.trans active
  | search tr x p at_ subscribed active promotion => cases (hdown hclosed).active.symm.trans active
  | failover tr x p url at_ subscribed active promotion found =>
    cases (hdown hclosed).active.symm.trans active
  | promote p url searching found => cases found.symm.trans (no_spare (hdown hclosed).conns)
  | _ =>
    have hd := hdown hclosed
    exact ⟨hd.ready, hd.active, hd.timer, hd.conns⟩

theorem Down.answer (hd : Down (.of s)) (o : Await) (r : o.Ans) :
    Down (.of (outsideWorld.effect s o r)) := by
  rw [of_effect]
  exact ⟨hd.ready, hd.active, hd.timer, hd.conns⟩

end

/-! ## The client -/

section

variable {cfg : Config} {i : Input} {s : UplinkPool} {w : Place}

theorem client_connectEnter (s : UplinkPool) : s.connectEnter.2.client = s.client := by
  unfold UplinkPool.connectEnter
  split <;> rfl

theorem client_attemptEnter (s : UplinkPool) : s.attemptEnter.2.client = s.client := by
  unfold UplinkPool.attemptEnter
  split
  · rfl
  · exact client_connectEnter _

theorem client_connectNow (s : UplinkPool) : s.connectNow.2.client = s.client := by
  unfold UplinkPool.connectNow
  split
  · rfl
  · split
    · rfl
    · split
      · rfl
      · exact client_attemptEnter _

theorem client_timer (s : UplinkPool) : s.timer.2.client = s.client := by
  unfold UplinkPool.timer
  split
  · rfl
  · dsimp only
    split
    · rfl
    · exact client_attemptEnter _

theorem client_begin (s : UplinkPool) (i : Input) (url : String) :
    (s.begin i url).2.client = s.client := by
  unfold UplinkPool.begin
  split
  · split <;> rfl
  · split <;> rfl

theorem client_connectEnd (s : UplinkPool) (err : Option Failure) :
    (s.connectEnd cfg err).2.client = s.client := by
  unfold UplinkPool.connectEnd
  dsimp only
  split
  · split <;> rfl
  · rfl

theorem client_spareEnter (s : UplinkPool) : (s.spareEnter cfg).2.client = s.client := by
  unfold UplinkPool.spareEnter
  split <;> rfl

theorem client_spareFinally (s : UplinkPool) : s.spareFinally.2.client = s.client := by
  unfold UplinkPool.spareFinally
  dsimp only
  split <;> rfl

theorem client_promoteFind (s : UplinkPool) (i : Input) :
    (s.promoteFind cfg i).2.client = s.client := by
  unfold UplinkPool.promoteFind
  split <;> rfl

theorem client_stateEvent (s : UplinkPool) (i : Input) (tr : Nat) :
    (s.stateEvent cfg i tr).2.client = s.client := by
  unfold UplinkPool.stateEvent
  split
  · rfl
  · split
    · rfl
    · dsimp only
      split
      · split
        · rfl
        · split
          all_goals
            rename_i hfound
            have hclient := congrArg (·.2.client) hfound
            exact hclient.symm.trans (client_promoteFind _ i)
      · split <;> rfl

theorem client_adopt (s : UplinkPool) (url : String) : (s.adopt url).client = s.client := by
  unfold UplinkPool.adopt
  split <;> rfl

/-- Only the end of its own `connect` makes the client connected. -/
theorem connected_apply {l : Stretch} (h : (l.apply cfg i s).client.connected = true) :
    s.client.connected = true ∨ ∃ p r, l = .clientConnected p r := by
  have hsame : ∀ {s' : UplinkPool}, s'.client = s.client → s'.client.connected = true →
      s.client.connected = true := fun h h' => h ▸ h'
  cases l with
  | connect => exact .inl (hsame (client_connectEnter s) h)
  | clientPool => exact .inl (hsame (client_connectEnter s) h)
  | connectNow => exact .inl (hsame (client_connectNow s) h)
  | timer => exact .inl (hsame (client_timer s) h)
  | begin url => exact .inl (hsame (client_begin s i url) h)
  | connectEnd err => exact .inl (hsame (client_connectEnd s err) h)
  | spareEnter => exact .inl (hsame (client_spareEnter s) h)
  | spareFinally => exact .inl (hsame (client_spareFinally s) h)
  | stateEvent tr => exact .inl (hsame (client_stateEvent s i tr) h)
  | promoteFind => exact .inl (hsame (client_promoteFind s i) h)
  | adopt url => exact .inl (hsame (client_adopt s url) h)
  | clientConnected p r => exact .inr ⟨p, r, rfl⟩
  | clientConnect =>
    have h : s.clientConnect.2.client.connected = true := h
    unfold UplinkPool.clientConnect at h
    split at h
    · exact .inl h
    · split at h
      · exact .inl h
      · dsimp only at h
        split at h
        · rw [client_connectEnter] at h
          exact .inl h
        · exact .inl h
  | clientDisconnect =>
    have h : s.clientDisconnect.2.client.connected = true := h
    unfold UplinkPool.clientDisconnect at h
    split at h <;> exact .inl h
  | clientDisconnected => cases h
  | clientStop =>
    have h : s.clientStop.2.client.connected = true := h
    unfold UplinkPool.clientStop at h
    split at h <;> exact .inl h
  | _ => exact .inl h

theorem connected_effect (s : UplinkPool) (o : Await) (r : o.Ans) :
    (outsideWorld.effect s o r).client = s.client := by
  cases o with
  | connect tr =>
    match r with
    | .ok () => rfl
    | .error err => rfl
  | authenticate tr =>
    match r with
    | .ok session => rfl
    | .error err => rfl
  | _ => rfl

/-- A closed pool is opened by a call of its `connect` only. -/
theorem closed_move {l : Stretch} {m' : Core} {w' : Place} (h : Move cfg i s w l m' w')
    (hs : s.closed = true) (hl : callsConnect s l = false) : m'.closed = true := by
  cases h with
  | enter _ _ p starts begun =>
    cases l with
    | connect => cases hl
    | clientPool => cases hl
    | clientConnect =>
      have hstarts : (callsConnect s .clientConnect && s.connectPromise.isNone) = true := starts
      rw [hl] at hstarts
      cases hstarts
    | connectNow =>
      have hstarts : (!s.closed && s.attemptReconnectPromise.isNone &&
          !(s.ready && s.activeUrl.isSome) && s.attemptReconnectPromise.isNone &&
        s.connectPromise.isNone) = true := starts
      rw [hs] at hstarts
      cases hstarts
    | timer =>
      have hstarts : (s.reconnectTimer.isSome && !s.closed && s.attemptReconnectPromise.isNone &&
          s.connectPromise.isNone) = true := starts
      rw [hs, Bool.not_true, Bool.and_false] at hstarts
      cases hstarts
    | _ => cases starts
  | close => exact (clear_down _).2.2.2.2
  | restoreClear => exact (clear_down _).2.2.2.2.trans hs
  | hangUp tr => cases tr <;> exact hs
  | _ => exact hs

theorem closed_of_closes {l : Stretch} (h : closes s l = true) :
    (l.apply cfg i s).closed = true := by
  cases l with
  | close => rfl
  | clientDisconnect =>
    have h : s.client.connected = true := h
    change s.clientDisconnect.2.closed = true
    unfold UplinkPool.clientDisconnect
    rw [if_pos h]
    rfl
  | clientStop =>
    have h : s.client.stopPromise.isNone = true := h
    change s.clientStop.2.closed = true
    unfold UplinkPool.clientStop
    rw [Option.isNone_iff_eq_none.mp h]
    rfl
  | _ => cases h

/-- `stop` has begun: the call that runs it will note that the client is
disconnected, if it was connected. -/
theorem leaving_of_stop (h : s.client.stopPromise = none) :
    (follow cfg w i s .clientStop).leaving = s.client.connected := by
  change (w.stops s.clientStop.1).leaving = _
  unfold UplinkPool.clientStop
  rw [h]
  rfl

end

/-! ## Every run -/

/-- The client is stopped, or about to be. -/
structure Gone (cfg : Config) (s : UplinkState) : Prop where
  closed : s.mem.closed = true
  clienting : ∀ t w, place cfg s t = some w → w.clienting = false
  leaves : s.mem.client.connected = true → ∃ t w, place cfg s t = some w ∧ w.leaving = true

structure Inv (cfg : Config) (s : UplinkState) : Prop where
  base : Base cfg s
  held : Held (.of s.mem) (place cfg s)
  down : s.mem.closed = true → Down (.of s.mem)
  pool : ∀ (newer : List UplinkEvent) e older, s.log = newer ++ e :: older →
    ran closes e.exch = true → (∀ e' ∈ newer, ran callsConnect e'.exch = false) →
    s.mem.closed = true
  client : ∀ (newer : List UplinkEvent) e older, s.log = newer ++ e :: older →
    ran (fun m l => isStop m l && m.client.stopPromise.isNone) e.exch = true →
    (∀ e' ∈ newer, ran (fun _ => isConnect) e'.exch = false) → Gone cfg s
  again : ∀ (newer : List UplinkEvent) e older, s.log = newer ++ e :: older →
    ran (fun m l => isStop m l && m.client.stopPromise.isSome) e.exch = true →
    StoppedSince older

section

variable {cfg : Config} {rounds : Nat} {s s' : UplinkState} {e : UplinkEvent} {c : Call}
  {k : uplinkPool.Ans e.op → Proc uplinkPool (Except Failure Unit)}

theorem Gone.joined (h : Gone cfg s) (hj : Joined (place cfg s) (place cfg s'))
    (hmem : s'.mem = s.mem) : Gone cfg s' := by
  refine ⟨hmem ▸ h.closed, fun u v hv => ?_, fun hc => ?_⟩
  · rcases hj.fresh u v hv with hv | rfl
    · exact h.clienting u v hv
    · rfl
  · rw [hmem] at hc
    obtain ⟨u, v, hv, hl⟩ := h.leaves hc
    exact ⟨u, v, hj.kept u v hv, hl⟩

theorem Gone.stretch (h : Gone cfg s) {w : Place} {l : Stretch} {i : Input} (hl : Legal cfg w l)
    (hmem : s'.mem = l.apply cfg i s.mem)
    (hmove : Move cfg i s.mem w l (.of s'.mem) (follow cfg w i s.mem l))
    (hturn : Turn (place cfg s) (place cfg s') e.tid w (follow cfg w i s.mem l))
    (hconnect : isConnect l = false) : Gone cfg s' := by
  have hw := h.clienting e.tid w hturn.before
  have hroutines : Routines s.mem w (follow cfg w i s.mem l) l := routines_follow
  have hcalls : callsConnect s.mem l = false := by
    cases l with
    | connect => cases hconnect
    | clientConnect => cases hconnect
    | clientPool =>
      have hl : w = { idle with clienting := true } := hl
      rw [hl] at hw
      cases hw
    | _ => rfl
  refine ⟨closed_move hmove h.closed hcalls, fun u v hv => ?_, fun hc => ?_⟩
  · obtain ⟨rfl, rfl⟩ | ⟨-, hv⟩ := hturn.cases hv
    · by_contra hne
      rcases hroutines.clienting (Bool.not_eq_false _ ▸ hne) with hc | rfl
      · cases hw.symm.trans hc
      · cases hconnect
    · exact h.clienting u v hv
  · rw [hmem] at hc
    rcases connected_apply hc with hold | ⟨p, r, rfl⟩
    · obtain ⟨u, v, hv, hleaving⟩ := h.leaves hold
      obtain ⟨rfl, rfl⟩ | ⟨-, hv⟩ := hturn.cases_before hv
      · rcases hroutines.leaving hleaving with hl' | rfl | rfl
        · exact ⟨e.tid, _, hturn.after, hl'⟩
        · cases hc
        · have hl : v = idle := hl
          rw [hl] at hleaving
          cases hleaving
      · exact ⟨u, v, hv, hleaving⟩
    · cases hw.symm.trans hl

theorem Gone.answer (h : Gone cfg s) {w : Place} {o : Await} {r : o.Ans}
    (hmay : (monitor cfg).may w (.await o)) (hmem : s'.mem = outsideWorld.effect s.mem o r)
    (hturn : Turn (place cfg s) (place cfg s') e.tid w ((monitor cfg).next w ⟨.await o, r⟩)) :
    Gone cfg s' := by
  have hans := answered r hmay
  refine ⟨?_, fun u v hv => ?_, fun hc => ?_⟩
  · rw [hmem]
    exact (congrArg Core.closed (of_effect s.mem o r)).trans h.closed
  · obtain ⟨rfl, rfl⟩ | ⟨-, hv⟩ := hturn.cases hv
    · exact hans.routines.clienting.trans (h.clienting e.tid w hturn.before)
    · exact h.clienting u v hv
  · rw [hmem, connected_effect] at hc
    obtain ⟨u, v, hv, hleaving⟩ := h.leaves hc
    obtain ⟨rfl, rfl⟩ | ⟨-, hv⟩ := hturn.cases_before hv
    · exact ⟨e.tid, _, hturn.after, hans.routines.leaving.trans hleaving⟩
    · exact ⟨u, v, hv, hleaving⟩

theorem Inv.stretch (h : Inv cfg s) (hf : Pool.Fires (uplinks cfg rounds) s e c k s') {w : Place}
    (hw : place cfg s e.tid = some w) {l : Stretch} {i : Input}
    (hx : e.exch = ⟨.run l fun i s => l.apply cfg i s, (i, s.mem)⟩) (hl : Legal cfg w l)
    (hmem : s'.mem = l.apply cfg i s.mem)
    (hnext : place cfg s' e.tid = some (follow cfg w i s.mem l))
    (hmove : Move cfg i s.mem w l (.of s'.mem) (follow cfg w i s.mem l))
    (hok : Undisturbed cfg s i l) : Inv cfg s' := by
  have hturn := turn_fires hf hw hnext
  refine ⟨h.base.fires hf, held_move hmove hl h.held hturn hok.clear,
    down_move hmove h.down hok.closed, fun newer e' older hlog hcloses hnone => ?_,
    fun newer e' older hlog hstop hnone => ?_, fun newer e' older hlog hstop => ?_⟩
  · rw [hf.log] at hlog
    obtain ⟨rfl, rfl, rfl⟩ | ⟨rest, rfl, hrest⟩ := split_cons hlog
    · rw [ran_stretch hx] at hcloses
      rw [hmem]
      exact closed_of_closes hcloses
    · have hclosed := h.pool rest e' older hrest hcloses fun e₁ he₁ => hnone e₁ (.tail _ he₁)
      have hcalls := hnone e (.head _)
      rw [ran_stretch hx] at hcalls
      exact closed_move hmove hclosed hcalls
  · rw [hf.log] at hlog
    obtain ⟨rfl, rfl, rfl⟩ | ⟨rest, rfl, hrest⟩ := split_cons hlog
    · rw [ran_stretch hx] at hstop
      cases l with
      | clientStop =>
        have hfree : s.mem.client.stopPromise = none := Option.isNone_iff_eq_none.mp hstop
        have hclosed : s'.mem.closed = true := by
          rw [hmem]
          exact closed_of_closes hstop
        refine ⟨hclosed, fun u v hv => ?_, fun hc => ?_⟩
        · obtain ⟨rfl, rfl⟩ | ⟨-, hv⟩ := hturn.cases hv
          · have hroutines : Routines s.mem w (follow cfg w i s.mem .clientStop) .clientStop :=
              routines_follow
            by_contra hne
            rcases hroutines.clienting (Bool.not_eq_false _ ▸ hne) with hc | hc
            · cases (hok.stop rfl hfree e'.tid w hw).symm.trans hc
            · cases hc
          · exact hok.stop rfl hfree u v hv
        · rw [hmem] at hc
          rcases connected_apply hc with hold | ⟨p, r, hp⟩
          · exact ⟨e'.tid, _, hnext, (leaving_of_stop hfree).trans hold⟩
          · cases hp
      | _ => cases hstop
    · have hgone := h.client rest e' older hrest hstop fun e₁ he₁ => hnone e₁ (.tail _ he₁)
      have hconnect := hnone e (.head _)
      rw [ran_stretch hx] at hconnect
      exact hgone.stretch hl hmem hmove hturn hconnect
  · rw [hf.log] at hlog
    obtain ⟨rfl, rfl, rfl⟩ | ⟨rest, rfl, hrest⟩ := split_cons hlog
    · rw [ran_stretch hx] at hstop
      cases l with
      | clientStop =>
        refine hok.stopAgain rfl fun hnone => ?_
        have hsome : s.mem.client.stopPromise.isSome = true := hstop
        rw [hnone] at hsome
        cases hsome
      | _ => cases hstop
    · exact h.again rest e' older hrest hstop

theorem Inv.answer (h : Inv cfg s) (hf : Pool.Fires (uplinks cfg rounds) s e c k s') {w : Place}
    (hw : place cfg s e.tid = some w) {o : Await} {r : o.Ans} (hx : e.exch = ⟨.await o, r⟩)
    (hmay : (monitor cfg).may w (.await o)) (hmem : s'.mem = outsideWorld.effect s.mem o r)
    (hnext : place cfg s' e.tid = some ((monitor cfg).next w ⟨.await o, r⟩))
    (hok : s.mem.closed = true → opens ⟨.await o, r⟩ = false) : Inv cfg s' := by
  have hturn := turn_fires hf hw hnext
  have hclosed : s'.mem.closed = s.mem.closed := by
    rw [hmem]
    exact congrArg Core.closed (of_effect s.mem o r)
  refine ⟨h.base.fires hf, ?_, fun hc => ?_, fun newer e' older hlog hcloses hnone => ?_,
    fun newer e' older hlog hstop hnone => ?_, fun newer e' older hlog hstop => ?_⟩
  · rw [hmem]
    exact held_answer hmay h.held hok hturn
  · rw [hmem]
    exact (h.down (hclosed.symm.trans hc)).answer o r
  · rw [hf.log] at hlog
    obtain ⟨rfl, rfl, rfl⟩ | ⟨rest, rfl, hrest⟩ := split_cons hlog
    · cases (ran_answer hx).symm.trans hcloses
    · exact hclosed.trans (h.pool rest e' older hrest hcloses fun e₁ he₁ => hnone e₁ (.tail _ he₁))
  · rw [hf.log] at hlog
    obtain ⟨rfl, rfl, rfl⟩ | ⟨rest, rfl, hrest⟩ := split_cons hlog
    · cases (ran_answer hx).symm.trans hstop
    · exact (h.client rest e' older hrest hstop fun e₁ he₁ => hnone e₁ (.tail _ he₁)).answer
        hmay hmem hturn
  · rw [hf.log] at hlog
    obtain ⟨rfl, rfl, rfl⟩ | ⟨rest, rfl, hrest⟩ := split_cons hlog
    · cases (ran_answer hx).symm.trans hstop
    · exact h.again rest e' older hrest hstop

theorem inv_inductive : ((uplinks cfg rounds).lts (undisturbed cfg)).Inductive (Inv cfg) := by
  refine System.inductive_of (fun m hm => ?_) (fun s c h _ => ?_) fun s e c k s' h hf hok => ?_
  · subst hm
    have hsplit : ∀ (newer : List UplinkEvent) e older, [] ≠ newer ++ e :: older :=
      fun newer e older h => by
        cases newer <;> cases h
    have hheld : Held (.of UplinkPool.new) (place cfg ⟨.new, [], []⟩) := by
      refine ⟨fun tr x hx => ?_, fun _ t w tr st hw => ?_⟩
      · cases hx
      · rw [place, System.view_init] at hw
        cases hw
    exact ⟨.init, hheld, fun hc => (by cases hc),
      fun newer e older h => absurd h (hsplit newer e older),
      fun newer e older h => absurd h (hsplit newer e older),
        fun newer e older h => absurd h (hsplit newer e older)⟩
  · have hj : Joined (place cfg s) (place cfg (s.spawn (uplinks cfg rounds) c)) := h.base.joined c
    exact ⟨h.base.spawn c, h.held.joined hj, h.down, h.pool,
      fun newer e older hlog hstop hnone => (h.client newer e older hlog hstop hnone).joined hj rfl,
        h.again⟩
  · obtain ⟨w, hw, heff⟩ := h.base.effect hf
    cases heff with
    | stretch l i exch legal mem next move =>
      exact h.stretch hf hw exch legal mem next move (hok.1 l _ i s.mem exch)
    | answer o r exch allows may mem next => exact h.answer hf hw exch may mem next (exch ▸ hok.2)

/-- A closed pool, once every call has returned. -/
theorem Inv.shut (h : Inv cfg s) (hclosed : s.mem.closed = true) (hr : Returned s) :
    Shut s.mem := by
  have hd := h.down hclosed
  refine ⟨hd.ready, hd.active, hd.timer, fun x hx => ?_⟩
  obtain ⟨tr, htr⟩ := List.mem_iff_getElem?.mp hx
  by_contra hne
  rcases h.held.opened tr x htr (Bool.not_eq_false _ ▸ hne) with ⟨p, hp, -⟩ | ⟨t, w, b, hw, hmem⟩
  · rw [hd.conns] at hp
    exact absurd hp List.not_mem_nil
  · rw [h.base.idle_of_returned hr hw] at hmem
    exact absurd hmem List.not_mem_nil

theorem Inv.stopped (h : Inv cfg s) (hr : Returned s) (hs : StoppedSince s.log) :
    s.mem.client.connected = false ∧ Shut s.mem := by
  obtain ⟨newer, e, older, hlog, hstop, hnone⟩ := hs
  have hgone := h.client newer e older hlog hstop hnone
  refine ⟨?_, h.shut hgone.closed hr⟩
  by_contra hne
  obtain ⟨t, w, hw, hleaving⟩ := hgone.leaves (Bool.not_eq_false _ ▸ hne)
  rw [h.base.idle_of_returned hr hw] at hleaving
  cases hleaving

end

/-- **`close` is absorbing**, in every undisturbed run. -/
theorem close_absorbing (cfg : Config) (rounds : Nat) (s : UplinkState)
    (hr : ((uplinks cfg rounds).lts (undisturbed cfg)).Reachable s) : Absorbing s := by
  have h := inv_inductive.reachable s hr
  refine ⟨fun newer e older hlog hcloses hnone hret =>
    h.shut (h.pool newer e older hlog hcloses hnone) hret,
    fun newer e older hlog hstop hnone hret => h.stopped hret ?_⟩
  obtain ⟨t, op, ans, fate⟩ := e
  cases op with
  | await o => cases hstop
  | run l g =>
    obtain ⟨i, m⟩ := ans
    cases l with
    | clientStop =>
      cases hp : m.client.stopPromise with
      | none =>
        refine ⟨newer, _, older, hlog, ?_, hnone⟩
        change m.client.stopPromise.isNone = true
        rw [hp]
        rfl
      | some p =>
        -- it joined a `stop` that has run, with no `connect` in between
        obtain ⟨newer', e', older', holder, hstop', hnone'⟩ := h.again newer _ older hlog (by
          change m.client.stopPromise.isSome = true
          rw [hp]
          rfl)
        refine ⟨newer ++ _ :: newer', e', older', by rw [hlog, holder, List.append_assoc]; rfl,
          hstop', fun e₁ he₁ => ?_⟩
        rcases List.mem_append.mp he₁ with he₁ | he₁
        · exact hnone e₁ he₁
        · rcases List.mem_cons.mp he₁ with rfl | he₁
          · rfl
          · exact hnone' e₁ he₁
    | _ => cases hstop

namespace Example

open UplinkMoves.Example

def clears (s : UplinkPool) : Stretch → Bool
  | .restoreClear => true
  | l => begins s l

def calm (cfg : Config) (s : UplinkState) (i : Input) (l : Stretch) : Bool :=
  (!s.mem.closed || !revives s.mem i l) &&
  (!clears s.mem l || allPlaces cfg s fun w => w.shaking = none) &&
    (!isStop s.mem l || s.mem.client.stopPromise.isNone && allPlaces cfg s fun w => !w.clienting)

theorem undisturbed_of_calm {cfg : Config} {s : UplinkState} {i : Input} {l : Stretch}
    (h : calm cfg s i l = true) : Undisturbed cfg s i l := by
  unfold calm at h
  rw [Bool.and_eq_true, Bool.and_eq_true] at h
  obtain ⟨⟨hrevive, hclear⟩, hstop⟩ := h
  refine ⟨fun hc => ?_, fun hc t w hw => ?_, fun hl hfree t w hw => ?_, fun hl hne => ?_⟩
  · rwa [hc, Bool.not_true, Bool.false_or, Bool.not_eq_true'] at hrevive
  · have hguard : clears s.mem l = true := by
      rcases hc with hc | rfl
      · cases l with
        | restoreClear => rfl
        | _ => exact hc
      · rfl
    rw [hguard, Bool.not_true, Bool.false_or] at hclear
    exact of_decide_eq_true (allPlaces_iff hclear t w hw)
  · subst hl
    have hstop : (s.mem.client.stopPromise.isNone && allPlaces cfg s fun w => !w.clienting) =
        true := hstop
    rw [Bool.and_eq_true] at hstop
    have hw := allPlaces_iff hstop.2 t w hw
    simpa using hw
  · subst hl
    have hstop : (s.mem.client.stopPromise.isNone && allPlaces cfg s fun w => !w.clienting) =
        true := hstop
    rw [Bool.and_eq_true, Option.isNone_iff_eq_none] at hstop
    exact absurd hstop.1 hne

def undisturbedJudge (cfg : Config) : System.Judge (undisturbed cfg) where
  may _ _ := true
  ok s e := match e.exch with
    | ⟨.run l _, (i, _)⟩ => calm cfg s i l
    | x => !(s.mem.closed && opens x)
  may_iff _ _ _ := trivial
  ok_iff s e h := by
    refine ⟨fun l g i m hx => ?_, fun hc => ?_⟩
    · rw [hx] at h
      exact undisturbed_of_calm h
    · cases hopens : opens e.exch with
      | false => rfl
      | true =>
        obtain ⟨t, op, ans, f⟩ := e
        cases op with
        | run l g => cases hopens
        | await o =>
          have h : (!(s.mem.closed && opens ⟨.await o, ans⟩)) = true := h
          have hopens : opens ⟨.await o, ans⟩ = true := hopens
          rw [hc, hopens] at h
          cases h

/-- A single uplink. -/
def lone : Config := ⟨["wss://a"], 1, 2000, 60000⟩

/-- No handshake succeeds. -/
def hungUp : ObjFate Input outside := { smooth 0 with
  answer := fun
    | .authenticate _ => some (.error ⟨"UPLINK_CLOSED", "", "transport closed", false⟩)
    | o => (smooth 0).answer o }

end Example

open UplinkMoves.Example Example in
/-- The client is stopped while a promoted spare runs its hooks; and a pool is
closed in a handshake, which fails as its transport is closed. -/
theorem close_absorbing_promotion :
    (∃ s, ((uplinks urls 3).lts (undisturbed urls)).Reachable s ∧ Returned s ∧
        s.threads.length = 3 ∧ s.mem.client.connected = false ∧ s.mem.activeUrl = none ∧
        Absorbing s) ∧
    ∃ s, ((uplinks lone 3).lts (undisturbed lone)).Reachable s ∧ Returned s ∧ s.mem.closed = true ∧
      s.mem.transports.length = 1 ∧ s.mem.reconnectTimer = none ∧ Absorbing s := by
  constructor
  · obtain ⟨s, hr, hs⟩ :=
      System.reachable_of_play (S := uplinks urls 3) (undisturbedJudge urls) (fun _ _ => smooth 1)
      [.call .clientConnect, .go 0 21, .call (.connState 0), .go 1 1, .call .clientStop,
      .go 2 7, .go 1 5] (m := .new)
      (P := fun s => returned s && s.threads.length = 3 && !s.mem.client.connected &&
      s.mem.activeUrl = none) rfl (by decide +kernel)
    rw [Bool.and_eq_true, Bool.and_eq_true, Bool.and_eq_true, Bool.not_eq_true',
      decide_eq_true_iff, decide_eq_true_iff] at hs
    obtain ⟨⟨⟨hret, hlen⟩, hclient⟩, hactive⟩ := hs
    exact ⟨s, hr, returned_iff hret, hlen, hclient, hactive, close_absorbing urls 3 s hr⟩
  · obtain ⟨s, hr, hs⟩ :=
      System.reachable_of_play (S := uplinks lone 3) (undisturbedJudge lone) (fun _ _ => hungUp)
      [.call .connect, .go 0 3, .call .close, .go 1 3, .go 0 5] (m := .new)
      (P := fun s => returned s && s.mem.closed && s.mem.transports.length = 1 &&
      s.mem.reconnectTimer = none) rfl (by decide +kernel)
    rw [Bool.and_eq_true, Bool.and_eq_true, Bool.and_eq_true, decide_eq_true_iff,
      decide_eq_true_iff] at hs
    obtain ⟨⟨⟨hret, hclosed⟩, hlen⟩, htimer⟩ := hs
    exact ⟨s, hr, returned_iff hret, hclosed, hlen, htimer, close_absorbing lone 3 s hr⟩

open UplinkMoves.Example Example in
/-- `close` is called while a connect attempt shakes hands: the attempt goes on,
activates its uplink and opens a spare. -/
theorem close_reopened :
    ∃ s, ((uplinks urls 3).lts anyUse).Reachable s ∧ Returned s ∧ s.mem.closed = true ∧
      s.mem.activeUrl = some "wss://a" ∧ s.mem.transports.any Transport.opened = true ∧
      ¬ Absorbing s := by
  obtain ⟨s, hr, hs⟩ :=
    System.reachable_of_play (S := uplinks urls 3) anyJudge (fun _ _ => smooth 0)
    [.call .connect, .go 0 3, .call .close, .go 1 3, .go 0 16] (m := .new)
    (P := fun s => returned s && s.mem.closed && s.mem.activeUrl = some "wss://a" &&
    s.mem.transports.any Transport.opened &&
      (s.log.drop 18).head?.any (fun e => ran closes e.exch) &&
      (s.log.take 18).all fun e => !ran callsConnect e.exch) rfl (by decide +kernel)
  rw [Bool.and_eq_true, Bool.and_eq_true, Bool.and_eq_true, Bool.and_eq_true,
    Bool.and_eq_true, decide_eq_true_iff] at hs
  obtain ⟨⟨⟨⟨⟨hret, hclosed⟩, hactive⟩, hopen⟩, hclose⟩, hnone⟩ := hs
  refine ⟨s, hr, returned_iff hret, hclosed, hactive, hopen, fun h => ?_⟩
  obtain ⟨e, he, hclose⟩ := (Option.any_eq_true _ _).mp hclose
  obtain ⟨older, holder⟩ := List.head?_eq_some_iff.mp he
  have hlog : s.log = s.log.take 18 ++ e :: older := by rw [← holder, List.take_append_drop]
  have hshut := h.pool _ e older hlog hclose
      (fun e' he' => by simpa using List.all_eq_true.mp hnone e' he') (returned_iff hret)
  cases hshut.active.symm.trans hactive

end RezSdk.L4.UplinkClose
