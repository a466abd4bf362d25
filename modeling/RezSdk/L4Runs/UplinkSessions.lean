import RezSdk.L4Runs.UplinkMoves

/-!
# Whose session the pool reports

All uplinks authenticate on one auth machine, which keeps the last session
only, and an activation copies whatever it holds.

* `session_of_active`: if between an uplink's last authentication and its
  activation no other one has given another session, and the active uplink is
  not connected anew, then the session the pool reports is always the active
  uplink's.
* `spare_reports_other`: with two warm spares the first is promoted and reports
  the session of the second.
-/
namespace RezSdk.L4.UplinkSessions

open RezSdk.L1 RezSdk.L3.Uplinks RezSdk.L4.UplinkCalls RezSdk.L4.UplinkMoves

/-- The session given to the present connection of a transport. -/
def sessionAt (m : Core) (tr : Nat) : Option Session := m.transports[tr]?.bind Transport.session

def sessionIn (m : Core) (url : String) : Option Session :=
  (OMap.get url m.conns).bind fun c => sessionAt m c.transport

/-- The session that the authentication on the uplink's present connection has
produced. -/
def sessionOf (s : UplinkPool) (url : String) : Option Session :=
  (s.conn url).bind fun c => s.transports[c.transport]?.bind Transport.session

/-- What `getSessionInfo` returns is the active uplink's own session. -/
def SessionOfActive (s : UplinkPool) : Prop := ∀ x, s.sessionInfo = some x →
    ∃ u, s.activeUrl = some u ∧ sessionOf s u = some x

/-- The uplink that a stretch makes the active one. -/
def activates (cfg : Config) (s : UplinkPool) : Stretch → Option String
  | .activate url => some url
  | .adopt url => if s.activeUrl = some url then none else some url
  | .promoteFind => s.findConnectedSpare cfg
  | .stateEvent tr => s.transports[tr]?.bind fun t =>
    if t.subscribed = true ∧ s.activeUrl = some t.url ∧ s.promotePromise = none
      then (s.mark t.url false false).findConnectedSpare cfg else none
  | _ => none

/-- The transport of the active uplink. -/
def activeTransport (s : UplinkPool) : Option Nat :=
  s.activeUrl.bind fun url => (s.conn url).map Conn.transport

/-! ## What the authentications have given -/

/-- An authentication begins, or succeeds. -/
def authenticates : Exch → Bool
  | ⟨.run (.authStart _) _, _⟩ => true
  | ⟨.await (.authenticate _), .ok _⟩ => true
  | _ => false

/-- The transport is opened, or its uplink is authenticated. -/
def renews (tr : Nat) : Exch → Bool
  | ⟨.await (.connect tr'), .ok ()⟩ => tr' = tr
  | ⟨.await (.authenticate tr'), .ok _⟩ => tr' = tr
  | _ => false

def given : Exch → Option Session
  | ⟨.await (.authenticate _), .ok x⟩ => some x
  | _ => none

/-- What the last authentication has given, on whichever transport; nothing, if
one has begun since. -/
def lastOfAll (log : List UplinkEvent) : Option Session :=
  (log.find? fun e => authenticates e.exch).bind fun e => given e.exch

/-- What the last authentication on one transport has given; nothing, if the
transport was opened since. -/
def lastOn (tr : Nat) (log : List UplinkEvent) : Option Session :=
  (log.find? fun e => renews tr e.exch).bind fun e => given e.exch

/-- No authentication has come between the last one on the uplink's present
connection and now, unless it gave the same session, or another has begun
since and not succeeded. -/
def Undisputed (s : UplinkState) (url : String) : Prop :=
  ∀ x, lastOfAll s.log = some x → ∃ c, s.mem.conn url = some c ∧ lastOn c.transport s.log = some x

/-- An uplink is activated only while its authentication is undisputed; and on
the active uplink's transport nothing comes of a second handshake that changes
the session. -/
def Attributed (cfg : Config) (s : UplinkState) : Exch → Prop
  | ⟨.run l _, _⟩ => ∀ url, activates cfg s.mem l = some url → Undisputed s url
  | ⟨.await (.connect tr), .ok ()⟩ => activeTransport s.mem = some tr → s.mem.sessionInfo = none
  | ⟨.await (.authenticate tr), .ok x⟩ =>
    activeTransport s.mem = some tr → s.mem.sessionInfo = none ∨ s.mem.sessionInfo = some x
  | _ => True

def attributed (cfg : Config) : UplinkRules where
  init s := s = .new
  may _ _ := True
  ok s e := Attributed cfg s e.exch

/-! ## What is reported -/

section

variable {cfg : Config} {i : Input} {s : UplinkPool} {w : Place}

theorem sessionAt_onTransport (m : Core) (tr : Nat) {f : Transport → Transport}
    (hf : ∀ t, (f t).session = t.session) (tr' : Nat) :
    sessionAt (m.onTransport tr f) tr' = sessionAt m tr' := by
  unfold sessionAt Core.onTransport
  dsimp only
  rw [List.getElem?_modify]
  cases m.transports[tr']? with
  | none => rfl
  | some t =>
    change (if tr = tr' then f t else t).session = t.session
    split
    · exact hf t
    · rfl

theorem sessionAt_hangUp (m : Core) (tr : Option Nat) (tr' : Nat) :
    sessionAt (m.hangUp tr) tr' = sessionAt m tr' := by
  cases tr with
  | none => rfl
  | some tr =>
    exact sessionAt_onTransport m tr (f := fun t => { t with subscribed := false, opened := false })
      (fun _ => rfl) tr'

/-- What is done to one transport does not show in the sessions of the others. -/
theorem sessionAt_other (m : Core) {tr tr' : Nat} (f : Transport → Transport) (hne : tr ≠ tr') :
    sessionAt (m.onTransport tr f) tr' = sessionAt m tr' := by
  unfold sessionAt Core.onTransport
  dsimp only
  rw [List.getElem?_modify_ne _ _ hne]

theorem sessionAt_given (m : Core) {tr : Nat} {f : Transport → Transport} {x : Option Session}
    (hlt : tr < m.transports.length) (hf : ∀ t, (f t).session = x) :
    sessionAt (m.onTransport tr f) tr = x := by
  unfold sessionAt Core.onTransport
  dsimp only
  rw [List.getElem?_modify_eq, List.getElem?_eq_getElem hlt]
  exact hf _

/-- A new transport has no session. -/
theorem sessionAt_create (m : Core) {t : Transport} (ht : t.session = none) (tr : Nat) :
    sessionAt { m with transports := m.transports ++ [t] } tr = sessionAt m tr := by
  unfold sessionAt
  dsimp only
  rcases Nat.lt_trichotomy tr m.transports.length with hlt | rfl | hgt
  · rw [List.getElem?_append_left hlt]
  · rw [List.getElem?_concat_length, List.getElem?_eq_none (Nat.le_refl _)]
    exact ht
  · rw [List.getElem?_eq_none (Nat.le_of_lt hgt), List.getElem?_eq_none]
    rw [List.length_append]
    exact hgt

theorem sessionIn_congr {m m' : Core} (hconns : m'.conns = m.conns)
    (hat : ∀ tr, sessionAt m' tr = sessionAt m tr) (url : String) :
    sessionIn m' url = sessionIn m url := by
  unfold sessionIn
  rw [hconns]
  exact congrArg _ (funext fun c => hat c.transport)

theorem sessionIn_onTransport (m : Core) (tr : Nat) {f : Transport → Transport}
    (hf : ∀ t, (f t).session = t.session) (url : String) :
    sessionIn (m.onTransport tr f) url = sessionIn m url := by
  refine sessionIn_congr ?_ (sessionAt_onTransport m tr hf) url
  rfl

theorem sessionIn_hangUp (m : Core) (tr : Option Nat) (url : String) :
    sessionIn (m.hangUp tr) url = sessionIn m url :=
  sessionIn_congr (by cases tr <;> rfl) (sessionAt_hangUp m tr) url

theorem sessionIn_mark (m : Core) (url : String) (ready healthy : Bool) (u : String) :
    sessionIn (m.mark url ready healthy) u = sessionIn m u := by
  unfold sessionIn Core.mark
  dsimp only
  cases hc : OMap.get url m.conns with
  | none => rfl
  | some c =>
    dsimp only
    rw [OMap.get_set]
    split
    · rename_i hu
      subst hu
      rw [hc]
      rfl
    · rfl

theorem sessionIn_create {m : Core} {url : String} (hnew : OMap.get url m.conns = none)
    {t : Transport} (ht : t.session = none) {c : Conn} {u : String} {x : Session}
    (h : sessionIn m u = some x) :
    sessionIn { m with transports := m.transports ++ [t], conns := OMap.set url c m.conns } u =
      some x := by
  unfold sessionIn at h ⊢
  obtain ⟨c', hc', hx⟩ := Option.bind_eq_some_iff.mp h
  have hne : url ≠ u := by
    rintro rfl
    cases hnew.symm.trans hc'
  dsimp only
  rw [OMap.get_set_ne hne, hc']
  exact (sessionAt_create m ht c'.transport).trans hx

/-- The session a pool reports, as a fact about its core. -/
def Reports (m : Core) : Prop := ∀ x, m.sessionInfo = some x → ∃ u, m.activeUrl = some u ∧
    sessionIn m u = some x

theorem Reports.cleared {m : Core} (tr : Option Nat) (h : m.sessionInfo = none) :
    Reports (m.hangUp tr) := by
  intro x hx
  have hsame : (m.hangUp tr).sessionInfo = m.sessionInfo := by cases tr <;> rfl
  rw [hsame, h] at hx
  cases hx

theorem Reports.same {m m' : Core} (h : Reports m) (hinfo : m'.sessionInfo = m.sessionInfo)
    (hactive : m'.activeUrl = m.activeUrl)
    (hsession : ∀ u x, sessionIn m u = some x → sessionIn m' u = some x) : Reports m' := by
  intro x hx
  rw [hinfo] at hx
  obtain ⟨u, hu, hs⟩ := h x hx
  exact ⟨u, hactive.trans hu, hsession u x hs⟩

/-- An uplink is activated while the machine's session is its own. -/
theorem Reports.activated {m m' : Core} {url : String} (hactive : m'.activeUrl = some url)
    (hinfo : m'.sessionInfo = m.authSession)
    (hown : ∀ x, m.authSession = some x → sessionIn m' url = some x) : Reports m' :=
  fun x hx => ⟨url, hactive, hown x (hinfo.symm.trans hx)⟩

theorem reports_move {l : Stretch} {m : Core} {w' : Place} (h : Move cfg i s w l m w')
    (hs : Reports (.of s))
    (hown :
        ∀ url x, activates cfg s l = some url → s.authSession = some x → sessionOf s url = some x) :
    Reports m := by
  cases h with
  | stay => exact hs
  | disarm => exact hs
  | enter => exact .cleared _ rfl
  | close => exact .cleared _ rfl
  | restoreClear => exact .cleared _ rfl
  | hangUp tr =>
    refine hs.same ?_ ?_ fun u x hx => (sessionIn_hangUp _ tr u).trans hx
    · cases tr <;> rfl
    · cases tr <;> rfl
  | reuse url c conn ready =>
    refine hs.same rfl rfl fun u x hx => ?_
    exact (sessionIn_onTransport _ c.transport (f := fun t => { t with connects := t.connects + 1 })
      (fun _ => rfl) u).trans hx
  | create url conn => exact hs.same rfl rfl fun u x hx => sessionIn_create (m := .of s) conn rfl hx
  | authStart tr =>
    refine hs.same rfl rfl fun u x hx => ?_
    exact (sessionIn_onTransport _ tr (f := fun t => { t with auths := t.auths + 1 })
      (fun _ => rfl) u).trans hx
  | markReady url => exact hs.same rfl rfl fun u x hx => (sessionIn_mark _ url _ _ u).trans hx
  | spareFailed url => exact hs.same rfl rfl fun u x hx => (sessionIn_mark _ url _ _ u).trans hx
  | activate url => exact .activated (m := .of s) rfl rfl fun x hx => hown url x rfl hx
  | adopt url other =>
    exact .activated (m := .of s) rfl rfl fun x hx => hown url x (if_neg other) hx
  | connectEnd => exact hs
  | refused => exact hs
  | connected => exact hs
  | connectFinally => exact hs
  | retry => exact hs
  | offline => exact fun x hx => by cases hx
  | died tr t => exact hs.same rfl rfl fun u x hx => (sessionIn_mark _ t.url _ _ u).trans hx
  | join tr t => exact hs.same rfl rfl fun u x hx => (sessionIn_mark _ t.url _ _ u).trans hx
  | search tr t => exact hs.same rfl rfl fun u x hx => (sessionIn_mark _ t.url _ _ u).trans hx
  | failover tr t p url at_ subscribed active promotion found =>
    refine .activated (m := .of s) rfl rfl fun x hx => ?_
    refine (sessionIn_mark (.of s) t.url false false url).trans (hown url x ?_ hx)
    unfold activates
    dsimp only
    rw [at_]
    dsimp only [Option.bind_some]
    rw [if_pos ⟨subscribed, active, promotion⟩, found]
  | promote p url searching found =>
    exact .activated (m := .of s) rfl rfl fun x hx => hown url x found hx
  | promoteEnd => exact hs

/-- What happens on another transport than the active uplink's. -/
theorem Reports.apart {tr : Nat} {f : Transport → Transport} (hs : Reports (.of s))
    (hne : activeTransport s ≠ some tr) : Reports ((Core.of s).onTransport tr f) := by
  intro x hx
  obtain ⟨u, hu, hsession⟩ := hs x hx
  refine ⟨u, hu, ?_⟩
  unfold sessionIn at hsession ⊢
  obtain ⟨c, hc, hsession⟩ := Option.bind_eq_some_iff.mp hsession
  have htr : tr ≠ c.transport := by
    rintro rfl
    refine hne ?_
    have hu : s.activeUrl = some u := hu
    have hc : s.conn u = some c := hc
    unfold activeTransport
    rw [hu]
    dsimp only [Option.bind_some]
    rw [hc]
    rfl
  exact Option.bind_eq_some_iff.mpr ⟨c, hc, (sessionAt_other (.of s) f htr).trans hsession⟩

/-- The active uplink's own authentication gives the session that is reported. -/
theorem Reports.again {tr : Nat} {f : Transport → Transport} {x : Session} (hs : Reports (.of s))
    (hat : activeTransport s = some tr) (hinfo : s.sessionInfo = some x)
    (hf : ∀ t, (f t).session = some x) : Reports ((Core.of s).onTransport tr f) := by
  intro y hy
  cases hinfo.symm.trans hy
  obtain ⟨u, hu, hsession⟩ := hs x hinfo
  refine ⟨u, hu, ?_⟩
  unfold sessionIn at hsession ⊢
  obtain ⟨c, hc, hsession⟩ := Option.bind_eq_some_iff.mp hsession
  obtain ⟨t, ht, -⟩ := Option.bind_eq_some_iff.mp hsession
  have htr : c.transport = tr := by
    unfold activeTransport at hat
    have hu : s.activeUrl = some u := hu
    have hc : s.conn u = some c := hc
    rw [hu] at hat
    dsimp only [Option.bind_some] at hat
    rw [hc] at hat
    exact Option.some.inj hat
  have ht : s.transports[tr]? = some t := htr ▸ ht
  refine Option.bind_eq_some_iff.mpr ⟨c, hc, Option.bind_eq_some_iff.mpr ⟨f t, ?_, hf t⟩⟩
  rw [htr]
  change (s.transports.modify tr f)[tr]? = some (f t)
  rw [List.getElem?_modify_eq, ht]
  rfl

theorem reports_answer {s : UplinkState} {o : Await} {r : o.Ans} (hs : Reports (.of s.mem))
    (hok : Attributed cfg s ⟨.await o, r⟩) : Reports (.of (outsideWorld.effect s.mem o r)) := by
  cases o with
  | connect tr =>
    match r with
    | .ok () =>
      by_cases hat : activeTransport s.mem = some tr
      · exact fun x hx => by cases (hok hat).symm.trans hx
      · exact hs.apart hat
    | .error err =>
      refine hs.same rfl rfl fun u x hx => ?_
      exact (sessionIn_onTransport (.of s.mem) tr
        (f := fun t => { t with connects := t.connects - 1 }) (fun _ => rfl) u).trans hx
  | authenticate tr =>
    match r with
    | .ok session =>
      by_cases hat : activeTransport s.mem = some tr
      · rcases hok hat with hnone | hsame
        · exact fun x hx => by cases hnone.symm.trans hx
        · exact hs.again hat hsame fun t => rfl
      · exact hs.apart hat
    | .error err =>
      refine hs.same rfl rfl fun u x hx => ?_
      exact (sessionIn_onTransport (.of s.mem) tr (f := fun t => { t with auths := t.auths - 1 })
        (fun _ => rfl) u).trans hx
  | _ => exact hs

end

/-! ## The machine and the log -/

/-- Every transport that is in use exists. -/
structure Wired (m : Core) (P : Nat → Option Place) : Prop where
  conns : ∀ p ∈ m.conns, p.2.transport < m.transports.length
  shaking : ∀ t w tr st, P t = some w → w.shaking = some (tr, st) → tr < m.transports.length

section

variable {m m' : Core} {P P' : Nat → Option Place} {t : Nat} {w w' : Place}

theorem Wired.same (h : Wired m P) (hturn : Turn P P' t w w')
    (hlen : m'.transports.length = m.transports.length)
    (hconns : ∀ p' ∈ m'.conns, ∃ p ∈ m.conns, p'.2.transport = p.2.transport)
    (hs : ∀ tr st, w'.shaking = some (tr, st) →
      (∃ st', w.shaking = some (tr, st')) ∨ ∃ p ∈ m.conns, p.2.transport = tr) : Wired m' P' := by
  refine ⟨fun p' hp' => ?_, fun u v tr st hv hx => ?_⟩
  · obtain ⟨p, hp, htr⟩ := hconns p' hp'
    rw [htr, hlen]
    exact h.conns p hp
  · rw [hlen]
    obtain ⟨rfl, rfl⟩ | ⟨-, hv⟩ := hturn.cases hv
    · rcases hs tr st hx with ⟨st', hx⟩ | ⟨p, hp, rfl⟩
      · exact h.shaking u w tr st' hturn.before hx
      · exact h.conns p hp
    · exact h.shaking u v tr st hv hx

theorem Wired.joined (h : Wired m P) (hj : Joined P P') : Wired m P' := by
  refine ⟨h.conns, fun u v tr st hv hx => ?_⟩
  rcases hj.fresh u v hv with hv | rfl
  · exact h.shaking u v tr st hv hx
  · cases hx

theorem length_hangUp (m : Core) (tr : Option Nat) :
    (m.hangUp tr).transports.length = m.transports.length := by
  cases tr with
  | none => rfl
  | some tr => exact List.length_modify ..

theorem conns_hangUp (m : Core) (tr : Option Nat) : (m.hangUp tr).conns = m.conns := by
  cases tr <;> rfl

end

section

variable {cfg : Config} {i : Input} {s : UplinkPool} {P P' : Nat → Option Place}
  {t : Nat} {w w' : Place}
  {l : Stretch} {m : Core}

theorem wired_move (h : Move cfg i s w l m w') (hl : Legal cfg w l) (hs : Wired (.of s) P)
    (hturn : Turn P P' t w w') : Wired m P' := by
  have hsame : ∀ p ∈ s.conns, ∃ p' ∈ s.conns, p.2.transport = p'.2.transport :=
    fun p hp => ⟨p, hp, rfl⟩
  have hold : ∀ {v : Place}, v.shaking = w.shaking → ∀ tr st, v.shaking = some (tr, st) →
      (∃ st', w.shaking = some (tr, st')) ∨ ∃ p ∈ s.conns, p.2.transport = tr :=
    fun hv tr st hx => .inl ⟨st, hv.symm.trans hx⟩
  have hclear : ∀ {m₁ : Core}, m₁.transports = s.transports → w'.shaking = w.shaking →
      Wired m₁.clear P' := by
    intro m₁ htr hshaking
    refine hs.same hturn ((length_hangUp _ _).trans (congrArg List.length htr))
      (fun p hp => ?_) (hold hshaking)
    rw [(clear_down m₁).2.2.1] at hp
    exact absurd hp List.not_mem_nil
  cases h with
  | stay _ _ keeps => exact hs.same hturn rfl hsame (hold keeps.shaking)
  | disarm _ _ kick why keeps => exact hs.same hturn rfl hsame (hold keeps.shaking)
  | enter _ _ p starts begun => exact hclear rfl begun.shaking
  | close => exact hclear rfl rfl
  | restoreClear => exact hclear rfl rfl
  | hangUp tr =>
    refine hs.same hturn (length_hangUp _ _) (fun p hp => ?_) (hold rfl)
    rw [conns_hangUp] at hp
    exact hsame p hp
  | reuse url c conn ready =>
    refine hs.same hturn (List.length_modify ..) hsame fun tr st hx => .inr ?_
    cases hx
    exact ⟨_, OMap.mem_of_get conn, rfl⟩
  | create url conn made =>
    have hlen : (s.transports ++ [(⟨url, false, true, none, 1, 0⟩ : Transport)]).length =
        s.transports.length + 1 :=
      List.length_append
    refine ⟨fun p hp => ?_, fun u v tr st hv hx => ?_⟩
    · change p.2.transport < (s.transports ++ [_]).length
      rw [hlen]
      rcases OMap.mem_set hp with rfl | hp
      · exact Nat.lt_succ_self _
      · exact Nat.lt_succ_of_lt (hs.conns p hp)
    · change tr < (s.transports ++ [_]).length
      rw [hlen]
      obtain ⟨rfl, rfl⟩ | ⟨-, hv⟩ := hturn.cases hv
      · cases hx
        exact Nat.lt_succ_self _
      · exact Nat.lt_succ_of_lt (hs.shaking u v tr st hv hx)
  | authStart tr =>
    refine hs.same hturn (List.length_modify ..) hsame fun tr' st hx => .inl ?_
    cases hx
    exact ⟨_, hl⟩
  | markReady url =>
    exact hs.same hturn rfl (conns_mark (.of s) url _ _) fun tr st hx => by cases hx
  | spareFailed url => exact hs.same hturn rfl (conns_mark (.of s) url _ _) (hold rfl)
  | died tr x => exact hs.same hturn rfl (conns_mark (.of s) x.url _ _) (hold rfl)
  | join tr x => exact hs.same hturn rfl (conns_mark (.of s) x.url _ _) (hold rfl)
  | search tr x => exact hs.same hturn rfl (conns_mark (.of s) x.url _ _) (hold rfl)
  | failover tr x => exact hs.same hturn rfl (conns_mark (.of s) x.url _ _) (hold rfl)
  | retry _ _ failed =>
    refine hs.same hturn rfl hsame (hold ?_)
    rcases failed with ⟨-, rfl⟩ | ⟨-, rfl⟩ <;> rfl
  | offline _ _ lost =>
    refine hs.same hturn rfl hsame (hold ?_)
    rcases lost with ⟨-, rfl⟩ | ⟨-, rfl⟩ <;> rfl
  | promoteEnd p b =>
    refine hs.same hturn rfl hsame (hold ?_)
    cases b <;> rfl
  | _ => exact hs.same hturn rfl hsame (hold rfl)

/-- An answer changes no connection, and moves a handshake on or ends it. -/
theorem wired_answer {o : Await} {r : o.Ans} (hmay : (monitor cfg).may w (.await o))
    (hs : Wired (.of s) P) (hturn : Turn P P' t w ((monitor cfg).next w ⟨.await o, r⟩)) :
    Wired (.of (outsideWorld.effect s o r)) P' := by
  refine hs.same hturn ?_ (fun p hp => ⟨p, ?_, rfl⟩) fun tr st hx =>
    .inl ((answered r hmay).shaking tr st hx)
  · cases o with
    | connect tr =>
      match r with
      | .ok () => exact List.length_modify ..
      | .error err => exact List.length_modify ..
    | authenticate tr =>
      match r with
      | .ok session => exact List.length_modify ..
      | .error err => exact List.length_modify ..
    | _ => rfl
  · have hsame := congrArg Core.conns (of_effect s o r)
    exact hsame ▸ hp

/-- No stretch touches the sessions of the transports. -/
theorem sessionAt_move (h : Move cfg i s w l m w') (tr : Nat) :
    sessionAt m tr = sessionAt (.of s) tr := by
  cases h with
  | enter => exact sessionAt_hangUp _ _ tr
  | close => exact sessionAt_hangUp _ _ tr
  | restoreClear => exact sessionAt_hangUp _ _ tr
  | hangUp tr' => exact sessionAt_hangUp _ _ tr
  | reuse url c conn ready =>
    exact sessionAt_onTransport (.of s) c.transport
      (f := fun t => { t with connects := t.connects + 1 }) (fun _ => rfl) tr
  | create url conn made => exact sessionAt_create (.of s) rfl tr
  | authStart tr' =>
    exact sessionAt_onTransport (.of s) tr' (f := fun t => { t with auths := t.auths + 1 })
      (fun _ => rfl) tr
  | _ => rfl

/-- The machine's session is cleared where an authentication begins, and by no
other stretch. -/
theorem authSession_move (h : Move cfg i s w l m w') (hl : ∀ tr, l ≠ .authStart tr) :
    m.authSession = s.authSession := by
  have hhang : ∀ (c : Core) (tr : Option Nat), (c.hangUp tr).authSession = c.authSession := by
    intro c tr
    cases tr <;> rfl
  cases h with
  | enter => exact hhang _ _
  | close => exact hhang _ _
  | restoreClear => exact hhang _ _
  | hangUp tr => exact hhang _ _
  | authStart tr => exact absurd rfl (hl tr)
  | _ => rfl

end

/-! ## Every run -/

/-- The auth machine and the transports hold what the authentications of the run
have given. -/
structure Told (cfg : Config) (s : UplinkState) : Prop where
  base : Base cfg s
  wired : Wired (.of s.mem) (place cfg s)
  machine : s.mem.authSession = lastOfAll s.log
  sessions : ∀ tr, sessionAt (.of s.mem) tr = lastOn tr s.log

section

variable {cfg : Config} {rounds : Nat} {s s' : UplinkState} {e : UplinkEvent} {c : Call}
  {k : uplinkPool.Ans e.op → Proc uplinkPool (Except Failure Unit)}

theorem lastOfAll_cons (e : UplinkEvent) (log : List UplinkEvent) :
    lastOfAll (e :: log) = if authenticates e.exch then given e.exch else lastOfAll log := by
  unfold lastOfAll
  rw [List.find?_cons]
  cases authenticates e.exch <;> rfl

theorem lastOn_cons (tr : Nat) (e : UplinkEvent) (log : List UplinkEvent) :
    lastOn tr (e :: log) = if renews tr e.exch then given e.exch else lastOn tr log := by
  unfold lastOn
  rw [List.find?_cons]
  cases renews tr e.exch <;> rfl

/-- A stretch gives no session, and takes the machine's one only where an
authentication begins. -/
theorem Told.stretch (h : Told cfg s) (hf : Pool.Fires (uplinks cfg rounds) s e c k s') {w : Place}
    {l : Stretch} {i : Input} (hx : e.exch = ⟨.run l fun i s => l.apply cfg i s, (i, s.mem)⟩)
    (hmem : s'.mem = l.apply cfg i s.mem)
    (hmove : Move cfg i s.mem w l (.of s'.mem) (follow cfg w i s.mem l)) :
    s'.mem.authSession = lastOfAll s'.log ∧ ∀ tr, sessionAt (.of s'.mem) tr = lastOn tr s'.log := by
  rw [hf.log]
  refine ⟨?_, fun tr => ?_⟩
  · rw [lastOfAll_cons, hx]
    have hkept := authSession_move hmove
    cases l with
    | authStart tr =>
      rw [hmem]
      rfl
    | _ => exact (hkept fun _ => by nofun).trans h.machine
  · rw [lastOn_cons, hx]
    exact (sessionAt_move hmove tr).trans (h.sessions tr)

theorem Told.answer (h : Told cfg s) (hf : Pool.Fires (uplinks cfg rounds) s e c k s') {w : Place}
    (hw : place cfg s e.tid = some w) {o : Await} {r : o.Ans} (hx : e.exch = ⟨.await o, r⟩)
    (hmay : (monitor cfg).may w (.await o)) (hmem : s'.mem = outsideWorld.effect s.mem o r) :
    s'.mem.authSession = lastOfAll s'.log ∧ ∀ tr, sessionAt (.of s'.mem) tr = lastOn tr s'.log := by
  rw [hf.log, hmem]
  have hkept : ∀ (tr : Nat) {f : Transport → Transport}, (∀ t, (f t).session = t.session) →
      (∀ tr', renews tr' e.exch = false) →
      ∀ tr', sessionAt ((Core.of s.mem).onTransport tr f) tr' = lastOn tr' (e :: s.log) := by
    intro tr f hsame hnone tr'
    rw [lastOn_cons, hnone tr']
    exact (sessionAt_onTransport (.of s.mem) tr hsame tr').trans (h.sessions tr')
  have hgiven : ∀ (tr : Nat) {f : Transport → Transport} {st : Stage}, w.shaking = some (tr, st) →
      (∀ t, (f t).session = given e.exch) → (∀ tr', renews tr' e.exch = decide (tr = tr')) →
      ∀ tr', sessionAt ((Core.of s.mem).onTransport tr f) tr' = lastOn tr' (e :: s.log) := by
    intro tr f st hshaking hsession hrenews tr'
    rw [lastOn_cons, hrenews tr']
    by_cases htr : tr = tr'
    · subst htr
      rw [decide_eq_true rfl, if_pos rfl]
      exact sessionAt_given _ (h.wired.shaking e.tid w tr st hw hshaking) hsession
    · rw [decide_eq_false htr]
      exact (sessionAt_other (.of s.mem) f htr).trans (h.sessions tr')
  have hmachine : authenticates e.exch = false → s.mem.authSession = lastOfAll (e :: s.log) := by
    intro hnone
    rw [lastOfAll_cons, hnone]
    exact h.machine
  cases o with
  | connect tr =>
    match r with
    | .ok () =>
      exact ⟨hmachine (by rw [hx]; rfl),
        hgiven tr hmay (fun t => by rw [hx]; rfl) fun tr' => by rw [hx]; rfl⟩
    | .error err =>
      exact ⟨hmachine (by rw [hx]; rfl), hkept tr (fun _ => rfl) fun tr' => by rw [hx]; rfl⟩
  | authenticate tr =>
    match r with
    | .ok x =>
      refine ⟨?_, hgiven tr hmay (fun t => by rw [hx]; rfl) fun tr' => by rw [hx]; rfl⟩
      rw [lastOfAll_cons, hx]
      rfl
    | .error err =>
      exact ⟨hmachine (by rw [hx]; rfl), hkept tr (fun _ => rfl) fun tr' => by rw [hx]; rfl⟩
  | _ =>
    refine ⟨hmachine (by rw [hx]; rfl), fun tr' => ?_⟩
    rw [lastOn_cons, hx]
    exact h.sessions tr'

theorem Told.init : Told cfg ⟨.new, [], []⟩ := by
  refine ⟨.init, ⟨fun p hp => absurd hp List.not_mem_nil, fun t w tr st hw => ?_⟩,
    rfl, fun tr => rfl⟩
  rw [place, System.view_init] at hw
  cases hw

theorem Told.spawn (h : Told cfg s) (c : Call) : Told cfg (s.spawn (uplinks cfg rounds) c) :=
  ⟨h.base.spawn c, h.wired.joined (h.base.joined c), h.machine, h.sessions⟩

theorem Told.fires (h : Told cfg s) (hf : Pool.Fires (uplinks cfg rounds) s e c k s') :
    Told cfg s' := by
  obtain ⟨w, hw, heff⟩ := h.base.effect hf
  cases heff with
  | stretch l i exch legal mem next move =>
    obtain ⟨hmachine, hsessions⟩ := h.stretch hf exch mem move
    exact ⟨h.base.fires hf, wired_move move legal h.wired (turn_fires hf hw next),
      hmachine, hsessions⟩
  | answer o r exch allows may mem next =>
    obtain ⟨hmachine, hsessions⟩ := h.answer hf hw exch may mem
    refine ⟨h.base.fires hf, ?_, hmachine, hsessions⟩
    rw [mem]
    exact wired_answer may h.wired (turn_fires hf hw next)

/-- An uplink whose authentication is undisputed: the machine's session, if any,
is its own. -/
theorem Told.own (h : Told cfg s) {url : String} (hu : Undisputed s url) {x : Session}
    (hx : s.mem.authSession = some x) : sessionOf s.mem url = some x := by
  obtain ⟨c, hc, hlast⟩ := hu x (h.machine.symm.trans hx)
  exact Option.bind_eq_some_iff.mpr ⟨c, hc, (h.sessions c.transport).trans hlast⟩

end

/-- **The session reported is the active uplink's**, in every run that
activates an uplink only while its authentication is undisputed. -/
theorem session_of_active (cfg : Config) (rounds : Nat) (s : UplinkState)
    (hr : ((uplinks cfg rounds).lts (attributed cfg)).Reachable s) : SessionOfActive s.mem := by
  have hinv : ((uplinks cfg rounds).lts (attributed cfg)).Inductive fun s => Told cfg s ∧
      Reports (.of s.mem) := by
    refine System.inductive_of (fun m hm => ?_) (fun s c h _ => ⟨h.1.spawn c, h.2⟩)
      fun s e c k s' h hf hok => ⟨h.1.fires hf, ?_⟩
    · subst hm
      exact ⟨.init, fun x hx => by cases hx⟩
    · obtain ⟨w, -, heff⟩ := h.1.base.effect hf
      have hok : Attributed cfg s e.exch := hok
      cases heff with
      | stretch l i exch legal mem next move =>
        rw [exch] at hok
        exact reports_move move h.2 fun url x hurl hx => h.1.own (hok url hurl) hx
      | answer o r exch allows may mem next =>
        rw [exch] at hok
        rw [mem]
        exact reports_answer h.2 hok
  exact (hinv.reachable s hr).2

namespace Example

open UplinkMoves.Example

/-- Three uplinks, two warm spares. -/
def three : Config := ⟨["wss://a", "wss://b", "wss://c"], 2, 2000, 60000⟩

/-- The decidable form of `Attributed`. -/
def owns (cfg : Config) (s : UplinkState) : Exch → Bool
  | ⟨.run l _, _⟩ => (activates cfg s.mem l).all fun url => (lastOfAll s.log).all fun x =>
    (s.mem.conn url).any fun c => lastOn c.transport s.log = some x
  | ⟨.await (.connect tr), .ok ()⟩ => activeTransport s.mem ≠ some tr || s.mem.sessionInfo = none
  | ⟨.await (.authenticate tr), .ok x⟩ =>
    activeTransport s.mem ≠ some tr || s.mem.sessionInfo = none || s.mem.sessionInfo = some x
  | _ => true

theorem attributed_of_owns {cfg : Config} {s : UplinkState} {x : Exch} (h : owns cfg s x = true) :
    Attributed cfg s x := by
  obtain ⟨op, ans⟩ := x
  cases op with
  | run l g =>
    intro url hurl x hx
    have h : ((activates cfg s.mem l).all fun url => (lastOfAll s.log).all fun x =>
      (s.mem.conn url).any fun c => decide (lastOn c.transport s.log = some x)) = true := h
    rw [hurl, hx] at h
    obtain ⟨c, hc, hlast⟩ := (Option.any_eq_true _ _).mp h
    exact ⟨c, hc, of_decide_eq_true hlast⟩
  | await o =>
    cases o with
    | connect tr =>
      match ans with
      | .ok () =>
        intro hat
        have h : (decide (activeTransport s.mem ≠ some tr) || decide (s.mem.sessionInfo = none)) =
            true := h
        rw [Bool.or_eq_true, decide_eq_true_iff, decide_eq_true_iff] at h
        exact h.resolve_left (not_not_intro hat)
      | .error err => trivial
    | authenticate tr =>
      match ans with
      | .ok x =>
        intro hat
        have h : (decide (activeTransport s.mem ≠ some tr) || decide (s.mem.sessionInfo = none) ||
          decide (s.mem.sessionInfo = some x)) = true := h
        rw [Bool.or_eq_true, Bool.or_eq_true, decide_eq_true_iff, decide_eq_true_iff,
          decide_eq_true_iff, or_assoc] at h
        exact h.resolve_left (not_not_intro hat)
      | .error err => trivial
    | _ => trivial

def attributedJudge (cfg : Config) : System.Judge (attributed cfg) where
  may _ _ := true
  ok s e := owns cfg s e.exch
  may_iff _ _ _ := trivial
  ok_iff _ _ h := attributed_of_owns h

end Example

open UplinkMoves.Example Example in
/-- With one warm spare the promoted spare reports its own session. -/
theorem session_of_active_promoted :
    ∃ s, ((uplinks urls 3).lts (attributed urls)).Reachable s ∧ s.mem.activeUrl = some "wss://b" ∧
      s.mem.sessionInfo = some ⟨"1", "relay", "body"⟩ ∧ SessionOfActive s.mem := by
  obtain ⟨s, hr, hs⟩ :=
    System.reachable_of_play (S := uplinks urls 3) (attributedJudge urls) (fun _ _ => smooth 0)
    [.call .connect, .go 0 19, .call (.connState 0), .go 1 1] (m := .new)
    (P := fun s => s.mem.activeUrl = some "wss://b" &&
    s.mem.sessionInfo = some ⟨"1", "relay", "body"⟩) rfl (by decide +kernel)
  rw [Bool.and_eq_true, decide_eq_true_iff, decide_eq_true_iff] at hs
  exact ⟨s, hr, hs.1, hs.2, session_of_active urls 3 s hr⟩

open UplinkMoves.Example Example in
/-- The active uplink is lost: the first spare is promoted, with the session of
the second. -/
theorem spare_reports_other :
    ∃ s, ((uplinks three 3).lts anyUse).Reachable s ∧ s.mem.activeUrl = some "wss://b" ∧
      s.mem.sessionInfo = some ⟨"2", "relay", "body"⟩ ∧
      sessionOf s.mem "wss://b" = some ⟨"1", "relay", "body"⟩ ∧ ¬ SessionOfActive s.mem := by
  obtain ⟨s, hr, hs⟩ :=
    System.reachable_of_play (S := uplinks three 3) anyJudge (fun _ _ => smooth 0)
    [.call .connect, .go 0 25, .call (.connState 0), .go 1 1] (m := .new)
    (P := fun s => s.mem.activeUrl = some "wss://b" &&
    s.mem.sessionInfo = some ⟨"2", "relay", "body"⟩ &&
      sessionOf s.mem "wss://b" = some ⟨"1", "relay", "body"⟩) rfl (by decide +kernel)
  rw [Bool.and_eq_true, Bool.and_eq_true, decide_eq_true_iff, decide_eq_true_iff,
    decide_eq_true_iff] at hs
  obtain ⟨⟨hactive, hinfo⟩, hsession⟩ := hs
  refine ⟨s, hr, hactive, hinfo, hsession, fun h => ?_⟩
  obtain ⟨u, hu, hx⟩ := h _ hinfo
  cases hactive.symm.trans hu
  exact absurd (hsession.symm.trans hx) (by decide)

end RezSdk.L4.UplinkSessions
