import Mathlib.Algebra.Ring.Nat
import RezSdk.L4Runs.UplinkGuards

/-!
# One handshake at a time

A connect attempt, a reconnect attempt and the upkeep of the spares are each
joined by a second caller (`UplinkGuards`), but know nothing of one another, and
a request that tries all uplinks connects outside of all three.

* `handshakes_exclusive`: if a handshake begins, and connections are closed for
  a new attempt, only while no call of another routine shakes hands, then at
  most one authentication is in progress, at most one `connect` on each
  transport, and a transport is closed in the middle of its handshake only by a
  call of `close`.
* `handshakes_overlap`: a request that tries all uplinks while a connect attempt
  is under way.
-/
namespace RezSdk.L4.UplinkHandshakes

open RezSdk.L1 RezSdk.L3.Uplinks RezSdk.L4.UplinkCalls RezSdk.L4.UplinkMoves RezSdk.L4.UplinkGuards

/-! ## The property -/

/-- A call of `connect` or `authenticate` is in progress on the transport. -/
def Handshaking (s : UplinkPool) (tr : Nat) : Prop :=
  ∃ x, s.transports[tr]? = some x ∧ (x.connects ≠ 0 ∨ x.auths ≠ 0)

/-- The transport that a stretch closes. -/
def hangs (s : UplinkPool) : Stretch → Option Nat
  | .hangUp tr => tr
  | .close => (Core.of s).entries.head?
  | .restoreClear => (Core.of s).entries.head?
  | .clientDisconnect => if s.client.connected then (Core.of s).entries.head? else none
  | .clientStop => if s.client.stopPromise.isNone then (Core.of s).entries.head? else none
  | l => if begins s l then (Core.of s).entries.head? else none

/-- A call of `close`, which the client's `disconnect` and `stop` make too. -/
def IsClose (x : Exch) : Prop :=
  ∃ l g r, x = ⟨.run l g, r⟩ ∧ (l = .close ∨ l = .clientDisconnect ∨ l = .clientStop)

structure Exclusive (s : UplinkState) : Prop where
  authenticate : (s.mem.transports.map Transport.auths).sum ≤ 1
  connect : ∀ t ∈ s.mem.transports, t.connects ≤ 1
  /-- whoever closes a transport in the middle of its handshake has called `close` -/
  closed : ∀ (newer : List UplinkEvent) e older, s.log = newer ++ e :: older →
    ∀ l g i m tr, e.exch = ⟨.run l g, (i, m)⟩ → hangs m l = some tr →
    Handshaking m tr → ∃ e' ∈ e :: older, e'.tid = e.tid ∧ IsClose e'.exch

/-- A stretch that begins a handshake, or closes the connections for a new
attempt. -/
def Intrudes (s : UplinkPool) (i : Input) : Stretch → Prop
  | .begin url => ∃ tr, (s.begin i url).1 = .ok (some tr)
  | .restoreClear => True
  | l => begins s l = true

/-- Both calls are in a connect attempt, or in the upkeep of the spares that the
pool knows of. -/
inductive SameRoutine (s : UplinkPool) (w w' : Place) : Prop
  | attempt : w.connecting ≠ none → w'.connecting ≠ none → SameRoutine s w w'
  | upkeep {p : Nat} : s.spareEnsurePromise = some p → w.sparing = some p → w'.sparing = some p →
    SameRoutine s w w'

/-- The call at `w` begins what a call at `w'`, which shakes hands, is in already. -/
def Repeats (s : UplinkPool) (w w' : Place) : Stretch → Prop
  | .begin _ => SameRoutine s w w'
  | .restoreClear => False
  | _ => w'.connecting ≠ none

/-- It does so only while no call of another routine shakes hands. -/
def oneHandshake (cfg : Config) : UplinkRules where
  init s := s = .new
  may _ _ := True
  ok s e := ∀ l g i m, e.exch = ⟨.run l g, (i, m)⟩ → Intrudes m i l →
    ∀ t w', place cfg s t = some w' → w'.shaking ≠ none →
      ∃ w, place cfg s e.tid = some w ∧ Repeats m w w' l

/-- The guards leave no second call in a routine: then no call shakes hands at all. -/
theorem unshaken_of_repeats {cfg : Config} {s : UplinkPool} {P : Nat → Option Place} {t : Nat}
    {w : Place} {l : Stretch} {i : Input} (hg : OneOfEach s P) (hw : P t = some w)
    (hl : Legal cfg w l) (hi : Intrudes s i l)
    (hok : ∀ t' w', P t' = some w' → w'.shaking ≠ none → ∃ w, P t = some w ∧ Repeats s w w' l) :
    ∀ t' w', P t' = some w' → w'.shaking = none := by
  intro t' w' hw'
  by_contra hne
  obtain ⟨v, hv, hrep⟩ := hok t' w' hw' hne
  cases hw.symm.trans hv
  have hnew : begins s l = true → w'.connecting ≠ none → False := fun hbegins hconnecting =>
    hg.attempt.promise t' w' hw' (hg.attempt.inConnect t' w' hw' hconnecting)
      (promise_of_begins hbegins)
  cases l with
  | begin url =>
    -- the one call of the routine is this one, and it shakes no hands
    have hself : t = t' := by
      cases hrep with
      | attempt hmine hother =>
        exact hg.attempt.one t t' w w' hw hw' (hg.attempt.inConnect t w hw hmine)
          (hg.attempt.inConnect t' w' hw' hother)
      | upkeep _ hmine hother => exact hg.upkeep.one t t' w w' _ hw hw' hmine hother
    subst hself
    cases hw.symm.trans hw'
    exact hne hl.1
  | restoreClear => exact hrep
  | _ => exact hnew hi hrep

/-! ## The invariant -/

structure Shaking (m : Core) (P : Nat → Option Place) : Prop where
  one : ∀ t t' w w', P t = some w → P t' = some w' → w.shaking ≠ none → w'.shaking ≠ none → t = t'
  connects : ∀ tr x, m.transports[tr]? = some x → x.connects ≠ 0 →
    x.connects = 1 ∧ ∃ t w, P t = some w ∧ w.shaking = some (tr, .connecting)
  auths : ∀ tr x, m.transports[tr]? = some x → x.auths ≠ 0 → x.auths = 1 ∧ ∃ t w, P t = some w ∧
    w.shaking = some (tr, .authenticating)
  valid : ∀ p ∈ m.conns, p.2.transport < m.transports.length
  /-- what is closed for a new attempt is in no handshake and will be in none -/
  drained : ∀ t w tr, P t = some w → (tr, false) ∈ w.draining →
    tr < m.transports.length ∧ (∀ p ∈ m.conns, p.2.transport ≠ tr) ∧
    ∀ t' w' st, P t' = some w' → w'.shaking ≠ some (tr, st)

/-- The same is in progress on the same transports. -/
structure SameWork (m m' : Core) : Prop where
  length : m'.transports.length = m.transports.length
  same : ∀ (tr : Nat) (x' : Transport), m'.transports[tr]? = some x' →
    ∃ x : Transport, m.transports[tr]? = some x ∧ x'.connects = x.connects ∧ x'.auths = x.auths

/-- The shaking calls may become fewer, but not in the middle of a `connect` or
an authentication. -/
structure Fewer (P P' : Nat → Option Place) : Prop where
  old : ∀ t v x, P' t = some v → v.shaking = some x → ∃ v₀, P t = some v₀ ∧ v₀.shaking = some x
  kept : ∀ t v tr st, P t = some v → v.shaking = some (tr, st) →
    st = .connecting ∨ st = .authenticating →
    ∃ v', P' t = some v' ∧ v'.shaking = some (tr, st)

section

variable {m m' : Core} {P P' : Nat → Option Place} {t : Nat} {w w' : Place}

theorem SameWork.of_eq (h : m'.transports = m.transports) : SameWork m m' :=
  ⟨congrArg List.length h, fun _ x' hx' => ⟨x', h ▸ hx', rfl, rfl⟩⟩

theorem sameWork_onTransport (m : Core) (tr : Nat) {f : Transport → Transport}
    (hf : ∀ x, (f x).connects = x.connects ∧ (f x).auths = x.auths) :
    SameWork m (m.onTransport tr f) := by
  refine ⟨List.length_modify .., fun tr' x' hx' => ?_⟩
  unfold Core.onTransport at hx'
  dsimp only at hx'
  rw [List.getElem?_modify] at hx'
  obtain ⟨x, hx, rfl⟩ := Option.map_eq_some_iff.mp hx'
  refine ⟨x, hx, ?_⟩
  split
  · exact hf x
  · exact ⟨rfl, rfl⟩

theorem sameWork_hangUp (m : Core) (tr : Option Nat) : SameWork m (m.hangUp tr) := by
  cases tr with
  | none => exact .of_eq rfl
  | some tr =>
    exact sameWork_onTransport m tr (f := fun t => { t with subscribed := false, opened := false })
      fun _ => ⟨rfl, rfl⟩

theorem fewer_turn (h : Turn P P' t w w') (hold : ∀ x, w'.shaking = some x → w.shaking = some x)
    (hkept : ∀ tr st, w.shaking = some (tr, st) → st = .connecting ∨ st = .authenticating →
        w'.shaking = some (tr, st)) : Fewer P P' := by
  refine ⟨fun u v x hv hx => ?_, fun u v tr st hv hx hst => ?_⟩
  · obtain ⟨rfl, rfl⟩ | ⟨-, hv⟩ := h.cases hv
    · exact ⟨w, h.before, hold x hx⟩
    · exact ⟨v, hv, hx⟩
  · obtain ⟨rfl, rfl⟩ | ⟨-, hv⟩ := h.cases_before hv
    · exact ⟨w', h.after, hkept tr st hx hst⟩
    · exact ⟨v, hv, hx⟩

theorem fewer_same (h : Turn P P' t w w') (hs : w'.shaking = w.shaking) : Fewer P P' :=
  fewer_turn h (fun _ hx => hs.symm.trans hx) fun _ _ hx _ => hs.trans hx

theorem fewer_joined (h : Joined P P') : Fewer P P' := by
  refine ⟨fun u v x hv hx => ?_, fun u v tr st hv hx _ => ⟨v, h.kept u v hv, hx⟩⟩
  rcases h.fresh u v hv with hv | rfl
  · exact ⟨v, hv, hx⟩
  · cases hx

/-- Nothing that is in progress has changed. -/
theorem Shaking.calm (h : Shaking m P) (hwork : SameWork m m')
    (hconns : ∀ p' ∈ m'.conns, ∃ p ∈ m.conns, p'.2.transport = p.2.transport) (hplaces : Fewer P P')
    (hdrain : ∀ t v tr, P' t = some v → (tr, false) ∈ v.draining →
        (∃ v₀, P t = some v₀ ∧ (tr, false) ∈ v₀.draining) ∨
        tr < m.transports.length ∧ m'.conns = [] ∧ ∀ t v, P t = some v → v.shaking = none) :
    Shaking m' P' where
  one u u' v v' hv hv' hx hx' := by
    obtain ⟨x, hx⟩ := Option.ne_none_iff_exists'.mp hx
    obtain ⟨x', hx'⟩ := Option.ne_none_iff_exists'.mp hx'
    obtain ⟨v₀, hv₀, hs⟩ := hplaces.old u v x hv hx
    obtain ⟨v₁, hv₁, hs'⟩ := hplaces.old u' v' x' hv' hx'
    exact h.one u u' v₀ v₁ hv₀ hv₁ (by rw [hs]; nofun) (by rw [hs']; nofun)
  connects tr x' hx' hne := by
    obtain ⟨x, hx, hc, -⟩ := hwork.same tr x' hx'
    obtain ⟨hone, u, v, hv, hs⟩ := h.connects tr x hx (hc ▸ hne)
    exact ⟨hc.trans hone, u, hplaces.kept u v tr _ hv hs (.inl rfl)⟩
  auths tr x' hx' hne := by
    obtain ⟨x, hx, -, ha⟩ := hwork.same tr x' hx'
    obtain ⟨hone, u, v, hv, hs⟩ := h.auths tr x hx (ha ▸ hne)
    exact ⟨ha.trans hone, u, hplaces.kept u v tr _ hv hs (.inr rfl)⟩
  valid p' hp' := by
    obtain ⟨p, hp, htr⟩ := hconns p' hp'
    rw [htr, hwork.length]
    exact h.valid p hp
  drained u v tr hv hmem := by
    rw [hwork.length]
    rcases hdrain u v tr hv hmem with ⟨v₀, hv₀, hmem₀⟩ | ⟨hlt, hempty, hnone⟩
    · obtain ⟨hlt, hgone, hquiet⟩ := h.drained u v₀ tr hv₀ hmem₀
      refine ⟨hlt, fun p' hp' => ?_, fun u' v' st hv' hs => ?_⟩
      · obtain ⟨p, hp, htr⟩ := hconns p' hp'
        rw [htr]
        exact hgone p hp
      · obtain ⟨v₁, hv₁, hs₁⟩ := hplaces.old u' v' _ hv' hs
        exact hquiet u' v₁ st hv₁ hs₁
    · refine ⟨hlt, fun p' hp' => ?_, fun u' v' st hv' hs => ?_⟩
      · rw [hempty] at hp'
        exact absurd hp' List.not_mem_nil
      · obtain ⟨v₁, hv₁, hs₁⟩ := hplaces.old u' v' _ hv' hs
        cases (hnone u' v₁ hv₁).symm.trans hs₁

theorem drain_same (h : Turn P P' t w w') (hd : ∀ x ∈ w'.draining, x ∈ w.draining) {u tr : Nat}
    {v : Place} (hv : P' u = some v) (hmem : (tr, false) ∈ v.draining) :
    ∃ v₀, P u = some v₀ ∧ (tr, false) ∈ v₀.draining := by
  obtain ⟨rfl, rfl⟩ | ⟨-, hv⟩ := h.cases hv
  · exact ⟨w, h.before, hd _ hmem⟩
  · exact ⟨v, hv, hmem⟩

theorem Shaking.joined (h : Shaking m P) (hj : Joined P P') : Shaking m P' := by
  refine h.calm (.of_eq rfl) (fun p hp => ⟨p, hp, rfl⟩) (fewer_joined hj) fun u v tr hv hmem =>
    .inl ?_
  rcases hj.fresh u v hv with hv | rfl
  · exact ⟨v, hv, hmem⟩
  · exact absurd hmem List.not_mem_nil

/-- With no call shaking hands, nothing is in progress. -/
theorem Shaking.quiet (h : Shaking m P) (hnone : ∀ t v, P t = some v → v.shaking = none) {tr : Nat}
    {x : Transport} (hx : m.transports[tr]? = some x) : x.connects = 0 ∧ x.auths = 0 := by
  constructor
  · by_contra hne
    obtain ⟨-, u, v, hv, hs⟩ := h.connects tr x hx hne
    cases (hnone u v hv).symm.trans hs
  · by_contra hne
    obtain ⟨-, u, v, hv, hs⟩ := h.auths tr x hx hne
    cases (hnone u v hv).symm.trans hs

/-- A handshake begins on a transport that is in use, or on a new one. -/
theorem Shaking.begin (h : Shaking m P) (hnone : ∀ t v, P t = some v → v.shaking = none)
    (hturn : Turn P P' t w w') {tr : Nat} (hs : w'.shaking = some (tr, .connecting))
    (hd : w'.draining = w.draining) (hlen : m.transports.length ≤ m'.transports.length)
    (htr : ∃ x, m'.transports[tr]? = some x ∧ x.connects = 1 ∧ x.auths = 0)
    (hothers : ∀ tr', tr ≠ tr' → m'.transports[tr']? = m.transports[tr']?)
    (hconns : ∀ p' ∈ m'.conns, p'.2.transport = tr ∨ ∃ p ∈ m.conns, p'.2.transport = p.2.transport)
    (hused : (∃ p ∈ m.conns, p.2.transport = tr) ∨ m.transports.length ≤ tr) : Shaking m' P' := by
  obtain ⟨x, hx, hone, hzero⟩ := htr
  have hlt : tr < m'.transports.length := (List.getElem?_eq_some_iff.mp hx).1
  have hmine : ∀ u v, P' u = some v → v.shaking ≠ none → u = t ∧ v = w' := by
    intro u v hv hne
    obtain hsame | ⟨-, hv⟩ := hturn.cases hv
    · exact hsame
    · exact absurd (hnone u v hv) hne
  have hquiet : ∀ tr' x', tr ≠ tr' → m'.transports[tr']? = some x' →
      x'.connects = 0 ∧ x'.auths = 0 := by
    intro tr' x' hne hx'
    rw [hothers tr' hne] at hx'
    exact h.quiet hnone hx'
  refine ⟨fun u u' v v' hv hv' hne hne' => ?_, fun tr' x' hx' hne => ?_, fun tr' x' hx' hne => ?_,
    fun p' hp' => ?_, fun u v tr' hv hmem => ?_⟩
  · exact (hmine u v hv hne).1.trans (hmine u' v' hv' hne').1.symm
  · by_cases htr' : tr = tr'
    · subst htr'
      cases hx.symm.trans hx'
      exact ⟨hone, t, w', hturn.after, hs⟩
    · exact absurd (hquiet tr' x' htr' hx').1 hne
  · by_cases htr' : tr = tr'
    · subst htr'
      cases hx.symm.trans hx'
      exact absurd hzero hne
    · exact absurd (hquiet tr' x' htr' hx').2 hne
  · rcases hconns p' hp' with htr' | ⟨p, hp, htr'⟩
    · rw [htr']
      exact hlt
    · rw [htr']
      exact Nat.lt_of_lt_of_le (h.valid p hp) hlen
  · obtain ⟨v₀, hv₀, hmem₀⟩ := drain_same hturn (fun x hx => hd ▸ hx) hv hmem
    obtain ⟨hlt', hgone, -⟩ := h.drained u v₀ tr' hv₀ hmem₀
    have hne : tr ≠ tr' := by
      rcases hused with ⟨p, hp, htr'⟩ | hge
      · rw [← htr']
        exact hgone p hp
      · omega
    refine ⟨Nat.lt_of_lt_of_le hlt' hlen, fun p' hp' => ?_, fun u' v' st hv' hs' => ?_⟩
    · rcases hconns p' hp' with htr' | ⟨p, hp, htr'⟩
      · rw [htr']
        exact hne
      · rw [htr']
        exact hgone p hp
    · obtain ⟨rfl, rfl⟩ := hmine u' v' hv' (by rw [hs']; nofun)
      cases hs.symm.trans hs'
      exact hne rfl

/-- The handshake of the one shaking call moves on. -/
theorem Shaking.moves (h : Shaking m P) (hturn : Turn P P' t w w') {tr : Nat} {st : Stage}
    (hs : w.shaking = some (tr, st)) (hs' : w'.shaking = none ∨ ∃ st', w'.shaking = some (tr, st'))
    (hd : w'.draining = w.draining) (hconns : m'.conns = m.conns)
    (hlen : m'.transports.length = m.transports.length)
    (htr : ∀ x', m'.transports[tr]? = some x' →
        (x'.connects ≠ 0 → x'.connects = 1 ∧ w'.shaking = some (tr, .connecting)) ∧
        (x'.auths ≠ 0 → x'.auths = 1 ∧ w'.shaking = some (tr, .authenticating)))
    (hothers : ∀ tr', tr ≠ tr' → m'.transports[tr']? = m.transports[tr']?) : Shaking m' P' := by
  have hmine : ∀ u v, P u = some v → v.shaking ≠ none → u = t ∧ v = w := by
    intro u v hv hne
    have hu := h.one u t v w hv hturn.before hne (by rw [hs]; nofun)
    subst hu
    exact ⟨rfl, Option.some.inj (hv.symm.trans hturn.before)⟩
  have hmine' : ∀ u v, P' u = some v → v.shaking ≠ none → u = t ∧ v = w' := by
    intro u v hv hne
    obtain hsame | ⟨hu, hv⟩ := hturn.cases hv
    · exact hsame
    · exact absurd (hmine u v hv hne).1.symm hu
  have hquiet : ∀ tr' x', tr ≠ tr' → m'.transports[tr']? = some x' →
      x'.connects = 0 ∧ x'.auths = 0 := by
    intro tr' x' hne hx'
    rw [hothers tr' hne] at hx'
    constructor
    · by_contra hc
      obtain ⟨-, u, v, hv, hs'⟩ := h.connects tr' x' hx' hc
      obtain ⟨rfl, rfl⟩ := hmine u v hv (by rw [hs']; nofun)
      cases hs.symm.trans hs'
      exact hne rfl
    · by_contra hc
      obtain ⟨-, u, v, hv, hs'⟩ := h.auths tr' x' hx' hc
      obtain ⟨rfl, rfl⟩ := hmine u v hv (by rw [hs']; nofun)
      cases hs.symm.trans hs'
      exact hne rfl
  refine ⟨fun u u' v v' hv hv' hne hne' => ?_, fun tr' x' hx' hne => ?_, fun tr' x' hx' hne => ?_,
    fun p' hp' => ?_, fun u v tr' hv hmem => ?_⟩
  · exact (hmine' u v hv hne).1.trans (hmine' u' v' hv' hne').1.symm
  · by_cases htr' : tr = tr'
    · subst htr'
      obtain ⟨hone, hst⟩ := (htr x' hx').1 hne
      exact ⟨hone, t, w', hturn.after, hst⟩
    · exact absurd (hquiet tr' x' htr' hx').1 hne
  · by_cases htr' : tr = tr'
    · subst htr'
      obtain ⟨hone, hst⟩ := (htr x' hx').2 hne
      exact ⟨hone, t, w', hturn.after, hst⟩
    · exact absurd (hquiet tr' x' htr' hx').2 hne
  · rw [hconns] at hp'
    rw [hlen]
    exact h.valid p' hp'
  · obtain ⟨v₀, hv₀, hmem₀⟩ := drain_same hturn (fun x hx => hd ▸ hx) hv hmem
    obtain ⟨hlt', hgone, hfree⟩ := h.drained u v₀ tr' hv₀ hmem₀
    rw [hconns, hlen]
    refine ⟨hlt', hgone, fun u' v' st' hv' hst => ?_⟩
    obtain ⟨rfl, rfl⟩ := hmine' u' v' hv' (by rw [hst]; nofun)
    rcases hs' with hnone | ⟨st'', hsome⟩
    · cases hnone.symm.trans hst
    · cases hsome.symm.trans hst
      exact hfree u' w st hturn.before hs

/-- The call goes on, in no other handshake than before. -/
theorem Shaking.same (h : Shaking m P) (hturn : Turn P P' t w w') (hs : w'.shaking = w.shaking)
    (hd : w'.draining = w.draining) (hwork : SameWork m m')
    (hconns : ∀ p' ∈ m'.conns, ∃ p ∈ m.conns, p'.2.transport = p.2.transport) : Shaking m' P' :=
  h.calm hwork hconns (fewer_same hturn hs) fun _ _ _ hv hmem =>
    .inl (drain_same hturn (fun _ hx => hd ▸ hx) hv hmem)

/-- The connections are closed for a new attempt. -/
theorem Shaking.clear (h : Shaking m P) (hnone : ∀ t v, P t = some v → v.shaking = none)
    (hturn : Turn P P' t w w') (hs : w'.shaking = w.shaking)
    (hd : w'.draining = m.entries.tail.map (·, false)) (hwork : SameWork m m')
    (hempty : m'.conns = []) : Shaking m' P' := by
  refine h.calm hwork (fun p hp => ?_) (fewer_same hturn hs) fun u v tr hv hmem => ?_
  · rw [hempty] at hp
    exact absurd hp List.not_mem_nil
  · obtain ⟨rfl, rfl⟩ | ⟨-, hv⟩ := hturn.cases hv
    · rw [hd] at hmem
      obtain ⟨tr', htr', heq⟩ := List.mem_map.mp hmem
      cases heq
      obtain ⟨p, hp, rfl⟩ := List.mem_map.mp (List.mem_of_mem_tail htr')
      exact .inr ⟨h.valid p hp, hempty, hnone⟩
    · exact .inl ⟨v, hv, hmem⟩

theorem intrudes_of_begins {s : UplinkPool} {i : Input} {l : Stretch} (h : begins s l = true) :
    Intrudes s i l := by
  cases l with
  | begin url => cases h
  | restoreClear => trivial
  | _ => exact h

theorem conns_hangUp (m : Core) (tr : Option Nat) : (m.hangUp tr).conns = m.conns := by
  cases tr <;> rfl

theorem conns_clear (m : Core) : m.clear.conns = [] := conns_hangUp _ _

theorem sameWork_clear {m m₁ : Core} (hm : m₁.transports = m.transports) : SameWork m m₁.clear := by
  have h := sameWork_hangUp { m₁ with
    conns := []
    activeUrl := none
    sessionInfo := none
    ready := false
    promotePromise := none } m₁.entries.head?
  refine ⟨h.length.trans (congrArg List.length hm), fun tr x' hx' => ?_⟩
  obtain ⟨x, hx, heq⟩ := h.same tr x' hx'
  exact ⟨x, hm ▸ hx, heq⟩

end

section

variable {cfg : Config} {i : Input} {s : UplinkPool} {P P' : Nat → Option Place}
  {t : Nat} {w w' : Place}

/-- In a handshake, what is in progress on its transport is what its stage says. -/
theorem Shaking.stage {m : Core} (h : Shaking m P) (hw : P t = some w) {tr : Nat} {st : Stage}
    (hs : w.shaking = some (tr, st)) {x : Transport} (hx : m.transports[tr]? = some x) :
    (st ≠ .connecting → x.connects = 0) ∧ (st ≠ .authenticating → x.auths = 0) := by
  have hmine : ∀ u v, P u = some v → v.shaking ≠ none → v = w := by
    intro u v hv hne
    have hu := h.one u t v w hv hw hne (by rw [hs]; nofun)
    subst hu
    exact Option.some.inj (hv.symm.trans hw)
  constructor
  · intro hst
    by_contra hne
    obtain ⟨-, u, v, hv, hs'⟩ := h.connects tr x hx hne
    cases hmine u v hv (by rw [hs']; nofun)
    cases hs.symm.trans hs'
    exact hst rfl
  · intro hst
    by_contra hne
    obtain ⟨-, u, v, hv, hs'⟩ := h.auths tr x hx hne
    cases hmine u v hv (by rw [hs']; nofun)
    cases hs.symm.trans hs'
    exact hst rfl

theorem getElem?_onTransport {m : Core} {tr : Nat} {f : Transport → Transport} {x' : Transport}
    (h : (m.onTransport tr f).transports[tr]? = some x') :
    ∃ x, m.transports[tr]? = some x ∧ x' = f x := by
  have hat : (m.transports.modify tr f)[tr]? = some x' := h
  rw [List.getElem?_modify_eq] at hat
  obtain ⟨x, hx, rfl⟩ := Option.map_eq_some_iff.mp hat
  exact ⟨x, hx, rfl⟩

theorem shaking_move {l : Stretch} {m' : Core} (h : Move cfg i s w l m' w') (hl : Legal cfg w l)
    (hs : Shaking (.of s) P) (hturn : Turn P P' t w w')
    (hnone : Intrudes s i l → ∀ t v, P t = some v → v.shaking = none) : Shaking m' P' := by
  have hsame : ∀ p' ∈ s.conns, ∃ p ∈ s.conns, p'.2.transport = p.2.transport :=
    fun p hp => ⟨p, hp, rfl⟩
  cases h with
  | stay _ _ keeps => exact hs.same hturn keeps.shaking keeps.draining (.of_eq rfl) hsame
  | disarm _ _ kick why keeps => exact hs.same hturn keeps.shaking keeps.draining (.of_eq rfl) hsame
  | enter _ _ p starts begun =>
    exact hs.clear (hnone (intrudes_of_begins starts)) hturn begun.shaking begun.draining
      (sameWork_clear rfl) (conns_clear _)
  | restoreClear =>
    exact hs.clear (hnone trivial) hturn rfl rfl (sameWork_clear rfl) (conns_clear _)
  | close _ leaving closing =>
    refine hs.calm (sameWork_clear rfl) (fun p hp => ?_)
      (fewer_same hturn rfl) fun u v tr hv hmem => ?_
    · rw [conns_clear] at hp
      exact absurd hp List.not_mem_nil
    · obtain ⟨rfl, rfl⟩ | ⟨-, hv⟩ := hturn.cases hv
      · obtain ⟨tr', -, heq⟩ := List.mem_map.mp hmem
        cases heq
      · exact .inl ⟨v, hv, hmem⟩
  | hangUp tr =>
    refine hs.calm (sameWork_hangUp _ tr) (fun p hp => ⟨p, conns_hangUp (.of s) tr ▸ hp, rfl⟩)
      (fewer_same hturn rfl) fun u v tr' hv hmem => ?_
    exact .inl (drain_same hturn (fun x hx => List.mem_of_mem_tail hx) hv hmem)
  | reuse url c conn ready =>
    have hfree := hnone ⟨c.transport, by rw [UplinkPool.begin, conn]; dsimp only; rw [ready]; rfl⟩
    have hused : (url, c) ∈ s.conns := OMap.mem_of_get conn
    have hlt := hs.valid _ hused
    obtain ⟨x, hx⟩ : ∃ x, (Core.of s).transports[c.transport]? = some x :=
      ⟨_, List.getElem?_eq_getElem hlt⟩
    obtain ⟨hc, ha⟩ := hs.quiet hfree hx
    have hat : ((Core.of s).transports.modify c.transport fun t =>
        { t with connects := t.connects + 1 })[c.transport]? =
        some { x with connects := x.connects + 1 } := by
      rw [List.getElem?_modify_eq, hx]
      rfl
    refine hs.begin hfree hturn rfl rfl (Nat.le_of_eq (List.length_modify ..).symm) ⟨_,
      hat, ?_, ha⟩ (fun tr' hne => ?_)
      (fun p hp => .inr ⟨p, hp, rfl⟩) (.inl ⟨_, hused, rfl⟩)
    · change x.connects + 1 = 1
      rw [hc]
    · exact List.getElem?_modify_ne _ _ hne
  | create url conn made =>
    have hfree := hnone ⟨s.transports.length, by rw [UplinkPool.begin, conn]; dsimp only; rw [made]⟩
    refine hs.begin hfree hturn rfl rfl ?_ ⟨⟨url, false, true, none, 1, 0⟩,
      List.getElem?_concat_length, rfl, rfl⟩ (fun tr' hne => ?_)
      (fun p hp => ?_) (.inr (Nat.le_refl _))
    · change s.transports.length ≤ (s.transports ++ [_]).length
      rw [List.length_append]
      omega
    · change (s.transports ++ [_])[tr']? = s.transports[tr']?
      rcases Nat.lt_or_ge tr' s.transports.length with hlt | hge
      · exact List.getElem?_append_left hlt
      · rw [List.getElem?_eq_none hge, List.getElem?_eq_none]
        rw [List.length_append, List.length_singleton]
        omega
    · rcases OMap.mem_set hp with rfl | hp
      · exact .inl rfl
      · exact .inr ⟨p, hp, rfl⟩
  | authStart tr =>
    have hl : w.shaking = some (tr, .connected) := hl
    refine hs.moves hturn hl (.inr ⟨_, rfl⟩) rfl rfl (List.length_modify ..)
      (fun x' hx' => ?_) fun tr' hne => List.getElem?_modify_ne _ _ hne
    obtain ⟨x, hx, rfl⟩ := getElem?_onTransport hx'
    obtain ⟨hc, ha⟩ := hs.stage hturn.before hl hx
    refine ⟨fun hne => absurd (hc (by nofun)) hne, fun _ => ⟨?_, rfl⟩⟩
    change x.auths + 1 = 1
    rw [ha (by nofun)]
  | markReady url =>
    obtain ⟨tr, hl⟩ := hl
    have hl : w.shaking = some (tr, .authenticated) := hl
    have hfewer : Fewer P P' := by
      refine fewer_turn hturn (fun x hx => by cases hx) fun tr' st hx hst => ?_
      cases hl.symm.trans hx
      rcases hst with hst | hst <;> cases hst
    exact hs.calm (.of_eq rfl) (conns_mark (.of s) url _ _) hfewer fun u v tr' hv hmem =>
      .inl (drain_same hturn (fun x hx => hx) hv hmem)
  | spareFailed url => exact hs.same hturn rfl rfl (.of_eq rfl) (conns_mark (.of s) url _ _)
  | died tr x => exact hs.same hturn rfl rfl (.of_eq rfl) (conns_mark (.of s) x.url _ _)
  | join tr x => exact hs.same hturn rfl rfl (.of_eq rfl) (conns_mark (.of s) x.url _ _)
  | search tr x => exact hs.same hturn rfl rfl (.of_eq rfl) (conns_mark (.of s) x.url _ _)
  | failover tr x => exact hs.same hturn rfl rfl (.of_eq rfl) (conns_mark (.of s) x.url _ _)
  | retry _ _ failed =>
    rcases failed with ⟨-, rfl⟩ | ⟨-, rfl⟩
    · exact hs.same hturn rfl rfl (.of_eq rfl) hsame
    · exact hs.same hturn rfl rfl (.of_eq rfl) hsame
  | offline _ _ lost =>
    rcases lost with ⟨-, rfl⟩ | ⟨-, rfl⟩
    · exact hs.same hturn rfl rfl (.of_eq rfl) hsame
    · exact hs.same hturn rfl rfl (.of_eq rfl) hsame
  | _ => exact hs.same hturn rfl rfl (.of_eq rfl) hsame

theorem shaking_answer {o : Await} {r : o.Ans} (hmay : (monitor cfg).may w (.await o))
    (hs : Shaking (.of s) P) (hturn : Turn P P' t w ((monitor cfg).next w ⟨.await o, r⟩)) :
    Shaking (.of (outsideWorld.effect s o r)) P' := by
  have hsame : ∀ p' ∈ s.conns, ∃ p ∈ s.conns, p'.2.transport = p.2.transport :=
    fun p hp => ⟨p, hp, rfl⟩
  cases o with
  | connect tr =>
    have hst : w.shaking = some (tr, .connecting) := hmay
    -- the `connect` is over: nothing is in progress on its transport
    have hover : ∀ (b : Bool) (session : Option Session → Option Session) (w₁ : Place),
        ∀ x', ((Core.of s).onTransport tr fun x => { x with
          connects := x.connects - 1
          opened := b || x.opened
          session := session x.session }).transports[tr]? = some x' →
        (x'.connects ≠ 0 → x'.connects = 1 ∧ w₁.shaking = some (tr, .connecting)) ∧
          (x'.auths ≠ 0 → x'.auths = 1 ∧ w₁.shaking = some (tr, .authenticating)) := by
      intro b session w₁ x' hx'
      obtain ⟨x, hx, rfl⟩ := getElem?_onTransport hx'
      have ha := (hs.stage hturn.before hst hx).2 (by nofun)
      refine ⟨fun hne => absurd ?_ hne, fun hne => absurd ha hne⟩
      change x.connects - 1 = 0
      by_cases hc : x.connects = 0
      · omega
      · have := (hs.connects tr x hx hc).1
        omega
    match r with
    | .ok () =>
      exact hs.moves hturn hst (.inr ⟨_, rfl⟩) rfl rfl (List.length_modify ..)
        (hover true (fun _ => none) _) fun tr' hne => List.getElem?_modify_ne _ _ hne
    | .error err =>
      exact hs.moves hturn hst (.inl rfl) rfl rfl (List.length_modify ..)
        (hover false id _) fun tr' hne => List.getElem?_modify_ne _ _ hne
  | authenticate tr =>
    have hst : w.shaking = some (tr, .authenticating) := hmay
    have hover : ∀ (session : Option Session → Option Session) (w₁ : Place),
        ∀ x', ((Core.of s).onTransport tr fun x =>
        { x with auths := x.auths - 1, session := session x.session }).transports[tr]? = some x' →
        (x'.connects ≠ 0 → x'.connects = 1 ∧ w₁.shaking = some (tr, .connecting)) ∧
          (x'.auths ≠ 0 → x'.auths = 1 ∧ w₁.shaking = some (tr, .authenticating)) := by
      intro session w₁ x' hx'
      obtain ⟨x, hx, rfl⟩ := getElem?_onTransport hx'
      have hc := (hs.stage hturn.before hst hx).1 (by nofun)
      refine ⟨fun hne => absurd hc hne, fun hne => absurd ?_ hne⟩
      change x.auths - 1 = 0
      by_cases ha : x.auths = 0
      · omega
      · have := (hs.auths tr x hx ha).1
        omega
    match r with
    | .ok session =>
      exact hs.moves hturn hst (.inr ⟨_, rfl⟩) rfl rfl (List.length_modify ..)
        (hover (fun _ => some session) _) fun tr' hne => List.getElem?_modify_ne _ _ hne
    | .error err =>
      exact hs.moves hturn hst (.inl rfl) rfl rfl (List.length_modify ..)
        (hover id _) fun tr' hne => List.getElem?_modify_ne _ _ hne
  | joinPromotion p => exact hs.same hturn rfl rfl (.of_eq rfl) hsame
  | _ => exact hs.same hturn rfl rfl (.of_eq rfl) hsame

end

/-! ## Who closes -/

section

variable {cfg : Config} {rounds : Nat}

/-- Has something to close for `close`. -/
def Closing (w : Place) : Prop := ∃ x ∈ w.draining, x.2 = true

theorem closing_enter {w : Place} {e : UplinkPool.Entered} (h : Closing (w.enter e)) :
    Closing w := by
  cases e with
  | join p => exact h
  | run p entries =>
    obtain ⟨x, hx, hclose⟩ := h
    obtain ⟨tr, -, rfl⟩ := List.mem_map.mp hx
    cases hclose

theorem closing_kick {w : Place} {k : UplinkPool.Kick} (h : Closing (w.kick k)) : Closing w := by
  cases k with
  | attempt a e => exact closing_enter (w := { w with attempting := true }) h
  | _ => exact h

theorem closing_clientEnter {w : Place} {k : UplinkPool.ClientEntered}
    (h : Closing (w.clientEnter k)) : Closing w := by
  cases k with
  | connecting p e => exact closing_enter (w := { w with clienting := true }) h
  | _ => exact h

theorem closing_follow {w : Place} {i : Input} {s : UplinkPool} {l : Stretch}
    (h : Closing (follow cfg w i s l)) :
    Closing w ∨ l = .close ∨ l = .clientDisconnect ∨ l = .clientStop := by
  cases l with
  | connect => exact .inl (closing_enter h)
  | clientPool => exact .inl (closing_enter h)
  | connectNow => exact .inl (closing_kick h)
  | timer => exact .inl (closing_kick h)
  | clientConnect => exact .inl (closing_clientEnter h)
  | close => exact .inr (.inl rfl)
  | clientDisconnect => exact .inr (.inr (.inl rfl))
  | clientStop => exact .inr (.inr (.inr rfl))
  | restoreClear =>
    obtain ⟨x, hx, hclose⟩ := h
    obtain ⟨tr, -, rfl⟩ := List.mem_map.mp hx
    cases hclose
  | hangUp tr =>
    obtain ⟨x, hx, hclose⟩ := h
    exact .inl ⟨x, List.mem_of_mem_tail hx, hclose⟩
  | begin url =>
    unfold follow at h
    dsimp only at h
    split at h <;> exact .inl h
  | spareEnter =>
    unfold follow at h
    dsimp only at h
    split at h <;> exact .inl h
  | promoteFind =>
    unfold follow at h
    dsimp only at h
    split at h <;> exact .inl h
  | stateEvent tr =>
    have h : Closing (w.event (s.stateEvent cfg i tr).1) := h
    cases hevent : (s.stateEvent cfg i tr).1 <;> (rw [hevent] at h; exact .inl h)
  | _ => exact .inl h

theorem closing_next (w : Place) (x : Exch) (h : Closing ((monitor cfg).next w x)) :
    Closing w ∨ IsClose x := by
  obtain ⟨op, ans⟩ := x
  cases op with
  | run l g =>
    obtain ⟨i, m⟩ := ans
    rcases closing_follow (i := i) (s := m) h with h | h
    · exact .inl h
    · exact .inr ⟨l, g, _, rfl, h⟩
  | await o =>
    cases o with
    | connect tr =>
      match ans with
      | .ok () => exact .inl h
      | .error err => exact .inl h
    | authenticate tr =>
      match ans with
      | .ok session => exact .inl h
      | .error err => exact .inl h
    | _ => exact .inl h

/-- The one who closes a transport in the middle of its handshake. -/
theorem closes_hung {s s' : UplinkState} {e : UplinkEvent} {c : Call}
    {k : uplinkPool.Ans e.op → Proc uplinkPool (Except Failure Unit)} {w : Place}
    (hshaking : Shaking (.of s.mem) (place cfg s)) (hf : Pool.Fires (uplinks cfg rounds) s e c k s')
    (hw : place cfg s e.tid = some w) {l : Stretch} {i : Input}
    {g : Input → UplinkPool → UplinkPool} (hx : e.exch = ⟨.run l g, (i, s.mem)⟩)
    (hl : Legal cfg w l)
    (hok : Intrudes s.mem i l → ∀ t w, place cfg s t = some w → w.shaking = none) {tr : Nat}
    (hhang : hangs s.mem l = some tr) (hbusy : Handshaking s.mem tr) :
    ∃ e' ∈ e :: s.log, e'.tid = e.tid ∧ IsClose e'.exch := by
  obtain ⟨x, hat, hbusy⟩ := hbusy
  have hidle : ¬ ∀ t w, place cfg s t = some w → w.shaking = none := by
    intro hnone
    obtain ⟨hc, ha⟩ := hshaking.quiet hnone hat
    exact hbusy.elim (absurd hc) (absurd ha)
  have hbegins : begins s.mem l = true → ∃ e' ∈ e :: s.log, e'.tid = e.tid ∧ IsClose e'.exch :=
    fun hb => absurd (hok (intrudes_of_begins hb)) hidle
  have hother : (if begins s.mem l then (Core.of s.mem).entries.head? else none) = some tr →
      ∃ e' ∈ e :: s.log, e'.tid = e.tid ∧ IsClose e'.exch := by
    intro hhang
    cases hb : begins s.mem l with
    | true => exact hbegins hb
    | false =>
      rw [hb] at hhang
      cases hhang
  cases l with
  | close => exact ⟨e, .head _, rfl, _, _, _, hx, .inl rfl⟩
  | clientDisconnect => exact ⟨e, .head _, rfl, _, _, _, hx, .inr (.inl rfl)⟩
  | clientStop => exact ⟨e, .head _, rfl, _, _, _, hx, .inr (.inr rfl)⟩
  | restoreClear => exact absurd (hok trivial) hidle
  | hangUp tr' =>
    have hhead : some tr = w.draining.head?.map Prod.fst := hhang.symm.trans hl
    obtain ⟨⟨tr₁, b⟩, hdrain, heq⟩ := Option.map_eq_some_iff.mp hhead.symm
    have heq : tr₁ = tr := heq
    subst tr₁
    have hmem : (tr, b) ∈ w.draining := List.mem_of_head? hdrain
    cases b with
    | false =>
      -- closed for a new attempt: nothing is in progress on it
      obtain ⟨-, -, hfree⟩ := hshaking.drained e.tid w tr hw hmem
      rcases hbusy with hc | ha
      · obtain ⟨-, u, v, hv, hs⟩ := hshaking.connects tr x hat hc
        exact absurd hs (hfree u v _ hv)
      · obtain ⟨-, u, v, hv, hs⟩ := hshaking.auths tr x hat ha
        exact absurd hs (hfree u v _ hv)
    | true =>
      have hmon : w = Pool.mon (monitor cfg) idle e.tid s.log :=
        Option.some.inj (hw.symm.trans (System.view_fired hf))
      have hclosing : Closing (Pool.mon (monitor cfg) idle e.tid s.log) := hmon ▸ ⟨_, hmem, rfl⟩
      have hnot : ¬ Closing idle := fun ⟨_, hx, _⟩ => absurd hx List.not_mem_nil
      obtain ⟨e', he', htid, hclose⟩ := Pool.mon_event closing_next hnot hclosing
      exact ⟨e', .tail _ he', htid, hclose⟩
  | _ => exact hother hhang

end

/-! ## Every run -/

theorem sum_le_one {f : Transport → Nat} :
    ∀ {xs : List Transport}, (∀ (i : Nat) x, xs[i]? = some x → f x ≤ 1) →
      (∀ (i j : Nat) x y, xs[i]? = some x → xs[j]? = some y → f x ≠ 0 → f y ≠ 0 → i = j) →
      (xs.map f).sum ≤ 1
  | [], _, _ => Nat.zero_le 1
  | a :: xs, hle, hone => by
    rw [List.map_cons, List.sum_cons]
    by_cases ha : f a = 0
    · have hrest : (xs.map f).sum ≤ 1 := sum_le_one
          (fun i x hx => hle (i + 1) x hx) fun i j x y hx hy hfx hfy =>
        Nat.succ.inj (hone (i + 1) (j + 1) x y hx hy hfx hfy)
      omega
    · have hzero : (xs.map f).sum = 0 := by
        refine List.sum_eq_zero_iff_forall_eq_nat.mpr fun n hn => ?_
        obtain ⟨x, hx, rfl⟩ := List.mem_map.mp hn
        obtain ⟨i, hi⟩ := List.mem_iff_getElem?.mp hx
        by_contra hne
        cases hone 0 (i + 1) a x rfl hi ha hne
      have := hle 0 a rfl
      omega

/-- **Handshakes are exclusive**, in every run where none begins in the middle of
one of another routine. -/
theorem handshakes_exclusive (cfg : Config) (rounds : Nat) (s : UplinkState)
    (hr : ((uplinks cfg rounds).lts (oneHandshake cfg)).Reachable s) : Exclusive s := by
  have hinv : ((uplinks cfg rounds).lts (oneHandshake cfg)).Inductive fun s => Base cfg s ∧
      OneOfEach s.mem (place cfg s) ∧ Shaking (.of s.mem) (place cfg s) ∧
      ∀ (newer : List UplinkEvent) e older, s.log = newer ++ e :: older →
        ∀ l g i m tr, e.exch = ⟨.run l g, (i, m)⟩ → hangs m l = some tr →
        Handshaking m tr → ∃ e' ∈ e :: older, e'.tid = e.tid ∧ IsClose e'.exch := by
    refine System.inductive_of (fun m hm => ?_) (fun s c h _ =>
      ⟨h.1.spawn c, h.2.1.spawn h.1 c, h.2.2.1.joined (h.1.joined c),
      h.2.2.2⟩) fun s e c k s' h hf hok => ?_
    · subst hm
      have hnone : ∀ t v, place cfg ⟨.new, [], []⟩ t ≠ some v := fun t v hv => by
        rw [place, System.view_init] at hv
        cases hv
      refine ⟨.init, .init, ⟨fun t _ w _ hw => absurd hw (hnone t w), fun tr x hx => ?_,
        fun tr x hx => ?_, fun p hp => absurd hp List.not_mem_nil,
        fun t w tr hw => absurd hw (hnone t w)⟩, fun newer e older h => ?_⟩
      · cases hx
      · cases hx
      · cases newer <;> cases h
    · obtain ⟨hbase, hsingle, hshaking, hhung⟩ := h
      obtain ⟨w, hw, heff⟩ := hbase.effect hf
      refine ⟨hbase.fires hf, hsingle.fires hbase hf, ?_,
        fun newer e' older hlog l g i m tr hx hhang hbusy => ?_⟩
      · cases heff with
        | stretch l i exch legal mem next move =>
          exact shaking_move move legal hshaking (turn_fires hf hw next) fun hi =>
            unshaken_of_repeats hsingle hw legal hi (hok l _ i s.mem exch hi)
        | answer o r exch allows may mem next =>
          rw [mem]
          exact shaking_answer may hshaking (turn_fires hf hw next)
      · rw [hf.log] at hlog
        cases newer with
        | cons e₁ newer =>
          rw [List.cons_append, List.cons.injEq] at hlog
          exact hhung newer e' older hlog.2 l g i m tr hx hhang hbusy
        | nil =>
          rw [List.nil_append, List.cons.injEq] at hlog
          obtain ⟨rfl, rfl⟩ := hlog
          cases heff with
          | stretch l' i' exch legal mem next move =>
            cases hx.symm.trans exch
            exact closes_hung hshaking hf hw exch legal (fun hi =>
              unshaken_of_repeats hsingle hw legal hi (hok l _ i s.mem exch hi)) hhang hbusy
          | answer o r exch allows may mem next => cases hx.symm.trans exch
  obtain ⟨-, -, hshaking, hhung⟩ := hinv.reachable s hr
  refine ⟨sum_le_one (fun tr x hx => ?_) fun tr tr' x x' hx hx' hne hne' => ?_,
    fun x hx => ?_, hhung⟩
  · by_cases ha : x.auths = 0
    · omega
    · exact Nat.le_of_eq (hshaking.auths tr x hx ha).1
  · obtain ⟨-, u, v, hv, hs⟩ := hshaking.auths tr x hx hne
    obtain ⟨-, u', v', hv', hs'⟩ := hshaking.auths tr' x' hx' hne'
    cases hshaking.one u u' v v' hv hv' (by rw [hs]; exact fun h => by cases h)
      (by rw [hs']; exact fun h => by cases h)
    cases hv.symm.trans hv'
    cases hs.symm.trans hs'
    rfl
  · obtain ⟨tr, htr⟩ := List.mem_iff_getElem?.mp hx
    by_cases hc : x.connects = 0
    · omega
    · exact Nat.le_of_eq (hshaking.connects tr x htr hc).1

namespace Example

open UplinkMoves.Example

/-- No call shakes hands. -/
def unshaken (cfg : Config) (s : UplinkState) : Bool := allPlaces cfg s fun w => w.shaking = none

def intrudes (s : UplinkPool) (i : Input) : Stretch → Bool
  | .begin url => match (s.begin i url).1 with
    | .ok (some _) => true
    | _ => false
  | .restoreClear => true
  | l => begins s l

theorem intrudes_iff {s : UplinkPool} {i : Input} {l : Stretch} (h : Intrudes s i l) :
    intrudes s i l = true := by
  cases l with
  | begin url =>
    obtain ⟨tr, htr⟩ := h
    unfold intrudes
    dsimp only
    rw [htr]
  | restoreClear => rfl
  | _ => exact h

def oneHandshakeJudge (cfg : Config) : System.Judge (oneHandshake cfg) where
  may _ _ := true
  ok s e := match e.exch with
    | ⟨.run l _, (i, m)⟩ => !intrudes m i l || unshaken cfg s
    | _ => true
  may_iff _ _ _ := trivial
  ok_iff s e h l g i m hx hi := by
    rw [hx] at h
    have h : (!intrudes m i l || unshaken cfg s) = true := h
    rw [intrudes_iff hi, Bool.not_true, Bool.false_or] at h
    exact fun t w hw hne => absurd (of_decide_eq_true (allPlaces_iff h t w hw)) hne

end Example

open UplinkMoves.Example Example in
/-- The active uplink is lost, and the promotion connects a new spare. -/
theorem handshakes_exclusive_failover :
    ∃ s, ((uplinks urls 3).lts (oneHandshake urls)).Reachable s ∧ s.mem.activeUrl = some "wss://b" ∧
      (s.mem.transports.map Transport.auths).sum = 1 ∧ Exclusive s := by
  obtain ⟨s, hr, hs⟩ :=
    System.reachable_of_play (S := uplinks urls 3) (oneHandshakeJudge urls) (fun _ _ => smooth 0)
    [.call .connect, .go 0 19, .call (.connState 0), .go 1 6] (m := .new)
    (P := fun s => s.mem.activeUrl = some "wss://b" &&
    (s.mem.transports.map Transport.auths).sum = 1) rfl (by decide +kernel)
  rw [Bool.and_eq_true, decide_eq_true_iff, decide_eq_true_iff] at hs
  exact ⟨s, hr, hs.1, hs.2, handshakes_exclusive urls 3 s hr⟩

open UplinkMoves.Example Example in
/-- A request tries all uplinks while a connect attempt authenticates: it connects
the same transport again, and authenticates at the same time. -/
theorem handshakes_overlap :
    ∃ s, ((uplinks urls 3).lts anyUse).Reachable s ∧
      (s.mem.transports.map Transport.auths).sum = 2 ∧ ¬ Exclusive s := by
  obtain ⟨s, hr, hs⟩ :=
    System.reachable_of_play (S := uplinks urls 3) anyJudge (fun _ _ => smooth 0)
    [.call .connect, .go 0 4, .call everywhere, .go 1 4] (m := .new)
    (P := fun s => (s.mem.transports.map Transport.auths).sum = 2) rfl (by decide +kernel)
  have hsum : (s.mem.transports.map Transport.auths).sum = 2 := of_decide_eq_true hs
  refine ⟨s, hr, hsum, fun h => ?_⟩
  have := h.authenticate
  omega

end RezSdk.L4.UplinkHandshakes
