import RezSdk.L3Service.UplinkPool
import Mathlib.Algebra.Order.Ring.Rat
import Mathlib.Tactic.NormNum.Ineq

/-!
# How often one request is transmitted

`UplinkPoolClient.request` tries the active uplink and, after a retryable
error, every uplink in turn. The environment of one request is a `Pattern`:
what came of the first attempt, and what comes of each uplink the failover
reaches (`Outcome`: it cannot be connected, is not ready any more, or is sent
the frame and answers). `Describes` says that a trace of `request` met this
pattern. The fields a stretch sees are arbitrary, so other calls may do
anything between the stretches.

* `described`: every trace meets a pattern.
* `Describes.sent`: the pattern decides what is transmitted.
* `Describes.faithful`: the active uplink changes only to one that has just
  answered.
* `bounded_iff_inTime`: `maxRequestAttempts` is read by nothing, so the bound
  holds just where the pattern itself ends in time.
-/
namespace RezSdk.L4.RequestAttempts

open RezSdk.L1 RezSdk.L3.Uplinks

/-- `Math.max(1, Math.min(3, Number(maxRequestAttempts) || 3))`, of the number.
mirrors src/pool/UplinkPool.js:131 -/
def maxRequestAttempts : JsNumber → ℚ
  | .nan => 3
  | .posInf => 3
  | .negInf => 1
  | .fin q => if q = 0 then 3 else max 1 (min 3 q)

theorem maxRequestAttempts_clamped (n : JsNumber) :
    1 ≤ maxRequestAttempts n ∧ maxRequestAttempts n ≤ 3 := by
  cases n with
  | fin q =>
    rw [maxRequestAttempts]
    split
    · norm_num
    · exact ⟨le_max_left _ _, max_le (by norm_num) (min_le_left _ _)⟩
  | nan => exact ⟨by norm_num [maxRequestAttempts], by norm_num [maxRequestAttempts]⟩
  | posInf => exact ⟨by norm_num [maxRequestAttempts], by norm_num [maxRequestAttempts]⟩
  | negInf => exact ⟨by norm_num [maxRequestAttempts], by norm_num [maxRequestAttempts]⟩

/-! ## What a request may do -/

abbrev Exchange := Proc.Exch uplinkPool

/-- A stretch that saw the fields `s`. -/
def ran (cfg : Config) (l : Stretch) (i : Input) (s : UplinkPool) : Exchange :=
  ⟨.run l fun i s => l.apply cfg i s, (i, s)⟩

/-- A frame is sent on a transport, and this comes of it. -/
def transmitted (tr : Nat) (r : Except Failure Frame) : Exchange := ⟨.await (.request tr), r⟩

/-- What came of a transmission. -/
def response : Exchange → Option (Except Failure Frame)
  | ⟨.await (.request _), r⟩ => some r
  | _ => none

/-- What came of every transmission, in their order. -/
def sent (τ : List Exchange) : List (Except Failure Frame) := τ.filterMap response

def retryable : Except Failure Frame → Bool
  | .ok _ => false
  | .error err => err.retryable

/-- The last thing that happened was that the uplink answered. -/
def Answered (url : String) (τ : List Exchange) : Prop :=
  ∃ σ l g i s tr frame, τ = σ ++ [⟨.run l g, (i, s)⟩, transmitted tr (.ok frame)] ∧
  UplinkPool.readyTransport s url = some tr

/-- A stretch that changes the active uplink changes it to one that has just
answered. -/
def Faithful (τ : List Exchange) : Prop :=
  ∀ (σ : List Exchange) (l : Stretch) (g : Input → UplinkPool →
  UplinkPool) (i : Input) (s : UplinkPool) (ρ : List Exchange),
    τ = σ ++ ⟨.run l g, (i, s)⟩ :: ρ → (g i s).activeUrl ≠ s.activeUrl →
      ∃ url, (g i s).activeUrl = some url ∧ Answered url σ

structure Bounded (m : ℚ) (τ : List Exchange) (x : Except Failure (Option Json)) : Prop where
  attempts : ((sent τ).length : ℚ) ≤ m
  stops : ∀ r ∈ (sent τ).dropLast, retryable r = true
  result : ∀ v, x = .ok v → ∃ frame, .ok frame ∈ sent τ ∧ v = frame.result
  moves : Faithful τ

/-! ## What the environment does -/

/-- What comes of an attempt at one uplink. -/
inductive Outcome
  /-- nothing is sent -/
  | unreachable (err : Failure)
  /-- connected, and not ready any more when it is looked at -/
  | unready
  | answered (r : Except Failure Frame)

def Outcome.response : Outcome → Option (Except Failure Frame)
  | .answered r => some r
  | _ => none

/-- The error for which `request` tries the other uplinks.
mirrors src/client/UplinkPoolClient.js:195-197 -/
def Outcome.failsOver : Outcome → Option Failure
  | .unreachable err | .answered (.error err) =>
    if !err.retryable || trim err.code = "NOT_READY" then none else some err
  | _ => none

/-- After this the loop tries the next uplink. -/
def Outcome.goesOn (codes : List String) : Outcome → Bool
  | .answered (.ok _) => false
  | .answered (.error err) => (codes.map trim).contains (trim err.code)
  | _ => true

/-- What comes of the first attempt, and of the uplinks after it, also of those
that are not reached. -/
structure Pattern where
  first : Outcome
  others : List Outcome

/-- The attempts up to the first that ends the loop. -/
def reached (codes : List String) : List Outcome → List Outcome
  | [] => []
  | o :: os => o :: if o.goesOn codes then reached codes os else []

/-- The first attempt does not fail over, or the uplinks after it that can be
sent the frame, up to the first answer or the first error with another code,
are few enough, and none but the last of them answers with an error that is
not retryable. -/
def Pattern.InTime (m : ℚ) (p : Pattern) : Prop :=
  ∀ err, p.first.failsOver = some err →
    let others := (reached (continueOnCodes err) p.others).filterMap Outcome.response
    (others.length : ℚ) + p.first.response.toList.length ≤ m ∧
    ∀ r ∈ others.dropLast, retryable r = true

/-- The first attempt, on the active uplink. -/
inductive First (cfg : Config) (type : String) : Outcome → List Exchange → Prop
  | untyped : type.isEmpty = true →
      First cfg type (.unreachable (errObj "BAD_REQUEST" "request requires type" false)) []
  | unnamed : (trim type).isEmpty = true →
      First cfg type (.unreachable (errObj "BAD_REQUEST" "type required" false)) []
  | refused {s : UplinkPool} {err : Failure} (i : Input) :
      s.activeTransport = .error err → First cfg type (.unreachable err) [ran cfg .request i s]
  | answered {s : UplinkPool} {tr : Nat} (i : Input) (r : Except Failure Frame) :
      s.activeTransport = .ok tr →
        First cfg type (.answered r) [ran cfg .request i s, transmitted tr r]

/-- An attempt at one uplink of the failover. -/
inductive Attempt (cfg : Config) (url : String) : Outcome → List Exchange → Prop
  | unreachable {τ : List Exchange} {err : Failure} :
      Proc.Trace (ensureConnected cfg url) τ (.error err) → Attempt cfg url (.unreachable err) τ
  | unready {τ : List Exchange} {s : UplinkPool} (i : Input) :
      Proc.Trace (ensureConnected cfg url) τ (.ok ()) → s.readyTransport url = none →
        Attempt cfg url .unready (τ ++ [ran cfg (.requestVia url) i s])
  | failed {τ : List Exchange} {s : UplinkPool} {tr : Nat} (i : Input) (err : Failure) :
      Proc.Trace (ensureConnected cfg url) τ (.ok ()) → s.readyTransport url = some tr →
        Attempt cfg url (.answered (.error err))
          (τ ++ [ran cfg (.requestVia url) i s, transmitted tr (.error err)])
  | succeeded {τ : List Exchange} {s s' : UplinkPool} {tr : Nat} (i i' : Input) (frame : Frame) :
      Proc.Trace (ensureConnected cfg url) τ (.ok ()) → s.readyTransport url = some tr →
        Attempt cfg url (.answered (.ok frame))
          (τ ++ [ran cfg (.requestVia url) i s, transmitted tr (.ok frame),
          ran cfg (.adopt url) i' s'])

/-- The loop over the uplinks; the outcomes of those after its end do not
matter. -/
inductive Attempts (cfg : Config) (codes : List String) : List String → List Outcome →
    List Exchange → Prop
  | nil : Attempts cfg codes [] [] []
  | next {url : String} {urls : List String} {o : Outcome} {os : List Outcome}
      {τ σ : List Exchange} :
      Attempt cfg url o τ → o.goesOn codes = true → Attempts cfg codes urls os σ →
        Attempts cfg codes (url :: urls) (o :: os) (τ ++ σ)
  | last {url : String} {urls : List String} {o : Outcome} {os : List Outcome} {τ : List Exchange} :
      Attempt cfg url o τ → o.goesOn codes = false → os.length = urls.length →
        Attempts cfg codes (url :: urls) (o :: os) τ

inductive Describes (cfg : Config) (type : String) : Pattern → List Exchange → Prop
  | done {o : Outcome} {os : List Outcome} {τ : List Exchange} :
      First cfg type o τ → o.failsOver = none → Describes cfg type ⟨o, os⟩ τ
  | failover {o : Outcome} {os : List Outcome} {err : Failure} {τ σ : List Exchange}
      {s s' : UplinkPool} (i i' : Input) :
      First cfg type o τ → o.failsOver = some err →
        Attempts cfg (continueOnCodes err) (s.ordered cfg true) os σ →
        Describes cfg type ⟨o,
          os⟩ (τ ++ ran cfg (.requestAll true) i s :: (σ ++ [ran cfg .requestSettle i' s']))

/-! ## Every trace meets a pattern -/

section

variable {cfg : Config} {type : String} {τ : List Exchange}

theorem trace_act {α β : Type} {l : Stretch} {f : Input → UplinkPool → α} {k : α → Pooling β}
    {x : Except Failure β} :
    Proc.Trace (act cfg l f >>= k : Pooling β) τ x ↔
    ∃ i s σ, τ = ran cfg l i s :: σ ∧ Proc.Trace (k (f i s)) σ x := by
  refine Proc.trace_ask.trans ⟨?_, ?_⟩
  · rintro ⟨⟨i, s⟩, σ, rfl, h⟩
    exact ⟨i, s, σ, rfl, h⟩
  · rintro ⟨i, s, σ, rfl, h⟩
    exact ⟨(i, s), σ, rfl, h⟩

theorem trace_act_last {α : Type} {l : Stretch} {f : Input → UplinkPool → α}
    {x : Except Failure α} :
    Proc.Trace (act cfg l f : Pooling α) τ x ↔ ∃ i s, τ = [ran cfg l i s] ∧ x = .ok (f i s) := by
  refine Proc.trace_ask.trans ⟨?_, ?_⟩
  · rintro ⟨⟨i, s⟩, σ, rfl, h⟩
    obtain ⟨rfl, rfl⟩ := Proc.trace_ret.mp h
    exact ⟨i, s, rfl, rfl⟩
  · rintro ⟨i, s, rfl, rfl⟩
    exact ⟨(i, s), [], rfl, .ret _⟩

@[simp] theorem sent_append (τ σ : List Exchange) : sent (τ ++ σ) = sent τ ++ sent σ :=
  List.filterMap_append

theorem sent_cons (e : Exchange) (τ : List Exchange) :
    sent (e :: τ) = (response e).toList ++ sent τ := by
  rw [sent, List.filterMap_cons]
  cases response e <;> rfl

/-- The failover resolves only with an answer it was given. -/
theorem attempts_of_trace {a : RequestArgs} (hadopt : a.adoptSuccessfulUplink = true)
    {urls : List String} :
    ∀ {lastErr : Option Failure} {τ : List Exchange} {x : Except Failure Frame},
      Proc.Trace (requestLoop cfg a urls lastErr) τ x →
      ∃ os, Attempts cfg a.continueOnCodes urls os τ ∧
        ∀ frame, x = .ok frame → .ok frame ∈ sent τ := by
  induction urls with
  | nil =>
    intro lastErr τ x h
    obtain ⟨rfl, rfl⟩ := Proc.trace_ret.mp h
    exact ⟨[], .nil, nofun⟩
  | cons url urls ih =>
    intro lastErr τ x h
    -- the loop goes on after this outcome
    have hnext :
        ∀ {o : Outcome} {τ σ : List Exchange} {lastErr : Option Failure}, Attempt cfg url o τ →
        o.goesOn a.continueOnCodes = true → Proc.Trace (requestLoop cfg a urls lastErr) σ x →
          ∃ os, Attempts cfg a.continueOnCodes (url :: urls) os (τ ++ σ) ∧
            ∀ frame, x = .ok frame → .ok frame ∈ sent (τ ++ σ) := by
      intro o τ σ lastErr ho hgo h
      obtain ⟨os, hos, hx⟩ := ih h
      refine ⟨o :: os, .next ho hgo hos, fun frame hf => ?_⟩
      rw [sent_append]
      exact List.mem_append_right _ (hx frame hf)
    -- this outcome ends it
    have hlast : ∀ {o : Outcome} {τ : List Exchange}, Attempt cfg url o τ →
        o.goesOn a.continueOnCodes = false →
        (∀ frame, x = .ok frame → .ok frame ∈ sent τ) →
          ∃ os, Attempts cfg a.continueOnCodes (url :: urls) os τ ∧
            ∀ frame, x = .ok frame → .ok frame ∈ sent τ := by
      intro o τ ho hends hx
      exact ⟨o :: urls.map fun _ => .unready, .last ho hends (List.length_map ..), hx⟩
    obtain ⟨τ, σ, r, rfl, hr, h⟩ := Proc.trace_bind.mp h
    cases r with
    | error err => exact hnext (.unreachable hr) rfl h
    | ok u =>
      obtain ⟨i, s, σ, rfl, hvia⟩ := trace_act.mp h
      cases htr : s.readyTransport url with
      | none =>
        rw [htr] at hvia
        rw [List.append_cons]
        exact hnext (.unready i hr htr) rfl hvia
      | some tr =>
        rw [htr] at hvia
        obtain ⟨r, σ, rfl, hend⟩ := Proc.trace_ask.mp hvia
        cases r with
        | error err =>
          dsimp only [Proc.bind] at hend
          have hτ : τ ++ ran cfg (.requestVia url) i s :: ⟨.await (.request tr), .error err⟩ :: σ =
              (τ ++ [ran cfg (.requestVia url) i s, transmitted tr (.error err)]) ++ σ := by
            rw [List.append_assoc]
            rfl
          rw [hτ]
          split at hend
          · exact hnext (.failed i err hr htr) ‹_› hend
          · obtain ⟨rfl, rfl⟩ := Proc.trace_ret.mp hend
            rw [List.append_nil]
            exact hlast (.failed i err hr htr) (Bool.eq_false_iff.mpr ‹_›) nofun
        | ok frame =>
          dsimp only [Proc.bind] at hend
          rw [if_pos hadopt] at hend
          obtain ⟨i', s', rfl, rfl⟩ := trace_act_last.mp hend
          refine hlast (.succeeded i i' frame hr htr) rfl ?_
          rintro _ ⟨⟩
          rw [sent_append]
          exact List.mem_append_right _ (.head _)

theorem first_of_trace {r : Except Failure Frame}
    (h : Proc.Trace (sendRequest cfg ⟨type, false, [], false, false⟩) τ r) :
    (∃ err, r = .error err ∧ First cfg type (.unreachable err) τ) ∨
    First cfg type (.answered r) τ := by
  rw [sendRequest] at h
  split at h
  · obtain ⟨rfl, rfl⟩ := Proc.trace_ret.mp h
    exact .inl ⟨_, rfl, .unnamed ‹_›⟩
  · rw [if_neg Bool.false_ne_true] at h
    obtain ⟨⟨i, s⟩, σ, rfl, hs⟩ := Proc.trace_ask.mp h
    dsimp only [Proc.bind] at hs
    cases htr : s.activeTransport with
    | error err =>
      rw [htr] at hs
      obtain ⟨rfl, rfl⟩ := Proc.trace_ret.mp hs
      exact .inl ⟨err, rfl, .refused i htr⟩
    | ok tr =>
      rw [htr] at hs
      obtain ⟨r, σ, rfl, hr⟩ := Proc.trace_ask.mp hs
      obtain ⟨rfl, rfl⟩ := Proc.trace_ret.mp hr
      exact .inr (.answered i r htr)

/-- A request without a name is refused for good. -/
theorem named_of_trace {err : Failure}
    (h : Proc.Trace (sendRequest cfg ⟨type, false, [], false, false⟩) τ (.error err))
    (hretry : err.retryable = true) : (trim type).isEmpty = false := by
  refine Bool.eq_false_iff.mpr fun hempty => ?_
  rw [sendRequest, if_pos hempty] at h
  obtain ⟨-, herr⟩ := Proc.trace_ret.mp h
  cases herr
  cases hretry

theorem First.sent {o : Outcome} (h : First cfg type o τ) : sent τ = o.response.toList := by
  cases h with
  | untyped _ => rfl
  | unnamed _ => rfl
  | refused _ _ => rfl
  | answered _ _ _ => rfl

/-- The failover after a first attempt that failed with `err`. -/
theorem failover_of_trace {r : Except Failure Frame} {codes : List String}
    (h : Proc.Trace (sendRequest cfg ⟨type, true, codes, true, true⟩) τ r)
    (htype : (trim type).isEmpty = false) :
    ∃ i i' s s' os σ, Attempts cfg codes (s.ordered cfg true) os σ ∧
      τ = ran cfg (.requestAll true) i s :: (σ ++ [ran cfg .requestSettle i' s']) ∧
      ∀ frame, r = .ok frame → .ok frame ∈ RequestAttempts.sent σ := by
  rw [sendRequest, if_neg (by rw [htype]; exact Bool.false_ne_true), if_pos rfl] at h
  obtain ⟨i, s, σ, rfl, hall⟩ := trace_act.mp h
  cases hurls : s.ordered cfg true with
  | nil =>
    rw [hurls] at hall
    obtain ⟨i', s', σ, rfl, hend⟩ := trace_act.mp hall
    obtain ⟨rfl, rfl⟩ := Proc.trace_ret.mp hend
    exact ⟨i, i', s, s', [], [], by rw [hurls]; exact .nil, rfl, nofun⟩
  | cons url urls =>
    rw [hurls] at hall
    obtain ⟨σ, ρ, r, rfl, hloop, hend⟩ := Proc.trace_bind.mp hall
    obtain ⟨i', s', ρ, rfl, hret⟩ := trace_act.mp hend
    obtain ⟨rfl, rfl⟩ := Proc.trace_ret.mp hret
    obtain ⟨os, hos, hx⟩ := attempts_of_trace rfl hloop
    exact ⟨i, i', s, s', os, σ, by rw [hurls]; exact hos, rfl, hx⟩

theorem failsOver_final {err : Failure} (h : err.retryable = false) :
    (Outcome.unreachable err).failsOver = none := by
  refine if_pos ?_
  rw [h, Bool.not_false, Bool.true_or]

/-- Every trace meets a pattern, and a request resolves only with what one of
its transmissions was answered with. -/
theorem described {x : Except Failure (Option Json)} (h : Proc.Trace (request cfg type) τ x) :
    (∃ p, Describes cfg type p τ) ∧
    ∀ v, x = .ok v → ∃ frame, .ok frame ∈ RequestAttempts.sent τ ∧ v = frame.result := by
  rw [request] at h
  split at h
  · obtain ⟨rfl, rfl⟩ := Proc.trace_ret.mp h
    exact ⟨⟨⟨_, []⟩, .done (.untyped ‹_›) (failsOver_final rfl)⟩, nofun⟩
  · obtain ⟨τ, σ, r, rfl, hr, hx⟩ := Proc.trace_bind.mp h
    cases r with
    | ok frame =>
      obtain ⟨rfl, rfl⟩ := Proc.trace_ret.mp hx
      rw [List.append_nil]
      obtain ⟨err, herr, -⟩ | hfirst := first_of_trace hr
      · cases herr
      · refine ⟨⟨⟨_, []⟩, .done hfirst rfl⟩, ?_⟩
        rintro _ ⟨⟩
        exact ⟨frame, by rw [hfirst.sent]; exact .head _, rfl⟩
    | error err =>
      obtain ⟨o, hfirst, hover⟩ : ∃ o, First cfg type o τ ∧
          o.failsOver =
            if !err.retryable || trim err.code = "NOT_READY" then none else some err := by
        obtain ⟨_, ⟨⟩, hfirst⟩ | hfirst := first_of_trace hr
        · exact ⟨_, hfirst, rfl⟩
        · exact ⟨_, hfirst, rfl⟩
      dsimp only at hx
      split at hx
      · obtain ⟨rfl, rfl⟩ := Proc.trace_ret.mp hx
        rw [List.append_nil]
        exact ⟨⟨⟨o, []⟩, .done hfirst (hover.trans (if_pos ‹_›))⟩, nofun⟩
      · generalize hfailover : sendRequest cfg ⟨type, true, continueOnCodes err,
          true, true⟩ = failover at hx
        obtain ⟨σ, ρ, r, rfl, hall, hend⟩ := Proc.trace_bind.mp hx
        rw [← hfailover] at hall
        have hretry : err.retryable = true := by
          have hnot := ‹¬_›
          rw [Bool.or_eq_true, not_or] at hnot
          simpa using hnot.1
        have htype := named_of_trace hr hretry
        obtain ⟨i, i', s, s', os, σ, hos, rfl, hsent⟩ := failover_of_trace hall htype
        cases r with
        | error err' =>
          obtain ⟨rfl, rfl⟩ := Proc.trace_ret.mp hend
          rw [List.append_nil]
          exact ⟨⟨⟨o, os⟩, .failover i i' hfirst (hover.trans (if_neg ‹_›)) hos⟩, nofun⟩
        | ok frame =>
          obtain ⟨rfl, rfl⟩ := Proc.trace_ret.mp hend
          rw [List.append_nil]
          refine ⟨⟨⟨o, os⟩, .failover i i' hfirst (hover.trans (if_neg ‹_›)) hos⟩, ?_⟩
          rintro _ ⟨⟩
          refine ⟨frame, ?_, rfl⟩
          rw [sent_append, sent_cons, sent_append]
          exact List.mem_append_right _
            (List.mem_append_right _ (List.mem_append_left _ (hsent frame rfl)))

/-! ## What a pattern decides -/

/-- Neither a transmission nor a change of the active uplink. -/
def Still : uplinkPool.Op → Prop
  | .run _ g => ∀ i s, (g i s).activeUrl = s.activeUrl
  | .await (.request _) => False
  | .await _ => True

theorem all_ensureConnected (url : String) : Proc.All Still (ensureConnected cfg url) := by
  refine Js.all_bind ⟨fun i s => ?_, fun _ => trivial⟩ fun o => ?_
  · dsimp only [Stretch.apply, UplinkPool.begin]
    split
    · split <;> rfl
    · split <;> rfl
  · cases o with
    | none => trivial
    | some tr =>
      refine Js.all_bind ⟨trivial, fun _ => trivial⟩ fun _ => Js.all_bind ⟨fun _ _ => rfl,
        fun _ => trivial⟩ fun _ =>
        Js.all_bind ⟨trivial, fun _ => trivial⟩ fun _ => ⟨fun _ _ => rfl, fun _ => trivial⟩

theorem still_of_trace {α : Type} {p : Proc uplinkPool α} {x : α} (h : Proc.Trace p τ x) :
    p.All Still → ∀ e ∈ τ, Still e.op := by
  induction h with
  | ret x => exact fun _ => List.forall_mem_nil _
  | ask r _ ih => exact fun hp => List.forall_mem_cons.mpr ⟨hp.1, ih (hp.2 r)⟩

theorem sent_still (h : ∀ e ∈ τ, Still e.op) : sent τ = [] := by
  refine List.filterMap_eq_nil_iff.mpr fun e he => ?_
  have hstill := h e he
  obtain ⟨op, r⟩ := e
  cases op with
  | run l g => rfl
  | await o => cases o <;> first | rfl | exact hstill.elim

/-- The exchange leaves the active uplink. -/
def Keeps : Exchange → Prop
  | ⟨.run _ g, (i, s)⟩ => (g i s).activeUrl = s.activeUrl
  | _ => True

theorem faithful_keeps (h : ∀ e ∈ τ, Keeps e) : Faithful τ := by
  rintro σ l g i s ρ rfl hmoved
  exact absurd (h _ (List.mem_append_right _ (.head _))) hmoved

theorem Still.keeps {e : Exchange} (h : Still e.op) : Keeps e := by
  obtain ⟨op, r⟩ := e
  cases op with
  | run l g => exact h r.1 r.2
  | await o => trivial

theorem Answered.append {url : String} {σ : List Exchange} (h : Answered url σ)
    (τ : List Exchange) : Answered url (τ ++ σ) := by
  obtain ⟨σ, l, g, i, s, tr, frame, rfl, htr⟩ := h
  exact ⟨τ ++ σ, l, g, i, s, tr, frame, (List.append_assoc ..).symm, htr⟩

theorem Faithful.append {σ : List Exchange} (hτ : Faithful τ) (hσ : Faithful σ) :
    Faithful (τ ++ σ) := by
  intro ρ l g i s π heq hmoved
  obtain ⟨τ', rfl, hrest⟩ | ⟨σ', rfl, hrest⟩ := List.append_eq_append_iff.mp heq
  · obtain ⟨url, hurl, ha⟩ := hσ τ' l g i s π hrest hmoved
    exact ⟨url, hurl, ha.append τ⟩
  · cases σ' with
    | nil =>
      obtain ⟨url, hurl, ha⟩ := hσ [] l g i s π hrest.symm hmoved
      exact ⟨url, hurl, by simpa using ha.append ρ⟩
    | cons e σ' =>
      obtain ⟨rfl, rfl⟩ := List.cons.inj hrest
      exact hτ ρ l g i s σ' rfl hmoved

section

variable {url : String}

theorem ensured_sent {u : Except Failure Unit} (h : Proc.Trace (ensureConnected cfg url) τ u) :
    sent τ = [] :=
  sent_still (still_of_trace h (all_ensureConnected url))

theorem ensured_keeps {u : Except Failure Unit} (h : Proc.Trace (ensureConnected cfg url) τ u) :
    ∀ e ∈ τ, Keeps e :=
  fun e he => (still_of_trace h (all_ensureConnected url) e he).keeps

theorem Attempt.sent {o : Outcome} (h : Attempt cfg url o τ) : sent τ = o.response.toList := by
  cases h with
  | unreachable hc => exact ensured_sent hc
  | unready _ hc _ =>
    rw [sent_append, ensured_sent hc]
    rfl
  | failed _ _ hc _ =>
    rw [sent_append, ensured_sent hc]
    rfl
  | succeeded _ _ _ hc _ =>
    rw [sent_append, ensured_sent hc]
    rfl

/-- One more exchange. -/
theorem Faithful.snoc {e : Exchange} (hτ : Faithful τ)
    (he : ∀ (l : Stretch) (g : Input → UplinkPool → UplinkPool) (i : Input) (s : UplinkPool),
        e = ⟨.run l g, (i, s)⟩ → (g i s).activeUrl ≠ s.activeUrl →
        ∃ url, (g i s).activeUrl = some url ∧ Answered url τ) : Faithful (τ ++ [e]) := by
  intro σ l g i s ρ heq hmoved
  obtain rfl | ⟨ρ, e', rfl⟩ := ρ.eq_nil_or_concat
  · obtain ⟨rfl, hlast⟩ := List.append_inj' heq rfl
    exact he l g i s (List.singleton_inj.mp hlast) hmoved
  · rw [List.concat_eq_append, ← List.cons_append, ← List.append_assoc] at heq
    exact hτ σ l g i s ρ (List.append_inj' heq rfl).1 hmoved

theorem adopt_moves {s : UplinkPool} (h : (s.adopt url).activeUrl ≠ s.activeUrl) :
    (s.adopt url).activeUrl = some url := by
  rw [UplinkPool.adopt] at h ⊢
  split at h
  · exact absurd rfl h
  · rw [if_neg ‹_›]
    rfl

theorem faithful_adopt {i i' : Input} {s s' : UplinkPool} {tr : Nat} {frame : Frame}
    (hτ : ∀ e ∈ τ, Keeps e) (htr : s.readyTransport url = some tr) :
    Faithful (τ ++ [ran cfg (.requestVia url) i s, transmitted tr (.ok frame),
            ran cfg (.adopt url) i' s']) := by
  have hsent : Faithful (τ ++ [ran cfg (.requestVia url) i s, transmitted tr (.ok frame)]) :=
    faithful_keeps (List.forall_mem_append.mpr ⟨hτ,
      List.forall_mem_cons.mpr ⟨rfl, List.forall_mem_cons.mpr ⟨trivial, List.forall_mem_nil _⟩⟩⟩)
  have hadopt := hsent.snoc (e := ran cfg (.adopt url) i' s') fun l g i₁ s₁ heq hmoved => by
    cases heq
    exact ⟨url, adopt_moves hmoved, τ, _, _, i, s, tr, frame, rfl, htr⟩
  rwa [List.append_assoc] at hadopt

theorem Attempt.faithful {o : Outcome} (h : Attempt cfg url o τ) : Faithful τ := by
  cases h with
  | unreachable hc => exact faithful_keeps (ensured_keeps hc)
  | unready i hc _ =>
    exact faithful_keeps (List.forall_mem_append.mpr ⟨ensured_keeps hc,
      List.forall_mem_cons.mpr ⟨rfl, List.forall_mem_nil _⟩⟩)
  | failed i err hc _ =>
    exact faithful_keeps (List.forall_mem_append.mpr ⟨ensured_keeps hc,
      List.forall_mem_cons.mpr ⟨rfl, List.forall_mem_cons.mpr ⟨trivial, List.forall_mem_nil _⟩⟩⟩)
  | succeeded i i' frame hc htr => exact faithful_adopt (ensured_keeps hc) htr

end

theorem Attempts.sent {codes : List String} {urls : List String} {os : List Outcome}
    (h : Attempts cfg codes urls os τ) :
    sent τ = (reached codes os).filterMap Outcome.response := by
  induction h with
  | nil => rfl
  | @next _ _ o _ τ σ ho hgo _ ih =>
    rw [sent_append, ho.sent, ih, reached, if_pos hgo, List.filterMap_cons]
    cases o.response <;> rfl
  | @last _ _ o _ τ ho hends _ =>
    rw [ho.sent, reached, if_neg (by rw [hends]; exact Bool.false_ne_true), List.filterMap_cons]
    cases o.response <;> rfl

theorem Attempts.faithful {codes : List String} {urls : List String} {os : List Outcome}
    (h : Attempts cfg codes urls os τ) : Faithful τ := by
  induction h with
  | nil => exact faithful_keeps (List.forall_mem_nil _)
  | next ho _ _ ih => exact ho.faithful.append ih
  | last ho _ _ => exact ho.faithful

theorem First.faithful {o : Outcome} (h : First cfg type o τ) : Faithful τ := by
  refine faithful_keeps ?_
  cases h with
  | untyped _ => exact List.forall_mem_nil _
  | unnamed _ => exact List.forall_mem_nil _
  | refused _ _ => exact List.forall_mem_cons.mpr ⟨rfl, List.forall_mem_nil _⟩
  | answered _ _ _ =>
    exact List.forall_mem_cons.mpr ⟨rfl, List.forall_mem_cons.mpr ⟨trivial, List.forall_mem_nil _⟩⟩

/-- What a request sends in this environment. -/
def Pattern.sent (p : Pattern) : List (Except Failure Frame) :=
  p.first.response.toList ++ match p.first.failsOver with
    | some err => (reached (continueOnCodes err) p.others).filterMap Outcome.response
    | none => []

variable {p : Pattern}

theorem Describes.sent (h : Describes cfg type p τ) : RequestAttempts.sent τ = p.sent := by
  cases h with
  | done hfirst hover => rw [hfirst.sent, Pattern.sent, hover, List.append_nil]
  | failover i i' hfirst hover hos =>
    rw [sent_append, sent_cons, sent_append, hfirst.sent, hos.sent, Pattern.sent, hover]
    exact congrArg (_ ++ ·) (List.append_nil _)

theorem Describes.faithful (h : Describes cfg type p τ) : Faithful τ := by
  cases h with
  | done hfirst _ => exact hfirst.faithful
  | @failover _ _ _ _ _ s s' i i' hfirst _ hos =>
    have hall : Faithful [ran cfg (.requestAll true) i s] :=
      faithful_keeps (List.forall_mem_cons.mpr ⟨rfl, List.forall_mem_nil _⟩)
    have hsettle : Faithful [ran cfg .requestSettle i' s'] :=
      faithful_keeps (List.forall_mem_cons.mpr ⟨rfl, List.forall_mem_nil _⟩)
    exact hfirst.faithful.append (hall.append (hos.faithful.append hsettle))

theorem failsOver_retryable {o : Outcome} {err : Failure} {r : Except Failure Frame}
    (h : o.failsOver = some err) (hr : o.response = some r) : retryable r = true := by
  cases o with
  | unreachable _ => cases hr
  | unready => cases hr
  | answered r =>
    cases hr
    cases r with
    | ok _ => cases h
    | error err' =>
      rw [Outcome.failsOver] at h
      split at h
      · cases h
      · have hnot := ‹¬_›
        rw [Bool.or_eq_true, not_or] at hnot
        simpa [retryable] using hnot.1

end

/-! ## The bound -/

theorem inTime_iff {m : ℚ} (hm : 1 ≤ m) (p : Pattern) :
    p.InTime m ↔ (p.sent.length : ℚ) ≤ m ∧ ∀ r ∈ p.sent.dropLast, retryable r = true := by
  obtain ⟨o, os⟩ := p
  cases hover : o.failsOver with
  | none =>
    have hlen : (o.response.toList.length : ℚ) ≤ 1 := by cases o.response <;> simp
    have hlast : o.response.toList.dropLast = [] := by cases o.response <;> rfl
    simp only [Pattern.InTime, Pattern.sent, hover, List.append_nil, hlast,
      reduceCtorEq, false_imp_iff, implies_true,
      List.not_mem_nil, and_true, true_iff]
    exact hlen.trans hm
  | some err =>
    -- what is transmitted first was answered with a retryable error
    have hlast : ∀ rs : List (Except Failure Frame),
        (∀ r ∈ (o.response.toList ++ rs).dropLast, retryable r = true) ↔
        ∀ r ∈ rs.dropLast, retryable r = true := by
      intro rs
      cases hr : o.response with
      | none => rfl
      | some r =>
        cases rs with
        | nil => rfl
        | cons r' rs =>
          rw [Option.toList_some, List.singleton_append, List.dropLast_cons_cons,
            List.forall_mem_cons]
          exact and_iff_right (failsOver_retryable hover hr)
    simp only [Pattern.InTime, Pattern.sent, hover, Option.some.injEq, forall_eq',
      List.length_append, Nat.cast_add, hlast]
    rw [add_comm]

/-- A request keeps the bound of `maxRequestAttempts` just where its
environment makes an end of it in time. -/
theorem bounded_iff_inTime {cfg : Config} {type : String} {τ : List Exchange}
    {x : Except Failure (Option Json)} (ht : Proc.Trace (request cfg type) τ x) (n : JsNumber) :
    (∃ p, Describes cfg type p τ) ∧
    ∀ p, Describes cfg type p τ →
      (Bounded (maxRequestAttempts n) τ x ↔ p.InTime (maxRequestAttempts n)) := by
  obtain ⟨hp, hx⟩ := described ht
  refine ⟨hp, fun p hp => ?_⟩
  rw [inTime_iff (maxRequestAttempts_clamped n).1, ← hp.sent]
  exact ⟨fun h => ⟨h.attempts, h.stops⟩, fun h => ⟨h.1, h.2, hx, hp.faithful⟩⟩

namespace Example

def three : Config := ⟨["wss://a", "wss://b", "wss://c"], 2, 2000, 60000⟩

/-- All three uplinks are connected, the first is the active one. -/
def connected : UplinkPool :=
  { UplinkPool.new with
    transports := three.uplinks.map fun url => ⟨url, true, true, none, 0, 0⟩
    conns :=
      [("wss://a", ⟨0, true, true⟩), ("wss://b", ⟨1, true, true⟩), ("wss://c", ⟨2, true, true⟩)]
    activeUrl := some "wss://a"
    ready := true }

/-- Transport `tr` answers every transmission with `r tr`. -/
def answering (r : Nat → Except Failure Frame) : ObjFate Input outside where
  input := ⟨0, none⟩
  answer
    | .request tr => some (r tr)
    | _ => none

def timeout : Failure := errObj "TIMEOUT" "request timed out" true

/-- The active uplink is slow. -/
def slow : Nat → Except Failure Frame
  | 0 => .error timeout
  | _ => .ok ⟨none⟩

/-- One request of the pool, with nothing else going on. -/
def alone (r : Nat → Except Failure Frame) :
    Option (List Exchange × Except Failure (Option Json) × UplinkPool) :=
  let fates :=
    (uplinks three 0).fates (fun _ _ => answering r) 0 0 connected (request three "inbox.list")
  (uplinks three 0).solo 0 connected (request three "inbox.list") fates

theorem trace_of_alone {r : Nat → Except Failure Frame}
    {P : List Exchange → Except Failure (Option Json) → Bool}
    (h : ((alone r).any fun z => P z.1 z.2.1) = true) :
    ∃ τ x, Proc.Trace (request three "inbox.list") τ x ∧ P τ x = true := by
  obtain ⟨⟨τ, x, s⟩, hz, hp⟩ := (Option.any_eq_true _ _).mp h
  exact ⟨τ, x, System.solo_trace hz, hp⟩

end Example

open Example in
/-- All uplinks are slow: the frame is sent once more to the active one and to
each other one, four times, where three are allowed. -/
theorem transmits_again :
    ¬ ∀ (cfg : Config) (type : String) (n : JsNumber) (τ : List Exchange)
          (x : Except Failure (Option Json)), Proc.Trace (request cfg type) τ x →
        Bounded (maxRequestAttempts n) τ x := by
  intro h
  obtain ⟨τ, x, ht, hfour⟩ := trace_of_alone (r := fun _ => .error timeout)
    (P := fun τ _ => (sent τ).length == 4) (by decide +kernel)
  have hle := (h three "inbox.list" (.fin 3) τ x ht).attempts
  rw [beq_iff_eq.mp hfour] at hle
  norm_num [maxRequestAttempts] at hle

open Example in
/-- Only the active uplink is slow, and the next one answers. -/
theorem bounded_iff_inTime_answered :
    ∃ τ x, Proc.Trace (request three "inbox.list") τ x ∧ (sent τ).length = 2 ∧
      (∃ p, Describes three "inbox.list" p τ ∧ p.InTime (maxRequestAttempts (.fin 2))) ∧
      Bounded (maxRequestAttempts (.fin 2)) τ x := by
  obtain ⟨τ, x, ht, htwo⟩ := trace_of_alone (r := slow)
    (P := fun τ _ => (sent τ).length == 2 && (sent τ).dropLast.all retryable) (by decide +kernel)
  rw [Bool.and_eq_true, beq_iff_eq, List.all_eq_true] at htwo
  obtain ⟨⟨p, hp⟩, hiff⟩ := bounded_iff_inTime ht (.fin 2)
  have hm : maxRequestAttempts (.fin 2) = 2 := by norm_num [maxRequestAttempts]
  have hin : p.InTime (maxRequestAttempts (.fin 2)) := by
    refine (inTime_iff (maxRequestAttempts_clamped _).1 p).mpr ?_
    rw [← hp.sent, htwo.1, hm]
    exact ⟨by norm_num, htwo.2⟩
  exact ⟨τ, x, ht, htwo.1, ⟨p, hp, hin⟩, (hiff p hp).mpr hin⟩

end RezSdk.L4.RequestAttempts
