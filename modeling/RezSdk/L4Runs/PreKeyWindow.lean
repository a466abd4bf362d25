import Mathlib.Data.List.Infix
import RezSdk.L3Service.Counting
import RezSdk.L3Service.Footprints
import RezSdk.L4Runs.Windows

/-!
# The account-wide pre-key window

`buildAndRetainAccountDeviceBundle` mints a pre-key on every reconnect and
keeps the responder states of the last three bundles, newest first, so that a
peer that still holds an older bundle can be answered. The window is read and
written back with nothing held in between: two calls that overlap read the
same window, and the second write drops the state of the first
(`bundle_forgotten`).

When every write finds the window as its call has read it, the states of the
last three bundles are retained (`window_retains`).
-/
namespace RezSdk.L4.PreKeyWindow

open RezSdk.L1 RezSdk.L2 RezSdk.L3

/-! ## Windows -/

section

variable {α κ : Type} [DecidableEq κ] {key : α → κ} {n : Nat} {recent window : List α} {x r : α}

/-- The newest `n` of `recent` stand at the front of `window`, newest first,
and none of them occurs again. -/
structure Retained (key : α → κ) (n : Nat) (recent window : List α) : Prop where
  newest : recent.take n <+: window
  once : ∀ r ∈ recent.take n, (window.filter fun x => key x = key r) = [r]

theorem retained_nil : Retained key n [] window where
  newest := by
    rw [List.take_nil]
    exact List.nil_prefix
  once r hr := by
    rw [List.take_nil] at hr
    cases hr

theorem once_sublist {window' : List α} (h : (window.filter fun x => key x = key r) = [r])
    (hsub : window'.Sublist window) (hr : r ∈ window') :
    (window'.filter fun x => key x = key r) = [r] := by
  have hle : (window'.filter fun x => key x = key r).Sublist [r] := by
    rw [← h]
    exact hsub.filter _
  rcases List.sublist_singleton.mp hle with hnil | hone
  · have hmem : r ∈ window'.filter fun x => key x = key r := List.mem_filter.mpr ⟨hr, by simp⟩
    rw [hnil] at hmem
    cases hmem
  · exact hone

/-- A new entry in front. -/
theorem Retained.push (h : Retained key n recent window) (hnew : ∀ r ∈ recent, key r ≠ key x) :
    Retained key n (x :: recent) ((x :: window.filter fun y => key y ≠ key x).take n) := by
  cases n with
  | zero => exact ⟨List.nil_prefix, fun r hr => by cases hr⟩
  | succ n =>
    have hkept : (recent.take (n + 1)).filter (fun y => key y ≠ key x) = recent.take (n + 1) := by
      refine List.filter_eq_self.mpr fun r hr => ?_
      simpa using hnew r (List.mem_of_mem_take hr)
    have hfront : recent.take n <+: (window.filter fun y => key y ≠ key x).take n := by
      have hpre := List.IsPrefix.take (h.newest.filter fun y => key y ≠ key x) n
      rw [hkept, List.take_take, Nat.min_eq_left (Nat.le_succ n)] at hpre
      exact hpre
    refine ⟨?_, fun r hr => ?_⟩
    · rw [List.take_succ_cons, List.take_succ_cons]
      exact List.prefix_cons_inj x |>.mpr hfront
    · rw [List.take_succ_cons] at hr ⊢
      rcases List.mem_cons.mp hr with rfl | hr
      · rw [List.filter_cons_of_pos (by simp), List.filter_eq_nil_iff.mpr]
        intro y hy
        have hne := (List.mem_filter.mp (List.mem_of_mem_take hy)).2
        simpa using hne
      · have hne : key r ≠ key x := hnew r (List.mem_of_mem_take hr)
        rw [List.filter_cons_of_neg (by simpa using fun heq => hne heq.symm)]
        have hold : r ∈ recent.take (n + 1) := (List.take_sublist_take_left (Nat.le_succ n)).mem hr
        exact once_sublist (h.once r hold) ((List.take_sublist _ _).trans List.filter_sublist)
          (hfront.mem hr)

/-- Dropping other entries. -/
theorem Retained.filter (h : Retained key n recent window) {p : α → Bool}
    (hp : ∀ r ∈ recent, p r = true) : Retained key n recent (window.filter p) := by
  have hkept : (recent.take n).filter p = recent.take n :=
    List.filter_eq_self.mpr fun r hr => hp r (List.mem_of_mem_take hr)
  have hnewest : recent.take n <+: window.filter p := by
    rw [← hkept]
    exact h.newest.filter p
  exact ⟨hnewest, fun r hr => once_sublist (h.once r hr) List.filter_sublist (hnewest.mem hr)⟩

end

/-! ## The calls -/

variable {Snap : Type}

structure BundleCall where
  owner : Id
  nowMs : Option Nat
  inboxIdOverride : Option (Option Id)
deriving DecidableEq

abbrev BundleState (Snap : Type) := Pool (sdk Snap) (Mem Snap) Fate BundleCall
    (Except Err PrekeyBundle)
abbrev BundleRules (Snap : Type) := Discipline (sdk Snap) (Mem Snap) Fate BundleCall
    (Except Err PrekeyBundle)

/-- Any number of calls over one store. -/
def bundleCalls (svc : DeviceService Snap) :
    System (sdk Snap) (Mem Snap) Fate BundleCall (Except Err PrekeyBundle) :=
  ⟨act svc.core, fun c => buildAndRetainAccountDeviceBundle svc c.owner c.nowMs c.inboxIdOverride⟩

/-! ## The property -/

/-- The responder state that X3DH has built with a bundle. -/
def drawn : Proc.Exch (sdk Snap) → Option Bytes
  | ⟨.core (.prepareInviteBinding _), .ok x⟩ => some x.2
  | _ => none

/-- The last responder state of call `t`. -/
def drawnBy (t : Nat) : List (Event (sdk Snap) Fate) → Option Bytes
  | [] => none
  | e :: log => if e.tid = t then (drawn e.exch).or (drawnBy t log) else drawnBy t log

/-- The state of the bundle that call `t` has returned for `owner`. -/
def bundleState (s : BundleState Snap) (owner : Id) (t : Nat) : Option Bytes :=
  match s.threads[t]? with
  | some ⟨c, .ret (.ok _)⟩ => if c.owner = owner then drawnBy t s.log else none
  | _ => none

/-- Each number once, by its first occurrence. -/
def order : List Nat → List Nat
  | [] => []
  | t :: ts => t :: (order ts).filter (· ≠ t)

/-- The states of the bundles returned for `owner`, the last one first. -/
def returned (s : BundleState Snap) (owner : Id) : List Bytes :=
  (order (s.log.map (·.tid))).filterMap (bundleState s owner)

def Quiescent (s : BundleState Snap) : Prop := ∀ th ∈ s.threads, ∃ x, th.proc = .ret x

abbrev windowKey (owner : Id) : Key := .devicePreKey owner accountDeviceBundlePeerSentinel

/-- The states the window has for `owner`. -/
def window (core : Core Snap) (kv : Store Snap) (owner : Id) : List Bytes :=
  retainedStates core (kv.lookup (windowKey owner))

/-- When no call is in flight, the last bundles of every account can be
answered. -/
def Answerable (core : Core Snap) (s : BundleState Snap) : Prop :=
  Quiescent s → ∀ owner, Retained core.signedPreKeyPublic accountDeviceBundlePrekeyRetention
    (returned s owner) (window core s.mem.kv owner)

/-! ## The runs -/

/-- Every new pre-key has a public key of its own. -/
def Fresh (core : Core Snap) (s : BundleState Snap) (e : Event (sdk Snap) Fate) : Prop :=
  ∀ x, drawn e.exch = some x → (core.signedPreKeyPublic x).isSome = true ∧
    ∀ e' ∈ s.log, ∀ y, drawn e'.exch = some y →
    core.signedPreKeyPublic x ≠ core.signedPreKeyPublic y

/-- A window is written as its call has read it, and not by a write that
reports a failure. -/
def InTurn (s : BundleState Snap) (e : Event (sdk Snap) Fate) : Prop :=
  match e.op with
  | .set (.devicePreKey o p) _ =>
    undisturbed (.devicePreKey o p) e.tid s.log = true ∧ ∀ f, e.fate ≠ .landFail f
  | _ => True

/-- Any store, any calls, any storage faults. -/
def anyCalls (core : Core Snap) : BundleRules Snap where
  init _ := True
  may _ _ := True
  ok := Fresh core

def callsInTurn (core : Core Snap) : BundleRules Snap where
  init _ := True
  may _ _ := True
  ok s e := Fresh core s e ∧ InTurn s e

/-! ## One call -/

def readWindow : Proc.Exch (sdk Snap) → Option (Option StoredPreKey)
  | ⟨.get (.devicePreKey ..), .ok v⟩ => some v
  | _ => none

def wroteWindow : Proc.Exch (sdk Snap) → Bool
  | ⟨.set (.devicePreKey ..) _, .ok _⟩ => true
  | _ => false

/-- What a call for `owner` has drawn and read. -/
structure Seen where
  owner : Id
  drawn : Option Bytes
  read : Option (Option StoredPreKey)
  /-- it has written the window -/
  done : Bool

def Seen.start (c : BundleCall) : Seen := ⟨c.owner, none, none, false⟩

def Seen.next (w : Seen) (x : Proc.Exch (sdk Snap)) : Seen :=
  { w with
    drawn := (PreKeyWindow.drawn x).or w.drawn
    read := (readWindow x).or w.read
    done := w.done || wroteWindow x }

def mayWindow (core : Core Snap) (w : Seen) : Op Snap → Prop
  | .get (.devicePreKey o p) => (o = w.owner ∧ p = accountDeviceBundlePeerSentinel) ∧ w.read = none
  | .set (.devicePreKey o p) v => (o = w.owner ∧ p = accountDeviceBundlePeerSentinel) ∧
      ∃ state stored, w.drawn = some state ∧ w.read = some stored ∧
        v = .window (nextWindow core state (retainedStates core stored))
  | .delete (.devicePreKey ..) => False
  | _ => True

/-- The write of the window is a call's last operation. -/
def monitor (core : Core Snap) : Monitor (sdk Snap) Seen where
  next := Seen.next
  may w o := w.done = false ∧ mayWindow core w o

/-- A call returns a bundle if it has written the window. -/
def Post (_ : BundleCall) (w : Seen) (x : Except Err PrekeyBundle) : Prop := w.done = x.toBool

abbrev Lawful : Proc.Exch (sdk Snap) → Prop := fun _ => True

variable {svc : DeviceService Snap} {core : Core Snap} {α : Type}

def windowOps : List OpClass :=
  [.get .devicePreKey, .set .devicePreKey, .delete .devicePreKey, .x3dh]

theorem mayWindow_other {w : Seen} {o : Op Snap} (h : windowOps.contains (classOf o) = false) :
    mayWindow core w o ∧ ∀ r, w.next ⟨o, r⟩ = w := by
  have hsame : ∀ {x : Proc.Exch (sdk Snap)}, drawn x = none → readWindow x = none →
      wroteWindow x = false →
      w.next x = w := by
    intro x hd hr hw
    unfold Seen.next
    rw [hd, hr, hw, Option.none_or, Option.none_or, Bool.or_false]
  cases o with
  | get k =>
    cases k with
    | devicePreKey o p => cases h
    | _ => exact ⟨trivial, fun r => hsame rfl rfl rfl⟩
  | set k v =>
    cases k with
    | devicePreKey o p => cases h
    | _ => exact ⟨trivial, fun r => hsame rfl rfl rfl⟩
  | delete k =>
    cases k with
    | devicePreKey o p => cases h
    | _ => exact ⟨trivial, fun r => hsame rfl rfl rfl⟩
  | core q =>
    cases q with
    | prepareInviteBinding i => cases h
    | _ => exact ⟨trivial, fun r => hsame rfl rfl rfl⟩
  | _ => exact ⟨trivial, fun r => hsame rfl rfl rfl⟩

/-- A helper that has nothing to do with the window. -/
theorem obeys_helper {l : List OpClass} {Q : Seen → α → Prop} {w : Seen} {p : Proc (sdk Snap) α}
    (hp : Foot l p) (hl : l.all (fun c => !windowOps.contains c) = true) (hdone : w.done = false)
    (hq : ∀ x, Q w x) : Obeys (monitor core) Lawful Q w p := by
  refine obeys_still (Proc.All.mono (fun o ho => ?_) hp) hq
  have hother : windowOps.contains (classOf o) = false := by
    have := List.all_eq_true.mp hl _ (List.contains_iff_mem.mp ho.1)
    simpa using this
  obtain ⟨hmay, hnext⟩ : mayWindow core w o ∧ ∀ r, w.next ⟨o, r⟩ = w := mayWindow_other hother
  exact ⟨⟨hdone, hmay⟩, hnext⟩

theorem post_error (c : BundleCall) {w : Seen} (hdone : w.done = false) (e : Err) :
    Post c w (.error e) := hdone

theorem obeys_run (c : BundleCall) : Obeys (monitor svc.core) Lawful (Post c) (.start c)
    (buildAndRetainAccountDeviceBundle svc c.owner c.nowMs c.inboxIdOverride) := by
  have herror : ∀ e, Post c (.start c) (.error e) := post_error c rfl
  refine obeys_js_bind (obeys_ensure (fun _ => ?_) fun _ => herror _)
  refine obeys_js_bind ⟨⟨rfl, trivial⟩, fun now _ => ?_⟩
  refine obeys_js_bind (obeys_orThrow (fun inbox _ => ?_) fun _ => herror _)
  refine obeys_js_bind (obeys_helper foot_requireBound (by decide) rfl fun x => ?_)
  cases x with
  | error e => exact herror e
  | ok identity =>
    refine obeys_js_bind (obeys_orThrow (fun account _ => ?_) fun _ => herror _)
    -- the bundle: the device's keys, the pre-key and the signature
    refine obeys_js_bind
      (obeys_js_bind (obeys_js_bind (obeys_ensure (fun _ => ?_) fun _ => herror _)))
    refine obeys_js_bind (obeys_helper foot_loadDeviceIdentity (by decide) rfl fun x => ?_)
    cases x with
    | error e => exact herror e
    | ok keys =>
      refine ⟨⟨rfl, trivial⟩, fun built _ => ?_⟩
      match built with
      | .error e => exact herror e
      | .ok (bundle, state) =>
        refine obeys_js_bind ⟨⟨rfl, trivial⟩, fun signed _ => ?_⟩
        cases signed with
        | error e => exact post_error c rfl e
        | ok sig =>
          refine obeys_js_bind (obeys_ofExcept (fun _ _ => ?_) fun e _ => post_error c rfl e)
          -- read the window and write it back
          refine obeys_js_bind (obeys_js_bind ⟨⟨rfl, ⟨rfl, rfl⟩, rfl⟩, fun stored _ => ?_⟩)
          cases stored with
          | error e => exact post_error c rfl e
          | ok stored =>
            refine obeys_js_bind ⟨⟨rfl, ⟨rfl, rfl⟩, state, stored, rfl, rfl, rfl⟩,
              fun written _ => ?_⟩
            match written with
            | .error e => exact post_error c rfl e
            | .ok () => exact rfl

/-! ## Who has returned what -/

theorem mem_order {t : Nat} : ∀ {ts : List Nat}, t ∈ order ts → t ∈ ts
  | _ :: _, h => by
    rcases List.mem_cons.mp h with rfl | h
    · exact .head _
    · exact .tail _ (mem_order (List.mem_filter.mp h).1)

/-- The call that fires comes to the front if it has returned; nothing changes
for the others. -/
theorem filterMap_order {f f' : Nat → Option α} {t : Nat} {ts : List Nat} (ht : f t = none)
    (hrest : ∀ t', t ≠ t' → f' t' = f t') :
    (order (t :: ts)).filterMap f' = (f' t).toList ++ (order ts).filterMap f := by
  have htail : ((order ts).filter (· ≠ t)).filterMap f' = (order ts).filterMap f := by
    rw [List.filterMap_filter]
    refine List.filterMap_congr fun t' _ => ?_
    by_cases heq : t' = t
    · subst heq
      simp [ht]
    · simpa [heq] using hrest t' (Ne.symm heq)
  rw [order, List.filterMap_cons]
  cases f' t with
  | none => exact htail
  | some x => exact congrArg (x :: ·) htail

theorem drawn_of_drawnBy {t : Nat} {x : Bytes} : ∀ {log : List (Event (sdk Snap) Fate)},
    drawnBy t log = some x → ∃ e ∈ log, e.tid = t ∧ drawn e.exch = some x
  | e :: log, h => by
    have hold : drawnBy t log = some x → ∃ e' ∈ e :: log, e'.tid = t ∧ drawn e'.exch = some x := by
      intro h
      obtain ⟨e', he', hrest⟩ := drawn_of_drawnBy h
      exact ⟨e', .tail _ he', hrest⟩
    rw [drawnBy] at h
    split at h
    · rename_i ht
      rcases Option.or_eq_some_iff.mp h with hd | ⟨-, h⟩
      · exact ⟨e, .head _, ht, hd⟩
      · exact hold h
    · exact hold h

theorem bundleState_some {s : BundleState Snap} {o : Id} {t : Nat} {x : Bytes}
    (h : bundleState s o t = some x) :
    drawnBy t s.log = some x ∧ ∃ c b, s.threads[t]? = some ⟨c, .ret (.ok b)⟩ ∧ c.owner = o := by
  unfold bundleState at h
  split at h
  · rename_i c b hth
    split at h
    · rename_i ho
      exact ⟨h, c, b, hth, ho⟩
    · cases h
  · cases h

theorem mon_owner (core : Core Snap) (c : BundleCall) (t : Nat)
    (log : List (Event (sdk Snap) Fate)) :
    (Pool.mon (monitor core) (.start c) t log).owner = c.owner := by
  induction log with
  | nil => rfl
  | cons e log ih =>
    by_cases ht : e.tid = t
    · subst ht
      rw [Pool.mon_self]
      exact ih
    · rw [Pool.mon_other ht, ih]

theorem mon_drawn (core : Core Snap) (c : BundleCall) (t : Nat)
    (log : List (Event (sdk Snap) Fate)) :
    (Pool.mon (monitor core) (.start c) t log).drawn = drawnBy t log := by
  induction log with
  | nil => rfl
  | cons e log ih =>
    by_cases ht : e.tid = t
    · subst ht
      rw [Pool.mon_self, drawnBy, if_pos rfl, ← ih]
      rfl
    · rw [Pool.mon_other ht, drawnBy, if_neg ht, ih]

/-! ## All of them -/

def view (core : Core Snap) (s : BundleState Snap) (t : Nat) : Option Seen :=
  System.view (monitor core) Seen.start s t

/-- Two events have not drawn the same public key. -/
def Apart (core : Core Snap) (e e' : Event (sdk Snap) Fate) : Prop :=
  ∀ x y, drawn e.exch = some x → drawn e'.exch = some y →
  core.signedPreKeyPublic x ≠ core.signedPreKeyPublic y

instance : Std.Symm (Apart core) := ⟨fun _ _ hab y z hy hz heq => hab z y hz hy heq.symm⟩

structure Inv (core : Core Snap) (s : BundleState Snap) : Prop where
  conforms : System.Conforms (monitor core) Lawful Seen.start Post s
  apart : s.log.Pairwise (Apart core)
  named : ∀ e ∈ s.log, ∀ x, drawn e.exch = some x → (core.signedPreKeyPublic x).isSome = true
  /-- what a call has read is stored, as long as nothing was written since -/
  read : ∀ t w stored, view core s t = some w → w.read = some stored →
    undisturbed (windowKey w.owner) t s.log = true → s.mem.kv.lookup (windowKey w.owner) = stored
  kept : ∀ o, Retained core.signedPreKeyPublic accountDeviceBundlePrekeyRetention
    (returned s o) (window core s.mem.kv o)

namespace Inv

variable {s s' : BundleState Snap} {e : Event (sdk Snap) Fate} {c : BundleCall}
  {k : (sdk Snap).Ans e.op → Proc (sdk Snap) (Except Err PrekeyBundle)}

theorem self (h : Inv svc.core s) (hf : Pool.Fires (bundleCalls svc) s e c k s') :
    ∃ w, view svc.core s e.tid = some w ∧ (monitor svc.core).may w e.op ∧ w.owner = c.owner ∧
      w.drawn = drawnBy e.tid s.log ∧ view svc.core s' e.tid = some (w.next e.exch) :=
  ⟨_, System.view_fired hf, h.conforms.may hf, mon_owner .., mon_drawn .., System.view_self hf⟩

/-- The states of returned bundles are apart from those of a call that is
still running. -/
theorem running (h : Inv svc.core s) (hf : Pool.Fires (bundleCalls svc) s e c k s') {o : Id}
    {r x : Bytes} (hr : r ∈ returned s o) (hx : drawnBy e.tid s.log = some x) :
    svc.core.signedPreKeyPublic r ≠ svc.core.signedPreKeyPublic x := by
  obtain ⟨t, -, ht⟩ := List.mem_filterMap.mp hr
  obtain ⟨hd, c', b, hth, -⟩ := bundleState_some ht
  have hne : t ≠ e.tid := by
    rintro rfl
    rw [hf.thread] at hth
    cases hth
  obtain ⟨e₁, he₁, ht₁, hd₁⟩ := drawn_of_drawnBy hd
  obtain ⟨e₂, he₂, ht₂, hd₂⟩ := drawn_of_drawnBy hx
  have hevents : e₁ ≠ e₂ := by
    rintro rfl
    exact hne (ht₁.symm.trans ht₂)
  exact h.apart.forall he₁ he₂ hevents r x hd₁ hd₂

theorem returned_public (h : Inv svc.core s) {o : Id} {r : Bytes} (hr : r ∈ returned s o) :
    (svc.core.signedPreKeyPublic r).isSome = true := by
  obtain ⟨t, -, ht⟩ := List.mem_filterMap.mp hr
  obtain ⟨e, he, -, hd⟩ := drawn_of_drawnBy (bundleState_some ht).1
  exact h.named e he r hd

/-- What the firing call now has returned comes to the front. -/
theorem returned_step (hf : Pool.Fires (bundleCalls svc) s e c k s') (o : Id) :
    returned s' o = (bundleState s' o e.tid).toList ++ returned s o := by
  have hnone : bundleState s o e.tid = none := by
    unfold bundleState
    rw [hf.thread]
  have hrest : ∀ t, e.tid ≠ t → bundleState s' o t = bundleState s o t := by
    intro t ht
    unfold bundleState
    rw [hf.threads, List.getElem?_set_ne ht, hf.log, drawnBy, if_neg ht]
  unfold returned
  rw [hf.log, List.map_cons, filterMap_order hnone hrest]

/-- After an event the firing call has returned a bundle if and only if it was
the write of the window. -/
theorem ended (h : Inv svc.core s) (hf : Pool.Fires (bundleCalls svc) s e c k s') :
    (wroteWindow e.exch = true → ∃ b, k e.ans = .ret (.ok b)) ∧
      (wroteWindow e.exch = false → ∀ b, k e.ans ≠ .ret (.ok b)) := by
  obtain ⟨hlt, -⟩ := List.getElem?_eq_some_iff.mp hf.thread
  have hcon := System.conforms_fires h.conforms hf trivial
  have hth : s'.threads[e.tid]? = some ⟨c, k e.ans⟩ := by
    rw [hf.threads, List.getElem?_set_self hlt]
  have hobeys := hcon.obeys e.tid _ hth
  obtain ⟨w, -, hmay, -, -, hv'⟩ := h.self hf
  have hmon : Pool.mon (monitor svc.core) (Seen.start c) e.tid s'.log = w.next e.exch := by
    have hv :
        view svc.core s' e.tid = some (Pool.mon (monitor svc.core) (Seen.start c) e.tid s'.log) :=
      System.view_thread hth
    exact Option.some.inj (hv.symm.trans hv')
  dsimp only at hobeys
  rw [hmon] at hobeys
  have hdone : (w.next e.exch).done = wroteWindow e.exch := by
    change (w.done || wroteWindow e.exch) = wroteWindow e.exch
    rw [hmay.1, Bool.false_or]
  refine ⟨fun hw => ?_, fun hw b hk => ?_⟩
  · cases hk : k e.ans with
    | ask o k' =>
      rw [hk] at hobeys
      have := hobeys.1.1
      rw [hdone, hw] at this
      cases this
    | ret x =>
      rw [hk] at hobeys
      have hpost : (w.next e.exch).done = x.toBool := hobeys
      rw [hdone, hw] at hpost
      cases x with
      | error _ => cases hpost
      | ok b => exact ⟨b, rfl⟩
  · rw [hk] at hobeys
    have hpost : (w.next e.exch).done = true := hobeys
    rw [hdone, hw] at hpost
    cases hpost

theorem bundleState_self (hf : Pool.Fires (bundleCalls svc) s e c k s') (o : Id) :
    bundleState s' o e.tid = match k e.ans with
      | .ret (.ok _) => if c.owner = o then (drawn e.exch).or (drawnBy e.tid s.log) else none
      | _ => none := by
  obtain ⟨hlt, -⟩ := List.getElem?_eq_some_iff.mp hf.thread
  unfold bundleState
  rw [hf.threads, List.getElem?_set_self hlt, hf.log, drawnBy, if_pos rfl]
  cases k e.ans with
  | ask o k' => rfl
  | ret x => cases x <;> rfl

/-- An event that does not write a window changes no window. -/
theorem window_kept (h : Inv svc.core s) (hf : Pool.Fires (bundleCalls svc) s e c k s')
    (hturn : InTurn s e) (hw : wroteWindow e.exch = false) (o : Id) :
    window svc.core s'.mem.kv o = window svc.core s.mem.kv o := by
  unfold window
  cases halt : alters (windowKey o) e.op e.fate with
  | false => rw [lookup_kept (S := bundleCalls svc) rfl hf halt]
  | true =>
    obtain ⟨w, -, hmay, -, -, -⟩ := h.self hf
    obtain ⟨hlands, ⟨v, hop⟩ | hop⟩ := alters_cases halt
    · -- a write that lands is answered, or reports a failure
      have hact := hf.act
      obtain ⟨t, op, ans, f⟩ := e
      dsimp only at hop
      subst hop
      match ans with
      | .ok () => cases hw
      | .error err =>
        cases f with
        | landFail f => exact absurd rfl (hturn.2 f)
        | fail f => cases hlands
        | ok => cases hact
        | _ => cases hact
    · rw [hop] at hmay
      exact hmay.2.elim

/-- The write of a window puts the state of the returned bundle in front. -/
theorem kept_written (h : Inv svc.core s) (hf : Pool.Fires (bundleCalls svc) s e c k s')
    (hturn : InTurn s e) (hw : wroteWindow e.exch = true) (o : Id) :
    Retained svc.core.signedPreKeyPublic accountDeviceBundlePrekeyRetention (returned s' o)
      (window svc.core s'.mem.kv o) := by
  obtain ⟨w, hv, hmay, howner, hdrawn, -⟩ := h.self hf
  obtain ⟨b, hb⟩ := (h.ended hf).1 hw
  have hstate := bundleState_self hf o
  rw [hb] at hstate
  have hreturned := returned_step hf o
  obtain ⟨t, op, ans, f⟩ := e
  cases op with
  | set key v =>
    cases key with
    | devicePreKey o' p =>
      match ans with
      | .error _ => cases hw
      | .ok () =>
        obtain ⟨-, ⟨rfl, rfl⟩, state, stored, hd, hread, hval⟩ := hmay
        have hlook := lookup_set (S := bundleCalls svc) rfl hf rfl (act_set_ok hf.act)
        rw [hdrawn] at hd
        dsimp only [Option.or, drawn, Event.exch] at hstate hd hreturned
        by_cases ho : c.owner = o
        · have heq : w.owner = o := howner.trans ho
          have hold := h.read t w stored hv hread hturn.1
          rw [if_pos ho, hd] at hstate
          have hwin : window svc.core s'.mem.kv o = (nextWindow svc.core state
              (window svc.core s.mem.kv o)).filter fun x => (svc.core.signedPreKeyPublic
              x).isSome := by
            unfold window
            rw [← heq, hold, hlook, hval]
            rfl
          rw [hreturned, hstate, hwin]
          refine ((h.kept o).push fun r hr => h.running hf hr hd).filter fun r hr => ?_
          rcases List.mem_cons.mp hr with rfl | hr
          · obtain ⟨e', he', -, hd'⟩ := drawn_of_drawnBy hd
            exact h.named e' he' r hd'
          · exact h.returned_public hr
        · have hne : w.owner ≠ o := fun heq => ho (howner.symm.trans heq)
          have halt : alters (windowKey o) (.set (windowKey w.owner) v : Op Snap) f = false := by
            simp [alters, hne]
          rw [if_neg ho] at hstate
          rw [hreturned, hstate, window, lookup_kept (S := bundleCalls svc) rfl hf halt]
          exact h.kept o
    | _ => cases hw
  | _ => cases hw

theorem keeps_kept (h : Inv svc.core s) (hf : Pool.Fires (bundleCalls svc) s e c k s')
    (hturn : InTurn s e) (o : Id) :
    Retained svc.core.signedPreKeyPublic accountDeviceBundlePrekeyRetention (returned s' o)
      (window svc.core s'.mem.kv o) := by
  cases hw : wroteWindow e.exch with
  | true => exact h.kept_written hf hturn hw o
  | false =>
    have hnone : bundleState s' o e.tid = none := by
      rw [bundleState_self hf]
      split
      · rename_i b hb
        exact absurd hb ((h.ended hf).2 hw b)
      · rfl
    rw [returned_step hf, hnone, h.window_kept hf hturn hw]
    exact h.kept o

theorem keeps_read (h : Inv svc.core s) (hf : Pool.Fires (bundleCalls svc) s e c k s') {t : Nat}
    {w : Seen} {stored : Option StoredPreKey} (hv : view svc.core s' t = some w)
    (hread : w.read = some stored) (hclean : undisturbed (windowKey w.owner) t s'.log = true) :
    s'.mem.kv.lookup (windowKey w.owner) = stored := by
  by_cases hnow : e.tid = t ∧ reads (windowKey w.owner) e.op = true
  · -- it has just read the window
    obtain ⟨rfl, hnow⟩ := hnow
    obtain ⟨w₀, hv₀, hmay, -, -, hv'⟩ := h.self hf
    cases hv.symm.trans hv'
    change reads (windowKey w₀.owner) e.op = true at hnow
    obtain ⟨t, op, ans, f⟩ := e
    cases op with
    | get key =>
      simp only [reads, decide_eq_true_eq] at hnow
      subst hnow
      have hkept := lookup_kept (S := bundleCalls svc) rfl hf (k := windowKey w₀.owner) rfl
      match ans with
      | .ok v =>
        have hlook : s.mem.kv.lookup (windowKey w₀.owner) = v := act_get_ok hf.act
        rw [← Option.some.inj hread, ← hlook]
        exact hkept
      | .error _ =>
        have hnone : w₀.read = none := hmay.2.2
        cases hnone.symm.trans hread
    | _ => cases hnow
  · obtain ⟨hclean, hlook⟩ := undisturbed_step (S := bundleCalls svc) rfl hf hnow hclean
    rw [hlook]
    by_cases ht : e.tid = t
    · subst ht
      obtain ⟨w₀, hv₀, hmay, -, -, hv'⟩ := h.self hf
      cases hv.symm.trans hv'
      refine h.read e.tid w₀ stored hv₀ ?_ hclean
      rcases Option.or_eq_some_iff.mp hread with hread | ⟨-, hread⟩
      · obtain ⟨t, op, ans, f⟩ := e
        cases op with
        | get key =>
          cases key with
          | devicePreKey o p =>
            obtain ⟨-, ⟨rfl, rfl⟩, -⟩ := hmay
            exact absurd ⟨rfl, decide_eq_true rfl⟩ hnow
          | _ => cases hread
        | _ => cases hread
      · exact hread
    · exact h.read t w stored ((System.view_other hf ht).symm.trans hv) hread hclean

theorem fires (h : Inv svc.core s) (hf : Pool.Fires (bundleCalls svc) s e c k s')
    (hfresh : Fresh svc.core s e) (hturn : InTurn s e) : Inv svc.core s' where
  conforms := System.conforms_fires h.conforms hf trivial
  apart := by
    rw [hf.log]
    exact List.pairwise_cons.mpr ⟨fun e' he' x y hx hy => (hfresh x hx).2 e' he' y hy, h.apart⟩
  named e' he' x hx := by
    rw [hf.log] at he'
    rcases List.mem_cons.mp he' with rfl | he'
    · exact (hfresh x hx).1
    · exact h.named e' he' x hx
  read t w stored hv hread hclean := h.keeps_read hf hv hread hclean
  kept := h.keeps_kept hf hturn

/-- A new call has returned nothing. -/
theorem returned_spawn (h : Inv svc.core s) (c : BundleCall) (o : Id) :
    returned (s.spawn (bundleCalls svc) c) o = returned s o := by
  refine List.filterMap_congr fun t ht => ?_
  obtain ⟨e, he, rfl⟩ := List.mem_map.mp (mem_order ht)
  unfold bundleState
  rw [Pool.spawn_lt (h.conforms.tids e he)]
  rfl

theorem spawn (h : Inv svc.core s) (c : BundleCall) :
    Inv svc.core (s.spawn (bundleCalls svc) c) where
  conforms := System.conforms_spawn h.conforms (obeys_run c)
  apart := h.apart
  named := h.named
  read t w stored hv hread hclean := by
    rcases h.conforms.view_spawned hv with ⟨-, rfl⟩ | hv
    · cases hread
    · exact h.read t w stored hv hread hclean
  kept o := by
    rw [h.returned_spawn]
    exact h.kept o

end Inv

theorem inv_init (m : Mem Snap) : Inv core (⟨m, [], []⟩ : BundleState Snap) where
  conforms := System.conforms_init m
  apart := .nil
  named e he := by cases he
  read t w stored hv := by
    rw [view, System.view_init] at hv
    cases hv
  kept o := retained_nil

theorem inv_inductive (svc : DeviceService Snap) :
    ((bundleCalls svc).lts (callsInTurn svc.core)).Inductive (Inv svc.core) :=
  System.inductive_of (fun m _ => inv_init m) (fun _ c h _ => h.spawn c)
    (fun _ _ _ _ _ h hf hok => h.fires hf hok.1 hok.2)

/-- **The last bundles can be answered** in every run in which the calls take
turns at the window. -/
theorem window_retains (svc : DeviceService Snap) (s : BundleState Snap)
    (hr : ((bundleCalls svc).lts (callsInTurn svc.core)).Reachable s) : Answerable svc.core s :=
  fun _ o => ((inv_inductive svc).reachable s hr).kept o

namespace Example

open Counting

def phone : DeviceService Nat :=
  ⟨⟨Counting.core, false, true, false, none⟩, a, d, d, ⟨d, d⟩, some c, true, a, []⟩

/-- The store of account `a`, with a legacy state in the window. -/
def start : Store Nat :=
  ((∅ : Store Nat).insert (.identity a)
    (AccountKeys.toStored ⟨⟨a, a⟩, ⟨a, a⟩, a, some (bindingOf a 50)⟩)).insert (windowKey a) (.single
    [3])

def fresh (s : BundleState Nat) (e : Event (sdk Nat) Fate) : Bool :=
  (drawn e.exch).all fun x => (Counting.core.signedPreKeyPublic x).isSome &&
    s.log.all fun e' => (drawn e'.exch).all fun y =>
      Counting.core.signedPreKeyPublic x ≠ Counting.core.signedPreKeyPublic y

theorem fresh_spec {s : BundleState Nat} {e : Event (sdk Nat) Fate} (h : fresh s e = true) :
    Fresh Counting.core s e := by
  intro x hx
  simp only [fresh, hx, Option.all_some, Bool.and_eq_true, List.all_eq_true] at h
  refine ⟨h.1, fun e' he' y hy => ?_⟩
  have hne := h.2 e' he'
  rw [hy, Option.all_some, decide_eq_true_eq] at hne
  exact hne

def inTurn (s : BundleState Nat) (e : Event (sdk Nat) Fate) : Bool :=
  match e.op, e.fate with
  | .set (.devicePreKey _ _) _, .landFail _ => false
  | .set (.devicePreKey o p) _, _ => undisturbed (.devicePreKey o p) e.tid s.log
  | _, _ => true

theorem inTurn_spec {s : BundleState Nat} {e : Event (sdk Nat) Fate} (h : inTurn s e = true) :
    InTurn s e := by
  obtain ⟨t, op, ans, f⟩ := e
  cases op with
  | set key v =>
    cases key with
    | devicePreKey o p =>
      cases f with
      | landFail f => cases h
      | _ => exact ⟨h, nofun⟩
    | _ => trivial
  | _ => trivial

def anyJudge : System.Judge (anyCalls Counting.core) where
  may _ _ := true
  ok := fresh
  may_iff _ _ _ := trivial
  ok_iff _ _ h := fresh_spec h

def judge : System.Judge (callsInTurn Counting.core) where
  may _ _ := true
  ok s e := fresh s e && inTurn s e
  may_iff _ _ _ := trivial
  ok_iff _ _ h := by
    rw [Bool.and_eq_true] at h
    exact ⟨fresh_spec h.1, inTurn_spec h.2⟩

/-- No call is in flight, the bundles of `states` were returned and `kept` is
the window. -/
def windowStands (states kept : List Bytes) (s : BundleState Nat) : Bool :=
  (s.threads.all fun th => match th.proc with
    | .ret _ => true
    | _ => false) && returned s a = states && window Counting.core s.mem.kv a = kept

theorem windowStands_spec {states kept : List Bytes} {s : BundleState Nat}
    (h : windowStands states kept s = true) :
    Quiescent s ∧ returned s a = states ∧ window Counting.core s.mem.kv a = kept := by
  simp only [windowStands, Bool.and_eq_true, decide_eq_true_eq, List.all_eq_true] at h
  refine ⟨fun th hth => ?_, h.1.2, h.2⟩
  have hdone := h.1.1 th hth
  split at hdone
  · exact ⟨_, ‹_›⟩
  · cases hdone

def call : BundleCall := ⟨a, none, none⟩

end Example

open Example Counting in
/-- Two calls overlap: both read the same window, and the second write drops
the state of the bundle the first has returned. -/
theorem bundle_forgotten : ∃ s, ((bundleCalls phone).lts (anyCalls phone.core)).Reachable s ∧
    ¬ Answerable phone.core s := by
  obtain ⟨s, hr, hs⟩ := System.reachable_of_play (S := bundleCalls phone) anyJudge smooth
    [.call call, .call call, .go 0 14, .go 1 9, .run 1 (.rand 1), .go 1 2, .go 0 1, .go 1 1]
    (m := .ofStore start []) (P := windowStands [[1], [0]] [[1], [3]]) trivial (by decide +kernel)
  obtain ⟨hquiet, hreturned, hwindow⟩ := windowStands_spec hs
  refine ⟨s, hr, fun h => ?_⟩
  have hkept := (h hquiet a).newest
  rw [hreturned, show window phone.core s.mem.kv a = [[1], [3]] from hwindow] at hkept
  exact absurd hkept (by decide)

open Example Counting in
/-- Two calls, one after the other. -/
theorem window_retains_in_turn :
    ∃ s, ((bundleCalls phone).lts (callsInTurn phone.core)).Reachable s ∧ Quiescent s ∧
      returned s a = [[1], [0]] ∧ Answerable phone.core s := by
  obtain ⟨s, hr, hs⟩ := System.reachable_of_play (S := bundleCalls phone) judge smooth
    [.call call, .go 0 15, .call call, .go 1 9, .run 1 (.rand 1), .go 1 3]
    (m := .ofStore start []) (P := windowStands [[1], [0]] [[1], [0], [3]]) trivial
    (by decide +kernel)
  obtain ⟨hquiet, hreturned, -⟩ := windowStands_spec hs
  exact ⟨s, hr, hquiet, hreturned, window_retains phone s hr⟩

end RezSdk.L4.PreKeyWindow
