import RezSdk.L3Service.Counting
import RezSdk.L3Service.Footprints
import RezSdk.L4Runs.PreKeyWindow

/-!
# The pre-key a responder answers with

An initiator names the signed pre-key it computed against. The state of that
pre-key may be retained in the slot of this peer (a bundle built for it alone)
or in the account-wide window (a bundle its home has handed out), and
`completeDeviceSetResponder` looks at the slot first: whatever is there is
used, without comparing it with the name. Once an account has moved to the
account-wide bundles, every handshake of a peer that still has a slot is
answered with the wrong key (`wrong_prekey`).

* `responder_picks`: the named state is used exactly when the slot is empty or
  holds it.
-/
namespace RezSdk.L4.ResponderPreKey

open RezSdk.L1 RezSdk.L2 RezSdk.L3

variable {Snap : Type}

abbrev Exch (Snap : Type) := Proc.Exch (sdk Snap)

/-! ## The property -/

/-- Every state retained for a handshake of `peer`: in its slot, and in the
window. -/
def retained (core : Core Snap) (kv : Store Snap) (owner peer : Id) : List Bytes :=
  ((kv.lookup (.devicePreKey owner peer) : Option StoredPreKey).map (preKeyObject core)).toList ++
    PreKeyWindow.window core kv owner

/-- The pre-keys a call reads are those of `kv`. -/
def ReadsFrom (kv : Store Snap) : Exch Snap → Prop
  | ⟨.get (.devicePreKey o p), .ok v⟩ => v = kv.lookup (.devicePreKey o p)
  | _ => True

/-- The state a key exchange was run with. -/
def exchanged : Exch Snap → Option Bytes
  | ⟨.core (.completeInviteHandshake i), _⟩ => some i.preKeyState
  | _ => none

/-- The read of the peer's slot has been answered. -/
def readsSlot (owner peer : Id) : Exch Snap → Bool
  | ⟨.get k, .ok _⟩ => k = .devicePreKey owner peer
  | _ => false

/-- The store or the crypto provider has reported an error. -/
def fault : Exch Snap → Bool
  | ⟨.get _, .error _⟩ => true
  | ⟨.set .., .error _⟩ => true
  | ⟨.core _, .error _⟩ => true
  | _ => false

def missing (peer : Id) : Err :=
  .coded "PEER_LINK_DEVICE_PREKEY_MISSING"
    ("no retained device pre-key state for peer " ++ peer.val)

/-- A call that has come as far as looking for the state, and met no fault. -/
def Looked (owner peer : Id) (τ : List (Exch Snap)) : Prop :=
  (∃ x ∈ τ, readsSlot owner peer x = true) ∧ ∀ x ∈ τ, fault x = false

/-- What is asked of a completed call for a handshake that names `k`. -/
structure Proper (core : Core Snap) (kv : Store Snap) (owner peer : Id) (k : String)
    (τ : List (Exch Snap)) (x : Except Err (Id × Id)) : Prop where
  never_other : ∀ y ∈ τ, ∀ state, exchanged y = some state →
    state ∈ retained core kv owner peer ∧ core.signedPreKeyPublic state = some k
  found : (∃ state ∈ retained core kv owner peer, core.signedPreKeyPublic state = some k) →
    Looked owner peer τ → ∃ y ∈ τ, (exchanged y).isSome = true
  none_left : (∀ state ∈ retained core kv owner peer, core.signedPreKeyPublic state ≠ some k) →
    Looked owner peer τ → x = .error (missing peer)

/-- Every run of the call over the pre-keys of `kv` is proper. -/
def Picks (svc : DeviceService Snap) (kv : Store Snap) (owner peer device : Id)
    (handshake : HandshakeData) (k : String) : Prop :=
  ∀ τ x, Proc.Trace (completeDeviceSetResponder svc owner peer device handshake) τ x →
  (∀ y ∈ τ, ReadsFrom kv y) →
    Proper svc.core kv owner peer k τ x

/-- The peer's slot is empty or holds the state of `k`. -/
def SlotFits (core : Core Snap) (kv : Store Snap) (owner peer : Id) (k : String) : Prop :=
  ∀ stored : StoredPreKey, kv.lookup (.devicePreKey owner peer) = some stored →
    core.signedPreKeyPublic (preKeyObject core stored) = some k

/-! ## One call -/

structure Seen where
  /-- the slot was read -/
  slot : Bool
  /-- no fault so far -/
  clean : Bool
  ran : List Bytes

def Seen.next (owner peer : Id) (w : Seen) (x : Exch Snap) : Seen where
  slot := w.slot || readsSlot owner peer x
  clean := w.clean && !fault x
  ran := (exchanged x).toList ++ w.ran

def monitor (owner peer : Id) : Monitor (sdk Snap) Seen := ⟨Seen.next owner peer, fun _ _ => True⟩

def Seen.start : Seen := ⟨false, true, []⟩

theorem after_start (owner peer : Id) :
    ∀ σ : List (Exch Snap),
      (monitor owner peer).after .start σ =
        ⟨σ.any (readsSlot owner peer), σ.all (!fault ·), σ.filterMap exchanged⟩
  | [] => rfl
  | x :: σ => by
    rw [Monitor.after, after_start owner peer σ, List.any_cons, List.all_cons,
      Bool.or_comm, Bool.and_comm,
      List.filterMap_cons]
    cases hx : exchanged x <;> simp [monitor, Seen.next, hx]

/-- `Proper`, as a call's own record shows it. -/
structure Post (core : Core Snap) (kv : Store Snap) (owner peer : Id) (k : String) (w : Seen)
    (x : Except Err (Id × Id)) : Prop where
  never_other : ∀ state ∈ w.ran, state ∈ retained core kv owner peer ∧
    core.signedPreKeyPublic state = some k
  found : (∃ state ∈ retained core kv owner peer, core.signedPreKeyPublic state = some k) →
    w.slot = true → w.clean = true → w.ran ≠ []
  none_left : (∀ state ∈ retained core kv owner peer, core.signedPreKeyPublic state ≠ some k) →
    w.slot = true → w.clean = true → x = .error (missing peer)

theorem proper_of_obeys {core : Core Snap} {kv : Store Snap} {owner peer : Id} {k : String}
    {p : Proc (sdk Snap) (Except Err (Id × Id))}
    (h : Obeys (monitor owner peer) (ReadsFrom kv) (Post core kv owner peer k) .start p)
    {τ : List (Exch Snap)} {x : Except Err (Id × Id)} (ht : Proc.Trace p τ x)
    (hl : ∀ y ∈ τ, ReadsFrom kv y) : Proper core kv owner peer k τ x := by
  have hpost := h.trace ht hl
  rw [after_start] at hpost
  have hlooked : Looked owner peer τ → τ.reverse.any (readsSlot owner peer) = true ∧
      τ.reverse.all (!fault ·) = true := by
    rintro ⟨⟨y, hy, hslot⟩, hclean⟩
    rw [List.any_reverse, List.all_reverse]
    exact ⟨List.any_eq_true.mpr ⟨y, hy, hslot⟩,
      List.all_eq_true.mpr fun z hz => by rw [hclean z hz]; rfl⟩
  refine ⟨fun y hy state hstate => ?_, fun hex hlook => ?_, fun hno hlook => ?_⟩
  · exact hpost.never_other state (List.mem_filterMap.mpr ⟨y, List.mem_reverse.mpr hy, hstate⟩)
  · have hran := hpost.found hex (hlooked hlook).1 (hlooked hlook).2
    obtain ⟨state, hstate⟩ := List.exists_mem_of_ne_nil _ hran
    obtain ⟨y, hy, hexch⟩ := List.mem_filterMap.mp hstate
    exact ⟨y, List.mem_reverse.mp hy, by rw [hexch]; rfl⟩
  · exact hpost.none_left hno (hlooked hlook).1 (hlooked hlook).2

section

variable {svc : DeviceService Snap} {core : Core Snap} {kv : Store Snap} {owner peer device : Id}
  {k : String} {α : Type}

/-- Nothing was looked for yet. -/
theorem post_early {w : Seen} {x : Except Err (Id × Id)} (hslot : w.slot = false)
    (hran : w.ran = []) : Post core kv owner peer k w x where
  never_other state h := by
    rw [hran] at h
    cases h
  found _ h := by
    rw [hslot] at h
    cases h
  none_left _ h := by
    rw [hslot] at h
    cases h

/-- A fault has ended the call before the key exchange. -/
theorem post_fault {w : Seen} {x : Except Err (Id × Id)} (hclean : w.clean = false)
    (hran : w.ran = []) : Post core kv owner peer k w x where
  never_other state h := by
    rw [hran] at h
    cases h
  found _ _ h := by
    rw [hclean] at h
    cases h
  none_left _ _ h := by
    rw [hclean] at h
    cases h

/-- The key exchange was run with the named state. -/
theorem post_ran {w : Seen} {x : Except Err (Id × Id)} {state : Bytes} (hran : w.ran = [state])
    (hin : state ∈ retained core kv owner peer) (hk : core.signedPreKeyPublic state = some k) :
    Post core kv owner peer k w x where
  never_other state' h := by
    rw [hran] at h
    cases List.mem_singleton.mp h
    exact ⟨hin, hk⟩
  found _ _ _ := by
    rw [hran]
    exact List.cons_ne_nil _ _
  none_left h := absurd hk (h state hin)

def lookOps : List OpClass := [.get .devicePreKey, .x3dh]

/-- A helper that neither looks for the state nor runs the key exchange. -/
theorem obeys_aside {l : List OpClass} {L : Exch Snap → Prop} {Q : Seen → α → Prop}
    {p : Proc (sdk Snap) α} (hp : Foot l p) (hl : l.all (fun c => !lookOps.contains c) = true) :
    ∀ {w : Seen}, (∀ clean x, Q { w with clean } x) → Obeys (monitor owner peer) L Q w p := by
  induction p with
  | ret x => exact fun hq => hq _ x
  | ask o f ih =>
    intro w hq
    refine ⟨trivial, fun r _ => ?_⟩
    have hother : lookOps.contains (classOf o) = false := by
      have := List.all_eq_true.mp hl _ (List.contains_iff_mem.mp hp.1.1)
      simpa using this
    have hslot : readsSlot owner peer (⟨o, r⟩ : Exch Snap) = false := by
      cases o with
      | get key =>
        match r with
        | .error _ => rfl
        | .ok v =>
          cases key with
          | devicePreKey o p => cases hother
          | _ => simp [readsSlot]
      | _ => rfl
    have hran : exchanged (⟨o, r⟩ : Exch Snap) = none := by
      cases o with
      | core q =>
        cases q with
        | completeInviteHandshake i => cases hother
        | _ => rfl
      | _ => rfl
    refine ih r (hp.2 r) fun clean x => ?_
    have hsame : ({ (monitor owner peer).next w ⟨o, r⟩ with clean := clean } : Seen) =
        { w with clean := clean } := by
      simp only [monitor, Seen.next, hslot, hran, Bool.or_false, Option.toList_none,
        List.nil_append]
    rw [hsame]
    exact hq clean x

theorem obeys_establish {link : Id} {state : Bytes} {handshake : HandshakeData}
    {identityDh : KeyPair} {w : Seen} (hran : w.ran = [])
    (hin : state ∈ retained svc.core kv owner peer)
    (hk : svc.core.signedPreKeyPublic state = some k) :
    Obeys (monitor owner peer) (ReadsFrom kv) (Post svc.core kv owner peer k) w
      (establishResponderDeviceSession svc.toService
          { owner, peer, link, device, identityDh, preKeyState := state, handshake }) := by
  refine obeys_js_bind ⟨trivial, fun r _ => ?_⟩
  have hpost : ∀ clean slot (x : Except Err (Id × Id)), Post svc.core kv owner peer k ⟨slot,
      clean, [state]⟩ x :=
    fun _ _ _ => post_ran rfl hin hk
  have hstate : (monitor owner peer).next w
        (⟨.core (.completeInviteHandshake ⟨state, identityDh.privateKey, handshake, peer⟩), r⟩ :
          Exch Snap) =
      ⟨w.slot || false, w.clean && !fault
        (⟨.core (.completeInviteHandshake ⟨state, identityDh.privateKey, handshake, peer⟩), r⟩ :
          Exch Snap), [state]⟩ := by
    simp [monitor, Seen.next, exchanged, readsSlot, hran]
  rw [hstate]
  cases r with
  | error e => exact hpost ..
  | ok x =>
    refine obeys_js_bind (obeys_orThrow (fun key _ => ?_) fun _ => hpost ..)
    refine obeys_js_bind (obeys_ensure (fun _ => ?_) fun _ => hpost ..)
    refine obeys_js_bind (obeys_aside (foot_locked (l := .lock :: persistFoot) rfl
      (foot_persist.mono (by decide))) (by decide) fun clean x => ?_)
    cases x with
    | error e => exact hpost ..
    | ok sid => exact hpost ..

theorem device_passed (hdev : svc.hasDeviceSessions = true) {f : Unit → Sdk Snap α} :
    (requireDeviceSessions svc >>= f : Sdk Snap α) = f () := by
  unfold requireDeviceSessions
  rw [hdev]
  rfl

theorem obeys_session {link : Id} {state : Bytes} {handshake : HandshakeData} {w : Seen}
    (hdev : svc.hasDeviceSessions = true) (hran : w.ran = [])
    (hin : state ∈ retained svc.core kv owner peer)
    (hk : svc.core.signedPreKeyPublic state = some k) :
    Obeys (monitor owner peer) (ReadsFrom kv) (Post svc.core kv owner peer k) w
      (establishResponderSession svc owner peer link device state handshake) := by
  unfold establishResponderSession
  rw [device_passed hdev]
  refine obeys_js_bind ?_
  unfold loadDeviceIdentity
  rw [device_passed hdev]
  refine obeys_js_bind ⟨trivial, fun stored _ => ?_⟩
  cases stored with
  | error e => exact post_fault (Bool.and_false _) hran
  | ok stored =>
    dsimp only [Obeys, Goes]
    split
    · exact obeys_establish hran hin hk
    · refine obeys_js_bind ⟨trivial, fun dh _ => ?_⟩
      cases dh with
      | error e => exact post_fault (Bool.and_false _) hran
      | ok dh =>
        refine obeys_js_bind ⟨trivial, fun written _ => ?_⟩
        match written with
        | .error e => exact post_fault (Bool.and_false _) hran
        | .ok () => exact obeys_establish hran hin hk

/-- The state the code takes from the window is the named one. -/
theorem select_named {states : List Bytes} {handshake : HandshakeData} {state : Bytes}
    (hname : handshake.receiverSignedPreKeyPubB64 = some k) (hk : k.isEmpty = false)
    (h : selectPreKeyStateFor core states handshake = some state) :
    state ∈ states ∧ core.signedPreKeyPublic state = some k := by
  rw [selectPreKeyStateFor, hname] at h
  simp only [hk, Bool.false_eq_true, if_false] at h
  have hpub := List.find?_some h
  exact ⟨List.mem_of_find?_eq_some h, by simpa using hpub⟩

theorem select_none {states : List Bytes} {handshake : HandshakeData}
    (hname : handshake.receiverSignedPreKeyPubB64 = some k) (hk : k.isEmpty = false)
    (h : selectPreKeyStateFor core states handshake = none) :
    ∀ state ∈ states, core.signedPreKeyPublic state ≠ some k := by
  rw [selectPreKeyStateFor, hname] at h
  simp only [hk, Bool.false_eq_true, if_false] at h
  intro state hstate heq
  exact absurd (decide_eq_true heq) (by simpa using List.find?_eq_none.mp h state hstate)

theorem obeys_complete {handshake : HandshakeData}
    (hname : handshake.receiverSignedPreKeyPubB64 = some k) (hk : k.isEmpty = false)
    (hfits : svc.hasDeviceSessions = true → SlotFits svc.core kv owner peer k) :
    Obeys (monitor owner peer) (ReadsFrom kv) (Post svc.core kv owner peer k) .start
      (completeDeviceSetResponder svc owner peer device handshake) := by
  refine obeys_js_bind (obeys_ensure (fun hdev => ?_) fun _ => post_early rfl rfl)
  refine obeys_js_bind (obeys_aside foot_peerContext (by decide) fun clean x => ?_)
  cases x with
  | error e => exact post_early rfl rfl
  | ok context =>
    refine obeys_js_bind (obeys_js_bind ⟨trivial, fun own hown => ?_⟩)
    match own with
    | .error e => exact post_fault (Bool.and_false _) rfl
    | .ok (some stored) =>
      -- whatever the slot holds is used
      have hlook : kv.lookup (.devicePreKey owner peer) = some stored := hown.symm
      refine obeys_js_bind ?_
      refine obeys_session hdev rfl ?_ (hfits hdev stored hlook)
      unfold retained
      rw [hlook]
      exact .head _
    | .ok none =>
      have hlook : kv.lookup (.devicePreKey owner peer) = none := hown.symm
      have hretained : retained svc.core kv owner peer = PreKeyWindow.window svc.core kv owner := by
        unfold retained
        rw [hlook]
        rfl
      refine obeys_js_bind (obeys_js_bind ⟨trivial, fun win hwin => ?_⟩)
      match win with
      | .error e => exact post_fault (Bool.and_false _) rfl
      | .ok stored =>
        cases (show stored = kv.lookup (.devicePreKey owner accountDeviceBundlePeerSentinel)
          from hwin)
        change Obeys _ _ _ _ (do
          let state ← Js.orThrow
            (selectPreKeyStateFor svc.core (PreKeyWindow.window svc.core kv owner) handshake)
            (missing peer)
          establishResponderSession svc owner peer context.peerLinkId device state handshake :
            Sdk Snap (Id × Id))
        refine obeys_js_bind (obeys_orThrow (fun state hsel => ?_) fun hsel => ?_)
        · obtain ⟨hin, hpub⟩ := select_named hname hk hsel
          exact obeys_session hdev rfl (hretained ▸ hin) hpub
        · -- no state of the window is the named one
          have hno := select_none hname hk hsel
          rw [← hretained] at hno
          refine ⟨fun state h => absurd h List.not_mem_nil, fun hex => ?_, fun _ _ _ => rfl⟩
          obtain ⟨state, hin, hpub⟩ := hex
          exact absurd hpub (hno state hin)

/-! ## A slot that holds another state -/

theorem trace_session {link : Id} {state : Bytes} {handshake : HandshakeData}
    (hdev : svc.hasDeviceSessions = true) :
    Proc.Trace (establishResponderSession svc owner peer link device state handshake)
      [⟨.get (.deviceIdentity svc.owner svc.deviceId),
          .ok (some (svc.identityRecord ⟨owner, owner⟩))⟩,
        ⟨.core (.completeInviteHandshake ⟨state, owner, handshake, peer⟩), .error (missing peer)⟩]
      (.error (missing peer)) := by
  unfold establishResponderSession
  rw [device_passed hdev]
  unfold loadDeviceIdentity
  rw [device_passed hdev]
  exact .ask _ (.ask _ (.ret _))

/-- The link and the device's key are there, and the key exchange is run with
the state in the slot. -/
theorem trace_slot (device : Id) (handshake : HandshakeData) {stored : StoredPreKey}
    (hdev : svc.hasDeviceSessions = true)
    (hslot : kv.lookup (.devicePreKey owner peer) = some stored) :
    ∃ τ x, Proc.Trace (completeDeviceSetResponder svc owner peer device handshake) τ x ∧
      (∀ y ∈ τ, ReadsFrom kv y) ∧ ∃ y ∈ τ, exchanged y = some (preKeyObject svc.core stored) := by
  let link : PeerLinkRecord :=
    ⟨owner, owner, peer, none, some peer, some peer, .sessionEstablished, none,
    none, none, false, 0, none, none, 1⟩
  have htrace : Proc.Trace (completeDeviceSetResponder svc owner peer device handshake)
      [⟨.get (.pair owner peer), .ok (some owner)⟩, ⟨.get (.peerLink owner owner), .ok (some link)⟩,
        ⟨.get (.devicePreKey owner peer), .ok (some stored)⟩,
        ⟨.get (.deviceIdentity svc.owner svc.deviceId),
        .ok (some (svc.identityRecord ⟨owner, owner⟩))⟩,
        ⟨.core (.completeInviteHandshake ⟨preKeyObject svc.core stored, owner, handshake, peer⟩),
          .error (missing peer)⟩] (.error (missing peer)) := by
    unfold completeDeviceSetResponder
    rw [device_passed hdev]
    exact .ask _ (.ask _ (.ask _ (trace_session hdev)))
  refine ⟨_, _, htrace, fun y hy => ?_, _, .tail _ (.tail _ (.tail _ (.tail _ (.head _)))), rfl⟩
  simp only [List.mem_cons, List.not_mem_nil, or_false] at hy
  rcases hy with rfl | rfl | rfl | rfl | rfl
  · trivial
  · trivial
  · exact hslot.symm
  · trivial
  · trivial

theorem slotFits_of_picks {handshake : HandshakeData}
    (h : Picks svc kv owner peer device handshake k) (hdev : svc.hasDeviceSessions = true) :
    SlotFits svc.core kv owner peer k := by
  intro stored hslot
  obtain ⟨τ, x, ht, hl, y, hy, hexch⟩ := trace_slot device handshake hdev hslot
  exact ((h τ x ht hl).never_other y hy _ hexch).2

theorem picks_of_slotFits {handshake : HandshakeData}
    (hname : handshake.receiverSignedPreKeyPubB64 = some k) (hk : k.isEmpty = false)
    (hfits : svc.hasDeviceSessions = true → SlotFits svc.core kv owner peer k) :
    Picks svc kv owner peer device handshake k :=
  fun _ _ ht hl => proper_of_obeys (obeys_complete hname hk hfits) ht hl

end

/-- **The named pre-key** is used if and only if the peer's slot is empty or
holds it (or the service has no device key, and refuses every call). -/
theorem responder_picks (svc : DeviceService Snap) (kv : Store Snap) (owner peer device : Id)
    (handshake : HandshakeData) (k : String) (hname : handshake.receiverSignedPreKeyPubB64 = some k)
    (hk : k.isEmpty = false) :
    Picks svc kv owner peer device handshake k ↔
    (svc.hasDeviceSessions = true → SlotFits svc.core kv owner peer k) :=
  ⟨slotFits_of_picks, picks_of_slotFits hname hk⟩

/-! ## How the two stores come about -/

/-- The calls that retain a state: publishing to one peer, alone or for all
devices of the account, and publishing to the account's home. -/
inductive PublishCall
  | toPeer (a : PublishArgs)
  | toHome (owner : Id) (nowMs : Option Nat) (inboxIdOverride : Option (Option Id))
deriving DecidableEq

inductive PublishReply
  | record (r : DurableRecord)
  | bundle (b : PrekeyBundle)
deriving DecidableEq

abbrev PublishState (Snap : Type) := Pool (sdk Snap) (Mem Snap) Fate PublishCall
    (Except Err PublishReply)

def publish (svc : DeviceService Snap) :
    System (sdk Snap) (Mem Snap) Fate PublishCall (Except Err PublishReply) where
  act := act svc.core
  prog
    | .toPeer a => (do
      let r ← buildDeviceSetRecordForPeer svc a
      return .record r : Sdk Snap PublishReply)
    | .toHome owner nowMs inbox => (do
      let b ← buildAndRetainAccountDeviceBundle svc owner nowMs inbox
      return .bundle b : Sdk Snap PublishReply)

/-- Every history of these calls. -/
def histories (start : Mem Snap → Prop) :
    Discipline (sdk Snap) (Mem Snap) Fate PublishCall (Except Err PublishReply) where
  init := start
  may _ _ := True
  ok _ _ := True

namespace Example

open Counting

def judge : System.Judge (histories fun m : Mem Nat => m.kv.lookup (.devicePreKey a b) = none ∧
    m.kv.lookup (PreKeyWindow.windowKey a) = none) where
  may _ _ := true
  ok _ _ := true
  may_iff _ _ _ := trivial
  ok_iff _ _ _ := trivial

/-- The handshake of a peer that has computed against the pre-key `k`. -/
def naming (k : String) : HandshakeData :=
  { handshakeFor b a a with receiverSignedPreKeyPubB64 := some k }

def returned (s : PublishState Nat) : Bool :=
  s.threads.all fun th => match th.proc with
    | .ret (.ok _) => true
    | _ => false

/-- Both calls have returned; the slot holds `b`, and the window `c`. -/
def moved (s : PublishState Nat) : Bool :=
  returned s && (s.mem.kv.lookup (.devicePreKey a b) : Option StoredPreKey) = some (.single [1]) &&
    PreKeyWindow.window deviceCore s.mem.kv a = [[2]]

end Example

open Example Counting in
/-- The account publishes to the peer alone, later to its home, and the peer
computes against the bundle of the home: its handshake names a state of the
window, and is answered with the one in the slot. -/
theorem wrong_prekey :
    ∃ s,
      ((publish tablet).lts (histories fun m => m.kv.lookup (.devicePreKey a b) = none ∧ m.kv.lookup
                (PreKeyWindow.windowKey a) = none)).Reachable s ∧
      (∃ state ∈ retained tablet.core s.mem.kv a b,
          tablet.core.signedPreKeyPublic state = some "c") ∧
      ¬ Picks tablet s.mem.kv a b d (naming "c") "c" := by
  obtain ⟨s, hr, hs⟩ := System.reachable_of_play (S := publish tablet) judge smooth
    [.call (.toPeer ⟨a, b, none, 1, []⟩), .go 0 22, .run 0 (.rand 1), .go 0 8,
      .call (.toHome a none none), .go 1 9, .run 1 (.rand 2), .go 1 3]
    (m := .ofStore peered []) (P := moved) ⟨rfl, rfl⟩ (by decide +kernel)
  simp only [moved, Bool.and_eq_true, decide_eq_true_eq] at hs
  obtain ⟨⟨-, hslot⟩, hwindow⟩ := hs
  refine ⟨s, hr, ⟨[2], ?_, rfl⟩, fun h => ?_⟩
  · refine List.mem_append_right _ ?_
    rw [show PreKeyWindow.window tablet.core s.mem.kv a = [[2]] from hwindow]
    exact .head _
  · have hpub := slotFits_of_picks h rfl _ hslot
    exact absurd hpub (by decide)

open Example Counting in
/-- Without a slot the named state of the window is used. -/
theorem responder_picks_window : Picks tablet
    (peered.insert (PreKeyWindow.windowKey a) (.window [[2], [1]])) a b d (naming "b") "b" :=
  (responder_picks tablet _ a b d (naming "b") "b" rfl (by decide)).mpr fun _ stored hstored => by
    cases hstored

end RezSdk.L4.ResponderPreKey
