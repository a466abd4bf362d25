import Mathlib.Data.List.AList
import RezSdk.Core.Pool
import RezSdk.Core.PromiseLock
import RezSdk.L1Records.Messages

/-!
# The shared memory of one service instance

What the calls on one `PeerLinkService` share: the key-value store, the two
promise-chain lock tables, the decrypt counters, the account identity-DH key
and the ids handed out so far. `Op` lists the accesses, one for each await
(or synchronous access to shared state), and `act` is their effect.

A storage write can succeed, fail without landing, or land and then report a
failure; a read succeeds or fails (`Fate`). The clock answers any number: a
claim that needs it to be monotone says so. An id from `runtimeUuid` or
`stableId` was never used before.
-/
namespace RezSdk.L2

open RezSdk.L1

/-- The keys of the key-value store, by their prefix.
mirrors src/peer-link/createKeyValueBackedPeerLinkStorage.js (`_recordKey`,
`_pairKey`, `_indexKey`, `_deviceIndexKey`, `_identityKey`, `_invitePreKey`,
`_deviceIdentityKey`, `_devicePreKey`) and
src/peer-link/PeerLinkService.js:151-157, 260-262, 268-270, 3481 -/
inductive Key
  | peerLink (owner link : Id)
  | pair (owner peer : Id)
  | session (owner sid : Id)
  | sessionByLink (owner link : Id)
  | sessionByDevice (owner link device : Id)
  | attempt (owner hs : Id)
  | event (owner ev : Id)
  | eventIndex (owner link : Id)
  | identity (account : Id)
  | invitePreKey (owner invite : Id)
  | ackNonce (owner link : Id)
  | postCap (owner link : Id)
  | invite (owner invite : Id)
  | inviteByHash (owner hash : Id)
  | deviceIdentity (owner device : Id)
  | devicePreKey (owner peer : Id)
  | deviceSetFloor (owner peer : Id)
deriving DecidableEq

/-- What is stored under a key. -/
abbrev Val (Snap : Type) : Key → Type
  | .peerLink .. => PeerLinkRecord
  | .pair .. => Id
  | .session .. => SessionRecord Snap
  | .sessionByLink .. => Id
  | .sessionByDevice .. => Id
  | .attempt .. => HandshakeAttemptRecord
  | .event .. => EventRecord
  | .eventIndex .. => List Id
  | .identity _ => StoredAccountKeys
  | .invitePreKey .. => Bytes
  | .ackNonce .. => Id
  | .postCap .. => Bytes
  | .invite .. => InviteRecord
  | .inviteByHash .. => Id
  | .deviceIdentity .. => StoredDeviceIdentity
  | .devicePreKey .. => StoredPreKey
  | .deviceSetFloor .. => StoredFloor

/-- The prefixes that are scanned with `keys(prefix)`. -/
inductive Prefix | peerLinks | sessions | attempts
deriving DecidableEq

/-- "peer-link:sessions:" is also a prefix of the two session indexes. -/
def Prefix.matches : Prefix → Key → Bool
  | .peerLinks, .peerLink .. => true
  | .sessions, .session .. => true
  | .sessions, .sessionByLink .. => true
  | .sessions, .sessionByDevice .. => true
  | .attempts, .attempt .. => true
  | _, _ => false

/-- `INVITE_CLAIM_LOCKS` and `DevicePeerSessions.#locks`. -/
inductive LockTable | inviteClaims | deviceSessions
deriving DecidableEq

abbrev LockKey := LockTable × String

inductive Op (Snap : Type)
  | get (k : Key)
  | set (k : Key) (v : Val Snap k)
  | delete (k : Key)
  | keys (p : Prefix)
  | clock
  | runtimeUuid
  | stableId (kind : String)
  | chain (k : LockKey)
  | enter (k : LockKey) (prev : Option Nat) (pid : Nat)
  | release (k : LockKey) (pid : Nat)
  /-- `#decryptFailureCounts` + 1 -/
  | countFailure (key : String)
  /-- clear `#decryptFailureCounts` and `#anyPeerMissCounts` -/
  | clearCounts (key : String)
  /-- set `#anyPeerLastSuccessAt` -/
  | markSuccess (key : String) (atMs : Nat)
  /-- `#anyPeerMissCounts` + 1, and read `#anyPeerLastSuccessAt` -/
  | countMiss (key : String)
  | accountDh
  | adoptAccountDh (kp : KeyPair)
  | core (q : CoreCall Snap)

abbrev Op.Ans {Snap : Type} : Op Snap → Type
  | .get k => Except Err (Option (Val Snap k))
  | .set .. => Except Err Unit
  | .delete _ => Except Err Bool
  | .keys _ => Except Err (List Key)
  | .clock => Nat
  | .runtimeUuid => Id
  | .stableId _ => Id
  | .chain _ => Option Nat × Nat
  | .enter .. => Unit
  | .release .. => Unit
  | .countFailure _ => Nat
  | .clearCounts _ => Unit
  | .markSuccess .. => Unit
  | .countMiss _ => Nat × Nat
  | .accountDh => Option KeyPair
  | .adoptAccountDh _ => Unit
  | .core q => Except Err q.Value

abbrev sdk (Snap : Type) : Iface := ⟨Op Snap, Op.Ans⟩

/-- An asynchronous function of the service. -/
abbrev Sdk (Snap α : Type) : Type := Js (sdk Snap) Err α

abbrev Store (Snap : Type) := AList (Val Snap)

structure Mem (Snap : Type) where
  kv : Store Snap
  used : List Id
  locks : PromiseLock.Locks LockKey
  failures : String → Nat
  misses : String → Nat
  successes : String → Nat
  accountDh : Option KeyPair

/-- A memory with the given store and the ids already in use. -/
def Mem.ofStore {Snap : Type} (kv : Store Snap) (used : List Id) : Mem Snap :=
  ⟨kv, used, PromiseLock.empty, fun _ => 0, fun _ => 0, fun _ => 0, none⟩

inductive Fate
  | ok
  | fail (f : Fault)
  | landFail (f : Fault)
  | time (n : Nat)
  | fresh (i : Id)
  | rand (n : Nat)

/-- The operation takes effect. -/
def Fate.lands : Fate → Bool
  | .fail _ => false
  | _ => true

section

variable {Snap : Type}

def bump (m : String → Nat) (key : String) : String → Nat :=
  fun k => if k = key then m key + 1 else m k

def put (m : String → Nat) (key : String) (v : Nat) : String → Nat :=
  fun k => if k = key then v else m k

/-- The answer to an operation of thread `t` and the memory after it; `none`
when the operation cannot happen now, or not with this fate. -/
def act (core : Core Snap) (t : Nat) (m : Mem Snap) : (o : Op Snap) → Fate →
    Option (o.Ans × Mem Snap)
  | .get k, .ok => some (.ok (m.kv.lookup k), m)
  | .get _, .fail f => some (.error (.fault f), m)
  | .set k v, .ok => some (.ok (), { m with kv := m.kv.insert k v })
  | .set _ _, .fail f => some (.error (.fault f), m)
  | .set k v, .landFail f => some (.error (.fault f), { m with kv := m.kv.insert k v })
  | .delete k, .ok => some (.ok (m.kv.lookup k).isSome, { m with kv := m.kv.erase k })
  | .delete _, .fail f => some (.error (.fault f), m)
  | .delete k, .landFail f => some (.error (.fault f), { m with kv := m.kv.erase k })
  | .keys p, .ok => some (.ok (m.kv.keys.filter p.matches), m)
  | .keys _, .fail f => some (.error (.fault f), m)
  | .clock, .time n => some (n, m)
  | .runtimeUuid, .fresh i => if i ∈ m.used then none else some (i, { m with used := i :: m.used })
  | .stableId _, .fresh i => if i ∈ m.used then none else some (i, { m with used := i :: m.used })
  | .chain k, .ok =>
    some ((PromiseLock.chain m.locks t k).1, { m with locks := (PromiseLock.chain m.locks t k).2 })
  | .enter _ prev pid, .ok =>
    (PromiseLock.enter m.locks prev pid).map fun l => ((), { m with locks := l })
  | .release k pid, .ok => some ((), { m with locks := PromiseLock.release m.locks k pid })
  | .countFailure key, .ok => some (m.failures key + 1, { m with failures := bump m.failures key })
  | .clearCounts key, .ok =>
    some ((), { m with failures := put m.failures key 0, misses := put m.misses key 0 })
  | .markSuccess key atMs, .ok => some ((), { m with successes := put m.successes key atMs })
  | .countMiss key, .ok =>
    some ((m.misses key + 1, m.successes key), { m with misses := bump m.misses key })
  | .accountDh, .ok => some (m.accountDh, m)
  | .adoptAccountDh kp, .ok => some ((), { m with accountDh := some kp })
  | .core q, .rand n => some (core.answer q n, m)
  | _, _ => none

/-- The one-operation programs. -/
def kvGet (k : Key) : Sdk Snap (Option (Val Snap k)) := .ask (.get k) .ret
def kvSet (k : Key) (v : Val Snap k) : Sdk Snap Unit := .ask (.set k v) .ret
def kvDelete (k : Key) : Sdk Snap Bool := .ask (.delete k) .ret
def kvKeys (p : Prefix) : Sdk Snap (List Key) := .ask (.keys p) .ret
def clock : Sdk Snap Nat := .ask .clock fun n => .ret (.ok n)
def runtimeUuid : Sdk Snap Id := .ask .runtimeUuid fun i => .ret (.ok i)
def stableId (kind : String) : Sdk Snap Id := .ask (.stableId kind) fun i => .ret (.ok i)
def callCore (q : CoreCall Snap) : Sdk Snap q.Value := .ask (.core q) .ret

/-- What an event does to the store. -/
def effect (kv : Store Snap) : (o : Op Snap) → Fate → Store Snap
  | .set k v, f => if f.lands then kv.insert k v else kv
  | .delete k, f => if f.lands then kv.erase k else kv
  | _, _ => kv

theorem act_kv {core : Core Snap} {t : Nat} {m m' : Mem Snap} {o : Op Snap} {f : Fate} {r : o.Ans}
    (h : act core t m o f = some (r, m')) : m'.kv = effect m.kv o f := by
  unfold act at h
  split at h <;> first
    | (cases h; rfl)
    | (split at h <;> first | (cases h; rfl) | cases h)
    | (obtain ⟨l, -, hl⟩ := Option.map_eq_some_iff.mp h; cases hl; rfl)
    | cases h

theorem act_core {core : Core Snap} {t : Nat} {m m' : Mem Snap} {q : CoreCall Snap} {f : Fate}
    {r : (Op.core q).Ans} (h : act core t m (.core q) f = some (r, m')) :
    ∃ n, r = core.answer q n := by
  cases f with
  | rand n =>
    simp only [act, Option.some.injEq, Prod.mk.injEq] at h
    exact ⟨n, h.1.symm⟩
  | _ => cases h

theorem act_used {core : Core Snap} {t : Nat} {m m' : Mem Snap} {o : Op Snap} {f : Fate} {r : o.Ans}
    (h : act core t m o f = some (r, m')) : m.used ⊆ m'.used := by
  unfold act at h
  split at h <;> first
    | (cases h; exact List.Subset.refl _)
    | (split at h <;> first | (cases h; exact List.subset_cons_self _ _) | cases h)
    | (obtain ⟨l, -, hl⟩ := Option.map_eq_some_iff.mp h; cases hl; exact List.Subset.refl _)
    | cases h

/-- A drawn id is new. -/
theorem act_uuid {core : Core Snap} {t : Nat} {m m' : Mem Snap} {f : Fate} {i : Id}
    (h : act core t m .runtimeUuid f = some (i, m')) : i ∉ m.used ∧ i ∈ m'.used := by
  cases f with
  | fresh j =>
    simp only [act] at h
    split at h
    · cases h
    · cases h; exact ⟨‹_›, .head _⟩
  | _ => cases h

theorem act_stableId {core : Core Snap} {t : Nat} {m m' : Mem Snap} {kind : String} {f : Fate}
    {i : Id} (h : act core t m (.stableId kind) f = some (i, m')) : i ∉ m.used ∧ i ∈ m'.used := by
  cases f with
  | fresh j =>
    simp only [act] at h
    split at h
    · cases h
    · cases h; exact ⟨‹_›, .head _⟩
  | _ => cases h

/-- Only an adoption changes the injected key. -/
theorem act_accountDh {core : Core Snap} {t : Nat} {m m' : Mem Snap} {o : Op Snap} {f : Fate}
    {r : o.Ans} (h : act core t m o f = some (r, m')) (ho : ∀ kp, o ≠ .adoptAccountDh kp) :
    m'.accountDh = m.accountDh := by
  unfold act at h
  split at h <;> first
    | exact absurd rfl (ho _)
    | (cases h; rfl)
    | (split at h <;> first | (cases h; rfl) | cases h)
    | (obtain ⟨l, -, hl⟩ := Option.map_eq_some_iff.mp h; cases hl; rfl)
    | cases h

theorem act_get_ok {core : Core Snap} {t : Nat} {m m' : Mem Snap} {k : Key} {f : Fate}
    {v : Option (Val Snap k)} (h : act core t m (.get k) f = some (.ok v, m')) :
    m.kv.lookup k = v := by
  cases f <;> cases h
  rfl

theorem act_set_ok {core : Core Snap} {t : Nat} {m m' : Mem Snap} {k : Key} {v : Val Snap k}
    {f : Fate} (h : act core t m (.set k v) f = some (.ok (), m')) : f.lands = true := by
  cases f with
  | fail f => cases h
  | _ => rfl

end
end RezSdk.L2
