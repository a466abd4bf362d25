import RezSdk.Core.Object
import RezSdk.Core.OrderedMap
import RezSdk.L1Records.Basic

/-!
# The promise-chain mutexes (`withLock` in `PeerLinkService.js`, `#withLock` in
`DevicePeerSessions.js`)

Both keep a map from keys to the promise that the next call has to wait for.
The calls are numbered in the order in which they are made; the n-th call waits
for the promise it found (`previous`), which is that of an earlier call, or
`Promise.resolve()`. Then its function is called, and what that gives, a value
or an error, thrown or rejected, is its outcome.

* `withLock` leaves `queued = previous.finally(() => current)` in the map. It
  resolves `current` and deletes its entry at once (`release`), and then
  resolves or rejects with the outcome.
* `#withLock` leaves `tail`, which settles after `run`. The caller has `run`:
  it is settled with the outcome first (`settle`), and the entry is deleted by
  a reaction to `tail` afterwards (`cleanUp`).

None of the promises in the maps can reject, so what is awaited is only that
they are settled. How many jobs the promises take for it is not modelled: a
call may go on at any time after what it waits for has settled.
-/
namespace RezSdk.L3.Mutexes

open RezSdk.L1

/-- The map, and what the calls have made of their promises. -/
structure Locks where
  map : List (String × Nat)
  /-- whose promise each call waits for, newest call first -/
  previous : List (Option Nat)
  /-- whose `current` is resolved; of `#withLock`, whose `run` is settled -/
  settled : List Nat
deriving DecidableEq

namespace Locks

def new : Locks := ⟨[], [], []⟩

/-- The number of the next call. -/
def number (s : Locks) : Nat := s.previous.length

/-- mirrors src/peer-link/PeerLinkService.js:133-139 and
src/peer-link/DevicePeerSessions.js:80-83 -/
def queue (s : Locks) (key : String) : Locks :=
  { s with previous := OMap.get key s.map :: s.previous, map := OMap.set key s.number s.map }

/-- mirrors src/peer-link/PeerLinkService.js:145-147 and
src/peer-link/DevicePeerSessions.js:85-87 -/
def cleanUp (s : Locks) (key : String) (n : Nat) : Locks :=
  { s with map := if OMap.get key s.map = some n then OMap.delete key s.map else s.map }

def settle (s : Locks) (n : Nat) : Locks := { s with settled := n :: s.settled }

/-- mirrors src/peer-link/PeerLinkService.js:143-148 -/
def release (s : Locks) (key : String) (n : Nat) : Locks := (s.settle n).cleanUp key n

end Locks

/-- `queued` of a call is settled: what it waits for is, and its own `current`.
mirrors src/peer-link/PeerLinkService.js:138 -/
def queuedSettled (settled : List Nat) : List (Option Nat) → Nat → Bool
  | [], _ => false
  | previous :: older, n =>
    if n = older.length then decide (n ∈ settled) && previous.all (queuedSettled settled older)
    else queuedSettled settled older n

/-! ## The methods -/

section

variable {ε α : Type}

inductive Stretch (ε α : Type)
  | queue (key : String)
  /-- the `finally` of a call that ends with `r` -/
  | release (key : String) (n : Nat) (r : Except ε α)
  /-- `run` is settled with `r` -/
  | settle (n : Nat) (r : Except ε α)
  | cleanUp (key : String) (n : Nat)

def Stretch.apply (s : Locks) : Stretch ε α → Locks
  | .queue key => s.queue key
  | .release key n _ => s.release key n
  | .settle n _ => s.settle n
  | .cleanUp key n => s.cleanUp key n

inductive Await
  /-- call `n` waits; its function is called as soon as it goes on -/
  | previous (n : Nat) (p : Option Nat)
  /-- the outcome of the function of call `n` -/
  | outcome (n : Nat)
  /-- the outcome of a function that needs no lock -/
  | unlocked

abbrev Await.Ans (ε α : Type) : Await → Type
  | .previous .. => Unit
  | .outcome _ => Except ε α
  | .unlocked => Except ε α

abbrev outside (ε α : Type) : Iface := ⟨Await, Await.Ans ε α⟩
abbrev locks (ε α : Type) : Iface := object Locks Unit (Stretch ε α) (outside ε α)
abbrev Locking (ε α β : Type) : Type := Method Locks Unit (Stretch ε α) (outside ε α) ε β

def act {β : Type} (l : Stretch ε α) (f : Locks → β) : Locking ε α β :=
  .ask (.run l fun _ s => l.apply s) fun x => .ret (.ok (f x.2))

/-- mirrors src/peer-link/PeerLinkService.js:128-149 -/
def withLock (lockKey : String) : Locking ε α α :=
  if (trim lockKey).isEmpty then .ask (.await .unlocked) .ret
  else do
    let (n, previous) ← act (.queue (trim lockKey)) fun s =>
      (s.number, OMap.get (trim lockKey) s.map)
    let () ← .ask (.await (.previous n previous)) fun _ => .ret (.ok ())
    Js.attempt (.ask (.await (.outcome n)) .ret) fun r => do
      act (.release (trim lockKey) n r) fun _ => ()
      Js.ofExcept r

/-- mirrors src/peer-link/DevicePeerSessions.js:79-90 -/
def deviceLock (key : String) : Locking ε α α := do
  let (n, previous) ← act (.queue key) fun s => (s.number, OMap.get key s.map)
  let () ← .ask (.await (.previous n previous)) fun _ => .ret (.ok ())
  Js.attempt (.ask (.await (.outcome n)) .ret) fun r => do
    act (.settle n r) fun _ => ()
    act (.cleanUp key n) fun _ => ()
    Js.ofExcept r

/-! ## The systems -/

/-- A protected function may end at any time, and needs no call on its own key
for it. -/
def claimWorld : Environment Locks (outside ε α) where
  allows
    | s, .previous _ p, _ => p.all (queuedSettled s.settled s.previous)
    | _, _, _ => true
  effect s _ _ := s

def deviceWorld : Environment Locks (outside ε α) where
  allows
    | s, .previous _ p, _ => p.all fun q => decide (q ∈ s.settled)
    | _, _, _ => true
  effect s _ _ := s

abbrev LockState (ε α : Type) := Pool (locks ε α) Locks (ObjFate Unit (outside ε α)) String
    (Except ε α)
abbrev LockEvent (ε α : Type) := Event (locks ε α) (ObjFate Unit (outside ε α))
abbrev LockSystem (ε α : Type) := System (locks ε α) Locks (ObjFate Unit (outside ε α)) String
    (Except ε α)
abbrev LockRules (ε α : Type) := Discipline (locks ε α) Locks (ObjFate Unit (outside ε α)) String
    (Except ε α)

/-- Any number of calls of `withLock`. -/
def claimLocks (ε α : Type) : LockSystem ε α := .ofObject claimWorld withLock

/-- Any number of calls of `#withLock`, on one `DevicePeerSessions`. -/
def deviceLocks (ε α : Type) : LockSystem ε α := .ofObject deviceWorld deviceLock

def anyCalls : LockRules ε α where
  init s := s = .new
  may _ _ := True
  ok _ _ := True

end

end RezSdk.L3.Mutexes
