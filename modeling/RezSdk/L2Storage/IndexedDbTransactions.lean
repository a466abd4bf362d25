import RezSdk.Core.Object
import RezSdk.L2Storage.IndexedDb

/-!
# Requests and transactions of IndexedDB (`IndexedDbStorageProvider.js`)

Every `get`, `put` and `del` of the provider opens a transaction with one
request and returns a promise that four callbacks settle: `onsuccess` and
`onerror` of the request, `onabort` and `onerror` of the transaction; the first
one counts. The database decides the order of the events. A request is carried
out only when every earlier transaction it would conflict with has finished,
and what a write has done is seen by others once its transaction commits; a
transaction may abort at any time before that, also after its request has
succeeded.

The calls on a key-value store interleave with these events (`Call.idb`).
-/
namespace RezSdk.L2.IndexedDb

open RezSdk.L1

/-! ## The database -/

inductive Request
  | get (key : String)
  | put (key : String) (payload : Json)
  | del (key : String)

/-- The key that is written and what it is set to, if anything. -/
def Request.write : Request → Option (String × Option Json)
  | .get _ => none
  | .put key payload => some (key, some payload)
  | .del key => some (key, none)

inductive Phase
  | queued | succeeded | failed | committed | aborted
deriving DecidableEq

def Phase.finished : Phase → Bool
  | .committed | .aborted => true
  | _ => false

structure Tx where
  request : Request
  phase : Phase
  /-- how the promise was settled -/
  promise : Option (Except Err Json)

/-- The first callback settles the promise. -/
def Tx.settle (tx : Tx) (phase : Phase) (outcome : Except Err Json) : Tx :=
  { tx with phase, promise := some (tx.promise.getD outcome) }

structure Idb where
  /-- what is committed -/
  db : Db
  /-- the transactions, in the order they were created in -/
  txs : List Tx

inductive IdbEvent
  | success (tx : Nat)
  | error (tx : Nat) (e : Err)
  | complete (tx : Nat)
  | abort (tx : Nat) (e : Err)

/-- Every earlier transaction has finished, or both only read. -/
def Idb.ready (s : Idb) (i : Nat) (tx : Tx) : Bool :=
  (s.txs.take i).all fun t => t.phase.finished || t.request.write.isNone && tx.request.write.isNone

/-- A write takes effect. -/
def applyWrite (db : Db) : Option (String × Option Json) → Db
  | some (key, some payload) => OMap.set key payload db
  | some (key, none) => OMap.delete key db
  | none => db

/-- What `onsuccess` resolves with; nothing when it throws.
mirrors src/storage/IndexedDbStorageProvider.js:96, 111 and 125 -/
def Idb.outcome (lib : Lib) (s : Idb) : Request → Option (Except Err Json)
  | .get key => match cloneJson lib ((OMap.get key s.db).getD .null) with
    | .ok v => some (.ok v)
    | .error _ => none
  | .put _ payload => some (.ok payload)
  | .del _ => some (.ok .null)

/-- An event of the database; one that is not possible does nothing. -/
def Idb.event (lib : Lib) (s : Idb) : IdbEvent → Idb
  | .success i => match s.txs[i]? with
    | some tx =>
      if tx.phase = .queued ∧ s.ready i tx = true then
        { s with
          txs := s.txs.set i { tx with
            phase := .succeeded
            promise := tx.promise.or (s.outcome lib tx.request) } }
      else s
    | none => s
  | .error i e => match s.txs[i]? with
    | some tx =>
      if tx.phase = .queued ∧ s.ready i tx = true
        then { s with txs := s.txs.set i (tx.settle .failed (.error e)) } else s
    | none => s
  | .complete i => match s.txs[i]? with
    | some tx =>
      if tx.phase = .succeeded then
        { db := applyWrite s.db tx.request.write
          txs := s.txs.set i { tx with phase := .committed } }
      else s
    | none => s
  | .abort i e => match s.txs[i]? with
    | some tx =>
      if tx.phase.finished then s else { s with txs := s.txs.set i (tx.settle .aborted (.error e)) }
    | none => s

/-! ## The calls -/

inductive Step
  | request (r : Request)
  | resume (tx : Nat)
  | idb (ev : IdbEvent)

inductive Outside
  | openDb
  /-- the promise of the transaction is settled -/
  | settled (tx : Nat)
  | encrypt (physicalKey : String) (value : Json)
  | decrypt (physicalKey : String) (stored : Json)

abbrev Outside.Ans : Outside → Type
  | .openDb => Except Err Unit
  | .settled _ => Unit
  | .encrypt .. => Except Err Json
  | .decrypt .. => Except Err Json

abbrev outside : Iface := ⟨Outside, Outside.Ans⟩
abbrev idb : Iface := object Idb Unit Step outside
abbrev Storing (α : Type) : Type := Method Idb Unit Step outside Err α

/-- What a key-value store is constructed with. -/
structure StoreConfig where
  lib : Lib
  keyPrefix : String
  encrypted : Bool

def neverSettled : Err := { message := "" }

/-- Opens the database, then the transaction, and awaits its promise. -/
def awaitRequest (r : Request) : Storing Json := do
  let tx ← stretch (.request r) fun _ s => (.ok s.txs.length,
    { s with txs := s.txs ++ [⟨r, .queued, none⟩] })
  .ask (.await (.settled tx)) fun () =>
    stretch (.resume tx) fun _ s => ((s.txs[tx]?.bind Tx.promise).getD (.error neverSettled), s)

def openDb : Storing Unit := .ask (.await .openDb) .ret

/-- mirrors src/storage/IndexedDbStorageProvider.js:88-100 -/
def getAsync (key : String) : Storing Json := do
  openDb
  awaitRequest (.get key)

/-- mirrors src/storage/IndexedDbStorageProvider.js:102-115 -/
def putAsync (lib : Lib) (key : String) (value : Json) : Storing Json := do
  openDb
  let payload ← Js.ofExcept (cloneJson lib value)
  awaitRequest (.put key payload)

/-- mirrors src/storage/IndexedDbStorageProvider.js:117-129 -/
def delAsync (key : String) : Storing Json := do
  openDb
  awaitRequest (.del key)

/-- mirrors src/storage/IndexedDbStorageProvider.js:205-211 -/
def storeSet (cfg : StoreConfig) (key : String) (value : Json) : Storing Unit := do
  let physicalKey := cfg.keyPrefix ++ key
  let stored ← if cfg.encrypted then .ask (.await (.encrypt physicalKey value)) .ret else pure value
  let _ ← putAsync cfg.lib physicalKey stored
  return

/-- mirrors src/storage/IndexedDbStorageProvider.js:213-219 -/
def storeGet (cfg : StoreConfig) (key : String) : Storing (Option Json) := do
  let physicalKey := cfg.keyPrefix ++ key
  let stored ← getAsync physicalKey
  if isNull stored then return none
  if cfg.encrypted then
    let v ← .ask (.await (.decrypt physicalKey stored)) .ret
    return some v
  return some stored

/-- mirrors src/storage/IndexedDbStorageProvider.js:221-226 -/
def storeDelete (cfg : StoreConfig) (key : String) : Storing Bool := do
  let physicalKey := cfg.keyPrefix ++ key
  let stored ← getAsync physicalKey
  let _ ← delAsync physicalKey
  return !isNull stored

inductive StoreCall
  | set (key : String) (value : Json)
  | get (key : String)
  | delete (key : String)
  /-- the database does something -/
  | idb (ev : IdbEvent)

inductive Reply
  | done
  | value (v : Option Json)
  | deleted (existed : Bool)

def runStore (cfg : StoreConfig) : StoreCall → Storing Reply
  | .set key value => do
    storeSet cfg key value
    return .done
  | .get key => do
    let v ← storeGet cfg key
    return .value v
  | .delete key => do
    let existed ← storeDelete cfg key
    return .deleted existed
  | .idb ev => stretch (.idb ev) fun _ s => (.ok .done, s.event cfg.lib ev)

/-- A promise is heard of once it is settled. -/
def idbWorld : Environment Idb outside where
  allows s
    | .settled tx, _ => (s.txs[tx]?.bind Tx.promise).isSome
    | _, _ => true
  effect s _ _ := s

/-- Any number of calls on one store, and the events of its database. -/
def stores (cfg : StoreConfig) :
    System idb Idb (ObjFate Unit outside) StoreCall (Except Err Reply) :=
  .ofObject idbWorld (runStore cfg)

abbrev StoreState := Pool idb Idb (ObjFate Unit outside) StoreCall (Except Err Reply)
abbrev StoreRules := Discipline idb Idb (ObjFate Unit outside) StoreCall (Except Err Reply)

/-- Any interleaving, from any database with no transaction under way. -/
def anyOrder : StoreRules where
  init s := s.txs = []
  may _ _ := True
  ok _ _ := True

end RezSdk.L2.IndexedDb
