import RezSdk.Core.Object
import RezSdk.Core.OrderedMap
import RezSdk.L1Records.Json

/-!
# The client's inbox claims (`InboxClaimStore.js`)

The claims are a map from inbox ids to record objects, and one value of a
key-value store holds the whole table. `persist`, `recordAcceptedLease` and
`remintGeneration` change a record or the map, write the table, and take their
change back when the write fails. Records are objects: a call that holds one
sees what others have written into it, and may hold one that is no longer in
the map, so the model keeps a heap and the map holds references.

A call of `kv.set` is outstanding until it is answered (`queue`); it may be
answered in any order, and a failing one leaves the stored value alone.
-/
namespace RezSdk.L2.InboxClaims

open RezSdk.L1

/-! ## Data -/

inductive RetentionClass | transient | standard
deriving DecidableEq

def RetentionClass.text : RetentionClass → String
  | .transient => "transient"
  | .standard => "standard"

/-- `value === "transient" || value === "standard"` -/
def RetentionClass.ofJson : Option Json → Option RetentionClass
  | some (.str s) =>
    if s = "transient" then some .transient else if s = "standard" then some .standard else none
  | _ => none

structure Lease where
  issuedAtMs : JsNumber
  expiresAtMs : JsNumber
  retentionClass : RetentionClass
deriving DecidableEq

/-- A claim as the store holds it; a field that is `undefined` is absent. -/
structure Record (Cap : Type) where
  inboxId : String
  claimantPublicKeyB64 : String
  claimantPrivateKeyB64 : String
  claimedAtMs : JsNumber
  claimSignatureB64 : String
  rootCap : Cap
  closePublicKeyB64 : Option String
  closePrivateKeyB64 : Option String
  generation : Option JsNumber
  lease : Option Lease
deriving DecidableEq

/-- What a claim signature is made over. -/
structure ClaimPayload where
  inboxId : String
  claimantPublicKeyB64 : String
  closePublicKeyB64 : Option String
  generation : Option JsNumber
  claimedAtMs : JsNumber
deriving DecidableEq

inductive Presence | all | some | none
deriving DecidableEq

/-- What of @rezprotocol/core and of the language the store uses. -/
structure Lib (Cap : Type) where
  /-- `Number(value)` -/
  number : Json → JsNumber
  /-- `"" + value` -/
  string : Option Json → String
  /-- `new RCapability(value)` -/
  makeCapability : Json → Except Err Cap
  /-- the fields of `capability.toJSON()` -/
  capabilityFields : Cap → List (String × Json)
  bytesToBase64 : Bytes → String
  base64ToBytes : String → Except Err Bytes
  /-- `canonicalJSONStringify(canonicalInboxClaimPayload(..))` as bytes -/
  claimBytes : ClaimPayload → Bytes
  claimLeasePresence : Record Cap → Presence

section

variable {Cap : Type}

/-! ## Reading a stored record -/

/-- A record from a caller or from storage. Its `rootCap` may be an
`RCapability` already. -/
structure Material (Cap : Type) where
  value : Option Json
  rootCap : Option Cap

def numberOf (lib : Lib Cap) : Option Json → JsNumber
  | some v => lib.number v
  | none => .nan

/-- mirrors src/inbox/InboxClaimStore.js:578-581 -/
def rootCapOf (lib : Lib Cap) (m : Material Cap) : Except Err (Option Cap) :=
  match m.rootCap, Json.prop "rootCap" m.value with
  | some cap, _ => .ok (some cap)
  | none, some v => if Json.truthy (some v) then (lib.makeCapability v).map some else .ok none
  | none, none => .ok none

/-- A malformed lease is taken for none.
mirrors src/inbox/InboxClaimStore.js:605-613 -/
def leaseOf (lib : Lib Cap) (value : Option Json) : Option Lease :=
  let issued := numberOf lib (Json.prop "issuedAtMs" value)
  let expires := numberOf lib (Json.prop "expiresAtMs" value)
  match RetentionClass.ofJson (Json.prop "retentionClass" value) with
  | some cls =>
    if issued.positive && expires.positive && issued.lt expires then some ⟨issued, expires, cls⟩
      else none
  | none => none

/-- All of the close keys and the generation or none of them; a part of them is
no record.
mirrors src/inbox/InboxClaimStore.js:592-600 -/
def withClose (lib : Lib Cap) (value : Option Json) (out : Record Cap) : Option (Record Cap) :=
  let closePublicKeyB64 := Json.trimmed (Json.prop "closePublicKeyB64" value)
  let closePrivateKeyB64 := Json.trimmed (Json.prop "closePrivateKeyB64" value)
  let generation := numberOf lib (Json.prop "generation" value)
  let hasClosePub := !closePublicKeyB64.isEmpty
  let hasClosePriv := !closePrivateKeyB64.isEmpty
  let hasGeneration := generation.isInteger && generation.atLeastOne
  if hasClosePub || hasClosePriv || hasGeneration then
    if hasClosePub && hasClosePriv && hasGeneration then
      some { out with
        closePublicKeyB64 := some closePublicKeyB64
        closePrivateKeyB64 := some closePrivateKeyB64
        generation := some generation }
    else none
  else some out

/-- mirrors src/inbox/InboxClaimStore.js:569-616 -/
def normalizeStored (lib : Lib Cap) (m : Material Cap) : Except Err (Option (Record Cap)) :=
  let inboxId := Json.trimmed (Json.prop "inboxId" m.value)
  let claimantPublicKeyB64 := Json.trimmed (Json.prop "claimantPublicKeyB64" m.value)
  let claimantPrivateKeyB64 := Json.trimmed (Json.prop "claimantPrivateKeyB64" m.value)
  let claimedAtMs := numberOf lib (Json.prop "claimedAtMs" m.value)
  let claimSignatureB64 := Json.trimmed (Json.prop "claimSignatureB64" m.value)
  if inboxId.isEmpty || claimantPublicKeyB64.isEmpty || claimantPrivateKeyB64.isEmpty ||
    claimSignatureB64.isEmpty then
    .ok none
  else if !claimedAtMs.positive then .ok none
  else (rootCapOf lib m).map fun rootCap => rootCap.bind fun rootCap =>
    withClose lib m.value
      { inboxId
        claimantPublicKeyB64
        claimantPrivateKeyB64
        claimedAtMs
        claimSignatureB64
        rootCap
        closePublicKeyB64 := none
        closePrivateKeyB64 := none
        generation := none
        lease := leaseOf lib (Json.prop "lease" m.value) }

/-- The contents of the map, in order. -/
abbrev Table (Cap : Type) : Type := List (String × Record Cap)

/-- mirrors src/inbox/InboxClaimStore.js:68-71 -/
def addStored (lib : Lib Cap) (table : Table Cap) (entry : Json) : Except Err (Table Cap) :=
  (normalizeStored lib ⟨some entry, none⟩).map fun
    | some record => OMap.set record.inboxId record table
    | none => table

/-- The claims of a fresh store over what is stored.
mirrors src/inbox/InboxClaimStore.js:65-74 -/
def hydrate (lib : Lib Cap) (stored : Option Json) : Except Err (Table Cap) :=
  match Json.prop "claims" stored with
  | some (.arr entries) => entries.foldlM (addStored lib) []
  | _ => .ok []

/-! ## Writing the table -/

def leaseJson (lease : Lease) : Json :=
  .obj [("issuedAtMs", .num lease.issuedAtMs), ("expiresAtMs", .num lease.expiresAtMs),
    ("retentionClass", .str lease.retentionClass.text)]

/-- A field that is written unless it is `undefined`. -/
def optionalField (key : String) (value : Option String) : List (String × Json) :=
  match value with
  | some s => [(key, .str s)]
  | none => []

/-- `Number.isInteger(record.generation)` -/
def Record.carriesGeneration (r : Record Cap) : Bool := r.generation.any JsNumber.isInteger

/-- mirrors src/inbox/InboxClaimStore.js:550-554 -/
def closeFields (r : Record Cap) : List (String × Json) :=
  match r.generation with
  | some generation =>
    if generation.isInteger then
      optionalField "closePublicKeyB64" r.closePublicKeyB64 ++
        optionalField "closePrivateKeyB64" r.closePrivateKeyB64 ++
        [("generation", .num generation)]
    else []
  | none => []

/-- mirrors src/inbox/InboxClaimStore.js:540-558 -/
def toRow (lib : Lib Cap) (r : Record Cap) : Json :=
  .obj (([("inboxId", .str r.inboxId), ("claimantPublicKeyB64", .str r.claimantPublicKeyB64),
    ("claimantPrivateKeyB64", .str r.claimantPrivateKeyB64), ("claimedAtMs", .num r.claimedAtMs),
    ("claimSignatureB64", .str r.claimSignatureB64),
    ("rootCap", .obj (lib.capabilityFields r.rootCap))] : List (String × Json)) ++
    closeFields r ++ (match r.lease with | some lease => [("lease", leaseJson lease)] | none => []))

def tableJson (lib : Lib Cap) (table : Table Cap) : Json :=
  .obj [("claims", .arr (table.map fun p => toRow lib p.2))]

/-! ## The store -/

structure Store (Cap : Type) where
  /-- the record objects -/
  heap : List (Record Cap)
  claims : List (String × Nat)
  /-- what the key-value store holds -/
  stored : Option Json
  /-- the calls of `kv.set` without an answer, oldest first -/
  queue : List (Nat × Table Cap)
  /-- how many calls of `kv.set` were made -/
  tickets : Nat

/-- The contents of the map. -/
def Store.table (s : Store Cap) : Table Cap :=
  s.claims.filterMap fun p => s.heap[p.2]?.map fun r => (p.1, r)

/-- A store that has hydrated. -/
def Store.hydrated (stored : Option Json) (table : Table Cap) : Store Cap where
  heap := table.map Prod.snd
  claims := (table.map Prod.fst).zipIdx
  stored
  queue := []
  tickets := 0

/-- Call `kv.set` with the whole table.
mirrors src/inbox/InboxClaimStore.js:537-561 -/
def Store.persistAll (s : Store Cap) : Store Cap :=
  { s with queue := s.queue ++ [(s.tickets, s.table)], tickets := s.tickets + 1 }

/-- The record of an inbox, with its reference. -/
def Store.find (s : Store Cap) (inboxId : String) : Option (Nat × Record Cap) :=
  (OMap.get inboxId s.claims).bind fun ref => s.heap[ref]?.map fun r => (ref, r)

/-- The clock. -/
structure Input where
  nowMs : JsNumber

/-! ## The steps of the methods -/

structure LeaseArgs where
  inboxId : Option Json
  issuedAtMs : Option Json
  expiresAtMs : Option Json
  retentionClass : Option Json

structure RemintArgs where
  inboxId : Option Json
  finalGeneration : Option Json

/-- The write a call waits for, and what it needs to take its change back. -/
structure Persisting where
  ticket : Nat
  inboxId : String
  ref : Nat
  existing : Option Nat

/-- mirrors src/inbox/InboxClaimStore.js:414-427 -/
def Store.persist (lib : Lib Cap) (claim : Material Cap) (s : Store Cap) :
    Except Err Persisting × Store Cap :=
  match normalizeStored lib claim with
  | .error e => (.error e, s)
  | .ok none => (.error { message := "InboxClaimStore.persist: invalid claim record" }, s)
  | .ok (some normalized) =>
    let existing := s.find normalized.inboxId
    let lease := match normalized.lease with
      | some lease => some lease
      | none => existing.bind fun e => e.2.lease
    let s' := { s with
      heap := s.heap ++ [{ normalized with lease }]
      claims := OMap.set normalized.inboxId s.heap.length s.claims }
    (.ok ⟨s.tickets, normalized.inboxId, s.heap.length, OMap.get normalized.inboxId s.claims⟩,
    s'.persistAll)

/-- mirrors src/inbox/InboxClaimStore.js:431-432 -/
def Store.persistUndo (inboxId : String) (existing : Option Nat) (s : Store Cap) : Store Cap :=
  match existing with
  | some ref => { s with claims := OMap.set inboxId ref s.claims }
  | none => { s with claims := OMap.delete inboxId s.claims }

def Store.update (s : Store Cap) (ref : Nat) (f : Record Cap → Record Cap) : Store Cap :=
  { s with heap := s.heap.modify ref f }

structure Recording where
  ticket : Nat
  ref : Nat
  previous : Option Lease

/-- mirrors src/inbox/InboxClaimStore.js:447 -/
def retentionClassArg : Option Json → Option RetentionClass
  | none => some .transient
  | some v => RetentionClass.ofJson (some v)

/-- mirrors src/inbox/InboxClaimStore.js:449-464 -/
def Store.recordAcceptedLease (lib : Lib Cap) (a : LeaseArgs) (s : Store Cap) :
    Except Err Recording × Store Cap :=
  match s.find (Json.trimmed a.inboxId) with
  | none =>
    (.error { message := "InboxClaimStore.recordAcceptedLease: no claim for " ++
    lib.string a.inboxId }, s)
  | some (ref, record) =>
    let issued := numberOf lib a.issuedAtMs
    let expires := numberOf lib a.expiresAtMs
    if !(issued.positive && expires.positive && issued.lt expires) then
      (.error {
      message := "InboxClaimStore.recordAcceptedLease: invalid lease window issuedAtMs=" ++
      lib.string a.issuedAtMs ++
        " expiresAtMs=" ++ lib.string a.expiresAtMs }, s)
    else match retentionClassArg a.retentionClass with
      | none =>
        (.error { message := "InboxClaimStore.recordAcceptedLease: unknown retentionClass " ++
        lib.string a.retentionClass }, s)
      | some cls =>
        (.ok ⟨s.tickets, ref, record.lease⟩,
        (s.update ref fun r => { r with lease := some ⟨issued, expires, cls⟩ }).persistAll)

/-- mirrors src/inbox/InboxClaimStore.js:469-470 -/
def Store.leaseUndo (ref : Nat) (previous : Option Lease) (s : Store Cap) : Store Cap :=
  s.update ref fun r => { r with lease := previous }

/-- A number argument, without conversion. -/
def plainNumber : Option Json → JsNumber
  | some (.num n) => n
  | _ => .nan

structure Reminting where
  inboxId : String
  ref : Nat
  finalGeneration : JsNumber

/-- mirrors src/inbox/InboxClaimStore.js:355-375 -/
def Store.remintCheck (lib : Lib Cap) (a : RemintArgs) (s : Store Cap) : Except Err Reminting :=
  let id := Json.trimmed a.inboxId
  match s.find id with
  | none =>
    .error { message := "InboxClaimStore.remintGeneration: no claim for " ++ lib.string a.inboxId }
  | some (ref, record) =>
    if !record.carriesGeneration then
      .error (.coded "INBOX_NOT_REMINTABLE"
        "InboxClaimStore.remintGeneration: legacy claim carries no generation — nothing to re-mint")
    else if !((plainNumber a.finalGeneration).isInteger &&
      (plainNumber a.finalGeneration).atLeastOne) then
      .error { message := "InboxClaimStore.remintGeneration requires the provider's finalGeneration"
        }
    else if record.generation ≠ some (plainNumber a.finalGeneration) then
      .error (.coded "REMINT_GENERATION_CONFLICT"
        ("InboxClaimStore.remintGeneration: generation conflict — stored " ++
        lib.string (record.generation.map .num) ++ ", provider tombstone says " ++
          lib.string a.finalGeneration ++
        "; refusing to guess"))
    else .ok ⟨id, ref, plainNumber a.finalGeneration⟩

/-- What the new generation's claim is signed over, and the key to sign with.
mirrors src/inbox/InboxClaimStore.js:378-387 -/
def Store.remintPayload (lib : Lib Cap) (m : Reminting) (closePublicKeyB64 : String)
    (i : Input) (s : Store Cap) : Except Err (Bytes × ClaimPayload) :=
  match s.heap[m.ref]? with
  | none => .error { message := "Cannot read properties of undefined" }
  | some record => (lib.base64ToBytes record.claimantPrivateKeyB64).map fun privateKey =>
    (privateKey,
      { inboxId := m.inboxId
        claimantPublicKeyB64 := record.claimantPublicKeyB64
        closePublicKeyB64 := some closePublicKeyB64
        generation := some m.finalGeneration.addOne
        claimedAtMs := i.nowMs })

/-- What a re-mint writes into the record. -/
structure Minted where
  closePublicKeyB64 : String
  closePrivateKeyB64 : String
  generation : JsNumber
  claimedAtMs : JsNumber
  claimSignatureB64 : String
deriving DecidableEq

def Minted.into (m : Minted) (r : Record Cap) : Record Cap :=
  { r with
    closePublicKeyB64 := some m.closePublicKeyB64
    closePrivateKeyB64 := some m.closePrivateKeyB64
    generation := some m.generation
    claimedAtMs := m.claimedAtMs
    claimSignatureB64 := m.claimSignatureB64
    lease := none }

/-- mirrors src/inbox/InboxClaimStore.js:393-399 -/
def Store.remintCommit (ref : Nat) (minted : Minted) (s : Store Cap) : Store Cap :=
  (s.update ref minted.into).persistAll

/-- The copy of the record as it was becomes the inbox's claim.
mirrors src/inbox/InboxClaimStore.js:403 -/
def Store.remintUndo (inboxId : String) (previous : Option (Record Cap)) (s : Store Cap) :
    Store Cap :=
  match previous with
  | some r => { s with heap := s.heap ++ [r], claims := OMap.set inboxId s.heap.length s.claims }
  | none => s

/-! ## The methods -/

/-- The stretches of code between two awaits. -/
inductive Stretch (Cap : Type)
  | persist (claim : Material Cap)
  | persistUndo (inboxId : String) (existing : Option Nat)
  | lease (a : LeaseArgs)
  | leaseUndo (ref : Nat) (previous : Option Lease)
  | leaseRead (ref : Nat)
  | remintCheck (a : RemintArgs)
  | remintSign (m : Reminting)
  | remintCommit (m : Reminting) (minted : Minted)
  | remintUndo (inboxId : String) (previous : Option (Record Cap))

def Stretch.apply (lib : Lib Cap) : Stretch Cap → Store Cap → Store Cap
  | .persist claim, s => (s.persist lib claim).2
  | .persistUndo inboxId existing, s => s.persistUndo inboxId existing
  | .lease a, s => (s.recordAcceptedLease lib a).2
  | .leaseUndo ref previous, s => s.leaseUndo ref previous
  | .leaseRead _, s => s
  | .remintCheck _, s => s
  | .remintSign _, s => s
  | .remintCommit m minted, s => s.remintCommit m.ref minted
  | .remintUndo inboxId previous, s => s.remintUndo inboxId previous

inductive Await
  /-- the answer to a call of `kv.set` -/
  | set (ticket : Nat)
  | generate
  | sign (privateKey msg : Bytes)

abbrev Await.Ans : Await → Type
  | .set _ => Except Err Unit
  | .generate => Except Err (Bytes × Bytes)
  | .sign .. => Except Err Bytes

abbrev outside : Iface := ⟨Await, Await.Ans⟩
abbrev claimStore (Cap : Type) : Iface := object (Store Cap) Input (Stretch Cap) outside
abbrev Claiming (Cap α : Type) : Type := Method (Store Cap) Input (Stretch Cap) outside Err α

inductive Result
  | persisted (ref : Nat)
  | accepted (lease : Option Lease)
  | reminted (inboxId : String) (fromGeneration toGeneration : JsNumber)
deriving DecidableEq

/-- Wait for the write; on failure take the change back and pass the error on. -/
def written (ticket : Nat) (undo : Claiming Cap Unit) : Claiming Cap Unit :=
  Js.attempt (.ask (.await (.set ticket)) .ret) fun
    | .ok () => return ()
    | .error e => do
      undo
      throw e

/-- mirrors src/inbox/InboxClaimStore.js:412-436 -/
def persist (lib : Lib Cap) (claim : Material Cap) : Claiming Cap Result := do
  let p ← stretch (.persist claim) fun _ s => s.persist lib claim
  written p.ticket (stretch (.persistUndo p.inboxId p.existing) fun _ s =>
    (.ok (), s.persistUndo p.inboxId p.existing))
  return .persisted p.ref

/-- mirrors src/inbox/InboxClaimStore.js:447-474 -/
def recordAcceptedLease (lib : Lib Cap) (a : LeaseArgs) : Claiming Cap Result := do
  let p ← stretch (.lease a) fun _ s => s.recordAcceptedLease lib a
  written p.ticket (stretch (.leaseUndo p.ref p.previous) fun _ s =>
    (.ok (), s.leaseUndo p.ref p.previous))
  let lease ← stretch (.leaseRead p.ref) fun _ s => (.ok (s.heap[p.ref]?.bind Record.lease), s)
  return .accepted lease

/-- mirrors src/inbox/InboxClaimStore.js:353-406 -/
def remintGeneration (lib : Lib Cap) (a : RemintArgs) : Claiming Cap Result := do
  let m ← stretch (.remintCheck a) fun _ s => (s.remintCheck lib a, s)
  let (closePublicKey, closePrivateKey) ← .ask (.await .generate) .ret
  let closePublicKeyB64 := lib.bytesToBase64 closePublicKey
  let closePrivateKeyB64 := lib.bytesToBase64 closePrivateKey
  let (privateKey, payload) ← stretch (.remintSign m) fun i s =>
    (s.remintPayload lib m closePublicKeyB64 i, s)
  let sigBytes ← .ask (.await (.sign privateKey (lib.claimBytes payload))) .ret
  let minted : Minted :=
    { closePublicKeyB64
      closePrivateKeyB64
      generation := m.finalGeneration.addOne
      claimedAtMs := payload.claimedAtMs
      claimSignatureB64 := lib.bytesToBase64 sigBytes }
  let (ticket, previous) ← stretch (.remintCommit m minted) fun _ s =>
    (.ok (s.tickets, s.heap[m.ref]?), s.remintCommit m.ref minted)
  written ticket (stretch (.remintUndo m.inboxId previous) fun _ s =>
    (.ok (), s.remintUndo m.inboxId previous))
  return .reminted m.inboxId m.finalGeneration minted.generation

inductive Call (Cap : Type)
  | persist (claim : Material Cap)
  | recordAcceptedLease (a : LeaseArgs)
  | remintGeneration (a : RemintArgs)

def run (lib : Lib Cap) : Call Cap → Claiming Cap Result
  | .persist claim => persist lib claim
  | .recordAcceptedLease a => recordAcceptedLease lib a
  | .remintGeneration a => remintGeneration lib a

/-- The answer of a call of `kv.set`: a success stores its table. -/
def Store.answer (lib : Lib Cap) (s : Store Cap) (ticket : Nat) (ok : Bool) : Store Cap :=
  { s with
    queue := s.queue.filter fun w => w.1 ≠ ticket
    stored := if ok then ((s.queue.find? fun w => w.1 = ticket).map fun w =>
      tableJson lib w.2).or s.stored else s.stored }

/-- The key-value store answers each call once; keys and signatures are not
empty. -/
def outsideWorld (lib : Lib Cap) : Environment (Store Cap) outside where
  allows
    | s, .set ticket, _ => s.queue.any fun w => w.1 = ticket
    | _, .generate, .ok (closePublicKey, closePrivateKey) =>
      !closePublicKey.isEmpty && !closePrivateKey.isEmpty
    | _, .sign .., .ok sig => !sig.isEmpty
    | _, _, _ => true
  effect
    | s, .set ticket, .ok () => s.answer lib ticket true
    | s, .set ticket, .error _ => s.answer lib ticket false
    | s, _, _ => s

/-- Any number of calls on one hydrated store. -/
def claims (lib : Lib Cap) :
    System (claimStore Cap) (Store Cap) (ObjFate Input outside) (Call Cap) (Except Err Result) :=
  .ofObject (outsideWorld lib) (run lib)

abbrev ClaimState (Cap : Type) := Pool (claimStore Cap) (Store Cap) (ObjFate Input outside)
    (Call Cap) (Except Err Result)
abbrev ClaimRules (Cap : Type) := Discipline (claimStore Cap) (Store Cap) (ObjFate Input outside)
    (Call Cap) (Except Err Result)

/-- A store that has just hydrated from whatever was stored. -/
def Fresh (lib : Lib Cap) (s : Store Cap) : Prop :=
  ∃ stored table, hydrate lib stored = .ok table ∧ s = .hydrated stored table

def anyCalls (lib : Lib Cap) : ClaimRules Cap where
  init := Fresh lib
  may _ _ := True
  ok _ _ := True

/-! ## Is the claim lease-bearing? -/

/-- mirrors src/inbox/InboxClaimStore.js:188-195 -/
def reattestationPayload (lib : Lib Cap) (record : Record Cap) (claimedAtMs : JsNumber) :
    ClaimPayload where
  inboxId := record.inboxId
  claimantPublicKeyB64 := record.claimantPublicKeyB64
  claimedAtMs
  closePublicKeyB64 := if lib.claimLeasePresence record = .all then record.closePublicKeyB64
    else none
  generation := if lib.claimLeasePresence record = .all then record.generation else none

/-- The two fields of a node delegation that make it a lease.
mirrors src/inbox/InboxClaimStore.js:304-314 -/
def delegationLease (record : Record Cap) (retentionClass : RetentionClass) :
    Option (JsNumber × RetentionClass) :=
  if record.carriesGeneration then record.generation.map fun g => (g, retentionClass) else none

structure TerminalClose where
  inboxId : String
  finalGeneration : JsNumber
  closePublicKeyB64 : String
  closePrivateKeyB64 : String
deriving DecidableEq

/-- mirrors src/inbox/InboxClaimStore.js:225-238 -/
def terminalClose (record : Record Cap) : Except Err TerminalClose :=
  match record.closePublicKeyB64, record.closePrivateKeyB64, record.generation with
  | some closePublicKeyB64, some closePrivateKeyB64, some generation =>
    if !closePublicKeyB64.isEmpty && !closePrivateKeyB64.isEmpty && generation.isInteger then
      .ok ⟨record.inboxId, generation, closePublicKeyB64, closePrivateKeyB64⟩
    else .error (.coded "INBOX_NOT_CLOSABLE"
      "InboxClaimStore.createTerminalClose: legacy claim has no close key — not closable by record")
  | _, _, _ => .error (.coded "INBOX_NOT_CLOSABLE"
      "InboxClaimStore.createTerminalClose: legacy claim has no close key — not closable by record")

end
end RezSdk.L2.InboxClaims
