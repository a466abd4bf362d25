import Mathlib.Data.List.Sort
import RezSdk.L2Storage.Machine

/-!
# The key-value backed stores

`createKeyValueBackedPeerLinkStorage`: the peer-link, session, handshake
attempt, event and key stores, and the invite records that PeerLinkService
keeps in the plain store. Each is a sequence of single key operations: the
optimistic lock of `PeerLinks.update` reads and then writes, and
`Sessions.put` writes the record and then its index.
-/
namespace RezSdk.L2

open RezSdk.L1

variable {Snap : Type}

/-- Read the given keys in turn and keep what `pick` selects: the body of the
`keys(prefix)` scans. -/
def scan {α : Type} (pick : (k : Key) → Val Snap k → Option α) : List Key → Sdk Snap (List α)
  | [] => pure []
  | k :: ks => do
    let v ← kvGet k
    let rest ← scan pick ks
    return match v.bind (pick k) with
      | some a => a :: rest
      | none => rest

/-- `out.sort((a, b) => a.localeCompare(b))` on a text of each row. -/
def sortByText {α : Type} (core : Core Snap) (text : α → String) (l : List α) : List α :=
  l.insertionSort fun a b => core.localeLe (text a) (text b) = true

namespace PeerLinks

/-- mirrors src/peer-link/createKeyValueBackedPeerLinkStorage.js:91-94 -/
def getById (owner link : Id) : Sdk Snap (Option PeerLinkRecord) := kvGet (.peerLink owner link)

/-- mirrors src/peer-link/createKeyValueBackedPeerLinkStorage.js:96-102 -/
def getByPair (owner peer : Id) : Sdk Snap (Option PeerLinkRecord) := do
  let link ← kvGet (.pair owner peer)
  match link with
  | none => return none
  | some link => getById owner link

/-- mirrors src/peer-link/createKeyValueBackedPeerLinkStorage.js:104-123 -/
def create (record : PeerLinkRecord) : Sdk Snap PeerLinkRecord := do
  let existing ← kvGet (.peerLink record.localAccountId record.peerLinkId)
  Js.ensure existing.isNone { message := "Peer link already exists for " ++ record.peerLinkId.val }
  let indexed ← kvGet (.pair record.localAccountId record.peerAccountId)
  Js.ensure (indexed.all (· = record.peerLinkId))
    { message := "Peer link already exists for pair " ++ record.localAccountId.val ++ "::"
        ++ record.peerAccountId.val }
  let next := { record with version := normalizeVersion record.version }
  kvSet (.peerLink record.localAccountId record.peerLinkId) next
  kvSet (.pair record.localAccountId record.peerAccountId) record.peerLinkId
  return next

/-- mirrors src/peer-link/createKeyValueBackedPeerLinkStorage.js:125-155 -/
def update (record : PeerLinkRecord) (expectedVersion : Nat) : Sdk Snap PeerLinkRecord := do
  let stored ← kvGet (.peerLink record.localAccountId record.peerLinkId)
  let current ← Js.orThrow stored { message := "Peer link not found for " ++ record.peerLinkId.val }
  Js.ensure (1 ≤ expectedVersion) { message := "expectedVersion must be a positive integer" }
  Js.ensure (normalizeVersion current.version = expectedVersion)
    { message := "Peer link version mismatch for " ++ record.peerLinkId.val }
  Js.ensure (current.localAccountId = record.localAccountId)
    { message := "Peer link owner cannot change" }
  Js.ensure (current.peerAccountId = record.peerAccountId)
    { message := "Peer link account pair cannot change" }
  let next := { record with version := normalizeVersion current.version + 1 }
  kvSet (.peerLink record.localAccountId record.peerLinkId) next
  kvSet (.pair record.localAccountId record.peerAccountId) record.peerLinkId
  return next

def ownedBy (owner : Id) : (k : Key) → Val Snap k → Option PeerLinkRecord
  | .peerLink .., r => if r.localAccountId = owner then some r else none
  | _, _ => none

/-- mirrors src/peer-link/createKeyValueBackedPeerLinkStorage.js:157-172 -/
def listByOwner (core : Core Snap) (owner : Id) : Sdk Snap (List PeerLinkRecord) := do
  let keys ← kvKeys .peerLinks
  let out ← scan (ownedBy owner) keys
  return sortByText core (·.peerLinkId.val) out

end PeerLinks

namespace Sessions

/-- mirrors src/peer-link/createKeyValueBackedPeerLinkStorage.js:209-212 -/
def getById (owner sid : Id) : Sdk Snap (Option (SessionRecord Snap)) := kvGet (.session owner sid)

/-- mirrors src/peer-link/createKeyValueBackedPeerLinkStorage.js:214-220 -/
def getByPeerLinkId (owner link : Id) : Sdk Snap (Option (SessionRecord Snap)) := do
  let sid ← kvGet (.sessionByLink owner link)
  match sid with
  | none => return none
  | some sid => getById owner sid

/-- mirrors src/peer-link/createKeyValueBackedPeerLinkStorage.js:223-229 -/
def getByPeerLinkAndDevice (owner link device : Id) : Sdk Snap (Option (SessionRecord Snap)) := do
  let sid ← kvGet (.sessionByDevice owner link device)
  match sid with
  | none => return none
  | some sid => getById owner sid

/-- The record is a device session of this owner and link. -/
def deviceOf (owner link : Id) : (k : Key) → Val Snap k → Option (SessionRecord Snap)
  | .session .., r =>
    if r.localAccountId = owner ∧ r.peerLinkId = link ∧ r.peerDeviceId.isSome then some r else none
  | _, _ => none

/-- mirrors src/peer-link/createKeyValueBackedPeerLinkStorage.js:235-259 -/
def listByPeerLink (core : Core Snap) (owner link : Id) : Sdk Snap (List (SessionRecord Snap)) := do
  let keys ← kvKeys .sessions
  let out ← scan (deviceOf owner link) keys
  return sortByText core (fun r => (r.peerDeviceId.map Id.val).getD "") out

/-- The index entry of a session: by device when it has one, else by link. -/
def setIndex (record : SessionRecord Snap) : Sdk Snap Unit :=
  match record.peerDeviceId with
  | some device =>
    kvSet (.sessionByDevice record.localAccountId record.peerLinkId device) record.sessionId
  | none => kvSet (.sessionByLink record.localAccountId record.peerLinkId) record.sessionId

/-- The record `put` stores over `existing`. -/
def putVersion (existing : Option (SessionRecord Snap)) (record : SessionRecord Snap) :
    SessionRecord Snap :=
  { record with
    version := match existing with
      | some e => normalizeVersion e.version + 1
      | none => normalizeVersion record.version }

/-- mirrors src/peer-link/createKeyValueBackedPeerLinkStorage.js:261-283 -/
def put (record : SessionRecord Snap) : Sdk Snap (SessionRecord Snap) := do
  let existing ← kvGet (.session record.localAccountId record.sessionId)
  kvSet (.session record.localAccountId record.sessionId) (putVersion existing record)
  setIndex record
  return putVersion existing record

/-- Remove an index entry that still names the deleted session. -/
def dropIndex (record : SessionRecord Snap) (owner sid : Id) : Sdk Snap Unit :=
  match record.peerDeviceId with
  | some device => do
    let indexed ← kvGet (.sessionByDevice owner record.peerLinkId device)
    if indexed = some sid then
      let _ ← kvDelete (.sessionByDevice owner record.peerLinkId device)
      pure ()
    else pure ()
  | none => do
    let indexed ← kvGet (.sessionByLink owner record.peerLinkId)
    if indexed = some sid then
      let _ ← kvDelete (.sessionByLink owner record.peerLinkId)
      pure ()
    else pure ()

/-- mirrors src/peer-link/createKeyValueBackedPeerLinkStorage.js:285-310 -/
def delete (owner sid : Id) : Sdk Snap Bool := do
  let existing ← kvGet (.session owner sid)
  let removed ← kvDelete (.session owner sid)
  match removed, existing with
  | false, _ => return false
  | true, none => return true
  | true, some record => do
    dropIndex record owner sid
    return true

end Sessions

namespace HandshakeAttempts

/-- mirrors src/peer-link/createKeyValueBackedPeerLinkStorage.js:357-369 -/
def create (record : HandshakeAttemptRecord) : Sdk Snap HandshakeAttemptRecord := do
  let existing ← kvGet (.attempt record.ownerAccountId record.handshakeAttemptId)
  Js.ensure existing.isNone
    { message := "Handshake attempt already exists for " ++ record.handshakeAttemptId.val }
  let next := { record with version := normalizeVersion record.version }
  kvSet (.attempt record.ownerAccountId record.handshakeAttemptId) next
  return next

/-- mirrors src/peer-link/createKeyValueBackedPeerLinkStorage.js:371-391 -/
def update (record : HandshakeAttemptRecord) (expectedVersion : Nat) :
    Sdk Snap HandshakeAttemptRecord := do
  let stored ← kvGet (.attempt record.ownerAccountId record.handshakeAttemptId)
  let current ← Js.orThrow stored
    { message := "Handshake attempt not found for " ++ record.handshakeAttemptId.val }
  Js.ensure (1 ≤ expectedVersion) { message := "expectedVersion must be a positive integer" }
  Js.ensure (normalizeVersion current.version = expectedVersion)
    { message := "Handshake attempt version mismatch for " ++ record.handshakeAttemptId.val }
  let next := { record with version := normalizeVersion current.version + 1 }
  kvSet (.attempt record.ownerAccountId record.handshakeAttemptId) next
  return next

def ofLink (owner link : Id) : (k : Key) → Val Snap k → Option HandshakeAttemptRecord
  | .attempt .., r => if r.ownerAccountId = owner ∧ r.peerLinkId = link then some r else none
  | _, _ => none

/-- mirrors src/peer-link/createKeyValueBackedPeerLinkStorage.js:393-413 -/
def listByPeerLinkId (core : Core Snap) (owner link : Id) :
    Sdk Snap (List HandshakeAttemptRecord) := do
  let keys ← kvKeys .attempts
  let out ← scan (ofLink owner link) keys
  return sortByText core (·.handshakeAttemptId.val) out

end HandshakeAttempts

namespace Events

/-- mirrors src/peer-link/createKeyValueBackedPeerLinkStorage.js:462-483 -/
def append (ev : EventRecord) : Sdk Snap EventRecord := do
  let existing ← kvGet (.event ev.ownerAccountId ev.eventId)
  match existing with
  | some e =>
    Js.ensure (e.peerLinkId = ev.peerLinkId)
      { message := "Peer link event already exists for " ++ ev.eventId.val }
    return e
  | none =>
    kvSet (.event ev.ownerAccountId ev.eventId) ev
    let index ← kvGet (.eventIndex ev.ownerAccountId ev.peerLinkId)
    kvSet (.eventIndex ev.ownerAccountId ev.peerLinkId) (index.getD [] ++ [ev.eventId])
    return ev

/-- The events with these ids that are stored, in order. -/
def readAll (owner : Id) : List Id → Sdk Snap (List EventRecord)
  | [] => pure []
  | id :: ids => do
    let r ← kvGet (.event owner id)
    let rest ← readAll owner ids
    return r.toList ++ rest

/-- Where the page after `cursor` starts. -/
def pageStart (ids : List Id) (cursor : Option Id) : Nat :=
  match cursor with
  | none => 0
  | some c => if c ∈ ids then ids.idxOf c + 1 else 0

/-- mirrors src/peer-link/createKeyValueBackedPeerLinkStorage.js:485-511 -/
def listByPeerLinkId (owner link : Id) (limit : Option Nat) (cursor : Option Id) :
    Sdk Snap (List EventRecord × Option Id) := do
  let index ← kvGet (.eventIndex owner link)
  let ids := index.getD []
  let start := pageStart ids cursor
  let window := match limit with
    | some n => (ids.drop start).take n
    | none => ids.drop start
  let items ← readAll owner window
  let nextCursor := match limit with
    | some n => if start + n < ids.length then items.getLast?.map (·.eventId) else none
    | none => none
  return (items, nextCursor)

end Events

namespace Invites

/-- mirrors src/peer-link/PeerLinkService.js:1460-1468 (`_saveInviteRecord`) -/
def save (record : InviteRecord) : Sdk Snap InviteRecord := do
  let normalized := normalizeInviteRecord record
  kvSet (.invite normalized.ownerAccountId normalized.inviteId) normalized
  kvSet (.inviteByHash normalized.ownerAccountId normalized.tokenHash) normalized.inviteId
  return normalized

/-- mirrors src/peer-link/PeerLinkService.js:1470-1473 (`_getInviteRecord`) -/
def get (owner inviteId : Id) : Sdk Snap (Option InviteRecord) := do
  let stored ← kvGet (.invite owner inviteId)
  return stored.map normalizeInviteRecord

/-- mirrors src/peer-link/PeerLinkService.js:1475-1481 (`_getInviteRecordByHash`) -/
def getByHash (owner tokenHash : Id) : Sdk Snap (Option InviteRecord) := do
  let inviteId ← kvGet (.inviteByHash owner tokenHash)
  match inviteId with
  | none => return none
  | some inviteId => get owner inviteId

end Invites
end RezSdk.L2
