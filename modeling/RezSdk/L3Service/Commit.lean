import RezSdk.L3Service.DeviceSessions

/-!
# The session commit and its recovery

`#commitSession` writes the session, the peer link and the lifecycle event, in
that order, and `#commitSessionAfterDecrypt` recovers a decrypt whose commit
failed part way. The `progress` object the source passes in and mutates is
here the value a failing commit rejects with, next to its error.
-/
namespace RezSdk.L3

open RezSdk.L1 RezSdk.L2

variable {Snap : Type}

/-- What `_buildSnapshot` projects. `sessionState` is `none` for "pending". -/
structure PeerLinkSnapshot where
  peerLinkId : Id
  state : PeerLinkState
  localAccountId : Id
  peerAccountId : Id
  sessionState : Option SessionStatus
  activeInviteId : Option Id
  activeSessionId : Option Id
  peerInboxId : Option Id
  lastErrorCode : Option String
  lastErrorMessage : Option String
  updatedAtMs : Nat
  events : List EventRecord
deriving DecidableEq

/-- mirrors src/peer-link/PeerLinkService.js:2467-2491 -/
def buildSnapshot (r : PeerLinkRecord) : Sdk Snap PeerLinkSnapshot := do
  let session ← Sessions.getByPeerLinkId r.localAccountId r.peerLinkId
  let page ← Events.listByPeerLinkId r.localAccountId r.peerLinkId (some 20) none
  return {
    peerLinkId := r.peerLinkId
    state := r.state
    localAccountId := r.localAccountId
    peerAccountId := r.peerAccountId
    sessionState := session.map (·.status)
    activeInviteId := r.activeInviteId
    activeSessionId := r.activeSessionId
    peerInboxId := r.peerInboxId
    lastErrorCode := r.lastErrorCode
    lastErrorMessage := r.lastErrorMessage
    updatedAtMs := r.lastStateChangeAtMs
    events := page.1 }

/-- mirrors src/peer-link/PeerLinkService.js:1483-1496 -/
def appendPeerLinkEvent (owner link : Id) (type : EventType) (summary : Option String)
    (details : List (String × Option String)) (atMs : Nat) : Sdk Snap EventRecord := do
  let eventId ← stableId "pev"
  let now ← clock
  Events.append
    { ownerAccountId := owner
      eventId
      peerLinkId := link
      type
      atMs := asPositiveInt atMs now
      summary
      details }

/-- Log an untabulated transition, or refuse it in strict mode.
mirrors src/peer-link/PeerLinkService.js:1525-1530 -/
def checkPeerLinkTransition (svc : Service Snap) (fromState toState : PeerLinkState) :
    Sdk Snap Unit :=
  Js.ensure (checkTransition fromState toState || !svc.strictTransitions)
    (illegalTransition fromState toState)

/-- The key of the decrypt counters. -/
def counterKey (owner peer : Id) : String := owner.val ++ ":" ++ peer.val

def clearCounts (key : String) : Sdk Snap Unit := .ask (.clearCounts key) fun _ => .ret (.ok ())

def markSuccess (key : String) (atMs : Nat) : Sdk Snap Unit :=
  .ask (.markSuccess key atMs) fun _ => .ret (.ok ())

/-- The arguments of `#commitSession`. `ratchet` is what the channel manager
exports, `none` when there is no manager; `peerInboxId` is `none` when the
caller does not pass one. -/
structure CommitArgs (Snap : Type) where
  owner : Id
  peerLinkRecord : PeerLinkRecord
  peer : Id
  ratchet : Option Snap
  sessionStatus : SessionStatus
  peerLinkState : PeerLinkState
  existingSession : Option (SessionRecord Snap)
  resetSessionCreatedAt : Bool
  peerInboxId : Option (Option Id)
  eventType : EventType
  eventSummary : String
  eventDetails : List (String × Option String)
  atMs : Nat

/-- How far a commit got. -/
structure Progress (Snap : Type) where
  sessionPersisted : Bool
  peerLinkUpdated : Bool
  eventAppended : Bool
  sessionPutInput : Option (SessionRecord Snap)

def Progress.start : Progress Snap := ⟨false, false, false, none⟩

/-- The put of `input` is under way. -/
def Progress.writing (input : SessionRecord Snap) : Progress Snap :=
  ⟨false, false, false, some input⟩

/-- The put of `input` has returned. -/
def Progress.written (input : SessionRecord Snap) : Progress Snap :=
  ⟨true, false, false, some input⟩

/-- The stages of PeerLinkCommitErrorV1.js:17-21. -/
inductive CommitStage | sessionWrite | peerLinkTransition | eventAppend
deriving DecidableEq

structure CommitError where
  stage : CommitStage
  message : String
deriving DecidableEq

/-- mirrors src/peer-link/PeerLinkCommitErrorV1.js:24-30 -/
def CommitError.of (stage : CommitStage) (e : Err) : CommitError := ⟨stage, trim e.message⟩

structure CommitResult (Snap : Type) where
  snapshot : PeerLinkSnapshot
  event : Option EventRecord
  sessionRecord : Option (SessionRecord Snap)
  peerLinkRecord : PeerLinkRecord
  commitError : Option CommitError

/-- A function that assigns to variables its `catch` reads: it rejects with
their values and the error. -/
abbrev Tracked (Snap π α : Type) : Type := Js (sdk Snap) (π × Err) α

/-- A step of such a function, with the variables at `p`. -/
def track {π α : Type} (p : π) (x : Sdk Snap α) : Tracked Snap π α :=
  Proc.bind x fun
    | .ok a => .ret (.ok a)
    | .error e => .ret (.error (p, e))

/-- Drop the variables. -/
def untrack {π α : Type} (x : Tracked Snap π α) : Sdk Snap α :=
  Proc.bind x fun
    | .ok a => .ret (.ok a)
    | .error e => .ret (.error e.2)

/-- The snapshot the commit stores: the manager's, else the stored one. -/
def CommitArgs.snapshot (a : CommitArgs Snap) : Option Snap :=
  match a.ratchet with
  | some s => some s
  | none => a.existingSession.map (·.ratchetSnapshot)

def commitSessionId : Option (SessionRecord Snap) → Sdk Snap Id
  | some r => pure r.sessionId
  | none => stableId "pls"

/-- `sessionPutInput`.
mirrors src/peer-link/PeerLinkService.js:1599-1614 -/
def CommitArgs.putInput (a : CommitArgs Snap) (s : Snap) (sid : Id) (now : Nat) :
    SessionRecord Snap :=
  { sessionId := sid
    peerLinkId := a.peerLinkRecord.peerLinkId
    localAccountId := a.owner
    peerAccountId := a.peer
    peerDeviceId := a.existingSession.bind (·.peerDeviceId)
    status := a.sessionStatus
    ratchetSnapshot := s
    createdAtMs := match a.existingSession with
      | some r => if a.resetSessionCreatedAt then now else asPositiveInt r.createdAtMs now
      | none => now
    updatedAtMs := now
    version := match a.existingSession with
      | some r => asPositiveInt r.version 1
      | none => 1 }

/-- The peer link as `#commitSession` writes it. -/
def CommitArgs.nextLink (a : CommitArgs Snap) (stored : Option (SessionRecord Snap)) (now : Nat) :
    PeerLinkRecord :=
  { a.peerLinkRecord with
    state := a.peerLinkState
    activeSessionId := match stored with
      | some r => some r.sessionId
      | none => a.peerLinkRecord.activeSessionId
    peerInboxId := a.peerInboxId.getD a.peerLinkRecord.peerInboxId
    lastStateChangeAtMs := now
    lastErrorCode := none
    lastErrorMessage := none }

/-- The caller's details over the common ones. -/
def mergeDetails (base extra : List (String × Option String)) : List (String × Option String) :=
  base.filter (fun d => !extra.any (·.1 == d.1)) ++ extra

/-- Steps 4 to 6 of the commit, and the result.
mirrors src/peer-link/PeerLinkService.js:1628-1680 -/
def commitLink (svc : Service Snap) (a : CommitArgs Snap) (now : Nat)
    (stored : Option (SessionRecord Snap)) (p : Progress Snap) :
    Tracked Snap (Progress Snap) (CommitResult Snap) := do
  track p (checkPeerLinkTransition svc a.peerLinkRecord.state a.peerLinkState)
  let next ← track p (PeerLinks.update (a.nextLink stored now) a.peerLinkRecord.version)
  let p := { p with peerLinkUpdated := true }
  let event ← track p (appendPeerLinkEvent a.owner next.peerLinkId a.eventType (some a.eventSummary)
    (mergeDetails [("peerAccountId", some a.peer.val), ("sessionId", stored.map (·.sessionId.val))]
      a.eventDetails) now)
  let p := { p with eventAppended := true }
  track p (clearCounts (counterKey a.owner a.peer))
  track p (markSuccess (counterKey a.owner a.peer) now)
  let snapshot ← track p (buildSnapshot next)
  return { snapshot, event := some event, sessionRecord := stored, peerLinkRecord := next,
           commitError := none }

/-- mirrors src/peer-link/PeerLinkService.js:1563-1681 (`#commitSession`) -/
def commitSession (svc : Service Snap) (a : CommitArgs Snap) :
    Tracked Snap (Progress Snap) (CommitResult Snap) := do
  let c ← track .start clock
  let now := asPositiveInt a.atMs c
  match a.snapshot with
  | none => commitLink svc a now none .start
  | some s => do
    let sid ← track .start (commitSessionId a.existingSession)
    let input := a.putInput s sid now
    let stored ← track (.writing input) (Sessions.put input)
    commitLink svc a now (some stored) (.written input)

/-! ## Recovery after a decrypt -/

/-- mirrors src/peer-link/PeerLinkService.js:1735-1746 -/
def storedRatchetMatches [DecidableEq Snap] (a : CommitArgs Snap) (p : Progress Snap) :
    Sdk Snap Bool :=
  match a.ratchet, (p.sessionPutInput <|> a.existingSession).map (·.sessionId) with
  | some s, some sid => do
    let stored ← Sessions.getById a.owner sid
    return match stored with
      | some r => decide (r.ratchetSnapshot = s)
      | none => false
  | _, _ => pure false

/-- The rewrite loop: whether one of `n` identical puts returned. -/
def rewrite (input : SessionRecord Snap) : Nat → Sdk Snap Bool
  | 0 => pure false
  | n + 1 => (Sessions.put input).attempt fun
    | .ok _ => pure true
    | .error _ => rewrite input n

def sessionRewriteAttempts : Nat := 2

/-- Whether the advance is proven durable, and the progress after it.
mirrors src/peer-link/PeerLinkService.js:1763-1792 -/
def confirmAdvancedRatchetDurable [DecidableEq Snap] (a : CommitArgs Snap) (p : Progress Snap) :
    Sdk Snap (Bool × Progress Snap) :=
  if p.sessionPersisted then do
    let same ← storedRatchetMatches a p
    return (same, p)
  else match p.sessionPutInput with
    | none => pure (false, p)
    | some input => do
      let wrote ← rewrite input sessionRewriteAttempts
      if wrote then
        let same ← storedRatchetMatches a p
        return (same, { p with sessionPersisted := true })
      else return (false, p)

def failedStage (p : Progress Snap) : CommitStage :=
  if !p.sessionPersisted then .sessionWrite
  else if !p.peerLinkUpdated then .peerLinkTransition
  else .eventAppend

/-- The result that keeps the plaintext although the commit did not finish. -/
def keepPlaintext (r : PeerLinkRecord) (e : Option CommitError) : Sdk Snap (CommitResult Snap) := do
  let snapshot ← buildSnapshot r
  return { snapshot, event := none, sessionRecord := none, peerLinkRecord := r, commitError := e }

/-- The second commit, against the fresh link `f`, has failed too.
mirrors src/peer-link/PeerLinkService.js:1836-1856 -/
def recoverRetry [DecidableEq Snap] (a : CommitArgs Snap) (p : Progress Snap) (f : PeerLinkRecord)
    (rp : Progress Snap) (e : Err) : Sdk Snap (CommitResult Snap) := do
  let durable ← if rp.sessionPersisted then do
      let r ← confirmAdvancedRatchetDurable a rp
      pure r.1
    else storedRatchetMatches a p
  Js.ensure durable e
  keepPlaintext f (some (.of (failedStage rp) e))

/-- The advance is durable: finish on the link as it is stored now.
mirrors src/peer-link/PeerLinkService.js:1809-1868 -/
def recoverLink [DecidableEq Snap] (svc : Service Snap) (a : CommitArgs Snap) (p : Progress Snap)
    (firstErr : Err) : Option PeerLinkRecord → Sdk Snap (CommitResult Snap)
  | none => keepPlaintext a.peerLinkRecord (some (.of (failedStage p) firstErr))
  | some f =>
    if f.state = .sessionEstablished then
      keepPlaintext f (if p.peerLinkUpdated && !p.eventAppended
        then some (.of .eventAppend firstErr)
        else none)
    else
      Proc.bind (commitSession svc { a with peerLinkRecord := f }) fun
        | .ok r => .ret (.ok r)
        | .error (rp, e) => recoverRetry a p f rp e

/-- mirrors src/peer-link/PeerLinkService.js:1794-1869 -/
def recoverCommitAfterDecrypt [DecidableEq Snap] (svc : Service Snap) (a : CommitArgs Snap)
    (p : Progress Snap) (firstErr : Err) : Sdk Snap (CommitResult Snap) := do
  let (durable, p) ← confirmAdvancedRatchetDurable a p
  Js.ensure durable firstErr
  let fresh ← PeerLinks.getById a.owner a.peerLinkRecord.peerLinkId
  recoverLink svc a p firstErr fresh

/-- mirrors src/peer-link/PeerLinkService.js:1715-1722 -/
def commitSessionAfterDecrypt [DecidableEq Snap] (svc : Service Snap) (a : CommitArgs Snap) :
    Sdk Snap (CommitResult Snap) :=
  Proc.bind (commitSession svc a) fun
    | .ok r => .ret (.ok r)
    | .error (p, e) => recoverCommitAfterDecrypt svc a p e

end RezSdk.L3
