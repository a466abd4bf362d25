import RezSdk.Core.Object
import RezSdk.Core.OrderedMap
import RezSdk.L1Records.Json

/-!
# The uplink pool (`UplinkPool.js`), its requests (`UplinkPoolClient.js`) and the
client's lifecycle (`RezClient.js`)

The pool connects to one uplink and keeps warm spares. Its routines suspend
between their updates of the fields, so every stretch of code between two
awaits is one operation of the object (`Stretch` names them); a call of one of
its own asynchronous routines is an end of a stretch too, where nothing
depends on it. A promise that others may join is a number; `promises` holds
its outcome once it is settled.

Transports, the authentication and the restoration hooks are outside, and may
answer anything at any time; what their answers do is `outsideWorld`. For every
transport the model keeps what the properties are about: whether it is
open, which session its present connection was given, and which calls of
`connect` and `authenticate` are in progress on it.

`#ensureWarmSpareTarget` starts again as long as it was asked to in the
meantime: a call comes with the number of rounds it may still make, and one
that has used them up stays pending. State events, emitted states and frames
do not change the fields and are left out.
-/
namespace RezSdk.L3.Uplinks

open RezSdk.L1

/-! ## Data -/

/-- An error, with the texts of the fields the pool reads. -/
structure Failure where
  code : String
  serverCode : String
  message : String
  retryable : Bool
deriving DecidableEq

/-- mirrors src/pool/UplinkPool.js:52-57 -/
def errObj (code message : String) (retryable : Bool) : Failure :=
  let named := if code.isEmpty then "UPLINK_ERR" else code
  { code := named
    serverCode := ""
    message := if message.isEmpty then named else message
    retryable }

def terminalHomeRejectionCodes : List String := ["DELEGATED_DEVICES_UNSUPPORTED"]

/-- mirrors src/pool/UplinkPool.js:43-50 -/
def terminalHomeRejectionCode (err : Option Failure) : Option String :=
  err.bind fun err => ([err.code, err.serverCode].map trim).find? fun code =>
    terminalHomeRejectionCodes.contains code

/-- What a transport resolves a request with. -/
structure Frame where
  body : Option Json

/-- `frame && frame.body ? frame.body : null` -/
def Frame.result (frame : Frame) : Option Json :=
  if Json.truthy frame.body then frame.body else none

/-- What an authentication gives. -/
structure Session where
  nodePublicKeyB64 : String
  relayKeyId : String
  body : String
deriving DecidableEq

structure Transport where
  url : String
  /-- `connect` has succeeded, and `close` was not called since -/
  opened : Bool
  /-- the pool's handlers are registered -/
  subscribed : Bool
  /-- what the authentication on its present connection has produced -/
  session : Option Session
  connects : Nat
  auths : Nat
deriving DecidableEq

structure Conn where
  transport : Nat
  ready : Bool
  healthy : Bool
deriving DecidableEq

structure Config where
  uplinks : List String
  warmSpareCount : Nat
  reconnectBackoffMs : Nat
  reconnectBackoffCapMs : Nat

/-- The fields of `RezClient`. `#startPromise` is assigned after its own
`finally`, so it stays. -/
structure Client where
  started : Bool
  connected : Bool
  startPromise : Bool
  connectPromise : Option Nat
  stopPromise : Option Nat
deriving DecidableEq

structure UplinkPool where
  transports : List Transport
  conns : List (String × Conn)
  activeUrl : Option String
  sessionInfo : Option Session
  ready : Bool
  promotePromise : Option Nat
  spareEnsurePromise : Option Nat
  spareEnsureQueued : Bool
  /-- the delay of the armed timer -/
  reconnectTimer : Option Nat
  reconnectAttempts : Nat
  closed : Bool
  connectPromise : Option Nat
  attemptReconnectPromise : Option Nat
  /-- the session of the shared `AuthStateMachine` -/
  authSession : Option Session
  promises : List (Option (Except Failure Bool))
  client : Client

def UplinkPool.new : UplinkPool where
  transports := []
  conns := []
  activeUrl := none
  sessionInfo := none
  ready := false
  promotePromise := none
  spareEnsurePromise := none
  spareEnsureQueued := false
  reconnectTimer := none
  reconnectAttempts := 0
  closed := false
  connectPromise := none
  attemptReconnectPromise := none
  authSession := none
  promises := []
  client := ⟨false, false, false, none, none⟩

/-- How many restoration hooks are registered, and whether the transport
factory throws. -/
structure Input where
  hooks : Nat
  factoryThrows : Option Failure

namespace UplinkPool

/-- A new promise. -/
def promise (s : UplinkPool) : Nat × UplinkPool :=
  (s.promises.length, { s with promises := s.promises ++ [none] })

def settle (s : UplinkPool) (p : Nat) (r : Except Failure Bool) : UplinkPool :=
  { s with promises := s.promises.set p (some r) }

def conn (s : UplinkPool) (url : String) : Option Conn := OMap.get url s.conns

/-- mirrors src/pool/UplinkPool.js:581-585 -/
def mark (s : UplinkPool) (url : String) (ready healthy : Bool) : UplinkPool :=
  { s with conns := match s.conn url with
    | some c => OMap.set url { c with ready, healthy } s.conns
    | none => s.conns }

/-- mirrors src/pool/UplinkPool.js:573-579 -/
def setActive (s : UplinkPool) (url : String) : UplinkPool :=
  { s with activeUrl := some url, sessionInfo := s.authSession }

/-- mirrors src/pool/UplinkPool.js:481-496 -/
def scheduleReconnect (cfg : Config) (s : UplinkPool) : UplinkPool :=
  let stays := s.closed || s.reconnectTimer.isSome
  { s with
    reconnectAttempts := if stays then s.reconnectAttempts else s.reconnectAttempts + 1
    reconnectTimer := if stays then s.reconnectTimer
      else some (min cfg.reconnectBackoffCapMs (cfg.reconnectBackoffMs * 2 ^ s.reconnectAttempts)) }

def isSpare (s : UplinkPool) (url : String) : Bool :=
  s.activeUrl ≠ some url && (s.conn url).any fun c => c.ready && c.healthy

/-- mirrors src/pool/UplinkPool.js:564-571 -/
def findConnectedSpare (cfg : Config) (s : UplinkPool) : Option String :=
  cfg.uplinks.find? s.isSpare

def connectedSpares (cfg : Config) (s : UplinkPool) : Nat := (cfg.uplinks.filter s.isSpare).length

/-! ## Closing -/

/-- Unsubscribe from the next transport and call its `close`.
mirrors src/pool/UplinkPool.js:369-371 -/
def hangUp (s : UplinkPool) (tr : Option Nat) : UplinkPool :=
  { s with transports := match tr with
    | some tr => s.transports.modify tr fun t => { t with subscribed := false, opened := false }
    | none => s.transports }

/-- Forget everything; the transports are to be closed.
mirrors src/pool/UplinkPool.js:355-371 -/
def clear (s : UplinkPool) : List Nat × UplinkPool :=
  let entries := s.conns.map fun p => p.2.transport
  (entries, { s with
    conns := []
    activeUrl := none
    sessionInfo := none
    ready := false
    promotePromise := none
    spareEnsurePromise := none
    spareEnsureQueued := false }.hangUp entries.head?)

/-- mirrors src/pool/UplinkPool.js:204-209 -/
def close (s : UplinkPool) : List Nat × UplinkPool :=
  { s with closed := true, reconnectTimer := none, reconnectAttempts := 0 }.clear

/-! ## Connecting -/

/-- A routine that another call runs already is joined. -/
inductive Entered
  | join (p : Nat)
  | run (p : Nat) (entries : List Nat)
deriving DecidableEq

/-- mirrors src/pool/UplinkPool.js:138-141 and 170-173 -/
def connectEnter (s : UplinkPool) : Entered × UplinkPool :=
  match s.connectPromise with
  | some p => (.join p, s)
  | none =>
    let (p, s) := s.promise
    let (entries, s) :=
      { s with connectPromise := some p, closed := false, reconnectTimer := none }.clear
    (.run p entries, s)

/-- The transport to connect; none when the connection is ready.
mirrors src/pool/UplinkPool.js:334-349 -/
def begin (s : UplinkPool) (i : Input) (url : String) : Except Failure (Option Nat) × UplinkPool :=
  match s.conn url with
  | some c =>
    if c.ready then (.ok none, s)
    else (.ok (some c.transport),
      { s with
        transports :=
          s.transports.modify c.transport fun t => { t with connects := t.connects + 1 } })
  | none =>
    match i.factoryThrows with
    | some err => (.error err, s)
    | none => (.ok (some s.transports.length),
      { s with
        transports := s.transports ++ [⟨url, false, true, none, 1, 0⟩]
        conns := OMap.set url ⟨s.transports.length, false, false⟩ s.conns })

/-- mirrors src/auth/AuthStateMachine.js:237-242 -/
def authStart (s : UplinkPool) (tr : Nat) : UplinkPool :=
  { s with
    authSession := none
    transports := s.transports.modify tr fun t => { t with auths := t.auths + 1 } }

/-- mirrors src/pool/UplinkPool.js:178-180 -/
def activate (s : UplinkPool) (url : String) : UplinkPool := { s.setActive url with ready := true }

/-- No uplink was activated.
mirrors src/pool/UplinkPool.js:187-200 -/
def connectEnd (cfg : Config) (s : UplinkPool) (firstErr : Option Failure) :
    Except Failure Unit × UplinkPool :=
  let message := match firstErr with
    | some err => if err.message.isEmpty then "no uplinks available" else err.message
    | none => "no uplinks available"
  if !s.ready || s.activeUrl.isNone then
    match terminalHomeRejectionCode firstErr with
    | some code => (.error (errObj code ((firstErr.map Failure.message).getD "") false), s)
    | none => (.error (errObj "UNREACHABLE" message true), s.scheduleReconnect cfg)
  else (.ok (), s)

/-! ## Warm spares -/

inductive Spares
  | join (p : Nat)
  | run (p : Nat) (go : Bool)
deriving DecidableEq

/-- mirrors src/pool/UplinkPool.js:532-543 -/
def spareEnter (cfg : Config) (s : UplinkPool) : Spares × UplinkPool :=
  match s.spareEnsurePromise with
  | some p => (.join p, s)
  | none =>
    let (p, s) := s.promise
    (.run p (s.activeUrl.isSome && 0 < cfg.warmSpareCount &&
    s.connectedSpares cfg < cfg.warmSpareCount),
      { s with spareEnsurePromise := some p })

inductive Spare | stop | skip | connect
deriving DecidableEq

/-- mirrors src/pool/UplinkPool.js:545-548 -/
def spareNext (cfg : Config) (s : UplinkPool) (url : String) : Spare :=
  if s.activeUrl = some url then .skip
  else if cfg.warmSpareCount ≤ s.connectedSpares cfg then .stop
  else if (s.conn url).any fun c => c.ready && c.healthy then .skip
  else .connect

/-- mirrors src/pool/UplinkPool.js:554-560 -/
def spareFinally (s : UplinkPool) : Bool × UplinkPool :=
  let s := { s with spareEnsurePromise := none }
  if s.spareEnsureQueued && !s.closed then (true, { s with spareEnsureQueued := false })
    else (false, s)

/-! ## Failover -/

/-- mirrors src/pool/UplinkPool.js:391-393 -/
def promote (s : UplinkPool) (candidate : String) : UplinkPool :=
  { s.setActive candidate with ready := true }

/-- The hooks to run when there is a candidate.
mirrors src/pool/UplinkPool.js:384-393 -/
def promoteFind (cfg : Config) (s : UplinkPool) (i : Input) : Option Nat × UplinkPool :=
  match s.findConnectedSpare cfg with
  | some candidate => (some i.hooks, s.promote candidate)
  | none => (none, s)

/-- mirrors src/pool/UplinkPool.js:397-401 and 420-424 -/
def goOffline (cfg : Config) (s : UplinkPool) : UplinkPool :=
  { s with ready := false, activeUrl := none, sessionInfo := none }.scheduleReconnect cfg

/-- mirrors src/pool/UplinkPool.js:608-613 (`finally`) -/
def promoteEnd (s : UplinkPool) (p : Nat) (promoted : Bool) : UplinkPool :=
  { s with promotePromise := none }.settle p (.ok promoted)

inductive StateEvent
  | unheard
  | spare
  | join (p : Nat)
  | search (p : Nat)
  | promoted (p : Nat) (hooks : Nat)
deriving DecidableEq

/-- A transport reports that it is disconnected, or an error.
mirrors src/pool/UplinkPool.js:410-429 -/
def stateEvent (cfg : Config) (s : UplinkPool) (i : Input) (tr : Nat) : StateEvent × UplinkPool :=
  match s.transports[tr]? with
  | none => (.unheard, s)
  | some t =>
    if !t.subscribed then (.unheard, s)
    else
      let s := s.mark t.url false false
      if s.activeUrl = some t.url then
        match s.promotePromise with
        | some p => (.join p, s)
        | none =>
          let (p, s) := s.promise
          match { s with promotePromise := some p }.promoteFind cfg i with
          | (some hooks, s) => (.promoted p hooks, s)
          | (none, s) => (.search p, s)
      else (.spare, if s.spareEnsurePromise.isSome then { s with spareEnsureQueued := true } else s)

/-! ## Reconnecting -/

inductive Kick
  | done
  | refused
  | join (p : Nat)
  | attempt (a : Nat) (e : Entered)
deriving DecidableEq

/-- mirrors src/pool/UplinkPool.js:505-509 -/
def attemptEnter (s : UplinkPool) : Kick × UplinkPool :=
  match s.attemptReconnectPromise with
  | some a => (.join a, s)
  | none =>
    let (a, s) := s.promise
    let (e, s) := { s with attemptReconnectPromise := some a }.connectEnter
    (.attempt a e, s)

/-- mirrors src/pool/UplinkPool.js:160-168 -/
def connectNow (s : UplinkPool) : Kick × UplinkPool :=
  if s.closed then (.refused, s)
  else match s.attemptReconnectPromise with
    | some a => (.join a, s)
    | none =>
      if s.ready && s.activeUrl.isSome then (.done, s)
        else { s with reconnectTimer := none }.attemptEnter

/-- The armed timer fires.
mirrors src/pool/UplinkPool.js:488-494 -/
def timer (s : UplinkPool) : Kick × UplinkPool :=
  match s.reconnectTimer with
  | none => (.done, s)
  | some _ =>
    let s := { s with reconnectTimer := none }
    if s.closed then (.done, s) else s.attemptEnter

/-! ## Requests -/

/-- The transport of the active uplink.
mirrors src/pool/UplinkPool.js:281-288 -/
def activeTransport (s : UplinkPool) : Except Failure Nat :=
  match s.activeUrl with
  | some url =>
    if s.ready then
      match s.conn url with
      | some c =>
        if c.ready then .ok c.transport else .error (errObj "UNREACHABLE" "no ready uplink" true)
      | none => .error (errObj "UNREACHABLE" "no ready uplink" true)
    else .error (errObj "NOT_READY" "uplink pool not ready" true)
  | none => .error (errObj "NOT_READY" "uplink pool not ready" true)

/-- mirrors src/pool/UplinkPool.js:291-294 -/
def ordered (cfg : Config) (s : UplinkPool) (skipActiveUplink : Bool) : List String :=
  let others := cfg.uplinks.filter fun u => s.activeUrl ≠ some u
  if skipActiveUplink then others ++ s.activeUrl.toList else s.activeUrl.toList ++ others

def readyTransport (s : UplinkPool) (url : String) : Option Nat :=
  (s.conn url).bind fun c => if c.ready then some c.transport else none

/-- mirrors src/pool/UplinkPool.js:313-317 -/
def adopt (s : UplinkPool) (url : String) : UplinkPool :=
  if s.activeUrl = some url then s else s.setActive url

/-! ## The client -/

inductive ClientEntered
  | done
  | join (p : Nat)
  | starting (p : Nat)
  | connecting (p : Nat) (e : Entered)
deriving DecidableEq

/-- mirrors src/client/RezClient.js:200-208 and 220-228 -/
def clientConnect (s : UplinkPool) : ClientEntered × UplinkPool :=
  if s.client.connected then (.done, s)
  else match s.client.connectPromise with
    | some p => (.join p, s)
    | none =>
      let (p, s) := s.promise
      let s := { s with client := { s.client with connectPromise := some p } }
      if s.client.started then
        let (e, s) := s.connectEnter
        (.connecting p e, s)
      else
        (.starting p, { s with
          client := { s.client with started := !s.client.startPromise, startPromise := true } })

/-- mirrors src/client/RezClient.js:230-239 -/
def clientConnected (s : UplinkPool) (p : Nat) (r : Except Failure Bool) : UplinkPool :=
  { s with client := { s.client with connected := r.toBool, connectPromise := none } }.settle p r

/-- mirrors src/client/RezClient.js:244-247 -/
def clientDisconnect (s : UplinkPool) : Option (List Nat) × UplinkPool :=
  if s.client.connected then (some s.close.1, s.close.2) else (none, s)

/-- mirrors src/client/RezClient.js:248 -/
def clientDisconnected (s : UplinkPool) : UplinkPool :=
  { s with client := { s.client with connected := false } }

inductive Stopping
  | join (p : Nat)
  | run (p : Nat) (wasConnected : Bool) (entries : List Nat)
deriving DecidableEq

/-- mirrors src/client/RezClient.js:262-275 -/
def clientStop (s : UplinkPool) : Stopping × UplinkPool :=
  match s.client.stopPromise with
  | some p => (.join p, s)
  | none =>
    let (p, s) := s.promise
    let (entries, s) := { s with client := { s.client with stopPromise := some p } }.close
    (.run p s.client.connected entries, s)

/-- mirrors src/client/RezClient.js:276-284 -/
def clientStopped (s : UplinkPool) (p : Nat) : UplinkPool :=
  { s with client := { s.client with started := false, stopPromise := none } }.settle p (.ok true)

end UplinkPool

/-! ## The stretches -/

inductive Stretch
  | connect
  | connectNow
  | timer
  | close
  | restoreClear
  | hangUp (tr : Option Nat)
  | begin (url : String)
  | authStart (tr : Nat)
  | markReady (url : String)
  | activate (url : String)
  | connectEnd (firstErr : Option Failure)
  | connectSettle (p : Nat) (r : Except Failure Bool)
  | connectFinally
  | spareEnter
  | spareNext (url : String)
  | spareFailed (url : String)
  | spareSettle (p : Nat)
  | spareFinally
  | stateEvent (tr : Nat)
  | promoteFind
  | promoteFailed
  | promoteEnd (p : Nat) (promoted : Bool)
  | promoteLost
  | attemptFailed
  | restore
  | attemptDone
  | restoreFailed
  | attemptSettle (a : Nat) (r : Except Failure Bool)
  | attemptFinally
  | request
  | requestAll (skipActiveUplink : Bool)
  | requestVia (url : String)
  | adopt (url : String)
  | requestSettle
  | clientConnect
  | clientPool
  | clientConnected (p : Nat) (r : Except Failure Bool)
  | clientDisconnect
  | clientDisconnected
  | clientStop
  | clientStopped (p : Nat)

def Stretch.apply (cfg : Config) (i : Input) (s : UplinkPool) : Stretch → UplinkPool
  | .connect => s.connectEnter.2
  | .connectNow => s.connectNow.2
  | .timer => s.timer.2
  | .close => s.close.2
  | .restoreClear => s.clear.2
  | .hangUp tr => s.hangUp tr
  | .begin url => (s.begin i url).2
  | .authStart tr => s.authStart tr
  | .markReady url => s.mark url true true
  | .activate url => s.activate url
  | .connectEnd firstErr => (s.connectEnd cfg firstErr).2
  | .connectSettle p r => s.settle p r
  | .connectFinally => { s with connectPromise := none }
  | .spareEnter => (s.spareEnter cfg).2
  | .spareNext _ => s
  | .spareFailed url => s.mark url false false
  | .spareSettle p => s.settle p (.ok true)
  | .spareFinally => s.spareFinally.2
  | .stateEvent tr => (s.stateEvent cfg i tr).2
  | .promoteFind => (s.promoteFind cfg i).2
  | .promoteFailed => s.goOffline cfg
  | .promoteEnd p promoted => s.promoteEnd p promoted
  | .promoteLost => s.goOffline cfg
  | .attemptFailed => s.scheduleReconnect cfg
  | .restore => s
  | .attemptDone => { s with reconnectAttempts := 0 }
  | .restoreFailed => s.scheduleReconnect cfg
  | .attemptSettle a r => s.settle a r
  | .attemptFinally => { s with attemptReconnectPromise := none }
  | .request => s
  | .requestAll _ => s
  | .requestVia _ => s
  | .adopt url => s.adopt url
  | .requestSettle => s
  | .clientConnect => s.clientConnect.2
  | .clientPool => s.connectEnter.2
  | .clientConnected p r => s.clientConnected p r
  | .clientDisconnect => s.clientDisconnect.2
  | .clientDisconnected => s.clientDisconnected
  | .clientStop => s.clientStop.2
  | .clientStopped p => s.clientStopped p

inductive Await
  | connect (tr : Nat)
  | authenticate (tr : Nat)
  | close (tr : Nat)
  | request (tr : Nat)
  | hook
  | join (p : Nat)
  /-- the upkeep of the spares catches what it meets and never rejects -/
  | joinSpares (p : Nat)
  /-- nor does a promotion -/
  | joinPromotion (p : Nat)
  | forever

abbrev Await.Ans : Await → Type
  | .connect _ => Except Failure Unit
  | .authenticate _ => Except Failure Session
  | .close _ => Unit
  | .request _ => Except Failure Frame
  | .hook => Except Failure Unit
  | .join _ => Except Failure Bool
  | .joinSpares _ => Unit
  | .joinPromotion _ => Bool
  | .forever => Empty

abbrev outside : Iface := ⟨Await, Await.Ans⟩
abbrev uplinkPool : Iface := object UplinkPool Input Stretch outside
abbrev Pooling (α : Type) : Type := Method UplinkPool Input Stretch outside Failure α

/-! ## The methods -/

section

variable (cfg : Config) (rounds : Nat)

/-- A stretch that cannot throw. -/
def act {α : Type} (l : Stretch) (f : Input → UplinkPool → α) : Pooling α :=
  .ask (.run l fun i s => l.apply cfg i s) fun x => .ret (.ok (f x.1 x.2))

/-- A stretch that may throw. -/
def tryAct {α : Type} (l : Stretch) (f : Input → UplinkPool → Except Failure α) : Pooling α :=
  .ask (.run l fun i s => l.apply cfg i s) fun x => .ret (f x.1 x.2)

def joined (p : Nat) : Pooling Bool := .ask (.await (.join p)) .ret

/-- mirrors src/pool/UplinkPool.js:368-379 -/
def drain : List Nat → Pooling Unit
  | [] => return ()
  | tr :: rest => do
    let () ← .ask (.await (.close tr)) fun _ => .ret (.ok ())
    act cfg (.hangUp rest.head?) fun _ _ => ()
    drain rest

/-- mirrors src/pool/UplinkPool.js:334-353 -/
def ensureConnected (url : String) : Pooling Unit := do
  match ← tryAct cfg (.begin url) fun i s => (s.begin i url).1 with
  | none => return ()
  | some tr =>
    let () ← .ask (.await (.connect tr)) .ret
    act cfg (.authStart tr) fun _ _ => ()
    let _ ← .ask (.await (.authenticate tr)) .ret
    act cfg (.markReady url) fun _ _ => ()

/-- mirrors src/pool/UplinkPool.js:545-550 -/
def spareLoop : List String → Pooling Unit
  | [] => return ()
  | url :: rest => do
    match ← act cfg (.spareNext url) fun _ s => s.spareNext cfg url with
    | .stop => return ()
    | .skip => spareLoop rest
    | .connect =>
      Js.attempt (ensureConnected cfg url) fun
        | .ok () => return ()
        | .error _ => act cfg (.spareFailed url) fun _ _ => ()
      spareLoop rest

/-- mirrors src/pool/UplinkPool.js:532-562 -/
def ensureWarmSpareTarget : Nat → Pooling Unit
  | 0 => .ask (.await .forever) nofun
  | rounds + 1 => do
    match ← act cfg .spareEnter fun _ s => (s.spareEnter cfg).1 with
    | .join p => .ask (.await (.joinSpares p)) fun _ => .ret (.ok ())
    | .run p go =>
      if go then spareLoop cfg cfg.uplinks
      act cfg (.spareSettle p) fun _ _ => ()
      if ← act cfg .spareFinally fun _ s => s.spareFinally.1 then ensureWarmSpareTarget rounds

/-- Try the uplinks in turn; none when one was activated, else the first error.
mirrors src/pool/UplinkPool.js:175-185 -/
def connectLoop : List String → Option Failure → Pooling (Option (Option Failure))
  | [], firstErr => return some firstErr
  | url :: rest, firstErr =>
    Js.attempt (do
      ensureConnected cfg url
      act cfg (.activate url) fun _ _ => ()) fun
      | .ok () => return none
      | .error err => connectLoop rest (firstErr.or (some err))

/-- mirrors src/pool/UplinkPool.js:170-202 -/
def runConnect (entries : List Nat) : Pooling Unit := do
  drain cfg entries
  match ← connectLoop cfg cfg.uplinks none with
  | none => ensureWarmSpareTarget cfg rounds
  | some firstErr =>
    tryAct cfg (.connectEnd firstErr) fun _ s => (s.connectEnd cfg firstErr).1
    ensureWarmSpareTarget cfg rounds

def asOutcome (r : Except Failure Unit) : Except Failure Bool := r.map fun _ => true

/-- mirrors src/pool/UplinkPool.js:139-147 -/
def connectWith : UplinkPool.Entered → Pooling Unit
  | .join p => do
    let _ ← joined p
    return ()
  | .run p entries =>
    Js.attempt (runConnect cfg rounds entries) fun r => do
      act cfg (.connectSettle p (asOutcome r)) fun _ _ => ()
      act cfg .connectFinally fun _ _ => ()
      Js.ofExcept r

def connect : Pooling Unit := do
  let e ← act cfg .connect fun _ s => s.connectEnter.1
  connectWith cfg rounds e

/-- mirrors src/pool/UplinkPool.js:601-606 -/
def notifyReconnected : Nat → Pooling Unit
  | 0 => return ()
  | n + 1 => do
    let () ← .ask (.await .hook) .ret
    notifyReconnected n

/-- mirrors src/pool/UplinkPool.js:505-530 -/
def attemptReconnect (a : Nat) (e : UplinkPool.Entered) : Pooling Unit :=
  Js.attempt (Js.attempt (connectWith cfg rounds e) fun
    | .error err => do
      act cfg .attemptFailed fun _ _ => ()
      throw err
    | .ok () => do
      let hooks ← act cfg .restore fun i _ => i.hooks
      Js.attempt (notifyReconnected hooks) fun
        | .ok () => act cfg .attemptDone fun _ _ => ()
        | .error err => do
          let entries ← act cfg .restoreClear fun _ s => s.clear.1
          drain cfg entries
          act cfg .restoreFailed fun _ _ => ()
          throw err) fun r => do
    act cfg (.attemptSettle a (asOutcome r)) fun _ _ => ()
    act cfg .attemptFinally fun _ _ => ()
    Js.ofExcept r

def kicked : UplinkPool.Kick → Pooling Unit
  | .done => return ()
  | .refused => throw (errObj "CLOSED" "uplink pool is closed" false)
  | .join a => do
    let _ ← joined a
    return ()
  | .attempt a e => attemptReconnect cfg rounds a e

/-- mirrors src/pool/UplinkPool.js:160-168 -/
def connectNow : Pooling Unit := do
  let k ← act cfg .connectNow fun _ s => s.connectNow.1
  kicked cfg rounds k

/-- mirrors src/pool/UplinkPool.js:488-494 -/
def timer : Pooling Unit := do
  let k ← act cfg .timer fun _ s => s.timer.1
  Js.attempt (kicked cfg rounds k) fun _ => return ()

/-- mirrors src/pool/UplinkPool.js:204-209 -/
def close : Pooling Unit := do
  let entries ← act cfg .close fun _ s => s.close.1
  drain cfg entries

/-- The hooks of a promoted spare.
mirrors src/pool/UplinkPool.js:394-406 -/
def restoreSpare (p hooks : Nat) : Pooling Bool :=
  Js.attempt (notifyReconnected hooks) fun
    | .ok () => do
      ensureWarmSpareTarget cfg rounds
      act cfg (.promoteEnd p true) fun _ _ => true
    | .error _ => do
      act cfg .promoteFailed fun _ _ => ()
      act cfg (.promoteEnd p false) fun _ _ => false

/-- mirrors src/pool/UplinkPool.js:417-425 -/
def unlessPromoted (promoted : Bool) : Pooling Unit :=
  if promoted then return () else act cfg .promoteLost fun _ _ => ()

/-- A transport reports `disconnected` or `error`.
mirrors src/pool/UplinkPool.js:381-430 -/
def onConnState (tr : Nat) : Pooling Unit := do
  match ← act cfg (.stateEvent tr) fun i s => (s.stateEvent cfg i tr).1 with
  | .unheard => return ()
  | .spare => ensureWarmSpareTarget cfg rounds
  | .join p => do
    let promoted ← .ask (.await (.joinPromotion p)) fun promoted => .ret (.ok promoted)
    unlessPromoted cfg promoted
  | .promoted p hooks => do
    let promoted ← restoreSpare cfg rounds p hooks
    unlessPromoted cfg promoted
  | .search p => do
    ensureWarmSpareTarget cfg rounds
    match ← act cfg .promoteFind fun i s => (s.promoteFind cfg i).1 with
    | some hooks => do
      let promoted ← restoreSpare cfg rounds p hooks
      unlessPromoted cfg promoted
    | none => do
      act cfg (.promoteEnd p false) fun _ _ => ()
      unlessPromoted cfg false

structure RequestArgs where
  type : String
  tryAllUplinks : Bool
  continueOnCodes : List String
  adoptSuccessfulUplink : Bool
  skipActiveUplink : Bool

/-- mirrors src/pool/UplinkPool.js:296-330 -/
def requestLoop (a : RequestArgs) : List String → Option Failure → Pooling Frame
  | [], lastErr =>
    throw (lastErr.getD (errObj "UNREACHABLE" (trim a.type ++ " failed across uplinks") true))
  | url :: rest, lastErr =>
    Js.attempt (ensureConnected cfg url) fun
      | .error err => requestLoop a rest (some err)
      | .ok () => do
        match ← act cfg (.requestVia url) fun _ s => s.readyTransport url with
        | none => requestLoop a rest lastErr
        | some tr =>
          Js.attempt (.ask (.await (.request tr)) .ret) fun
            | .ok frame =>
              if a.adoptSuccessfulUplink then act cfg (.adopt url) fun _ _ => frame
                else return frame
            | .error err =>
              if (a.continueOnCodes.map trim).contains (trim err.code)
                then requestLoop a rest (some err) else throw err

/-- mirrors src/pool/UplinkPool.js:263-330 -/
def sendRequest (a : RequestArgs) : Pooling Frame :=
  if (trim a.type).isEmpty then throw (errObj "BAD_REQUEST" "type required" false)
  else if a.tryAllUplinks then do
    match ← act cfg (.requestAll a.skipActiveUplink) fun _ s =>
      s.ordered cfg a.skipActiveUplink with
    | [] => do
      act cfg .requestSettle fun _ _ => ()
      throw (errObj "UNREACHABLE" "no uplinks configured" true)
    | urls =>
      Js.attempt (requestLoop cfg a urls none) fun r => do
        act cfg .requestSettle fun _ _ => ()
        Js.ofExcept r
  else do
    let tr ← tryAct cfg .request fun _ s => s.activeTransport
    .ask (.await (.request tr)) .ret

def retryableFailoverCodes : List String :=
  ["RATE_LIMITED", "TIMEOUT", "DISCONNECTED", "UNREACHABLE", "CONNECT_FAILED",
  "CONNECT_TIMEOUT", "SEND_FAILED"]

/-- The codes after which the other uplinks are tried.
mirrors src/client/UplinkPoolClient.js:198-199 -/
def continueOnCodes (err : Failure) : List String :=
  if (trim err.code).isEmpty then retryableFailoverCodes
    else retryableFailoverCodes ++ [trim err.code]

/-- mirrors src/client/UplinkPoolClient.js:185-212 -/
def request (type : String) : Pooling (Option Json) :=
  if type.isEmpty then throw (errObj "BAD_REQUEST" "request requires type" false)
  else Js.attempt (sendRequest cfg ⟨type, false, [], false, false⟩) fun
    | .ok frame => return frame.result
    | .error err =>
      if !err.retryable || trim err.code = "NOT_READY" then throw err
      else do
        let frame ← sendRequest cfg ⟨type, true, continueOnCodes err, true, true⟩
        return frame.result

/-- mirrors src/client/RezClient.js:229-241 -/
def clientConnecting (p : Nat) (e : UplinkPool.Entered) : Pooling Unit :=
  Js.attempt (connectWith cfg rounds e) fun r => do
    act cfg (.clientConnected p (asOutcome r)) fun _ _ => ()
    Js.ofExcept r

/-- mirrors src/client/RezClient.js:220-244 -/
def clientConnect : Pooling Unit := do
  match ← act cfg .clientConnect fun _ s => s.clientConnect.1 with
  | .done => return ()
  | .join p => do
    let _ ← joined p
    return ()
  | .starting p => do
    let e ← act cfg .clientPool fun _ s => s.connectEnter.1
    clientConnecting cfg rounds p e
  | .connecting p e => clientConnecting cfg rounds p e

/-- mirrors src/client/RezClient.js:244-256 -/
def clientDisconnect : Pooling Unit := do
  match ← act cfg .clientDisconnect fun _ s => s.clientDisconnect.1 with
  | none => return ()
  | some entries => do
    drain cfg entries
    act cfg .clientDisconnected fun _ _ => ()

/-- mirrors src/client/RezClient.js:262-289 -/
def clientStop : Pooling Unit := do
  match ← act cfg .clientStop fun _ s => s.clientStop.1 with
  | .join p => do
    let _ ← joined p
    return ()
  | .run p wasConnected entries => do
    drain cfg entries
    if wasConnected then act cfg .clientDisconnected fun _ _ => ()
    act cfg (.clientStopped p) fun _ _ => ()

inductive Call
  | connect
  | connectNow
  | sendRequest (a : RequestArgs)
  | request (type : String)
  | close
  /-- a transport reports that it is disconnected, or an error -/
  | connState (tr : Nat)
  /-- the reconnect timer -/
  | timer
  | clientConnect
  | clientDisconnect
  | clientStop

def run : Call → Pooling Unit
  | .connect => connect cfg rounds
  | .connectNow => connectNow cfg rounds
  | .sendRequest a => do let _ ← sendRequest cfg a
  | .request type => do let _ ← request cfg type
  | .close => close cfg
  | .connState tr => onConnState cfg rounds tr
  | .timer => timer cfg rounds
  | .clientConnect => clientConnect cfg rounds
  | .clientDisconnect => clientDisconnect cfg
  | .clientStop => clientStop cfg

end

def UplinkPool.onTransport (s : UplinkPool) (tr : Nat) (f : Transport → Transport) : UplinkPool :=
  { s with transports := s.transports.modify tr f }

/-- A promise can be joined once it is settled. Everything else may answer
anything at any time. -/
def outsideWorld : Environment UplinkPool outside where
  allows
    | s, .join p, r => match s.promises[p]? with
      | some (some r') => match r, r' with
        | .ok b, .ok b' => b = b'
        | .error e, .error e' => e = e'
        | _, _ => false
      | _ => false
    | s, .joinSpares p, () => match s.promises[p]? with
      | some (some _) => true
      | _ => false
    | s, .joinPromotion p, promoted => match s.promises[p]? with
      | some (some (.ok promoted')) => promoted = promoted'
      | _ => false
    | _, _, _ => true
  effect
    | s, .connect tr, .ok () =>
      s.onTransport tr fun t =>
        { t with connects := t.connects - 1, opened := true, session := none }
    | s, .connect tr, .error _ => s.onTransport tr fun t => { t with connects := t.connects - 1 }
    | s, .authenticate tr, .ok session =>
      { s.onTransport tr fun t => { t with auths := t.auths - 1, session := some session } with
        authSession := some session }
    | s, .authenticate tr, .error _ => s.onTransport tr fun t => { t with auths := t.auths - 1 }
    | s, _, _ => s

/-- Any number of calls and events on one pool and its client. -/
def uplinks (cfg : Config) (rounds : Nat) :
    System uplinkPool UplinkPool (ObjFate Input outside) Call (Except Failure Unit) :=
  .ofObject outsideWorld (run cfg rounds)

abbrev UplinkState := Pool uplinkPool UplinkPool (ObjFate Input outside) Call (Except Failure Unit)
abbrev UplinkRules := Discipline uplinkPool UplinkPool (ObjFate Input outside) Call
    (Except Failure Unit)
abbrev UplinkEvent := Event uplinkPool (ObjFate Input outside)

def anyUse : UplinkRules where
  init s := s = .new
  may _ _ := True
  ok _ _ := True

end RezSdk.L3.Uplinks
