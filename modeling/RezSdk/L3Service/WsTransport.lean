import RezSdk.L3Service.RequestTable

/-!
# The WebSocket transport (`WsTransport.js`)

The transport over the sockets it has made. `connect()` makes a socket, stores
it and waits; the listeners are attached when it goes on after the open event.
The socket that is replaced keeps its listeners. A step is a call of the
transport, an event of one of its sockets, or a timer.

`sendFrame` keeps nothing and is left out, as are the states that are emitted,
other than `disconnected`.
-/
namespace RezSdk.L3.WsTransport

open RezSdk.L1 RezSdk.L3.Transports

inductive ReadyState
  | connecting
  | isOpen
  | closing
  | closed
deriving DecidableEq

structure Socket where
  readyState : ReadyState
  call : ConnectCall
  messageListeners : Nat
  closeListeners : Nat
deriving DecidableEq

structure Config where
  /-- `timeouts.heartbeatIntervalMs` is a positive number -/
  heartbeats : Bool
  maxFrameBytes : Nat
  /-- `decodeFrame` of the codec, `none` when it throws -/
  decodeFrame : String → Option (Option Json)
  numText : JsNumber → String

structure State where
  /-- the sockets that were made -/
  sockets : List Socket
  /-- `#ws` -/
  ws : Option Nat
  requests : Requests
  /-- `#heartbeatTimer` is set -/
  heartbeat : Bool
  lastPongAtMs : Nat
  missedPongs : Nat
  badFrameCount : Nat
  badFrameWindowStart : Nat
  /-- ghost: the sockets that `connect()` calls have returned with -/
  returned : List Nat
  /-- ghost: the `disconnected` states, by the socket that is gone and the one
  that was connected then -/
  reports : List (Nat × Option Nat)

def init : State := ⟨[], none, .init, false, 0, 0, 0, 0, [], []⟩

inductive Action
  /-- `connect()`; the factory may fail to make a socket -/
  | connect (made : Bool)
  | connectTimeout (socket : Nat)
  | opens (socket : Nat)
  /-- the rest of `connect()` after the open event -/
  | continues (socket : Nat)
  | errors (socket : Nat)
  /-- the peer has begun to close -/
  | closing (socket : Nat)
  | closes (socket : Nat)
  | message (socket : Nat) (raw : String) (now : Nat)
  | close
  | sendRequest (ask : Ask)
  | requestTimeout (promise : Nat)
  /-- the interval timer, and whether the ping can be sent -/
  | heartbeat (sends : Bool)

namespace State

variable (s : State)

def readyState (k : Nat) : Option ReadyState := (s.sockets[k]?).map Socket.readyState

/-- The socket that `isConnected()` speaks of.
mirrors src/transport/WsTransport.js:133-135 -/
def connected : Option Nat := s.ws.filter fun k => s.readyState k = some .isOpen

def setSocket (k : Nat) (f : Socket → Socket) : State := { s with sockets := s.sockets.modify k f }

end State

/-- `ws.close()` -/
def Socket.close (socket : Socket) : Socket :=
  match socket.readyState with
  | .connecting | .isOpen => { socket with readyState := .closing }
  | _ => socket

/-- mirrors src/transport/WsTransport.js:116-131 -/
def close (cause : Cause) (s : State) : State :=
  let s := { s with heartbeat := false, requests := s.requests.rejectAll cause }
  match s.ws with
  | some k => { s.setSocket k Socket.close with ws := none }
  | none => s

/-- mirrors src/transport/WsTransport.js:244-253 -/
def onClosed (socket : Nat) (cause : Cause) (s : State) : State :=
  { s with
    heartbeat := false
    requests := s.requests.rejectAll cause
    reports := s.reports ++ [(socket, s.connected)] }

/-- mirrors src/transport/WsTransport.js:201-209 -/
def startHeartbeat (cfg : Config) (s : State) : State :=
  if cfg.heartbeats then { s with heartbeat := true, lastPongAtMs := 0, missedPongs := 0 } else s

/-- The pings have not been answered. -/
def pongsMissing (s : State) : Bool := s.lastPongAtMs = 0 ∧ 2 ≤ s.missedPongs

/-- mirrors src/transport/WsTransport.js:218-242 -/
def sendHeartbeat (sends : Bool) (s : State) : State :=
  match s.connected with
  | none => s
  | some k =>
    if pongsMissing s then (onClosed k (.closed k) s).setSocket k Socket.close
    else
      let s := { s with missedPongs := (if 0 < s.lastPongAtMs then 0
        else s.missedPongs) + 1, lastPongAtMs := 0 }
      if sends then s else onClosed k (.sendFailed k) s

/-- The bad frames of the last five seconds, with one that comes now. -/
def badFrames (now : Nat) (s : State) : Nat :=
  (if s.badFrameWindowStart + 5000 < now then 0 else s.badFrameCount) + 1

/-- mirrors src/transport/WsTransport.js:262-280 -/
def onBadFrame (socket now : Nat) (s : State) : State :=
  let s' := { s with
    badFrameCount := badFrames now s
    badFrameWindowStart :=
      if s.badFrameWindowStart + 5000 < now then now else s.badFrameWindowStart }
  if 10 < badFrames now s then close (.garbled socket) s' else s'

/-- mirrors src/transport/WsTransport.js:255-341 -/
def onRawFrame (cfg : Config) (socket : Nat) (raw : String) (now : Nat) (s : State) : State :=
  if cfg.maxFrameBytes < raw.utf8ByteSize then s
  else match cfg.decodeFrame raw with
    | none => onBadFrame socket now s
    | some frame =>
      if frameType frame = some "pong" then { s with lastPongAtMs := now }
      else { s with requests := s.requests.take [socket] frame (Ws.handle cfg.numText
        s.requests.pending frame) }

/-- mirrors src/transport/WsTransport.js:72-82, up to the wait -/
def connect (made : Bool) (s : State) : State :=
  match s.connected with
  | some k => { s with returned := s.returned ++ [k] }
  | none =>
    if made then
      { s with
        sockets := s.sockets ++ [⟨.connecting, .waiting, 0, 0⟩]
        ws := some s.sockets.length }
    else s

/-- mirrors src/transport/WsTransport.js:107-113 -/
def continueConnect (cfg : Config) (k : Nat) (s : State) : State :=
  let s := s.setSocket k fun socket =>
    { socket with
      call := .returned
      messageListeners := socket.messageListeners + 1
      closeListeners := socket.closeListeners + 1 }
  { startHeartbeat cfg s with returned := s.returned ++ [k] }

/-- What a step does; `none` when the event cannot come. -/
def fire (cfg : Config) (s : State) : Action → Option State
  | .connect made => some (connect made s)
  | .connectTimeout k => do
    let socket ← s.sockets[k]?
    if socket.call = .waiting
      then some (s.setSocket k fun socket => { socket with call := .failed }) else none
  | .opens k => do
    let socket ← s.sockets[k]?
    if socket.readyState = .connecting then
      some (s.setSocket k fun socket =>
        { socket with
          readyState := .isOpen
          call := if socket.call = .waiting then .opened else socket.call })
    else none
  | .continues k => do
    let socket ← s.sockets[k]?
    if socket.call = .opened then some (continueConnect cfg k s) else none
  | .errors k => do
    let _ ← s.sockets[k]?
    some (s.setSocket k fun socket =>
      { socket with call := if socket.call = .waiting then .failed else socket.call })
  | .closing k => do
    let _ ← s.sockets[k]?
    some (s.setSocket k Socket.close)
  | .closes k => do
    let socket ← s.sockets[k]?
    if socket.readyState = .closed then none
    else some ((onClosed k (.closed k))^[socket.closeListeners]
      (s.setSocket k fun socket => { socket with readyState := .closed }))
  | .message k raw now => do
    let socket ← s.sockets[k]?
    if socket.readyState = .isOpen ∨ socket.readyState = .closing then
      some ((onRawFrame cfg k raw now)^[socket.messageListeners] s)
    else none
  | .close => some (close .close s)
  | .sendRequest ask => some { s with requests := s.requests.sendRequest s.connected ask }
  | .requestTimeout promise => some { s with requests := s.requests.expire promise }
  | .heartbeat sends => if s.heartbeat then some (sendHeartbeat sends s) else none

def system (cfg : Config) : LTS State Action := ⟨(· = init), fun s e s' => fire cfg s e = some s'⟩

end RezSdk.L3.WsTransport
