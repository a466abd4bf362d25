import RezSdk.L3Service.RequestTable

/-!
# The TCP transport (`TcpTransport.js`)

As the WebSocket transport, with three differences. `connect()` first waits for
a module, so two calls can both make a socket. Whether the transport is
connected is a flag of its own, that any socket's connect event sets. And the
listeners go to the socket that is stored when `connect()` goes on, which need
not be the one it has made. Frames are cut out of one buffer for all sockets;
the model remembers which socket each byte came from.
-/
namespace RezSdk.L3.TcpTransport

open RezSdk.L1 RezSdk.L3.Transports

structure Socket where
  destroyed : Bool
  /-- its close event came -/
  gone : Bool
  /-- its connect event came -/
  up : Bool
  call : ConnectCall
  dataListeners : Nat
  closeListeners : Nat
deriving DecidableEq

structure Config where
  /-- `timeouts.keepAliveMs` is a positive number -/
  keepAlives : Bool
  maxFrameBytes : Nat
  /-- `decodeFrame` of the codec on the text of the bytes, `none` when it throws -/
  decodeFrame : List UInt8 → Option (Option Json)
  numText : JsNumber → String

structure State where
  sockets : List Socket
  /-- the `connect()` calls that wait for the module -/
  importing : Nat
  /-- `#socket` -/
  socket : Option Nat
  /-- `#connected` -/
  isUp : Bool
  /-- `#readBuffer`, each byte with the socket it came from -/
  readBuffer : List (UInt8 × Nat)
  requests : Requests
  /-- `#keepAliveTimer` is set -/
  keepAlive : Bool
  /-- ghost: the `disconnected` states, by the socket that is gone and the one
  that was connected then -/
  reports : List (Nat × Option Nat)

def init : State := ⟨[], 0, none, false, [], .init, false, []⟩

inductive Action
  | connect
  /-- the module is there, and the socket is made -/
  | imported
  | connectTimeout (socket : Nat)
  | connects (socket : Nat)
  /-- the rest of `connect()` after the connect event -/
  | continues (socket : Nat)
  | errors (socket : Nat)
  | closes (socket : Nat)
  | data (socket : Nat) (chunk : List UInt8)
  | close
  | sendRequest (ask : Ask)
  | requestTimeout (promise : Nat)
  /-- the interval timer, and whether the ping can be written -/
  | keepAlive (sends : Bool)

namespace State

variable (s : State)

def destroyed (k : Nat) : Option Bool := (s.sockets[k]?).map Socket.destroyed

/-- The socket that `isConnected()` speaks of.
mirrors src/transport/TcpTransport.js:142-144 -/
def connected : Option Nat := s.socket.filter fun k => s.isUp ∧ s.destroyed k = some false

def setSocket (k : Nat) (f : Socket → Socket) : State := { s with sockets := s.sockets.modify k f }

end State

/-- `socket.destroy()` -/
def Socket.destroy (socket : Socket) : Socket := { socket with destroyed := true }

/-- mirrors src/transport/TcpTransport.js:123-140 -/
def close (s : State) : State :=
  let s := { s with
    keepAlive := false
    isUp := false
    requests := s.requests.rejectAll .close
    readBuffer := [] }
  match s.socket with
  | some k => { s.setSocket k Socket.destroy with socket := none }
  | none => s

/-- mirrors src/transport/TcpTransport.js:325-335 -/
def onClosed (socket : Nat) (cause : Cause) (s : State) : State :=
  { s with
    keepAlive := false
    isUp := false
    requests := s.requests.rejectAll cause
    reports := s.reports ++ [(socket, s.connected)] }

/-- mirrors src/transport/TcpTransport.js:310-323 -/
def sendKeepAlive (sends : Bool) (s : State) : State :=
  match s.connected with
  | none => s
  | some k => if sends then s else onClosed k (.sendFailed k) s

/-! ## Frames -/

/-- `header.writeUInt32BE(n, 0)`, which throws for a number that is too large -/
def writeUInt32BE (n : Nat) : Option (List UInt8) :=
  if n < 2 ^ 32 then some [.ofNat (n / 2 ^ 24), .ofNat (n / 2 ^ 16), .ofNat (n / 2 ^ 8), .ofNat n]
    else none

/-- What is written for the bytes of a text.
mirrors src/transport/TcpTransport.js:212-217 -/
def writeFrame (payload : List UInt8) : Option (List UInt8) :=
  (writeUInt32BE payload.length).map (· ++ payload)

/-- `readBuffer.readUInt32BE(0)` -/
def readUInt32BE (buffer : List (UInt8 × Nat)) : Nat :=
  (buffer.take 4).foldl (fun n b => n * 256 + b.1.toNat) 0

/-- The next frame of a buffer with its header, when it is whole and not too
large. -/
def nextFrame (maxFrameBytes : Nat) (buffer : List (UInt8 × Nat)) : Option (List (UInt8 × Nat)) :=
  if buffer.length < 4 ∨ maxFrameBytes < readUInt32BE buffer ∨
    buffer.length < 4 + readUInt32BE buffer then none
  else some (buffer.take (4 + readUInt32BE buffer))

/-- What the loop leaves in the buffer when there is no next frame. -/
def leftover (maxFrameBytes : Nat) (buffer : List (UInt8 × Nat)) : List (UInt8 × Nat) :=
  if 4 ≤ buffer.length ∧ maxFrameBytes < readUInt32BE buffer then [] else buffer

/-- A frame's handling has thrown. -/
def threw : Handling → Bool
  | .dropped _ | .thrown => true
  | _ => false

/-- The loop, for at most `fuel` frames.
mirrors src/transport/TcpTransport.js:221-232 -/
def drain (cfg : Config) : Nat → State → State
  | 0, s => s
  | fuel + 1, s =>
    match nextFrame cfg.maxFrameBytes s.readBuffer with
    | none => { s with readBuffer := leftover cfg.maxFrameBytes s.readBuffer }
    | some bytes =>
      let s := { s with readBuffer := s.readBuffer.drop bytes.length }
      match cfg.decodeFrame ((bytes.drop 4).map Prod.fst) with
      | none => drain cfg fuel s
      | some frame =>
        let handled := Tcp.handle cfg.numText s.requests.pending frame
        let s := { s with requests := s.requests.take (bytes.map Prod.snd) frame handled }
        if threw handled.1 then s else drain cfg fuel s

/-- A frame has at least four bytes, so the buffer holds fewer frames than
bytes.
mirrors src/transport/TcpTransport.js:219-233 -/
def onData (cfg : Config) (socket : Nat) (chunk : List UInt8) (s : State) : State :=
  let s := { s with readBuffer := s.readBuffer ++ chunk.map fun b => (b, socket) }
  drain cfg (s.readBuffer.length + 1) s

/-! ## Steps -/

/-- mirrors src/transport/TcpTransport.js:66-67 -/
def connect (s : State) : State :=
  match s.connected with
  | some _ => s
  | none => { s with importing := s.importing + 1 }

/-- mirrors src/transport/TcpTransport.js:114-120; without a socket it throws -/
def continueConnect (cfg : Config) (k : Nat) (s : State) : State :=
  match s.socket with
  | none => s.setSocket k fun socket => { socket with call := .failed }
  | some current =>
    let s := s.setSocket k fun socket => { socket with call := .returned }
    let s := s.setSocket current fun socket =>
      { socket with
        dataListeners := socket.dataListeners + 1
        closeListeners := socket.closeListeners + 1 }
    { s with keepAlive := s.keepAlive || cfg.keepAlives }

/-- What a step does; `none` when the event cannot come. -/
def fire (cfg : Config) (s : State) : Action → Option State
  | .connect => some (connect s)
  | .imported =>
    if 0 < s.importing then
      some { s with
        importing := s.importing - 1
        sockets := s.sockets ++ [⟨false, false, false, .waiting, 0, 0⟩]
        socket := some s.sockets.length }
    else none
  | .connectTimeout k => do
    let socket ← s.sockets[k]?
    if socket.call = .waiting
      then some (s.setSocket k fun socket => { socket.destroy with call := .failed }) else none
  | .connects k => do
    let socket ← s.sockets[k]?
    if socket.destroyed ∨ socket.up then none
    else
      let s := s.setSocket k fun socket =>
        { socket with up := true, call := if socket.call = .waiting then .opened else socket.call }
      some { s with isUp := true, readBuffer := [] }
  | .continues k => do
    let socket ← s.sockets[k]?
    if socket.call = .opened then some (continueConnect cfg k s) else none
  | .errors k => do
    let _ ← s.sockets[k]?
    some (s.setSocket k fun socket =>
      { socket.destroy with call := if socket.call = .waiting then .failed else socket.call })
  | .closes k => do
    let socket ← s.sockets[k]?
    if socket.gone then none
    else some ((onClosed k (.closed k))^[socket.closeListeners]
      (s.setSocket k fun socket => { socket.destroy with gone := true }))
  | .data k chunk => do
    let socket ← s.sockets[k]?
    some ((onData cfg k chunk)^[socket.dataListeners] s)
  | .close => some (close s)
  | .sendRequest ask => some { s with requests := s.requests.sendRequest s.connected ask }
  | .requestTimeout promise => some { s with requests := s.requests.expire promise }
  | .keepAlive sends => if s.keepAlive then some (sendKeepAlive sends s) else none

def system (cfg : Config) : LTS State Action := ⟨(· = init), fun s e s' => fire cfg s e = some s'⟩

end RezSdk.L3.TcpTransport
