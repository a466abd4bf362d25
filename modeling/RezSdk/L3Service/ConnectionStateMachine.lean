import Mathlib.Algebra.Order.Ring.Rat
import RezSdk.Core.Object
import RezSdk.L1Records.Basic

/-!
# The connection state machine (`ConnectionStateMachine.js`)

`connect` closes the transport, subscribes to its state, connects it and
authenticates; `disconnect` closes it for good. A transport state that reports
a lost connection arms the reconnect timer, whose callback calls `connect`
again.

The transport and the auth machine are callbacks that may answer anything. A
timer that is armed may fire at any time, so its delay is not computed. The
events on the bus are left out.
-/
namespace RezSdk.L3.Connection

open RezSdk.L1

inductive ConnectionState
  | disconnected | connecting | authenticating | connected | reconnecting | failed
deriving DecidableEq

/-- What is set when the machine is constructed. -/
structure ReconnectOptions where
  enabled : Bool
  /-- none for `Infinity` -/
  maxAttempts : Option ℚ

def ReconnectOptions.exhausted (r : ReconnectOptions) (attempts : Nat) : Bool :=
  match r.maxAttempts with
  | some most => decide (most < attempts)
  | none => false

structure Fields where
  state : ConnectionState
  /-- `#reconnectTimer` is armed -/
  reconnectTimer : Bool
  reconnectAttempts : Nat
  closed : Bool
  /-- `#offTransportState` is there: the transport's state is listened to -/
  listening : Bool
deriving DecidableEq

namespace Fields

def new : Fields := ⟨.disconnected, false, 0, false, false⟩

/-- mirrors src/connection/ConnectionStateMachine.js:148-153 -/
def transition (s : Fields) (newState : ConnectionState) : Fields := { s with state := newState }

/-- mirrors src/connection/ConnectionStateMachine.js:141-146 -/
def stopReconnectTimer (s : Fields) : Fields := { s with reconnectTimer := false }

/-- mirrors src/connection/ConnectionStateMachine.js:46-51 -/
def begin (s : Fields) : Fields :=
  { s with closed := false }.stopReconnectTimer.transition .connecting

/-- mirrors src/connection/ConnectionStateMachine.js:103-139 -/
def scheduleReconnect (r : ReconnectOptions) (s : Fields) : Fields :=
  if s.closed || s.reconnectTimer then s
  else
    let s := { s with reconnectAttempts := s.reconnectAttempts + 1 }
    if r.exhausted s.reconnectAttempts then s.transition .failed
    else { s with reconnectTimer := true }

/-- mirrors src/connection/ConnectionStateMachine.js:87-101 -/
def onTransportDisconnect (r : ReconnectOptions) (s : Fields) : Fields :=
  if s.closed then s
  else if s.state = .disconnected then s
  else if s.state = .reconnecting then s
  else if !r.enabled then s.transition .failed
  else (s.transition .reconnecting).scheduleReconnect r

/-- What the listener of `connect` does.
mirrors src/connection/ConnectionStateMachine.js:54-58 -/
def heard (r : ReconnectOptions) (phase : String) (s : Fields) : Fields :=
  if s.listening && (phase == "disconnected" || phase == "error") then s.onTransportDisconnect r
    else s

/-- mirrors src/connection/ConnectionStateMachine.js:77-81 -/
def hangUp (s : Fields) : Fields :=
  { { s with closed := true }.stopReconnectTimer with reconnectAttempts := 0, listening := false }

/-- The timer's callback, up to the first await of `connect`; a timer that was
cleared does not fire.
mirrors src/connection/ConnectionStateMachine.js:124-126 -/
def fired (s : Fields) : Bool × Fields :=
  if s.reconnectTimer then
    let s := s.stopReconnectTimer
    if s.closed then (false, s) else (true, s.begin)
  else (false, s)

end Fields

/-- The stretches between two awaits. -/
inductive Stretch
  | begin
  | listen
  | authenticating
  | connected
  | failed
  | hangUp
  | hungUp
  | heard (phase : String)
  | fired
  | reconnected
  | retry
deriving DecidableEq

/-- What a stretch leaves. -/
def Stretch.apply (r : ReconnectOptions) (s : Fields) : Stretch → Fields
  | .begin => s.begin
  | .listen => { s with listening := true }
  | .authenticating => s.transition .authenticating
  | .connected => { s with reconnectAttempts := 0 }.transition .connected
  | .failed => if s.closed then s else s.transition .failed
  | .hangUp => s.hangUp
  | .hungUp => s.transition .disconnected
  | .heard phase => s.heard r phase
  | .fired => s.fired.2
  | .reconnected => { s with reconnectAttempts := 0 }
  | .retry => if s.closed then s else s.scheduleReconnect r

inductive Outside
  | close
  | connect
  | authenticate

/-- `close` is awaited with its rejection caught. -/
abbrev Outside.Ans : Outside → Type
  | .close => Unit
  | .connect => Except Err Unit
  | .authenticate => Except Err Unit

abbrev outside : Iface := ⟨Outside, Outside.Ans⟩
abbrev machine : Iface := object Fields Unit Stretch outside
abbrev Connecting (α : Type) : Type := Method Fields Unit Stretch outside Err α

section

variable (r : ReconnectOptions)

/-- A stretch that cannot throw. -/
def does (l : Stretch) : Connecting Unit := stretch l fun _ s => (.ok (), l.apply r s)

/-- mirrors src/connection/ConnectionStateMachine.js:53-68 -/
def establish : Connecting Unit := do
  .ask (.await .close) fun () => .ret (.ok ())
  does r .listen
  .ask (.await .connect) .ret
  does r .authenticating
  .ask (.await .authenticate) .ret
  does r .connected

/-- The rest of `connect`.
mirrors src/connection/ConnectionStateMachine.js:52-73 -/
def connectRest : Connecting Unit :=
  Js.attempt (establish r) fun
    | .ok () => .ret (.ok ())
    | .error err =>
      stretch .failed fun _ s => (if s.closed then .ok () else .error err, Stretch.failed.apply r s)

/-- mirrors src/connection/ConnectionStateMachine.js:45-74 -/
def connect : Connecting Unit := do
  does r .begin
  connectRest r

/-- mirrors src/connection/ConnectionStateMachine.js:76-85 -/
def disconnect : Connecting Unit := do
  does r .hangUp
  .ask (.await .close) fun () => .ret (.ok ())
  does r .hungUp

/-- mirrors src/connection/ConnectionStateMachine.js:124-136 -/
def timer : Connecting Unit := do
  let goes ← stretch .fired fun _ s => (.ok s.fired.1, Stretch.fired.apply r s)
  if goes then
    Js.attempt (connectRest r) fun
      | .ok () => does r .reconnected
      | .error _ => does r .retry
  else return

inductive Call
  | connect
  | disconnect
  /-- the transport reports a state -/
  | state (phase : String)
  /-- the reconnect timer fires -/
  | timer

def run : Call → Connecting Unit
  | .connect => connect r
  | .disconnect => disconnect r
  | .state phase => does r (.heard phase)
  | .timer => timer r

def connections : System machine Fields (ObjFate Unit outside) Call (Except Err Unit) :=
  .ofObject .callbacks (run r)

end

abbrev ConnState := Pool machine Fields (ObjFate Unit outside) Call (Except Err Unit)
abbrev ConnRules := Discipline machine Fields (ObjFate Unit outside) Call (Except Err Unit)

/-- Any interleaving, from a new machine. -/
def anyOrder : ConnRules where
  init s := s = .new
  may _ _ := True
  ok _ _ := True

end RezSdk.L3.Connection
