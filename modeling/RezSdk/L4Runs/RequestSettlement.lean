import Mathlib.Logic.Function.Iterate
import RezSdk.L3Service.TcpTransport
import RezSdk.L3Service.WsTransport

/-!
# Requests are settled by their own socket

A transport makes one socket after the other, and the listeners of the earlier
ones stay. All of them share one table of requests and one set of state
listeners: the close event of an earlier socket rejects the requests of the
newer connection and reports it as disconnected, and a frame is matched by its
id alone.

* `settled_by_own`: while no socket's event meets a request of another socket,
  every request is settled at most once, is out of the table then, and for a
  reason that is due to it, and no close event is reported for another
  connection.
* `settled_by_other`: a late close event, for both transports.
-/
namespace RezSdk.L4.RequestSettlement

open RezSdk.L3.Transports

/-- What a transport promises of its requests and of the disconnections it
reports, by the socket that is gone and the one connected then. -/
structure Settled (r : Requests) (reports : List (Nat × Option Nat)) : Prop where
  once : (r.settled.map Prod.fst).Nodup
  removed : ∀ s ∈ r.settled, ∀ e ∈ r.pending, e.2.promise ≠ s.1
  due : ∀ s ∈ r.settled, ∃ asked, r.asked[s.1]? = some asked ∧ Due s.1 asked s.2
  reported : ∀ gone connected, (gone, some connected) ∈ reports → connected = gone

/-- Every pending request was written to the socket. -/
def AllOn (socket : Nat) (r : Requests) : Prop :=
  ∀ e ∈ r.pending, r.sentOn e.2.promise = some socket

instance (socket : Nat) (r : Requests) : Decidable (AllOn socket r) :=
  inferInstanceAs (Decidable (∀ e ∈ r.pending, r.sentOn e.2.promise = some socket))

/-- The invariant. -/
structure Kept (r : Requests) (reports : List (Nat × Option Nat)) : Prop where
  sound : r.Sound
  reported : ∀ gone connected, (gone, some connected) ∈ reports → connected = gone

theorem Kept.settled {r : Requests} {reports : List (Nat × Option Nat)} (h : Kept r reports) :
    Settled r reports where
  once := h.sound.once
  removed := by
    intro s hs e he heq
    refine h.sound.waits e he ?_
    rw [heq]
    exact List.mem_map_of_mem hs
  due := h.sound.due
  reported := h.reported

theorem Kept.report {r : Requests} {reports : List (Nat × Option Nat)} (h : Kept r reports)
    {gone : Nat} {connected : Option Nat} (hown : ∀ j, connected = some j → j = gone) :
    Kept r (reports ++ [(gone, connected)]) where
  sound := h.sound
  reported := by
    intro gone' connected' hmem
    rcases List.mem_append.mp hmem with hmem | hmem
    · exact h.reported gone' connected' hmem
    · cases List.mem_singleton.mp hmem
      exact hown connected' rfl

/-- A reason that is due to every request of a socket. -/
def DueOn (socket : Nat) (cause : Cause) : Prop := ∀ p asked, asked.socket = some socket →
    Due p asked cause

theorem dueOn_closed (socket : Nat) : DueOn socket (.closed socket) := fun _ _ h => h

theorem dueOn_garbled (socket : Nat) : DueOn socket (.garbled socket) := fun _ _ h => h

theorem dueOn_sendFailed (socket : Nat) : DueOn socket (.sendFailed socket) := fun _ _ h => h

theorem Kept.rejectAll {r : Requests} {reports : List (Nat × Option Nat)} (h : Kept r reports)
    {socket : Nat} {cause : Cause} (hon : AllOn socket r) (hcause : DueOn socket cause) :
    Kept (r.rejectAll cause) reports where
  sound := by
    refine h.sound.rejectAll fun e he asked hasked => hcause _ _ ?_
    have hsent := hon e he
    unfold Requests.sentOn at hsent
    rw [hasked] at hsent
    exact hsent
  reported := h.reported

theorem Kept.closeAll {r : Requests} {reports : List (Nat × Option Nat)} (h : Kept r reports) :
    Kept (r.rejectAll .close) reports :=
  ⟨h.sound.rejectAll fun _ _ _ _ => trivial, h.reported⟩

theorem allOn_rejectAll (socket : Nat) (cause : Cause) (r : Requests) :
    AllOn socket (r.rejectAll cause) :=
  fun _ he => absurd he List.not_mem_nil

/-- What `f` keeps where `C` holds, its iterates keep. -/
theorem iterate_keeps {σ : Type} {P C : σ → Prop} {f : σ → σ} (hf : ∀ s, P s → C s → P (f s))
    (n : Nat) : ∀ s, P s → (∀ i < n, C (f^[i] s)) → P (f^[n] s) := by
  induction n with
  | zero => exact fun s hs _ => hs
  | succ n ih =>
    intro s hs hC
    rw [Function.iterate_succ_apply']
    exact hf _ (ih s hs fun i hi => hC i (by omega)) (hC n (by omega))

/-! ## The WebSocket transport -/

namespace OfWs

open RezSdk.L3.WsTransport

/-- A call of the message listener meets only requests of its own socket. -/
def FrameClean (cfg : Config) (socket : Nat) (raw : String) (now : Nat) (s : State) : Prop :=
  raw.utf8ByteSize ≤ cfg.maxFrameBytes →
    match cfg.decodeFrame raw with
    | none => 10 < badFrames now s → AllOn socket s.requests
    | some frame => frameType frame ≠ some "pong" → s.requests.Expected [socket] frame

/-- The step meets only requests of its own socket. -/
def Clean (cfg : Config) (s : State) : Action → Prop
  | .message k raw now => ∀ socket, s.sockets[k]? = some socket →
      ∀ i < socket.messageListeners, FrameClean cfg k raw now ((onRawFrame cfg k raw now)^[i] s)
  | .closes k => ∀ socket, s.sockets[k]? = some socket → 0 < socket.closeListeners →
      AllOn k s.requests ∧ ∀ j, s.connected = some j → j = k
  | .heartbeat sends =>
    ∀ k, s.connected = some k → (pongsMissing s = true ∨ sends = false) → AllOn k s.requests
  | _ => True

def cleanSystem (cfg : Config) : LTS State Action :=
  ⟨(· = init), fun s e s' => Clean cfg s e ∧ fire cfg s e = some s'⟩

abbrev Inv (s : State) : Prop := Kept s.requests s.reports

theorem inv_close {cause : Cause} {s : State} (h : Kept (s.requests.rejectAll cause) s.reports) :
    Inv (close cause s) := by
  unfold close
  dsimp only
  split <;> exact h

theorem inv_onClosed {k : Nat} {cause : Cause} {s : State} (h : Inv s) (hon : AllOn k s.requests)
    (hcause : DueOn k cause) (hown : ∀ j, s.connected = some j → j = k) :
    Inv (onClosed k cause s) :=
  (h.rejectAll hon hcause).report hown

theorem inv_sendHeartbeat {sends : Bool} {s : State} (h : Inv s)
    (hclean :
        ∀ k, s.connected = some k → (pongsMissing s = true ∨ sends = false) → AllOn k s.requests) :
    Inv (sendHeartbeat sends s) := by
  unfold sendHeartbeat
  cases hconn : s.connected with
  | none => exact h
  | some k =>
    have hown (j : Nat) (hj : s.connected = some j) : j = k := by
      rw [hconn] at hj
      exact (Option.some.inj hj).symm
    dsimp only
    split
    · rename_i hmissing
      exact inv_onClosed h (hclean k hconn (.inl hmissing)) (dueOn_closed k) hown
    · cases hsends : sends with
      | true => exact h
      | false => exact (h.rejectAll (hclean k hconn (.inr hsends)) (dueOn_sendFailed k)).report hown

theorem inv_onRawFrame {cfg : Config} {k now : Nat} {raw : String} {s : State} (h : Inv s)
    (hclean : FrameClean cfg k raw now s) : Inv (onRawFrame cfg k raw now s) := by
  unfold onRawFrame
  split
  · exact h
  · rename_i hsize
    have hframe := hclean (not_lt.mp hsize)
    cases hdecode : cfg.decodeFrame raw with
    | none =>
      rw [hdecode] at hframe
      dsimp only [onBadFrame]
      split
      · rename_i hmany
        exact inv_close (h.rejectAll (hframe hmany) (dueOn_garbled k))
      · exact h
    | some frame =>
      rw [hdecode] at hframe
      dsimp only
      split
      · exact h
      · rename_i hpong
        exact ⟨h.sound.take (answers_ws cfg.numText _ frame) (hframe hpong), h.reported⟩

/-- The close listeners of a socket run one after the other. -/
theorem inv_closes {k n : Nat} {s : State} (h : Inv s)
    (hn : 0 < n → AllOn k s.requests ∧ ∀ j, s.connected = some j → j = k) :
    Inv ((onClosed k (.closed k))^[n] s) := by
  rcases Nat.eq_zero_or_pos n with rfl | hpos
  · exact h
  · obtain ⟨hon, hown⟩ := hn hpos
    have hkeeps :=
      iterate_keeps (P := fun s => Inv s ∧ AllOn k s.requests ∧ ∀ j, s.connected = some j → j = k)
      (C := fun _ => True) (f := onClosed k (.closed k)) ?_ n s ⟨h, hon, hown⟩ (fun _ _ => trivial)
    · exact hkeeps.1
    · rintro s ⟨h, hon, hown⟩ -
      exact ⟨inv_onClosed h hon (dueOn_closed k) hown, allOn_rejectAll k _ _, hown⟩

theorem connected_closed {k j : Nat} {s : State}
    (h : (s.setSocket k fun socket => { socket with readyState := .closed }).connected = some j) :
    s.connected = some j := by
  unfold State.connected at h ⊢
  obtain ⟨hws, hopen⟩ := Option.filter_eq_some_iff.mp h
  refine Option.filter_eq_some_iff.mpr ⟨hws, ?_⟩
  rw [decide_eq_true_eq] at hopen ⊢
  unfold State.readyState State.setSocket at hopen
  unfold State.readyState
  rw [List.getElem?_modify] at hopen
  by_cases hk : k = j
  · simp [hk] at hopen
  · simpa [hk] using hopen

theorem inv_fire {cfg : Config} {s s' : State} {e : Action} (h : Inv s) (hclean : Clean cfg s e)
    (hf : fire cfg s e = some s') : Inv s' := by
  unfold fire at hf
  cases e with
  | connect made =>
    cases hf
    unfold connect
    split
    · exact h
    · split <;> exact h
  | continues k =>
    obtain ⟨socket, -, hf⟩ := Option.bind_eq_some_iff.mp hf
    split at hf
    · cases hf
      unfold continueConnect startHeartbeat
      dsimp only
      split <;> exact h
    · cases hf
  | connectTimeout k | opens k =>
    obtain ⟨socket, -, hf⟩ := Option.bind_eq_some_iff.mp hf
    split at hf
    · cases hf
      exact h
    · cases hf
  | errors k | closing k =>
    obtain ⟨socket, -, hf⟩ := Option.bind_eq_some_iff.mp hf
    cases hf
    exact h
  | closes k =>
    obtain ⟨socket, hsocket, hf⟩ := Option.bind_eq_some_iff.mp hf
    split at hf
    · cases hf
    · cases hf
      refine inv_closes h fun hpos => ?_
      obtain ⟨hon, hown⟩ := hclean socket hsocket hpos
      exact ⟨hon, fun j hj => hown j (connected_closed hj)⟩
  | message k raw now =>
    obtain ⟨socket, hsocket, hf⟩ := Option.bind_eq_some_iff.mp hf
    split at hf
    · cases hf
      exact iterate_keeps (fun _ h hC => inv_onRawFrame h hC) _ s h (hclean socket hsocket)
    · cases hf
  | close =>
    cases hf
    exact inv_close h.closeAll
  | sendRequest ask =>
    cases hf
    exact ⟨h.sound.sendRequest _ ask, h.reported⟩
  | requestTimeout promise =>
    cases hf
    exact ⟨h.sound.expire promise, h.reported⟩
  | heartbeat sends =>
    dsimp only at hf
    split at hf
    · cases hf
      exact inv_sendHeartbeat h hclean
    · cases hf

theorem inv_inductive (cfg : Config) : (cleanSystem cfg).Inductive Inv where
  init := by
    rintro s rfl
    exact ⟨.init, fun _ _ hmem => absurd hmem List.not_mem_nil⟩
  step := fun _ _ _ h hs => inv_fire h hs.1 hs.2

end OfWs

/-! ## The TCP transport -/

namespace OfTcp

open RezSdk.L3.TcpTransport

/-- The frames in a buffer, at most `fuel` of them. -/
def frames (maxFrameBytes : Nat) : Nat → List (UInt8 × Nat) → List (List (UInt8 × Nat))
  | 0, _ => []
  | fuel + 1, buffer =>
    match nextFrame maxFrameBytes buffer with
    | none => []
    | some bytes => bytes :: frames maxFrameBytes fuel (buffer.drop bytes.length)

/-- The frames answer only requests of the sockets that their bytes came
from. -/
def FramesClean (cfg : Config) (fuel : Nat) (buffer : List (UInt8 × Nat)) (r : Requests) : Prop :=
  ∀ bytes ∈ frames cfg.maxFrameBytes fuel buffer, ∀ frame,
    cfg.decodeFrame ((bytes.drop 4).map Prod.fst) = some frame →
      r.Expected (bytes.map Prod.snd) frame

/-- A call of the data listener meets only requests of its own socket. -/
def DataClean (cfg : Config) (socket : Nat) (chunk : List UInt8) (s : State) : Prop :=
  FramesClean cfg ((s.readBuffer ++ chunk.map fun b => (b, socket)).length + 1)
    (s.readBuffer ++ chunk.map fun b => (b, socket))
    s.requests

/-- The step meets only requests of its own socket. -/
def Clean (cfg : Config) (s : State) : Action → Prop
  | .data k chunk => ∀ socket, s.sockets[k]? = some socket →
      ∀ i < socket.dataListeners, DataClean cfg k chunk ((onData cfg k chunk)^[i] s)
  | .closes k => ∀ socket, s.sockets[k]? = some socket → 0 < socket.closeListeners →
      AllOn k s.requests ∧ ∀ j, s.connected = some j → j = k
  | .keepAlive sends => ∀ k, s.connected = some k → sends = false → AllOn k s.requests
  | _ => True

def cleanSystem (cfg : Config) : LTS State Action :=
  ⟨(· = init), fun s e s' => Clean cfg s e ∧ fire cfg s e = some s'⟩

abbrev Inv (s : State) : Prop := Kept s.requests s.reports

theorem inv_close {s : State} (h : Inv s) : Inv (close s) := by
  unfold close
  dsimp only
  split <;> exact h.closeAll

theorem inv_onClosed {k : Nat} {cause : Cause} {s : State} (h : Inv s) (hon : AllOn k s.requests)
    (hcause : DueOn k cause) (hown : ∀ j, s.connected = some j → j = k) :
    Inv (onClosed k cause s) :=
  (h.rejectAll hon hcause).report hown

theorem inv_sendKeepAlive {sends : Bool} {s : State} (h : Inv s)
    (hclean : ∀ k, s.connected = some k → sends = false → AllOn k s.requests) :
    Inv (sendKeepAlive sends s) := by
  unfold sendKeepAlive
  cases hconn : s.connected with
  | none => exact h
  | some k =>
    have hown (j : Nat) (hj : s.connected = some j) : j = k := by
      rw [hconn] at hj
      exact (Option.some.inj hj).symm
    cases hsends : sends with
    | true => exact h
    | false => exact inv_onClosed h (hclean k hconn hsends) (dueOn_sendFailed k) hown

/-- Taking one frame leaves the others as they were met. -/
theorem expected_take {r : Requests} {sockets sockets' : List Nat} {frame frame' : Option L1.Json}
    {handled : Handling × Table} (hanswers : AnswersFrame r.pending frame' handled)
    (h : r.Expected sockets frame) : (r.take sockets' frame' handled).Expected sockets frame := by
  obtain ⟨handling, table⟩ := handled
  rcases hanswers with ⟨id', entry', -, -, htable, hcase⟩ | ⟨-, hcase⟩
  · have hfound (id : String) (entry : Entry) (hget : OMap.get id table = some entry) :
        OMap.get id r.pending = some entry := by
      dsimp only at htable
      rw [htable, OMap.get_delete] at hget
      split at hget
      · cases hget
      · exact hget
    dsimp only at hcase
    rcases hcase with rfl | ⟨outcome, rfl⟩
    · exact fun id entry hid hget => h id entry hid (hfound id entry hget)
    · exact fun id entry hid hget => h id entry hid (hfound id entry hget)
  · dsimp only at hcase
    rcases hcase with ⟨payload, rfl⟩ | rfl | rfl <;> exact h

theorem inv_drain {cfg : Config} (fuel : Nat) :
    ∀ s : State, Inv s → FramesClean cfg fuel s.readBuffer s.requests → Inv (drain cfg fuel s) := by
  induction fuel with
  | zero => exact fun _ h _ => h
  | succ fuel ih =>
    intro s h hclean
    unfold FramesClean frames at hclean
    unfold drain
    cases hnext : nextFrame cfg.maxFrameBytes s.readBuffer with
    | none => exact h
    | some bytes =>
      rw [hnext] at hclean
      dsimp only at hclean ⊢
      cases hdecode : cfg.decodeFrame ((bytes.drop 4).map Prod.fst) with
      | none => exact ih _ h fun bytes' hmem => hclean bytes' (.tail _ hmem)
      | some frame =>
        have hanswers := answers_tcp cfg.numText s.requests.pending frame
        have hsound := h.sound.take hanswers (hclean bytes (.head _) frame hdecode)
        dsimp only
        split
        · exact ⟨hsound, h.reported⟩
        · refine ih _ ⟨hsound, h.reported⟩ fun bytes' hmem frame' hframe => ?_
          exact expected_take hanswers (hclean bytes' (.tail _ hmem) frame' hframe)

theorem inv_onData {cfg : Config} {k : Nat} {chunk : List UInt8} {s : State} (h : Inv s)
    (hclean : DataClean cfg k chunk s) : Inv (onData cfg k chunk s) := inv_drain _ _ h hclean

/-- The close listeners of a socket run one after the other. -/
theorem inv_closes {k n : Nat} {s : State} (h : Inv s)
    (hn : 0 < n → AllOn k s.requests ∧ ∀ j, s.connected = some j → j = k) :
    Inv ((onClosed k (.closed k))^[n] s) := by
  rcases Nat.eq_zero_or_pos n with rfl | hpos
  · exact h
  · obtain ⟨hon, hown⟩ := hn hpos
    have hkeeps :=
      iterate_keeps (P := fun s => Inv s ∧ AllOn k s.requests ∧ ∀ j, s.connected = some j → j = k)
      (C := fun _ => True) (f := onClosed k (.closed k)) ?_ n s ⟨h, hon, hown⟩ (fun _ _ => trivial)
    · exact hkeeps.1
    · rintro s ⟨h, hon, hown⟩ -
      refine ⟨inv_onClosed h hon (dueOn_closed k) hown, allOn_rejectAll k _ _, fun j hj => ?_⟩
      -- the flag is down now
      obtain ⟨-, hup⟩ := Option.filter_eq_some_iff.mp hj
      simp [onClosed] at hup

theorem connected_destroyed {k j : Nat} {s : State}
    (h : (s.setSocket k fun socket => { socket.destroy with gone := true }).connected = some j) :
    s.connected = some j := by
  unfold State.connected at h ⊢
  obtain ⟨hsocket, hup⟩ := Option.filter_eq_some_iff.mp h
  refine Option.filter_eq_some_iff.mpr ⟨hsocket, ?_⟩
  rw [decide_eq_true_eq] at hup ⊢
  refine ⟨hup.1, ?_⟩
  have hdestroyed := hup.2
  unfold State.destroyed State.setSocket at hdestroyed
  unfold State.destroyed
  rw [List.getElem?_modify] at hdestroyed
  by_cases hk : k = j
  · simp [hk, Socket.destroy] at hdestroyed
  · simpa [hk] using hdestroyed

theorem inv_fire {cfg : Config} {s s' : State} {e : Action} (h : Inv s) (hclean : Clean cfg s e)
    (hf : fire cfg s e = some s') : Inv s' := by
  unfold fire at hf
  cases e with
  | connect =>
    cases hf
    unfold connect
    split <;> exact h
  | imported =>
    dsimp only at hf
    split at hf
    · cases hf
      exact h
    · cases hf
  | connectTimeout k =>
    obtain ⟨socket, -, hf⟩ := Option.bind_eq_some_iff.mp hf
    split at hf
    · cases hf
      exact h
    · cases hf
  | connects k =>
    obtain ⟨socket, -, hf⟩ := Option.bind_eq_some_iff.mp hf
    split at hf
    · cases hf
    · cases hf
      exact h
  | continues k =>
    obtain ⟨socket, -, hf⟩ := Option.bind_eq_some_iff.mp hf
    split at hf
    · cases hf
      unfold continueConnect
      split <;> exact h
    · cases hf
  | errors k =>
    obtain ⟨socket, -, hf⟩ := Option.bind_eq_some_iff.mp hf
    cases hf
    exact h
  | closes k =>
    obtain ⟨socket, hsocket, hf⟩ := Option.bind_eq_some_iff.mp hf
    split at hf
    · cases hf
    · cases hf
      refine inv_closes h fun hpos => ?_
      obtain ⟨hon, hown⟩ := hclean socket hsocket hpos
      exact ⟨hon, fun j hj => hown j (connected_destroyed hj)⟩
  | data k chunk =>
    obtain ⟨socket, hsocket, hf⟩ := Option.bind_eq_some_iff.mp hf
    cases hf
    exact iterate_keeps (fun _ h hC => inv_onData h hC) _ s h (hclean socket hsocket)
  | close =>
    cases hf
    exact inv_close h
  | sendRequest ask =>
    cases hf
    exact ⟨h.sound.sendRequest _ ask, h.reported⟩
  | requestTimeout promise =>
    cases hf
    exact ⟨h.sound.expire promise, h.reported⟩
  | keepAlive sends =>
    dsimp only at hf
    split at hf
    · cases hf
      exact inv_sendKeepAlive h hclean
    · cases hf

theorem inv_inductive (cfg : Config) : (cleanSystem cfg).Inductive Inv where
  init := by
    rintro s rfl
    exact ⟨.init, fun _ _ hmem => absurd hmem List.not_mem_nil⟩
  step := fun _ _ _ h hs => inv_fire h hs.1 hs.2

end OfTcp

/-- **Every request is settled at most once, by its own socket.** -/
theorem settled_by_own (ws : L3.WsTransport.Config) (tcp : L3.TcpTransport.Config) :
    (∀ s, (OfWs.cleanSystem ws).Reachable s → Settled s.requests s.reports) ∧
    (∀ s, (OfTcp.cleanSystem tcp).Reachable s → Settled s.requests s.reports) :=
  ⟨fun s hs => ((OfWs.inv_inductive ws).reachable s hs).settled,
  fun s hs => ((OfTcp.inv_inductive tcp).reachable s hs).settled⟩

namespace Example

def ask : Ask := ⟨"inbox.list", none, 1, true, true⟩

def ws : L3.WsTransport.Config := ⟨true, 1000000, fun _ => none, fun _ => "0"⟩

def tcp : L3.TcpTransport.Config := ⟨true, 8388608, fun _ => none, fun _ => "0"⟩

open L3.WsTransport.Action in
/-- A socket is closed and replaced, and a request goes to the new one. -/
def wsReconnect : List L3.WsTransport.Action :=
  [connect true, opens 0, continues 0, close, connect true, opens 1, continues 1, sendRequest ask]

open L3.TcpTransport.Action in
def tcpReconnect : List L3.TcpTransport.Action :=
  [connect, imported, connects 0, continues 0, close, connect, imported, connects 1,
  continues 1, sendRequest ask]

/-- The steps of the clean system without frames and heartbeats. -/
def wsStep (s : L3.WsTransport.State) : L3.WsTransport.Action → Option L3.WsTransport.State
  | .closes k =>
    if AllOn k s.requests ∧ s.connected = some k then L3.WsTransport.fire ws s (.closes k) else none
  | .message .. | .heartbeat _ => none
  | e => L3.WsTransport.fire ws s e

def tcpStep (s : L3.TcpTransport.State) : L3.TcpTransport.Action → Option L3.TcpTransport.State
  | .closes k =>
    if AllOn k s.requests ∧ s.connected = some k then L3.TcpTransport.fire tcp s (.closes k)
      else none
  | .data .. | .keepAlive _ => none
  | e => L3.TcpTransport.fire tcp s e

theorem wsStep_clean (s : L3.WsTransport.State) (e : L3.WsTransport.Action)
    (s' : L3.WsTransport.State) (h : wsStep s e = some s') : (OfWs.cleanSystem ws).step s e s' := by
  cases e with
  | closes k =>
    unfold wsStep at h
    dsimp only at h
    split at h
    · rename_i hown
      refine ⟨fun _ _ _ => ⟨hown.1, fun j hj => ?_⟩, h⟩
      rw [hown.2] at hj
      exact (Option.some.inj hj).symm
    · cases h
  | message k raw now => cases h
  | heartbeat sends => cases h
  | _ => exact ⟨trivial, h⟩

theorem tcpStep_clean (s : L3.TcpTransport.State) (e : L3.TcpTransport.Action)
    (s' : L3.TcpTransport.State) (h : tcpStep s e = some s') :
    (OfTcp.cleanSystem tcp).step s e s' := by
  cases e with
  | closes k =>
    unfold tcpStep at h
    dsimp only at h
    split at h
    · rename_i hown
      refine ⟨fun _ _ _ => ⟨hown.1, fun j hj => ?_⟩, h⟩
      rw [hown.2] at hj
      exact (Option.some.inj hj).symm
    · cases h
  | data k chunk => cases h
  | keepAlive sends => cases h
  | _ => exact ⟨trivial, h⟩

end Example

open Example in
/-- A request of a second connection, whose own socket closes. -/
theorem settled_by_own_close :
    (∃ s, (OfWs.cleanSystem ws).Reachable s ∧ s.requests.settled = [(0, .closed 1)] ∧
        Settled s.requests s.reports) ∧
    (∃ s, (OfTcp.cleanSystem tcp).Reachable s ∧ s.requests.settled = [(0, .closed 1)] ∧
        Settled s.requests s.reports) := by
  have hws : (LTS.exec wsStep L3.WsTransport.init (wsReconnect ++ [.closes 1])).map
      (fun s => s.requests.settled) = some [(0, .closed 1)] := by
    decide +kernel
  have htcp : (LTS.exec tcpStep L3.TcpTransport.init (tcpReconnect ++ [.closes 1])).map
      (fun s => s.requests.settled) = some [(0, .closed 1)] := by
    decide +kernel
  obtain ⟨s, hs, hsettled⟩ := Option.map_eq_some_iff.mp hws
  obtain ⟨t, ht, htsettled⟩ := Option.map_eq_some_iff.mp htcp
  have hsr : (OfWs.cleanSystem ws).Reachable s := ⟨_, _, rfl, LTS.run_of_exec wsStep_clean hs⟩
  have htr : (OfTcp.cleanSystem tcp).Reachable t := ⟨_, _, rfl, LTS.run_of_exec tcpStep_clean ht⟩
  exact ⟨⟨s, hsr, hsettled, (settled_by_own ws tcp).1 s hsr⟩,
    ⟨t, htr, htsettled, (settled_by_own ws tcp).2 t htr⟩⟩

/-- A request to one socket that is settled for the closing of another. -/
theorem not_settled {r : Requests} {reports : List (Nat × Option Nat)}
    (hsettled : r.settled = [(0, .closed 0)]) (hasked : r.asked.map Asked.socket = [some 1]) :
    ¬ Settled r reports := by
  intro h
  obtain ⟨asked, hget, hdue⟩ := h.due (0, .closed 0) (by rw [hsettled]; exact .head _)
  have hsocket : (r.asked.map Asked.socket)[0]? = some asked.socket := by
    rw [List.getElem?_map, hget, Option.map_some]
  rw [hasked] at hsocket
  have hone : some (some 1) = some asked.socket := hsocket
  rw [show asked.socket = some 0 from hdue] at hone
  cases hone

open Example in
/-- The late close event of the first socket rejects the request of the second
connection, which is still there, and reports it as disconnected. -/
theorem settled_by_other :
    (∃ s, (L3.WsTransport.system ws).Reachable s ∧ s.reports = [(0, some 1)] ∧
        s.connected = some 1 ∧ ¬ Settled s.requests s.reports) ∧
    (∃ s, (L3.TcpTransport.system tcp).Reachable s ∧ s.reports = [(0, some 1)] ∧
        s.destroyed 1 = some false ∧ ¬ Settled s.requests s.reports) := by
  have hws : (LTS.exec (L3.WsTransport.fire ws) L3.WsTransport.init
      (wsReconnect ++ [.closes 0])).any (fun s =>
      s.reports = [(0, some 1)] ∧ s.connected = some 1 ∧ s.requests.settled = [(0, .closed 0)] ∧
        s.requests.asked.map Asked.socket = [some 1]) = true := by
    decide +kernel
  have htcp : (LTS.exec (L3.TcpTransport.fire tcp) L3.TcpTransport.init
      (tcpReconnect ++ [.closes 0])).any (fun s =>
      s.reports = [(0, some 1)] ∧ s.destroyed 1 = some false ∧
        s.requests.settled = [(0, .closed 0)] ∧
        s.requests.asked.map Asked.socket = [some 1]) = true := by
    decide +kernel
  obtain ⟨s, hs, hview⟩ := (Option.any_eq_true _ _).mp hws
  obtain ⟨t, ht, htview⟩ := (Option.any_eq_true _ _).mp htcp
  rw [decide_eq_true_eq] at hview htview
  obtain ⟨hreports, hconnected, hsettled, hasked⟩ := hview
  obtain ⟨htreports, htconnected, htsettled, htasked⟩ := htview
  exact ⟨⟨s, ⟨_, _, rfl, LTS.run_of_exec (fun _ _ _ h => h) hs⟩, hreports, hconnected,
    not_settled hsettled hasked⟩,
    ⟨t, ⟨_, _, rfl, LTS.run_of_exec (fun _ _ _ h => h) ht⟩, htreports, htconnected,
    not_settled htsettled htasked⟩⟩

end RezSdk.L4.RequestSettlement
