import Mathlib.Logic.Function.Iterate
import RezSdk.L3Service.WsTransport

/-!
# A connected WebSocket transport is listening

`connect()` looks at the ready state of the stored socket, and the socket is
stored before it opens. A socket that opens late, when its call has timed out
or a later call has stored another one, is open without listeners, or next to
the stored one; and what stops the heartbeat does not ask for which socket.

* `connected_listens`: while sockets open only under the call that waits for
  them, and neither a failed ping nor the close event of an earlier socket
  stops the heartbeat, a transport that is connected after `connect()` has
  returned has one listener of each kind, its heartbeat, and no other open
  socket.
* `connected_deaf`: a socket that opens after the timeout of its call.
-/
namespace RezSdk.L4.Listening

open RezSdk.L3.Transports RezSdk.L3.WsTransport

/-- The listeners, the heartbeat and the other sockets are as they should be
with the socket connected. -/
structure Listens (cfg : Config) (s : State) (k : Nat) : Prop where
  listeners : ∃ socket, s.sockets[k]? = some socket ∧ socket.messageListeners = 1 ∧
    socket.closeListeners = 1
  heartbeat : cfg.heartbeats = true → s.heartbeat = true
  alone : ∀ j, j ≠ k → s.readyState j ≠ some .isOpen

/-- A `connect()` call has its open event, and has not gone on yet. -/
def Continuing (s : State) : Prop := ∃ socket ∈ s.sockets, socket.call = .opened

/-- Some `connect()` call has returned, and the connection is not one whose own
call is still about to return. -/
def Returned (s : State) (k : Nat) : Prop := k ∈ s.returned ∨ s.returned ≠ [] ∧ ¬ Continuing s

/-- The step is in order: `connect()` is not called between an open event and
the rest of the call it belongs to, a socket opens while it is the stored one
and its call waits, a close event is not of another socket than the connected
one, and a ping can be sent. -/
def Orderly (s : State) : Action → Prop
  | .connect _ => s.connected.isSome = true → ¬ Continuing s
  | .opens k => s.ws = some k ∧ ∀ socket, s.sockets[k]? = some socket → socket.call = .waiting
  | .closes k =>
    ∀ socket, s.sockets[k]? = some socket → 0 < socket.closeListeners → ∀ j, s.connected = some j →
    j = k
  | .heartbeat sends => s.connected.isSome = true → pongsMissing s = true ∨ sends = true
  | _ => True

def orderlySystem (cfg : Config) : LTS State Action :=
  ⟨(· = init), fun s e s' => Orderly s e ∧ fire cfg s e = some s'⟩

/-! ## The invariant -/

/-- What holds of every socket. -/
structure Each (socket : Socket) : Prop where
  on : socket.call = .returned → socket.messageListeners = 1 ∧ socket.closeListeners = 1
  off : socket.call ≠ .returned → socket.messageListeners = 0 ∧ socket.closeListeners = 0
  isOpen : socket.readyState = .isOpen → socket.call = .opened ∨ socket.call = .returned

structure Kept (cfg : Config) (sockets : List Socket) (ws : Option Nat) (heartbeat : Bool)
    (returned : List Nat) : Prop where
  each : ∀ (j : Nat) (socket : Socket), sockets[j]? = some socket → Each socket
  current : ∀ (j : Nat) (socket : Socket), sockets[j]? = some socket → socket.readyState = .isOpen →
    ws = some j
  beating : ∀ (j : Nat) (socket : Socket), sockets[j]? = some socket → socket.readyState = .isOpen →
    socket.call = .returned →
    cfg.heartbeats = true → heartbeat = true
  returned : ∀ j ∈ returned, ∃ socket, sockets[j]? = some socket ∧ socket.call = .returned

abbrev Inv (cfg : Config) (s : State) : Prop := Kept cfg s.sockets s.ws s.heartbeat s.returned

section

variable {cfg : Config} {sockets : List Socket} {ws : Option Nat} {heartbeat : Bool}
  {returned : List Nat}

theorem modify_cases {α : Type} {xs : List α} {k j : Nat} {f : α → α} {y : α}
    (h : (xs.modify k f)[j]? = some y) :
    (j = k ∧ ∃ x, xs[k]? = some x ∧ y = f x) ∨ (j ≠ k ∧ xs[j]? = some y) := by
  rw [List.getElem?_modify] at h
  by_cases hk : k = j
  · subst hk
    obtain ⟨x, hx, hy⟩ := Option.map_eq_some_iff.mp h
    exact .inl ⟨rfl, x, hx, by simpa using hy.symm⟩
  · refine .inr ⟨Ne.symm hk, ?_⟩
    simpa [hk] using h

theorem modify_self {α : Type} {xs : List α} {k : Nat} {f : α → α} {x : α} (h : xs[k]? = some x) :
    (xs.modify k f)[k]? = some (f x) := by
  rw [List.getElem?_modify, h]
  simp

theorem modify_ne {α : Type} {xs : List α} {k j : Nat} {f : α → α} (h : j ≠ k) :
    (xs.modify k f)[j]? = xs[j]? := by
  rw [List.getElem?_modify]
  cases xs[j]? with
  | none => rfl
  | some x => simp [Ne.symm h]

/-- A socket moves on without opening or returning. -/
theorem Kept.modify (h : Kept cfg sockets ws heartbeat returned) {k : Nat} {f : Socket → Socket}
    (hf : ∀ socket, sockets[k]? = some socket →
        Each (f socket) ∧ ((f socket).readyState = .isOpen → socket.readyState = .isOpen) ∧
        ((f socket).call = .returned ↔ socket.call = .returned)) :
    Kept cfg (sockets.modify k f) ws heartbeat returned where
  each := by
    intro j socket hj
    rcases modify_cases hj with ⟨-, x, hx, rfl⟩ | ⟨-, hj⟩
    · exact (hf x hx).1
    · exact h.each j socket hj
  current := by
    intro j socket hj hopen
    rcases modify_cases hj with ⟨rfl, x, hx, rfl⟩ | ⟨-, hj⟩
    · exact h.current j x hx ((hf x hx).2.1 hopen)
    · exact h.current j socket hj hopen
  beating := by
    intro j socket hj hopen hcall
    rcases modify_cases hj with ⟨rfl, x, hx, rfl⟩ | ⟨-, hj⟩
    · exact h.beating j x hx ((hf x hx).2.1 hopen) ((hf x hx).2.2.mp hcall)
    · exact h.beating j socket hj hopen hcall
  returned := by
    intro j hj
    obtain ⟨x, hx, hcall⟩ := h.returned j hj
    by_cases hk : j = k
    · subst hk
      exact ⟨f x, modify_self hx, (hf x hx).2.2.mpr hcall⟩
    · exact ⟨x, (modify_ne hk).trans hx, hcall⟩

/-- With no socket open the heartbeat may stop, and another socket be stored. -/
theorem Kept.idle (h : Kept cfg sockets ws heartbeat returned)
    (hnone : ∀ (j : Nat) (socket : Socket), sockets[j]? = some socket → socket.readyState ≠ .isOpen)
    (ws' : Option Nat) (heartbeat' : Bool) : Kept cfg sockets ws' heartbeat' returned where
  each := h.each
  current := fun j socket hj hopen => absurd hopen (hnone j socket hj)
  beating := fun j socket hj hopen => absurd hopen (hnone j socket hj)
  returned := h.returned

theorem each_close {socket : Socket} (h : Each socket) : Each socket.close := by
  unfold Socket.close
  split
  · exact ⟨h.on, h.off, fun hopen => (by cases hopen)⟩
  · exact ⟨h.on, h.off, fun hopen => (by cases hopen)⟩
  · exact h

theorem call_close (socket : Socket) : socket.close.call = socket.call := by
  unfold Socket.close
  split <;> rfl

theorem close_not_open (socket : Socket) : socket.close.readyState ≠ .isOpen := by
  unfold Socket.close
  split
  · nofun
  · nofun
  · assumption

theorem Kept.closeSocket (h : Kept cfg sockets ws heartbeat returned) (k : Nat) :
    Kept cfg (sockets.modify k Socket.close) ws heartbeat returned := by
  refine h.modify fun socket hk => ⟨each_close (h.each k socket hk),
    fun hopen => ?_, by rw [call_close]⟩
  exact absurd hopen (close_not_open socket)

/-- Closing the stored socket leaves none open. -/
theorem Kept.none_open {k : Nat} (h : Kept cfg sockets (some k) heartbeat returned) (j : Nat)
    (socket : Socket) (hj : (sockets.modify k Socket.close)[j]? = some socket) :
    socket.readyState ≠ .isOpen := by
  intro hopen
  rcases modify_cases hj with ⟨-, x, -, rfl⟩ | ⟨hne, hj⟩
  · exact close_not_open x hopen
  · have hcurrent := h.current j socket hj hopen
    cases hcurrent
    exact hne rfl

theorem mem_connected {s : State} {k : Nat} (h : s.connected = some k) :
    s.ws = some k ∧ ∃ socket, s.sockets[k]? = some socket ∧ socket.readyState = .isOpen := by
  obtain ⟨hws, hopen⟩ := Option.filter_eq_some_iff.mp h
  rw [decide_eq_true_eq] at hopen
  obtain ⟨socket, hk, hstate⟩ := Option.map_eq_some_iff.mp hopen
  exact ⟨hws, socket, hk, hstate⟩

theorem connected_of {s : State} {k : Nat} {socket : Socket} (hws : s.ws = some k)
    (hk : s.sockets[k]? = some socket) (hopen : socket.readyState = .isOpen) :
    s.connected = some k := by
  refine Option.filter_eq_some_iff.mpr ⟨hws, ?_⟩
  rw [decide_eq_true_eq]
  unfold State.readyState
  rw [hk, Option.map_some, hopen]

/-! ## Steps -/

variable {s s' : State}

theorem inv_close (h : Inv cfg s) (cause : Cause) : Inv cfg (close cause s) := by
  unfold close
  dsimp only
  cases hws : s.ws with
  | none =>
    have hnone (j : Nat) (socket : Socket) (hj : s.sockets[j]? = some socket) :
        socket.readyState ≠ .isOpen := by
      intro hopen
      have hcurrent := h.current j socket hj hopen
      rw [hws] at hcurrent
      cases hcurrent
    exact Kept.idle h hnone _ false
  | some k =>
    have hk : Kept cfg s.sockets (some k) s.heartbeat s.returned := hws ▸ h
    exact (hk.closeSocket k).idle hk.none_open none false

theorem inv_onRawFrame (h : Inv cfg s) (k : Nat) (raw : String) (now : Nat) :
    Inv cfg (onRawFrame cfg k raw now s) := by
  unfold onRawFrame
  split
  · exact h
  · cases cfg.decodeFrame raw with
    | none =>
      dsimp only [onBadFrame]
      split
      · refine inv_close ?_ _
        exact h
      · exact h
    | some frame =>
      dsimp only
      split <;> exact h

theorem iterate_inv {f : State → State} (hf : ∀ s, Inv cfg s → Inv cfg (f s)) (n : Nat)
    (h : Inv cfg s) : Inv cfg (f^[n] s) := by
  induction n with
  | zero => exact h
  | succ n ih =>
    rw [Function.iterate_succ_apply']
    exact hf _ ih

/-- The close listeners stop the heartbeat when there are any. -/
theorem onClosed_iterate (k : Nat) (cause : Cause) (n : Nat) :
    ((onClosed k cause)^[n] s).sockets = s.sockets ∧ ((onClosed k cause)^[n] s).ws = s.ws ∧
    ((onClosed k cause)^[n] s).returned = s.returned ∧
    (n = 0 → ((onClosed k cause)^[n] s).heartbeat = s.heartbeat) := by
  induction n with
  | zero => exact ⟨rfl, rfl, rfl, fun _ => rfl⟩
  | succ n ih =>
    rw [Function.iterate_succ_apply']
    exact ⟨ih.1, ih.2.1, ih.2.2.1, fun h => by omega⟩

theorem inv_closes (h : Inv cfg s) {k : Nat} {socket : Socket}
    (horderly : 0 < socket.closeListeners → ∀ j, s.connected = some j → j = k) :
    Inv cfg ((onClosed k (.closed k))^[socket.closeListeners]
          (s.setSocket k fun socket => { socket with readyState := .closed })) := by
  have hclosed : Kept cfg (s.sockets.modify k fun socket => { socket with readyState := .closed })
      s.ws s.heartbeat s.returned := by
    refine Kept.modify h fun x hx => ⟨?_, fun hopen => (by cases hopen), Iff.rfl⟩
    have heach := h.each k x hx
    exact ⟨heach.on, heach.off, fun hopen => (by cases hopen)⟩
  obtain ⟨hsockets, hws, hreturned, hbeat⟩ := onClosed_iterate
    (s := s.setSocket k fun socket => { socket with readyState := .closed }) k
    (.closed k) socket.closeListeners
  unfold Inv
  rw [hsockets, hws, hreturned]
  rcases Nat.eq_zero_or_pos socket.closeListeners with hzero | hpos
  · rw [hbeat hzero]
    exact hclosed
  · -- no other socket is open
    refine hclosed.idle (fun j x hj hopen => ?_) _ _
    rcases modify_cases hj with ⟨-, y, -, rfl⟩ | ⟨hne, hj⟩
    · cases hopen
    · exact hne (horderly hpos j (connected_of (h.current j x hj hopen) hj hopen))

theorem inv_connect (h : Inv cfg s) (made : Bool)
    (horderly : s.connected.isSome = true → ¬ Continuing s) : Inv cfg (connect made s) := by
  unfold connect
  cases hconn : s.connected with
  | some k =>
    obtain ⟨-, socket, hk, hopen⟩ := mem_connected hconn
    refine ⟨h.each, h.current, h.beating, fun j hj => ?_⟩
    rcases List.mem_append.mp hj with hj | hj
    · exact h.returned j hj
    · rw [List.mem_singleton] at hj
      subst hj
      refine ⟨socket, hk, ?_⟩
      rcases (h.each j socket hk).isOpen hopen with hcall | hcall
      · exact absurd ⟨socket, List.mem_of_getElem? hk, hcall⟩ (horderly (by rw [hconn]; rfl))
      · exact hcall
  | none =>
    have hnone (j : Nat) (socket : Socket) (hj : s.sockets[j]? = some socket) :
        socket.readyState ≠ .isOpen := by
      intro hopen
      have hsome := connected_of (h.current j socket hj hopen) hj hopen
      rw [hconn] at hsome
      cases hsome
    cases made with
    | false => exact h
    | true =>
      have hnew : Each ⟨.connecting, .waiting, 0, 0⟩ :=
        ⟨fun hcall => (by cases hcall), fun _ => ⟨rfl, rfl⟩, fun hopen => (by cases hopen)⟩
      have hcases (j : Nat) (socket : Socket)
          (hj : (s.sockets ++ [⟨.connecting, .waiting, 0, 0⟩])[j]? = some socket) :
          s.sockets[j]? = some socket ∨ socket = ⟨.connecting, .waiting, 0, 0⟩ := by
        rw [List.getElem?_append] at hj
        split at hj
        · exact .inl hj
        · exact .inr (List.mem_singleton.mp (List.mem_of_getElem? hj))
      refine ⟨fun j socket hj => ?_, fun j socket hj hopen => ?_, fun j socket hj hopen => ?_,
        fun j hj => ?_⟩
      · rcases hcases j socket hj with hj | rfl
        · exact h.each j socket hj
        · exact hnew
      · rcases hcases j socket hj with hj | rfl
        · exact absurd hopen (hnone j socket hj)
        · cases hopen
      · rcases hcases j socket hj with hj | rfl
        · exact absurd hopen (hnone j socket hj)
        · cases hopen
      · obtain ⟨socket, hsocket, hcall⟩ := h.returned j hj
        refine ⟨socket, ?_, hcall⟩
        change (s.sockets ++ _)[j]? = some socket
        rw [List.getElem?_append_left (List.getElem?_eq_some_iff.mp hsocket).1]
        exact hsocket

theorem inv_opens (h : Inv cfg s) {k : Nat} {socket : Socket} (hk : s.sockets[k]? = some socket)
    (hws : s.ws = some k) (hcall : socket.call = .waiting) :
    Inv cfg (s.setSocket k fun socket =>
      { socket with
        readyState := .isOpen
        call := if socket.call = .waiting then .opened else socket.call }) where
  each := by
    intro j x hj
    rcases modify_cases hj with ⟨-, y, hy, rfl⟩ | ⟨-, hj⟩
    · rw [hk] at hy
      cases hy
      have hoff := (h.each k socket hk).off (by rw [hcall]; nofun)
      rw [if_pos hcall]
      exact ⟨fun hret => (by cases hret), fun _ => hoff, fun _ => .inl rfl⟩
    · exact h.each j x hj
  current := by
    intro j x hj hopen
    rcases modify_cases hj with ⟨rfl, -⟩ | ⟨-, hj⟩
    · exact hws
    · exact h.current j x hj hopen
  beating := by
    intro j x hj hopen hret
    rcases modify_cases hj with ⟨-, y, hy, rfl⟩ | ⟨-, hj⟩
    · rw [hk] at hy
      cases hy
      rw [if_pos hcall] at hret
      cases hret
    · exact h.beating j x hj hopen hret
  returned := by
    intro j hj
    obtain ⟨x, hx, hret⟩ := h.returned j hj
    have hne : j ≠ k := by
      rintro rfl
      rw [hk] at hx
      cases hx
      rw [hcall] at hret
      cases hret
    exact ⟨x, (modify_ne hne).trans hx, hret⟩

theorem inv_continues (h : Inv cfg s) {k : Nat} {socket : Socket} (hk : s.sockets[k]? = some socket)
    (hcall : socket.call = .opened) : Inv cfg (continueConnect cfg k s) := by
  have hoff := (h.each k socket hk).off (by rw [hcall]; nofun)
  have hbeat : cfg.heartbeats = true → (continueConnect cfg k s).heartbeat = true := by
    intro hcfg
    unfold continueConnect startHeartbeat
    simp [hcfg]
  have hsockets : (continueConnect cfg k s).sockets = s.sockets.modify k fun socket =>
      { socket with
        call := .returned
        messageListeners := socket.messageListeners + 1
        closeListeners := socket.closeListeners + 1 } := by
    unfold continueConnect startHeartbeat
    dsimp only
    split <;> rfl
  have hws : (continueConnect cfg k s).ws = s.ws := by
    unfold continueConnect startHeartbeat
    dsimp only
    split <;> rfl
  have hreturned : (continueConnect cfg k s).returned = s.returned ++ [k] := rfl
  refine ⟨?_, ?_, fun _ _ _ _ _ => hbeat, ?_⟩
  all_goals rw [hsockets]
  · intro j x hj
    rcases modify_cases hj with ⟨-, y, hy, rfl⟩ | ⟨-, hj⟩
    · rw [hk] at hy
      cases hy
      refine ⟨fun _ => ⟨?_, ?_⟩, fun hne => absurd rfl hne, fun _ => .inr rfl⟩
      · rw [hoff.1]
      · rw [hoff.2]
    · exact h.each j x hj
  · intro j x hj hopen
    rw [hws]
    rcases modify_cases hj with ⟨rfl, y, hy, rfl⟩ | ⟨-, hj⟩
    · exact h.current j y hy hopen
    · exact h.current j x hj hopen
  · intro j hj
    by_cases hjk : j = k
    · subst hjk
      exact ⟨_, modify_self hk, rfl⟩
    · rw [hreturned, List.mem_append, List.mem_singleton] at hj
      obtain ⟨x, hx, hret⟩ := h.returned j (hj.resolve_right hjk)
      exact ⟨x, (modify_ne hjk).trans hx, hret⟩

theorem inv_sendHeartbeat (h : Inv cfg s) {sends : Bool}
    (horderly : s.connected.isSome = true → pongsMissing s = true ∨ sends = true) :
    Inv cfg (sendHeartbeat sends s) := by
  unfold sendHeartbeat
  cases hconn : s.connected with
  | none => exact h
  | some k =>
    dsimp only
    split
    · obtain ⟨hws, -⟩ := mem_connected hconn
      have hk : Kept cfg s.sockets (some k) s.heartbeat s.returned := hws ▸ h
      exact (hk.closeSocket k).idle hk.none_open s.ws false
    · rename_i hmissing
      rcases horderly (by rw [hconn]; rfl) with hpongs | hsends
      · exact absurd hpongs hmissing
      · rw [if_pos hsends]
        exact h

/-- A call that waited fails. -/
theorem inv_fails (h : Inv cfg s) {k : Nat} {f : Socket → Socket}
    (hf : ∀ socket, s.sockets[k]? = some socket →
        f socket = if socket.call = .waiting then { socket with call := .failed } else socket) :
    Inv cfg (s.setSocket k f) := by
  refine Kept.modify h fun socket hk => ?_
  have heach := h.each k socket hk
  rw [hf socket hk]
  split
  · rename_i hcall
    have hoff := heach.off (by rw [hcall]; nofun)
    refine ⟨⟨fun hret => (by cases hret), fun _ => hoff, fun hopen => ?_⟩, id,
      ⟨fun hret => (by cases hret), fun hret => ?_⟩⟩
    · rcases heach.isOpen hopen with hother | hother
      · rw [hcall] at hother
        cases hother
      · rw [hcall] at hother
        cases hother
    · rw [hcall] at hret
      cases hret
  · exact ⟨heach, id, Iff.rfl⟩

theorem inv_fire {e : Action} (h : Inv cfg s) (horderly : Orderly s e)
    (hf : fire cfg s e = some s') : Inv cfg s' := by
  unfold fire at hf
  cases e with
  | connect made =>
    cases hf
    exact inv_connect h made horderly
  | connectTimeout k =>
    obtain ⟨socket, hk, hf⟩ := Option.bind_eq_some_iff.mp hf
    split at hf
    · rename_i hcall
      cases hf
      refine inv_fails h fun socket' hk' => ?_
      rw [hk] at hk'
      cases hk'
      rw [if_pos hcall]
    · cases hf
  | opens k =>
    obtain ⟨socket, hk, hf⟩ := Option.bind_eq_some_iff.mp hf
    split at hf
    · cases hf
      exact inv_opens h hk horderly.1 (horderly.2 socket hk)
    · cases hf
  | continues k =>
    obtain ⟨socket, hk, hf⟩ := Option.bind_eq_some_iff.mp hf
    split at hf
    · rename_i hcall
      cases hf
      exact inv_continues h hk hcall
    · cases hf
  | errors k =>
    obtain ⟨socket, -, hf⟩ := Option.bind_eq_some_iff.mp hf
    cases hf
    refine inv_fails h fun socket _ => ?_
    split <;> rfl
  | closing k =>
    obtain ⟨socket, -, hf⟩ := Option.bind_eq_some_iff.mp hf
    cases hf
    exact Kept.closeSocket h k
  | closes k =>
    obtain ⟨socket, hk, hf⟩ := Option.bind_eq_some_iff.mp hf
    split at hf
    · cases hf
    · cases hf
      exact inv_closes h (horderly socket hk)
  | message k raw now =>
    obtain ⟨socket, -, hf⟩ := Option.bind_eq_some_iff.mp hf
    split at hf
    · cases hf
      exact iterate_inv (fun _ h => inv_onRawFrame h k raw now) _ h
    · cases hf
  | close =>
    cases hf
    exact inv_close h _
  | sendRequest ask =>
    cases hf
    exact h
  | requestTimeout promise =>
    cases hf
    exact h
  | heartbeat sends =>
    dsimp only at hf
    split at hf
    · cases hf
      exact inv_sendHeartbeat h horderly
    · cases hf

theorem inv_inductive (cfg : Config) : (orderlySystem cfg).Inductive (Inv cfg) where
  init := by
    rintro s rfl
    constructor <;> simp [init]
  step := fun _ _ _ h hs => inv_fire h hs.1 hs.2

/-- An open socket whose call has gone on is as it should be. -/
theorem Kept.listens (h : Inv cfg s) {k : Nat} {socket : Socket} (hk : s.sockets[k]? = some socket)
    (hopen : socket.readyState = .isOpen) (hcall : socket.call = .returned) : Listens cfg s k where
  listeners := ⟨socket, hk, (h.each k socket hk).on hcall⟩
  heartbeat := h.beating k socket hk hopen hcall
  alone := by
    intro j hne hj
    obtain ⟨other, hother, hstate⟩ := Option.map_eq_some_iff.mp hj
    have hcurrent := h.current k socket hk hopen
    rw [h.current j other hother hstate] at hcurrent
    exact hne (Option.some.inj hcurrent)

end

/-- **A connected transport is listening.** -/
theorem connected_listens (cfg : Config) (s : State) (hs : (orderlySystem cfg).Reachable s)
    (k : Nat) (hconnected : s.connected = some k) (hreturned : Returned s k) : Listens cfg s k := by
  have h := (inv_inductive cfg).reachable s hs
  obtain ⟨-, socket, hk, hopen⟩ := mem_connected hconnected
  refine Kept.listens h hk hopen ?_
  rcases hreturned with hmem | ⟨-, hdone⟩
  · obtain ⟨socket', hk', hcall⟩ := h.returned k hmem
    rw [hk] at hk'
    cases hk'
    exact hcall
  · rcases (h.each k socket hk).isOpen hopen with hcall | hcall
    · exact absurd ⟨socket, List.mem_of_getElem? hk, hcall⟩ hdone
    · exact hcall

namespace Example

def cfg : Config := ⟨true, 1000000, fun _ => none, fun _ => "0"⟩

/-- The steps of the orderly system in which every socket opens in time. -/
def step (s : State) : Action → Option State
  | .opens k =>
    if s.ws = some k ∧ (s.sockets[k]?).all (fun socket => socket.call = .waiting)
      then fire cfg s (.opens k) else none
  | .connect made => if s.connected = none then fire cfg s (.connect made) else none
  | .closes _ | .heartbeat _ => none
  | e => fire cfg s e

theorem step_orderly (s : State) (e : Action) (s' : State) (h : step s e = some s') :
    (orderlySystem cfg).step s e s' := by
  cases e with
  | opens k =>
    unfold step at h
    dsimp only at h
    split at h
    · rename_i hown
      refine ⟨⟨hown.1, fun socket hk => ?_⟩, h⟩
      have hall := hown.2
      rw [hk] at hall
      simpa using hall
    · cases h
  | connect made =>
    unfold step at h
    dsimp only at h
    split at h
    · rename_i hnone
      refine ⟨fun hsome => ?_, h⟩
      rw [hnone] at hsome
      cases hsome
    · cases h
  | closes k => cases h
  | heartbeat sends => cases h
  | _ => exact ⟨trivial, h⟩

end Example

open Example in
/-- A second connection, after the first was closed. -/
theorem connected_listens_again :
    ∃ s, (orderlySystem cfg).Reachable s ∧ s.connected = some 1 ∧ Listens cfg s 1 := by
  have hrun : (LTS.exec step init [.connect true, .opens 0, .continues 0, .close,
      .connect true, .opens 1, .continues 1]).any (fun s =>
      s.connected = some 1 ∧ s.returned = [0, 1]) = true := by
    decide +kernel
  obtain ⟨s, hs, hview⟩ := (Option.any_eq_true _ _).mp hrun
  rw [decide_eq_true_eq] at hview
  have hreach : (orderlySystem cfg).Reachable s := ⟨_, _, rfl, LTS.run_of_exec step_orderly hs⟩
  refine ⟨s, hreach, hview.1, connected_listens cfg s hreach 1 hview.1 (.inl ?_)⟩
  rw [hview.2]
  exact .tail _ (.head _)

open Example in
/-- A socket opens after the timeout of its call, and the next `connect()`
returns at once: the transport is connected, has no listener and no
heartbeat. -/
theorem connected_deaf :
    ∃ s, (system cfg).Reachable s ∧ s.connected = some 0 ∧ Returned s 0 ∧ ¬ Listens cfg s 0 := by
  have hrun : (LTS.exec (fire cfg) init [.connect true, .connectTimeout 0, .opens 0,
      .connect true]).any (fun s =>
      s.connected = some 0 ∧ s.returned = [0] ∧ s.sockets = [⟨.isOpen, .failed, 0, 0⟩]) = true := by
    decide +kernel
  obtain ⟨s, hs, hview⟩ := (Option.any_eq_true _ _).mp hrun
  rw [decide_eq_true_eq] at hview
  obtain ⟨hconnected, hreturned, hsockets⟩ := hview
  refine ⟨s, ⟨_, _, rfl, LTS.run_of_exec (fun _ _ _ h => h) hs⟩, hconnected, .inl ?_, fun h => ?_⟩
  · rw [hreturned]
    exact .head _
  · obtain ⟨socket, hk, hone, -⟩ := h.listeners
    rw [hsockets] at hk
    cases hk
    cases hone

end RezSdk.L4.Listening
