import RezSdk.Core.OrderedMap
import RezSdk.L1Records.Json

/-!
# What a transport does with a decoded frame (`WsTransport.js`, `TcpTransport.js`)

Both transports keep a table of pending requests. A frame whose id is in it
settles that request, every other frame goes to the listeners. The two copies
of this code differ: the WebSocket one takes `pong` frames out before, takes
`chat.error` for an error as well, and hands on the error's `detail`.

* `handled_alike_iff`: exactly when the two do the same with a frame.
-/
namespace RezSdk.L3.Transports

open RezSdk.L1

/-! ## Texts -/

section

variable (numText : JsNumber → String)

mutual

/-- `String(value)`; an object whose own `toString` is no function makes it
throw. `numText` prints a number. -/
def toText : Json → Option String
  | .null => some "null"
  | .bool b => some (if b then "true" else "false")
  | .num n => some (numText n)
  | .str s => some s
  | .arr xs => (joinTexts xs).map (String.intercalate ",")
  | .obj fields => if fields.any fun f => f.1 = "toString" then none else some "[object Object]"

/-- The texts an array is joined from; `null` gives an empty one. -/
def joinTexts : List Json → Option (List String)
  | [] => some []
  | .null :: xs => (joinTexts xs).map fun ts => "" :: ts
  | x :: xs => (toText x).bind fun t => (joinTexts xs).map fun ts => t :: ts

end

/-- `value || other` -/
def orElse (value : Option Json) (other : Json) : Json :=
  match value with
  | some v => if Json.truthy (some v) then v else other
  | none => other

/-- `value === true` -/
def isTrue : Option Json → Bool
  | some (.bool b) => b
  | _ => false

/-- `value && typeof value === "object" ? value : null` -/
def asObject : Option Json → Option Json
  | some (.obj fields) => some (.obj fields)
  | some (.arr xs) => some (.arr xs)
  | _ => none

/-- `value ? value : other` for a string -/
def orText (value other : String) : String := if value.isEmpty then other else value

/-! ## Frames and requests -/

structure TransportError where
  code : String
  message : String
  retryable : Bool
  detail : Option Json

/-- What a request resolves with. -/
structure Response where
  id : String
  t : String
  v : Option Json
  body : Json

/-- What the frame listeners get. -/
structure FramePayload where
  id : Option String
  t : String
  v : Option Json
  body : Json

/-- An entry of the table. -/
structure Entry where
  /-- the promise that `resolve` and `reject` settle -/
  promise : Nat
  expectedResponseType : Option String
deriving DecidableEq

abbrev Table := List (String × Entry)

inductive Handling
  /-- a pong -/
  | heard
  | settled (promise : Nat) (outcome : Except TransportError Response)
  /-- the entry is out of the table, and then a conversion has thrown -/
  | dropped (promise : Nat)
  | emitted (payload : FramePayload)
  /-- a conversion has thrown before any listener was called -/
  | thrown

def frameId (frame : Option Json) : Option String := Json.text (Json.prop "id" frame)
def frameType (frame : Option Json) : Option String := Json.text (Json.prop "type" frame)

/-- `String(frame.type || "")` -/
def typeText (frame : Option Json) : Option String :=
  toText numText (orElse (Json.prop "type" frame) (.str ""))

def detailOf (frame : Option Json) : Option Json :=
  asObject (Json.prop "detail" (some (Json.orEmpty (Json.prop "body" frame))))

def settle (promise : Nat) : Option (Except TransportError Response) → Handling
  | some outcome => .settled promise outcome
  | none => .dropped promise

/-- The error for a response of a type that was not expected. -/
def badResponse (t : String) : TransportError :=
  ⟨"BAD_RESPONSE", "unexpected response type: " ++ t, false, none⟩

/-- A response that is no error.
mirrors src/transport/WsTransport.js:309-324 and src/transport/TcpTransport.js:259-274 -/
def answer (id : String) (entry : Entry) (frame : Option Json) :
    Option (Except TransportError Response) :=
  (typeText numText frame).map fun t =>
    if entry.expectedResponseType.any fun e => !e.isEmpty && t ≠ e then .error (badResponse t)
    else .ok ⟨id, t, Json.prop "version" frame, Json.orEmpty (Json.prop "body" frame)⟩

/-- mirrors src/transport/WsTransport.js:327-340 and src/transport/TcpTransport.js:277-290 -/
def unsolicited (frame : Option Json) : Handling :=
  match typeText numText frame with
  | some t =>
    .emitted ⟨frameId frame, t, Json.prop "version" frame, Json.orEmpty (Json.prop "body" frame)⟩
  | none => .thrown

/-! ## The two copies -/

namespace Ws

/-- mirrors src/transport/WsTransport.js:9-21 -/
def asError (code : String) (message : Json) (retryable : Bool) (detail : Option Json) :
    Option TransportError :=
  (toText numText (orElse (some message) (.str (orText code "TRANSPORT_ERR")))).map fun text =>
    ⟨orText code "TRANSPORT_ERR", text, retryable, asObject detail⟩

/-- mirrors src/transport/WsTransport.js:296-305 -/
def remoteError (frame : Option Json) : Option TransportError :=
  let frameBody := some (Json.orEmpty (Json.prop "body" frame))
  let detail := detailOf frame
  (toText numText (orElse (Json.prop "code" frameBody) (.str "REMOTE_ERR"))).bind fun code =>
    asError numText code (orElse (Json.prop "message" frameBody) (.str "remote error"))
      (isTrue (Json.prop "retryable" frameBody) || isTrue (Json.prop "retryable" detail)) detail

/-- mirrors src/transport/WsTransport.js:283-340 -/
def handle (pending : Table) (frame : Option Json) : Handling × Table :=
  if frameType frame = some "pong" then (.heard, pending)
  else match (frameId frame).bind fun id => (OMap.get id pending).map fun entry => (id, entry) with
    | some (id, entry) =>
      let outcome := if frameType frame = some "error" ∨ frameType frame = some "chat.error" then
          (remoteError numText frame).map .error
        else answer numText id entry frame
      (settle entry.promise outcome, OMap.delete id pending)
    | none => (unsolicited numText frame, pending)

end Ws

namespace Tcp

/-- mirrors src/transport/TcpTransport.js:4-9 -/
def asError (code : String) (message : Json) (retryable : Bool) : Option TransportError :=
  (toText numText (orElse (some message) (.str (orText code "TRANSPORT_ERR")))).map fun text =>
    ⟨orText code "TRANSPORT_ERR", text, retryable, none⟩

/-- mirrors src/transport/TcpTransport.js:250-255 -/
def remoteError (frame : Option Json) : Option TransportError :=
  let body := Json.prop "body" frame
  (toText numText (orElse (Json.prop "code" body) (.str "REMOTE_ERR"))).bind fun code =>
    asError numText code (orElse (Json.prop "message" body) (.str "remote error"))
      (isTrue (Json.prop "retryable" body))

/-- mirrors src/transport/TcpTransport.js:243-291 -/
def handle (pending : Table) (frame : Option Json) : Handling × Table :=
  match (frameId frame).bind fun id => (OMap.get id pending).map fun entry => (id, entry) with
  | some (id, entry) =>
    let outcome := if frameType frame = some "error" then (remoteError numText frame).map .error
      else answer numText id entry frame
    (settle entry.promise outcome, OMap.delete id pending)
  | none => (unsolicited numText frame, pending)

end Tcp

/-! ## When they agree -/

/-- The transports do the same with the frame: it is no `pong`, an error that
answers a request has no detail (or is lost on both sides), and a `chat.error`
that answers a request says what a response of an unexpected type is refused
with. -/
structure HandledAlike (pending : Table) (frame : Option Json) : Prop where
  pong : frameType frame ≠ some "pong"
  error : ∀ id entry, frameId frame = some id → OMap.get id pending = some entry →
    frameType frame = some "error" →
    detailOf frame = none ∨ Ws.remoteError numText frame = none
  chatError : ∀ id entry, frameId frame = some id → OMap.get id pending = some entry →
    frameType frame = some "chat.error" →
    (entry.expectedResponseType.any fun e => !e.isEmpty && "chat.error" ≠ e) = true ∧
      Ws.remoteError numText frame = some (badResponse "chat.error")

/-- What the WebSocket copy adds to a remote error. -/
def withDetail (detail : Option Json) (e : TransportError) : TransportError :=
  { e with retryable := e.retryable || isTrue (Json.prop "retryable" detail), detail }

theorem withDetail_none (e : TransportError) (h : e.detail = none) : withDetail none e = e := by
  obtain ⟨code, message, retryable, detail⟩ := e
  subst h
  unfold withDetail Json.prop isTrue
  rw [Bool.or_false]

theorem prop_orEmpty (key : String) (body : Option Json) :
    Json.prop key (some (Json.orEmpty body)) = Json.prop key body := by
  cases body with
  | none => rfl
  | some body => cases body <;> rfl

theorem asObject_asObject (value : Option Json) : asObject (asObject value) = asObject value := by
  cases value with
  | none => rfl
  | some value => cases value <;> rfl

theorem ws_remoteError (frame : Option Json) :
    Ws.remoteError numText frame =
      (Tcp.remoteError numText frame).map (withDetail (detailOf frame)) := by
  unfold Ws.remoteError Tcp.remoteError
  dsimp only
  simp only [prop_orEmpty]
  cases toText numText (orElse (Json.prop "code" (Json.prop "body" frame)) (.str "REMOTE_ERR")) with
  | none => rfl
  | some code =>
    unfold Ws.asError Tcp.asError
    have hdetail : asObject (detailOf frame) = detailOf frame := asObject_asObject _
    rw [hdetail]
    simp only [Option.bind_some, Option.map_map]
    rfl

theorem tcp_remoteError_detail {frame : Option Json} {e : TransportError}
    (h : Tcp.remoteError numText frame = some e) : e.detail = none := by
  obtain ⟨code, -, herr⟩ := Option.bind_eq_some_iff.mp h
  obtain ⟨text, -, rfl⟩ := Option.map_eq_some_iff.mp herr
  rfl

/-- The remote errors are the same exactly when there is no detail, or no
error. -/
theorem remoteError_eq_iff (frame : Option Json) :
    Ws.remoteError numText frame = Tcp.remoteError numText frame ↔
    detailOf frame = none ∨ Ws.remoteError numText frame = none := by
  rw [ws_remoteError]
  cases herr : Tcp.remoteError numText frame with
  | none => exact ⟨fun _ => .inr rfl, fun _ => rfl⟩
  | some e =>
    have hnone := tcp_remoteError_detail numText herr
    rw [Option.map_some, Option.some.injEq]
    constructor
    · intro h
      refine .inl ?_
      have hdetail : (withDetail (detailOf frame) e).detail = e.detail :=
        congrArg TransportError.detail h
      exact hdetail.trans hnone
    · rintro (h | h)
      · rw [h]
        exact withDetail_none e hnone
      · cases h

theorem settle_inj {promise : Nat} {x y : Option (Except TransportError Response)}
    (h : settle promise x = settle promise y) : x = y := by
  cases x <;> cases y <;> cases h <;> rfl

theorem error_inj {x y : Option TransportError}
    (h : x.map (Except.error : TransportError → Except TransportError Response) = y.map .error) :
    x = y := by
  cases x <;> cases y <;> cases h <;> rfl

theorem typeText_of {frame : Option Json} {t : String} (h : frameType frame = some t) :
    typeText numText frame = some t := by
  unfold frameType Json.text at h
  unfold typeText
  split at h
  · rename_i s hs
    cases h
    rw [hs]
    unfold orElse
    dsimp only
    split
    · unfold toText
      rfl
    · rename_i hblank
      have hempty : t = "" := by
        unfold Json.truthy at hblank
        simpa using hblank
      unfold toText
      rw [hempty]
  · cases h

/-- The answer to a request that is a `chat.error`, read as the error it is and
as a response. -/
theorem chatError_iff {frame : Option Json} {id : String} {entry : Entry}
    (h : frameType frame = some "chat.error") :
    (Ws.remoteError numText frame).map .error = answer numText id entry frame ↔
    (entry.expectedResponseType.any fun e => !e.isEmpty && "chat.error" ≠ e) = true ∧
    Ws.remoteError numText frame = some (badResponse "chat.error") := by
  unfold answer
  rw [typeText_of numText h, Option.map_some]
  split
  · rename_i hany
    rw [Option.map_eq_some_iff]
    constructor
    · rintro ⟨e, he, heq⟩
      cases heq
      exact ⟨hany, he⟩
    · rintro ⟨-, he⟩
      exact ⟨_, he, rfl⟩
  · rename_i hnot
    rw [Option.map_eq_some_iff]
    constructor
    · rintro ⟨e, -, heq⟩
      cases heq
    · rintro ⟨hany, -⟩
      exact absurd hany hnot

/-- A frame that answers a request is taken alike exactly when it is given the
same outcome. -/
theorem handle_found_iff {pending : Table} {frame : Option Json} {id : String} {entry : Entry}
    (hid : frameId frame = some id) (hentry : OMap.get id pending = some entry)
    (hpong : frameType frame ≠ some "pong") :
    Ws.handle numText pending frame = Tcp.handle numText pending frame ↔
    (if frameType frame = some "error" ∨ frameType frame = some "chat.error"
      then (Ws.remoteError numText frame).map .error
      else answer numText id entry frame) =
    (if frameType frame = some "error"
      then (Tcp.remoteError numText frame).map .error
      else answer numText id entry frame) := by
  unfold Ws.handle Tcp.handle
  rw [if_neg hpong, hid, Option.bind_some, hentry]
  dsimp only [Option.map_some]
  constructor
  · intro h
    exact settle_inj (Prod.mk.inj h).1
  · intro h
    rw [h]

/-- **Exactly when the two transports do the same with a frame.** -/
theorem handled_alike_iff (pending : Table) (frame : Option Json) :
    Ws.handle numText pending frame = Tcp.handle numText pending frame ↔
    HandledAlike numText pending frame := by
  by_cases hpong : frameType frame = some "pong"
  · -- only the WebSocket copy knows pongs
    constructor
    · intro h
      unfold Ws.handle Tcp.handle at h
      rw [if_pos hpong] at h
      split at h
      · unfold settle at h
        dsimp only at h
        split at h <;> cases h
      · unfold unsolicited at h
        split at h <;> cases h
    · intro h
      exact absurd hpong h.pong
  · cases hfound : (frameId frame).bind fun id => (OMap.get id pending).map fun entry =>
      (id, entry) with
    | none =>
      have hsame : Ws.handle numText pending frame = Tcp.handle numText pending frame := by
        unfold Ws.handle Tcp.handle
        rw [if_neg hpong, hfound]
      refine ⟨fun _ => ⟨hpong, ?_, ?_⟩, fun _ => hsame⟩
      all_goals
        intro id entry hid hentry
        rw [hid, Option.bind_some, hentry] at hfound
        cases hfound
    | some found =>
      obtain ⟨id, hid, hmap⟩ := Option.bind_eq_some_iff.mp hfound
      obtain ⟨entry, hentry, -⟩ := Option.map_eq_some_iff.mp hmap
      rw [handle_found_iff numText hid hentry hpong]
      have honly (id' : String) (entry' : Entry) (hid' : frameId frame = some id')
          (hentry' : OMap.get id' pending = some entry') :
          entry' = entry := by
        rw [hid] at hid'
        cases hid'
        exact Option.some.inj (hentry'.symm.trans hentry)
      by_cases herror : frameType frame = some "error"
      · have hnotChat : frameType frame ≠ some "chat.error" := by
          rw [herror]
          simp
        rw [if_pos (.inl herror), if_pos herror]
        constructor
        · intro h
          have hcases := (remoteError_eq_iff numText frame).mp (error_inj h)
          exact ⟨hpong, fun _ _ _ _ _ => hcases, fun _ _ _ _ hchat => absurd hchat hnotChat⟩
        · intro h
          rw [(remoteError_eq_iff numText frame).mpr (h.error id entry hid hentry herror)]
      · by_cases hchat : frameType frame = some "chat.error"
        · rw [if_pos (.inr hchat), if_neg herror, chatError_iff numText hchat]
          constructor
          · intro h
            refine ⟨hpong, fun _ _ _ _ herr => absurd herr herror,
              fun id' entry' hid' hentry' _ => ?_⟩
            rw [honly id' entry' hid' hentry']
            exact h
          · intro h
            exact h.chatError id entry hid hentry hchat
        · rw [if_neg (not_or.mpr ⟨herror, hchat⟩), if_neg herror]
          exact ⟨fun _ => ⟨hpong, fun _ _ _ _ h => absurd h herror,
            fun _ _ _ _ h => absurd h hchat⟩, fun _ => rfl⟩

end

namespace Example

/-- How the whole numbers are printed. -/
def numText : JsNumber → String
  | .fin q => toString q.num
  | .nan => "NaN"
  | .posInf => "Infinity"
  | .negInf => "-Infinity"

/-- One pending request. -/
def table : Table := [("inbox.claim:1:1", ⟨0, some "inbox.claim.result"⟩)]

def closed : Json := .obj [("closeReason", .str "retired"), ("retryable", .bool true)]

/-- The node's typed refusal of that request. -/
def refusal : Json := .obj [("id", .str "inbox.claim:1:1"), ("type", .str "error"),
  ("body", .obj [("code", .str "INBOX_CLOSED"), ("message", .str "closed"), ("detail", closed)])]

end Example

open Example in
/-- The same refusal rejects with its detail on one transport, and without it
and not retryable on the other. -/
theorem detail_lost :
    (Ws.handle numText table (some refusal)).1 =
      .settled 0 (.error ⟨"INBOX_CLOSED", "closed", true, some closed⟩) ∧
    (Tcp.handle numText table (some refusal)).1 =
      .settled 0 (.error ⟨"INBOX_CLOSED", "closed", false, none⟩) ∧
    Ws.handle numText table (some refusal) ≠ Tcp.handle numText table (some refusal) := by
  have hws : (Ws.handle numText table (some refusal)).1 =
      .settled 0 (.error ⟨"INBOX_CLOSED", "closed", true, some closed⟩) := rfl
  have htcp : (Tcp.handle numText table (some refusal)).1 =
      .settled 0 (.error ⟨"INBOX_CLOSED", "closed", false, none⟩) := rfl
  refine ⟨hws, htcp, fun h => ?_⟩
  rw [h, htcp] at hws
  cases hws

end RezSdk.L3.Transports
