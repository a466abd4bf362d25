import Mathlib.Algebra.Ring.Nat
import RezSdk.Core.Object
import RezSdk.L1Records.Basic
import RezSdk.L1Records.Json

/-!
# Inbound frames of an uplink pool (`UplinkPool.js`, `#onInboundFrame`)

Every uplink delivers its frames to one handler. It looks at the flood gate,
computes a key for the frame, which may take a digest of its payload or body,
and then suppresses the frame if the key was seen before, or marks the key and
emits the frame. Frames are handled concurrently: another frame may come in
between the gate, the digest and the mark. The deduper is a set of keys here
(`DeduperLRU` within its capacity and window), and nothing clears it.
-/
namespace RezSdk.L3.Inbound

open RezSdk.L1

/-- What of @rezprotocol/core and of the platform the handler uses. -/
structure Lib where
  /-- absent when it throws -/
  base64ToBytes : String → Option Bytes
  stableJson : Json → String
  /-- what `sha256Hex` resolves with -/
  sha256Hex : Bytes → String

inductive Payload
  | frame (f : Json)
  /-- the flood gate's own warning -/
  | flood (warning : Json)
  | largeFrame (droppedCount approxBytes : Nat) (t : String) (totalDropped : Nat)

structure Emission where
  type : String
  payload : Payload

/-- The fields of the pool the handler uses. -/
structure Gate where
  /-- the keys that are marked -/
  dedupe : List String
  /-- what was handed to the handlers, newest first -/
  emitted : List Emission
  largeUnidentifiableDrops : Nat
  largeWarnSinceMs : Int
  largeWarnDroppedCount : Nat
  largeWarnLastMeta : Option (Nat × String)

def Gate.new : Gate := ⟨[], [], 0, 0, 0, none⟩

def Gate.emit (s : Gate) (type : String) (payload : Payload) : Gate :=
  { s with emitted := ⟨type, payload⟩ :: s.emitted }

/-- The clock, and what the flood gate says now. -/
structure Input where
  nowMs : Int
  allow : Bool
  warning : Option Json

inductive Stretch
  | arrive | drop | settle
deriving DecidableEq

inductive Digest
  | sha256 (bytes : Bytes)

abbrev digests : Iface := ⟨Digest, fun _ => String⟩
abbrev inbound : Iface := object Gate Input Stretch digests
abbrev Handling (α : Type) : Type := Method Gate Input Stretch digests Empty α

/-! ## The key of a frame -/

/-- mirrors src/pool/UplinkPool.js:433 -/
def frameType (frame : Json) : Option String := Json.text (Json.prop "t" (some frame))

/-- mirrors src/pool/UplinkPool.js:620 -/
def frameBody (frame : Json) : Json := Json.orEmpty (Json.prop "body" (some frame))

/-- mirrors src/pool/UplinkPool.js:621 -/
def serverMsgId (body : Json) : Option String :=
  firstNonEmptyString
    [Json.prop "serverMsgId" (some body), Json.prop "serverMsgId" (Json.prop "message" (some body)),
      Json.prop "id" (Json.prop "message" (some body))]

/-- mirrors src/pool/UplinkPool.js:624 -/
def packetId (body : Json) : Option String :=
  firstNonEmptyString [Json.prop "packetId" (some body),
    Json.prop "packetId" (Json.prop "message" (some body))]

/-- mirrors src/pool/UplinkPool.js:650-656 -/
def extractBase64Payload (body : Json) : Option String :=
  firstNonEmptyString
    [Json.prop "ciphertextB64" (Json.prop "payload" (some body)),
    Json.prop "packetB64" (Json.prop "payload" (some body)),
      Json.prop "packetB64" (some body), Json.prop "packetB64" (Json.prop "message" (some body))]

/-- mirrors src/pool/UplinkPool.js:658-661 -/
def safeBase64ToBytes (lib : Lib) (value : String) : Bytes := (lib.base64ToBytes value).getD []

/-- UTF-16 code units. -/
def jsLength (cs : List Char) : Nat := (cs.map fun c => if 0xFFFF < c.toNat then 2 else 1).sum

/-- mirrors src/pool/UplinkPool.js:663-668 -/
def estimateBase64Bytes (value : String) : Nat :=
  let cleaned := value.toList.filter fun c => !isSpace c
  let padding := if ['=', '='].isSuffixOf cleaned then 2 else if ['='].isSuffixOf cleaned
    then 1 else 0
  jsLength cleaned * 3 / 4 - padding

def maxDedupeHashBytes : Nat := 64 * 1024

def utf8 (s : String) : Bytes := s.toByteArray.data.toList

inductive Decision
  | dropLargeUnidentifiable (approxBytes : Nat)
  | key (k : String)
deriving DecidableEq

def sha256Hex (bytes : Bytes) : Handling String :=
  .ask (.await (.sha256 bytes)) fun hex => .ret (.ok hex)

/-- mirrors src/pool/UplinkPool.js:639-640 -/
def bodyDecision (lib : Lib) (body : Json) : Handling Decision := do
  let hex ← sha256Hex (utf8 (lib.stableJson body))
  return .key ("j:" ++ hex)

/-- mirrors src/pool/UplinkPool.js:619-641 -/
def dedupeDecision (lib : Lib) (frame : Json) : Handling Decision :=
  let body := frameBody frame
  match serverMsgId body with
  | some id => return .key ("s:" ++ id)
  | none => match packetId body with
    | some id => return .key ("p:" ++ id)
    | none => match extractBase64Payload body with
      | none => bodyDecision lib body
      | some b64 =>
        if maxDedupeHashBytes < estimateBase64Bytes b64
          then return .dropLargeUnidentifiable (estimateBase64Bytes b64)
        else match safeBase64ToBytes lib b64 with
          | [] => bodyDecision lib body
          | b :: bs => do
            let hex ← sha256Hex (b :: bs)
            return .key ("h:" ++ hex)

/-! ## The handler -/

def largeFrameWarnWindowMs : Int := 1000

/-- mirrors src/pool/UplinkPool.js:454-472 -/
def Gate.recordLargeUnidentifiableDrop (s : Gate) (nowMs : Int) (approxBytes : Nat) (t : String) :
    Gate :=
  let s := { s with
    largeUnidentifiableDrops := s.largeUnidentifiableDrops + 1
    largeWarnDroppedCount := s.largeWarnDroppedCount + 1
    largeWarnLastMeta := some (approxBytes, t)
    largeWarnSinceMs := if s.largeWarnSinceMs = 0 then nowMs else s.largeWarnSinceMs }
  if nowMs - s.largeWarnSinceMs < largeFrameWarnWindowMs ∧ 1 < s.largeWarnDroppedCount then s
  else
    { s.emit "warn"
    (.largeFrame s.largeWarnDroppedCount approxBytes t s.largeUnidentifiableDrops) with
      largeWarnSinceMs := nowMs
      largeWarnDroppedCount := 0
      largeWarnLastMeta := none }

/-- The check of the flood gate.
mirrors src/pool/UplinkPool.js:434-439 -/
def Gate.arrive (i : Input) (s : Gate) : Option Int × Gate :=
  if i.allow then (some i.nowMs, s)
  else match i.warning with
    | some warning => (none, s.emit "warn" (.flood warning))
    | none => (none, s)

/-- Check, mark and emit.
mirrors src/pool/UplinkPool.js:447-451 -/
def Gate.settle (key t : String) (frame : Json) (s : Gate) : Gate :=
  if key ∈ s.dedupe then s else { s with dedupe := key :: s.dedupe }.emit t (.frame frame)

/-- mirrors src/pool/UplinkPool.js:432-452 -/
def onInboundFrame (lib : Lib) (frame : Json) : Handling Unit :=
  match frameType frame with
  | none => return ()
  | some t => do
    let nowMs ← stretch .arrive fun i s => (.ok (s.arrive i).1, (s.arrive i).2)
    match nowMs with
    | none => return ()
    | some nowMs => do
      let decision ← dedupeDecision lib frame
      match decision with
      | .dropLargeUnidentifiable approxBytes =>
        stretch .drop fun _ s => (.ok (), s.recordLargeUnidentifiableDrop nowMs approxBytes t)
      | .key key => stretch .settle fun _ s => (.ok (), s.settle key t frame)

/-- A frame and the uplink that delivers it. -/
structure Delivery where
  url : String
  frame : Json

/-- The digest is the one of the bytes, whenever it comes. -/
def digestWorld (lib : Lib) : Environment Gate digests where
  allows
    | _, .sha256 bytes, hex => hex = lib.sha256Hex bytes
  effect s _ _ := s

/-- Any number of frames, handled concurrently. -/
def frames (lib : Lib) : System inbound Gate (ObjFate Input digests) Delivery (Except Empty Unit) :=
  .ofObject (digestWorld lib) fun d => onInboundFrame lib d.frame

abbrev FrameState := Pool inbound Gate (ObjFate Input digests) Delivery (Except Empty Unit)
abbrev FrameRules := Discipline inbound Gate (ObjFate Input digests) Delivery (Except Empty Unit)

end RezSdk.L3.Inbound
