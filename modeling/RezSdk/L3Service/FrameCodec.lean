import RezSdk.L3Service.TcpTransport

/-!
# The JSON frame codec (`FrameCodec.js`)

The frames of the TCP transport as texts. `Text` stands for the language's own
`JSON.stringify` and for `parseUntrustedJson` of the core, on UTF-8 bytes.

* `decode_encode`: a frame whose text can be read back is decoded to its id,
  its trimmed type, its version and its body.
-/
namespace RezSdk.L3.FrameCodec

open RezSdk.L1 RezSdk.L3.Transports

/-- What `encodeFrame` is given; a field that is left out is `none`. -/
structure Frame where
  id : Option String
  type : String
  body : Option Json
  version : Option JsNumber

inductive CodecError
  /-- `BAD_FRAME` -/
  | badFrame
  /-- `UNSAFE_JSON_KEY` -/
  | unsafeJsonKey
deriving DecidableEq

structure Text where
  /-- `JSON.stringify` -/
  stringify : Json → List UInt8
  /-- `parseUntrustedJson`, which can throw because of an unsafe key, or for
  another reason -/
  parse : List UInt8 → Except CodecError Json

/-- `Number.isFinite(Number(version)) ? Number(version) : 2` -/
def versionOf : Option JsNumber → JsNumber
  | some (.fin q) => .fin q
  | _ => .fin 2

/-- mirrors src/transport/FrameCodec.js:22-29 -/
def encodeFrame (frame : Frame) : Json :=
  .obj [("id", .str (frame.id.getD "")), ("t", .str frame.type),
    ("v", .num (versionOf frame.version)),
    ("body", Json.orEmpty frame.body)]

/-- `typeof value === "string" && value.length > 0 ? value : null` -/
def idOf (value : Option Json) : Json :=
  match Json.text value with
  | some s => if s.isEmpty then .null else .str s
  | none => .null

/-- mirrors src/transport/FrameCodec.js:50-55 -/
def typeOf (parsed : Option Json) : String :=
  orText (Json.trimmed (Json.prop "type" parsed)) (Json.trimmed (Json.prop "t" parsed))

/-- mirrors src/transport/FrameCodec.js:30-62 -/
def decodeFrame (text : Text) (raw : List UInt8) : Except CodecError Json :=
  match text.parse raw with
  | .error .unsafeJsonKey => .error .unsafeJsonKey
  | .error .badFrame => .error .badFrame
  | .ok value =>
    match asObject (some value) with
    | none => .error .badFrame
    | some parsed =>
      let version := (Json.prop "v" (some parsed)).map fun v => ("version", v)
      .ok (.obj ([("id", idOf (Json.prop "id" (some parsed))),
        ("type", .str (typeOf (some parsed)))] ++ version.toList ++
        [("body", Json.orEmpty (Json.prop "body" (some parsed)))]))

/-- The text of the frame can be read back. -/
def Text.Carries (text : Text) (frame : Frame) : Prop :=
  text.parse (text.stringify (encodeFrame frame)) = .ok (encodeFrame frame)

/-- The bytes of an encoded frame. -/
def payload (text : Text) (frame : Frame) : List UInt8 := text.stringify (encodeFrame frame)

/-- What a frame is decoded to; an empty id is none. -/
def decoded (frame : Frame) : Json :=
  .obj [("id", idOf (frame.id.map .str)), ("type", .str (trim frame.type)),
    ("version", .num (versionOf frame.version)),
    ("body", Json.orEmpty frame.body)]

/-- A transport with this codec. -/
def config (text : Text) (keepAlives : Bool) (maxFrameBytes : Nat) (numText : JsNumber → String) :
    TcpTransport.Config :=
  ⟨keepAlives, maxFrameBytes, fun raw => (decodeFrame text raw).toOption.map some, numText⟩

theorem orEmpty_orEmpty (value : Option Json) :
    Json.orEmpty (some (Json.orEmpty value)) = Json.orEmpty value := by
  cases value with
  | none => rfl
  | some value => cases value <;> rfl

theorem idOf_getD (id : Option String) : idOf (some (.str (id.getD ""))) = idOf (id.map .str) := by
  cases id <;> rfl

theorem decode_encode {text : Text} {frame : Frame} (h : text.Carries frame) :
    decodeFrame text (payload text frame) = .ok (decoded frame) := by
  have hid : Json.prop "id" (some (encodeFrame frame)) = some (.str (frame.id.getD "")) := rfl
  have htype : Json.prop "type" (some (encodeFrame frame)) = none := rfl
  have ht : Json.prop "t" (some (encodeFrame frame)) = some (.str frame.type) := rfl
  have hv : Json.prop "v" (some (encodeFrame frame)) = some (.num (versionOf frame.version)) := rfl
  have hbody : Json.prop "body" (some (encodeFrame frame)) = some (Json.orEmpty frame.body) := rfl
  have hobject : asObject (some (encodeFrame frame)) = some (encodeFrame frame) := rfl
  have htypeOf : typeOf (some (encodeFrame frame)) = trim frame.type := by
    unfold typeOf
    rw [htype, ht]
    rfl
  unfold decodeFrame payload
  rw [h]
  dsimp only
  rw [hobject]
  dsimp only
  rw [hid, hv, hbody, htypeOf, idOf_getD, orEmpty_orEmpty]
  rfl

end RezSdk.L3.FrameCodec
