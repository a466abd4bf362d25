import RezSdk.Core.Object
import RezSdk.Core.OrderedMap
import RezSdk.L1Records.Json

/-!
# Authenticating against a node (`AuthStateMachine.js`)

A handshake sends `session.hello`, checks the challenge that comes back and its
self-signature, signs the challenge and sends `session.authenticate`. A machine
authenticates as an account or as a claimant, never both. The floor store
(`RelayContractFloorStore.js`) records the highest contract version at which a
node has authenticated; with enforcement on, an account-mode handshake toward a
pinned node with a floor of 5 or more is refused before its hello
(`DowngradePolicy.js`).

The transport and the signatures are callbacks. Any number of machines run
against one floor store, which others may write to as well. The machine's own
state is only reported, and left out. The conversions of foreign values and the
binding check of @rezprotocol/core are parameters (`Lib`).
-/
namespace RezSdk.L3.Auth

open RezSdk.L1

structure Lib where
  /-- `String(value || "")` -/
  text : Option Json → String
  /-- `Number(value)` -/
  number : Option Json → JsNumber
  numText : ℚ → String
  /-- the reason when it is not valid -/
  validateRelayIdentityBinding (relayKeyId nodeKeyId nodePublicKeyB64 : String) : Except String Unit
  /-- `CONTRACT_VERSION` -/
  contractVersion : JsNumber
  /-- `T.SESSION_HELLO` -/
  sessionHello : String
  /-- `T.SESSION_READY` -/
  sessionReady : String
  /-- `T.SESSION_CHALLENGE` -/
  sessionChallenge : String
  /-- `T.SESSION_AUTHENTICATE` -/
  sessionAuthenticate : String

/-! ## The floor store -/

/-- In memory, or over a backing that keeps what it is given. -/
structure FloorStore where
  backed : Bool
  entries : List (String × JsNumber)

namespace FloorStore

/-- mirrors src/relay/RelayContractFloorStore.js:39-46 -/
def read (s : FloorStore) (key : String) : Option ℚ :=
  match OMap.get key s.entries with
  | some (.fin q) => if q.den = 1 && (!s.backed || decide (0 < q)) then some q else none
  | _ => none

/-- mirrors src/relay/RelayContractFloorStore.js:48-54 -/
def write (s : FloorStore) (key : String) (value : ℚ) : FloorStore :=
  { s with entries := OMap.set key (.fin value) s.entries }

/-- A positive integer. -/
def version : JsNumber → Option ℚ
  | .fin q => if q.den = 1 ∧ 0 < q then some q else none
  | _ => none

/-- mirrors src/relay/RelayContractFloorStore.js:65-83 -/
def recordObserved (s : FloorStore) (relayIdentityB64 : String) (contractVersion : JsNumber) :
    Except Err Unit × FloorStore :=
  let key := trim relayIdentityB64
  if key.isEmpty
    then (.error { message := "recordObserved requires the verified relayIdentityB64" }, s)
  else match version contractVersion with
    | none =>
      (.error { message := "recordObserved requires a positive integer contractVersion" }, s)
    | some observed => match s.read key with
      | none => (.ok (), s.write key observed)
      | some existing =>
        (.ok (), if existing < max existing observed then s.write key (max existing observed)
        else s)

/-- mirrors src/relay/RelayContractFloorStore.js:90-94 -/
def floorFor (s : FloorStore) (relayIdentityB64 : String) : Option ℚ :=
  let key := trim relayIdentityB64
  if key.isEmpty then none else s.read key

end FloorStore

/-- The reason why an account-mode handshake is refused.
mirrors src/relay/DowngradePolicy.js:31-49 -/
def permitsAccountModeAuth (lib : Lib) (relayIdentityB64 : String) (store : FloorStore)
    (enforce : Bool) : Except String Unit :=
  let identity := trim relayIdentityB64
  if identity.isEmpty then .ok ()
  else match store.floorFor identity with
    | none => .ok ()
    | some floor =>
      if floor < 5 then .ok ()
      else if !enforce then .ok ()
      else .error ("relay previously authenticated at contract " ++ lib.numText floor ++
        "; account-mode auth toward it is a downgrade and enforcement is enabled")

/-! ## Machines -/

structure DeviceKey where
  publicKeyB64 : String
  privateKeyB64 : String

structure AccountIdentity where
  publicKeyB64 : String
  /-- empty on a delegated device -/
  privateKeyB64 : String
  deviceId : String
  deviceKey : Option DeviceKey
  certChain : Option (List Json)

structure ClaimantIdentity where
  claimantPublicKeyB64 : String
  privateKeyB64 : String

inductive Mode
  | account (identity : AccountIdentity)
  | claimant (identity : ClaimantIdentity)

structure Machine where
  mode : Mode
  requestType : String
  responseType : String
  /-- `sessionHello.body` -/
  body : List (String × Json)
  clientVersion : String
  expectedNodePublicKeyB64 : String
  /-- `relayContractFloor.enforce`, when there is a store -/
  relayContractFloor : Option Bool

structure Options where
  identity : Option AccountIdentity
  claimantIdentity : Option ClaimantIdentity
  requestType : String
  responseType : String
  body : Option (List (String × Json))
  clientVersion : String
  /-- nothing when it is no string -/
  expectedNodePublicKeyB64 : Option String
  relayContractFloor : Option Bool

def orElse (value other : String) : String := if value.isEmpty then other else value

/-- mirrors src/auth/AuthStateMachine.js:125-128 -/
def AccountIdentity.hasDelegation (i : AccountIdentity) : Bool :=
  (i.deviceKey.any fun k => !k.publicKeyB64.isEmpty && !k.privateKeyB64.isEmpty) &&
  i.certChain.any fun chain => !chain.isEmpty

/-- mirrors src/auth/AuthStateMachine.js:78-144 -/
def construct (lib : Lib) (o : Options) : Except Err Machine :=
  let make (mode : Mode) (body : List (String × Json)) : Machine :=
    { mode, body
      requestType := orElse o.requestType lib.sessionHello
      responseType := orElse o.responseType lib.sessionReady
      clientVersion := orElse o.clientVersion "rez-sdk/2.0"
      expectedNodePublicKeyB64 := trim (o.expectedNodePublicKeyB64.getD "")
      relayContractFloor := o.relayContractFloor }
  match o.claimantIdentity, o.identity with
  | some _, some _ =>
    .error { message := "AuthStateMachine takes identity (account) OR "
      ++ "claimantIdentity (claimant), never both" }
  | some i, none =>
    if i.claimantPublicKeyB64.isEmpty || i.privateKeyB64.isEmpty then
      .error { message := "AuthStateMachine claimant mode requires "
        ++ "claimantIdentity.claimantPublicKeyB64 and privateKeyB64" }
    else .ok (make (.claimant { i with claimantPublicKeyB64 := trim i.claimantPublicKeyB64 }) [])
  | none, none => .error { message := "AuthStateMachine requires identity with publicKeyB64" }
  | none, some i =>
    if i.publicKeyB64.isEmpty
      then .error { message := "AuthStateMachine requires identity with publicKeyB64" }
    else if i.privateKeyB64.isEmpty && !i.hasDelegation then
      .error { message := "AuthStateMachine requires identity.privateKeyB64 (primary) or "
        ++ "identity.deviceKey + certChain (delegated)" }
    else .ok (make (.account i) (o.body.getD []))

/-! ## The challenge -/

structure Challenge where
  challengeId : String
  nonceB64 : String
  nodeKeyId : String
  nodePublicKeyB64 : String
  relayKeyId : String
  issuedAtMs : ℚ
  expiresAtMs : ℚ
  wsPath : String
  signatureB64 : String

def authFailure (message : String) : Err := .coded "AUTH_FAILURE" message

/-- mirrors src/auth/AuthStateMachine.js:164-214 -/
def parseAndValidateChallenge (lib : Lib) (m : Machine) (helloResponse : Option Json) (nowMs : ℚ) :
    Except Err Challenge := do
  let responseType := lib.text (Json.prop "t" helloResponse)
  if responseType ≠ lib.sessionChallenge then
    throw (authFailure ("unexpected response type: " ++ orElse responseType "unknown"))
  let challengeBody := some (Json.orEmpty (Json.prop "body" helloResponse))
  let text (key : String) := lib.text (Json.prop key challengeBody)
  match lib.number (Json.prop "issuedAtMs" challengeBody),
    lib.number (Json.prop "expiresAtMs" challengeBody) with
  | .fin issuedAtMs, .fin expiresAtMs =>
    let challenge : Challenge :=
      { challengeId := text "challengeId"
        nonceB64 := text "nonceB64"
        nodeKeyId := text "nodeKeyId"
        nodePublicKeyB64 := text "nodePublicKeyB64"
        relayKeyId := text "relayKeyId"
        issuedAtMs
        expiresAtMs
        wsPath := text "wsPath", signatureB64 := text "signatureB64" }
    if challenge.challengeId.isEmpty || challenge.nonceB64.isEmpty || challenge.nodeKeyId.isEmpty ||
      challenge.nodePublicKeyB64.isEmpty ||
        challenge.relayKeyId.isEmpty || challenge.wsPath.isEmpty || challenge.signatureB64.isEmpty
          then
      throw (authFailure "session challenge incomplete")
    match lib.validateRelayIdentityBinding challenge.relayKeyId challenge.nodeKeyId
      challenge.nodePublicKeyB64 with
    | .error reason => throw (authFailure ("session challenge relay identity invalid: " ++ reason))
    | .ok () =>
      if challenge.expiresAtMs < nowMs then throw (authFailure "session challenge expired")
      if !m.expectedNodePublicKeyB64.isEmpty &&
        m.expectedNodePublicKeyB64 != challenge.nodePublicKeyB64 then
        throw (authFailure ("session challenge from unexpected node — refusing to sign. " ++
          "Configured expectedNodePublicKeyB64 does not match the challenge."))
      return challenge
  | _, _ => throw (authFailure "session challenge incomplete")

/-! ## The handshake -/

abbrev Payload := List (String × Json)

structure Frame where
  type : String
  body : List (String × Json)
  expectedResponseType : Option String

/-- What one mode puts into a handshake. -/
structure Flow where
  hello : List (String × Json)
  /-- what the self-signature of the challenge covers -/
  challengePayload : Challenge → Payload
  /-- what is signed back -/
  authPayload : Challenge → Payload
  privateKeyB64 : Except Err String
  /-- what goes with the signature -/
  extra : List (String × Json)
  contractVersion : JsNumber

def Challenge.fields (ch : Challenge) : Payload :=
  [("challengeId", .str ch.challengeId), ("nonceB64", .str ch.nonceB64),
  ("nodeKeyId", .str ch.nodeKeyId),
    ("nodePublicKeyB64", .str ch.nodePublicKeyB64), ("relayKeyId", .str ch.relayKeyId),
    ("wsPath", .str ch.wsPath)]

def Challenge.times (ch : Challenge) : Payload :=
  [("issuedAtMs", .num (.fin ch.issuedAtMs)), ("expiresAtMs", .num (.fin ch.expiresAtMs))]

/-- mirrors src/auth/AuthStateMachine.js:265-350 -/
def accountFlow (lib : Lib) (m : Machine) (i : AccountIdentity) : Flow where
  hello := OMap.set "accountIdentityPublicKeyB64" (.str i.publicKeyB64)
    (OMap.set "deviceId" (.str i.deviceId)
    (OMap.set "clientVersion" (.str m.clientVersion)
    (OMap.set "clientName" (.str "rez-sdk") m.body)))
  challengePayload ch := ("kind", .str "session-challenge") :: ch.fields ++ ch.times ++
    [("accountIdentityPublicKeyB64", .str i.publicKeyB64), ("sessionDeviceId", .str i.deviceId)]
  authPayload ch := ("kind", .str "session-auth") :: ch.fields ++
    [("publicKeyB64", .str i.publicKeyB64), ("deviceId", .str i.deviceId)]
  privateKeyB64 :=
    if i.privateKeyB64.isEmpty then match i.deviceKey with
      | some key => .ok key.privateKeyB64
      | none =>
        .error { message := "Cannot read properties of undefined (reading 'privateKeyB64')" }
    else .ok i.privateKeyB64
  extra :=
    if i.privateKeyB64.isEmpty then
      [("signerPublicKeyB64", .str ((i.deviceKey.map DeviceKey.publicKeyB64).getD "")),
      ("certChain", .arr (i.certChain.getD []))]
    else []
  contractVersion := lib.contractVersion

/-- mirrors src/auth/AuthStateMachine.js:415-471 -/
def claimantFlow (m : Machine) (i : ClaimantIdentity) : Flow where
  hello := [("contractVersion", .num (.fin 5)), ("authMode", .str "claimant"),
    ("clientName", .str "rez-sdk"),
    ("clientVersion", .str m.clientVersion), ("claimantPublicKeyB64", .str i.claimantPublicKeyB64)]
  challengePayload ch := ("kind", .str "session-challenge-claimant") :: ch.fields ++ ch.times ++
    [("claimantPublicKeyB64", .str i.claimantPublicKeyB64)]
  authPayload ch := ("kind", .str "session-auth-claimant") :: ch.fields ++
    [("claimantPublicKeyB64", .str i.claimantPublicKeyB64)]
  privateKeyB64 := .ok i.privateKeyB64
  extra := []
  contractVersion := .fin 5

def Machine.flow (lib : Lib) (m : Machine) : Flow :=
  match m.mode with
  | .account i => accountFlow lib m i
  | .claimant i => claimantFlow m i

def helloFrame (lib : Lib) (m : Machine) : Frame := ⟨m.requestType, (m.flow lib).hello, none⟩

def authFrame (lib : Lib) (m : Machine) (ch : Challenge) (signatureB64 : String) : Frame :=
  ⟨lib.sessionAuthenticate,
    ([("challengeId", .str ch.challengeId), ("signatureB64", .str signatureB64)] :
      List (String × Json)) ++ (m.flow lib).extra,
    if m.responseType.isEmpty then none else some m.responseType⟩

structure SessionInfo where
  readyBody : Json
  contractVersion : JsNumber
  nodeKeyId : String
  nodePublicKeyB64 : String
  relayKeyId : String

/-- The stretches between two awaits. -/
inductive Stretch
  | begin (m : Machine)
  | validate (m : Machine) (helloResponse : Option Json)
  | record (relayIdentityB64 : String) (contractVersion : JsNumber)

def Stretch.apply (s : FloorStore) : Stretch → FloorStore
  | .record relayIdentityB64 contractVersion =>
    (s.recordObserved relayIdentityB64 contractVersion).2
  | _ => s

inductive Outside
  | send (frame : Frame)
  | verify (publicKeyB64 signatureB64 : String) (payload : Payload)
  | sign (privateKeyB64 : String) (payload : Payload)

abbrev Outside.Ans : Outside → Type
  | .send _ => Except Err (Option Json)
  | .verify .. => Bool
  | .sign .. => Except Err String

abbrev outside : Iface := ⟨Outside, Outside.Ans⟩
/-- The synchronous input is the clock. -/
abbrev auth : Iface := object FloorStore ℚ Stretch outside
abbrev Authing (α : Type) : Type := Method FloorStore ℚ Stretch outside Err α

section

variable (lib : Lib)

/-- mirrors src/auth/AuthStateMachine.js:249-261 -/
def refusal (m : Machine) (s : FloorStore) : Except Err Unit :=
  match m.mode, m.relayContractFloor with
  | .account _, some enforce =>
    if m.expectedNodePublicKeyB64.isEmpty then .ok ()
    else match permitsAccountModeAuth lib m.expectedNodePublicKeyB64 s enforce with
      | .ok () => .ok ()
      | .error reason => .error (authFailure ("account-mode auth refused before hello: " ++ reason))
  | _, _ => .ok ()

/-- `#recordContractFloor` -/
def recordContractFloor (m : Machine) (nodePublicKeyB64 : String) (contractVersion : JsNumber) :
    Authing Unit :=
  if m.relayContractFloor.isSome then
    stretch (.record nodePublicKeyB64 contractVersion) fun _ s =>
      s.recordObserved nodePublicKeyB64 contractVersion
  else return

/-- What stands in the `try` of both handshakes.
mirrors src/auth/AuthStateMachine.js:264-386 and 417-499 -/
def handshake (m : Machine) : Authing SessionInfo := do
  let flow := m.flow lib
  let helloResponse ← .ask (.await (.send (helloFrame lib m))) .ret
  let challenge ← stretch (.validate m helloResponse) fun nowMs s =>
    (parseAndValidateChallenge lib m helloResponse nowMs, s)
  let verified ← .ask (.await (.verify challenge.nodePublicKeyB64 challenge.signatureB64
    (flow.challengePayload challenge))) fun b =>
    .ret (.ok b)
  if verified then
    let privateKeyB64 ← Js.ofExcept flow.privateKeyB64
    let signatureB64 ← .ask (.await (.sign privateKeyB64 (flow.authPayload challenge))) .ret
    let readyResponse ← .ask (.await (.send (authFrame lib m challenge signatureB64))) .ret
    let readyType := lib.text (Json.prop "t" readyResponse)
    if !m.responseType.isEmpty && readyType != m.responseType then
      throw (authFailure ("unexpected ready type: " ++ orElse readyType "unknown"))
    else
      recordContractFloor m challenge.nodePublicKeyB64 flow.contractVersion
      return ⟨Json.orEmpty (Json.prop "body" readyResponse), flow.contractVersion,
        challenge.nodeKeyId, challenge.nodePublicKeyB64,
        challenge.relayKeyId⟩
  else throw (authFailure "session challenge signature did not verify")

/-- What the `catch` of both handshakes throws.
mirrors src/auth/AuthStateMachine.js:387-400 and 500-508 -/
def asAuthFailure (err : Err) : Err :=
  if err.code = some "AUTH_FAILURE" then err else authFailure (orElse err.message "auth failed")

/-- mirrors src/auth/AuthStateMachine.js:237-401 and 412-509 -/
def authenticate (m : Machine) : Authing SessionInfo := do
  stretch (.begin m) fun _ s => (refusal lib m s, s)
  Js.attempt (handshake lib m) fun
    | .ok info => .ret (.ok info)
    | .error err => .ret (.error (asAuthFailure err))

inductive Call
  /-- an attempt of the machine with these options -/
  | authenticate (o : Options)
  /-- somebody else has seen the node authenticate -/
  | record (relayIdentityB64 : String) (contractVersion : JsNumber)

inductive Result
  | authenticated (info : SessionInfo)
  | recorded

def run : Call → Authing Result
  | .authenticate o => do
    let m ← Js.ofExcept (construct lib o)
    let info ← authenticate lib m
    return .authenticated info
  | .record relayIdentityB64 contractVersion => do
    stretch (.record relayIdentityB64 contractVersion) fun _ s =>
      s.recordObserved relayIdentityB64 contractVersion
    return .recorded

def machines : System auth FloorStore (ObjFate ℚ outside) Call (Except Err Result) :=
  .ofObject .callbacks (run lib)

end

abbrev AuthState := Pool auth FloorStore (ObjFate ℚ outside) Call (Except Err Result)
abbrev AuthRules := Discipline auth FloorStore (ObjFate ℚ outside) Call (Except Err Result)

/-- Any interleaving, from this store. -/
def fromStore (store : FloorStore) : AuthRules where
  init s := s = store
  may _ _ := True
  ok _ _ := True

end RezSdk.L3.Auth
