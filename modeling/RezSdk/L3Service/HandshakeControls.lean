import RezSdk.Core.Parties
import RezSdk.L3Service.Calls

/-!
# The inviter's answers, and the two sides of a handshake

`createSignedHandshakeAck` and `createSignedHandshakeReject` build what the
inviter answers a handshake with. `handshakes` puts two services side by side
that share nothing, an inviter and an acceptor, each with any calls in any
interleaving, over a network that may delay, reorder, duplicate, forge or drop
every packet. It assumes that

* the inviter's host answers a handshake only as `handleIncomingHandshakePacket`
  has told it: an ack with a nonce after that call resolved with this nonce, a
  reject with a nonce and a reason after it resolved with both (`Advised`);
* no nonce is stored at the acceptor at the start;
* signatures are ideal: an ack or a reject that verifies under the inviter's
  key is, but for its signature, one that the inviter has made (`MadeAck`,
  `MadeReject`), and a handshake that verifies under the acceptor's key is one
  that the acceptor has signed (`signsHandshake`).
-/
namespace RezSdk.L3

open RezSdk.L1 RezSdk.L2

variable {Snap : Type}

/-! ## Acks and rejects -/

/-- An ack without its signature. -/
structure AckPayload where
  senderIdentitySigningPubKeyB64 : String
  senderAccountId : Id
  senderInboxId : Option String
  senderDisplayName : String
  ackNonce : String
  createdAtMs : Nat
deriving DecidableEq

structure RejectPayload where
  senderIdentitySigningPubKeyB64 : String
  senderAccountId : Id
  reason : String
  ackNonce : String
  createdAtMs : Nat
deriving DecidableEq

/-- `new E2eeHandshakeAckV1({ ...ackPayload, signatureB64 })` -/
def AckPayload.signed (p : AckPayload) (signatureB64 : String) : HandshakeAck :=
  ⟨p.senderIdentitySigningPubKeyB64, p.senderAccountId, p.senderInboxId, p.senderDisplayName,
  p.ackNonce, p.createdAtMs,
    signatureB64⟩

def RejectPayload.signed (p : RejectPayload) (signatureB64 : String) : HandshakeReject :=
  ⟨p.senderIdentitySigningPubKeyB64, p.senderAccountId, p.reason, p.ackNonce,
  p.createdAtMs, signatureB64⟩

end RezSdk.L3

namespace RezSdk.L1

/-- `toAckPayload()` -/
def HandshakeAck.payload (a : HandshakeAck) : L3.AckPayload :=
  ⟨a.senderIdentitySigningPubKeyB64, a.senderAccountId, a.senderInboxId, a.senderDisplayName,
  a.ackNonce, a.createdAtMs⟩

def HandshakeReject.payload (r : HandshakeReject) : L3.RejectPayload :=
  ⟨r.senderIdentitySigningPubKeyB64, r.senderAccountId, r.reason, r.ackNonce, r.createdAtMs⟩

end RezSdk.L1

namespace RezSdk.L3

open RezSdk.L1 RezSdk.L2

variable {Snap : Type}

/-- The message classes of @rezprotocol/core, and what their envelopes sign. -/
structure ControlLib (core : Core Snap) where
  ackToSign : AckPayload → Bytes
  rejectToSign : RejectPayload → Bytes
  /-- `toBytes`, when the constructor's checks pass -/
  ackBytes : HandshakeAck → Except Err Bytes
  rejectBytes : HandshakeReject → Except Err Bytes
  parse_ack : ∀ a b, ackBytes a = .ok b → core.parseAck b = some a
  parse_reject : ∀ r b, rejectBytes r = .ok b → core.parseReject b = some r

/-- mirrors src/peer-link/PeerLinkService.js:3874-3901 -/
def createSignedHandshakeAck {core : Core Snap} (svc : Service Snap) (lib : ControlLib core)
    (owner : Id) (ownerInboxId : Option String) (ownerDisplayName ackNonce : String) :
    Sdk Snap Bytes := do
  Js.ensure (!ackNonce.isEmpty) { message := "createSignedHandshakeAck requires ackNonce string" }
  let identity ← requireBoundX3dhIdentity svc owner
  let createdAtMs ← clock
  let payload : AckPayload :=
    { senderIdentitySigningPubKeyB64 := identity.keyPair.publicKey.val
      senderAccountId := owner
      senderInboxId := ownerInboxId.filter (· ≠ "")
      senderDisplayName := ownerDisplayName
      ackNonce
      createdAtMs }
  let signatureB64 ← callCore (.sign identity.keyPair.privateKey (lib.ackToSign payload))
  Js.ofExcept (lib.ackBytes (payload.signed signatureB64.val))

/-- mirrors src/peer-link/PeerLinkService.js:4018-4045 -/
def createSignedHandshakeReject {core : Core Snap} (svc : Service Snap) (lib : ControlLib core)
    (owner : Id) (reason ackNonce : String) : Sdk Snap Bytes := do
  Js.ensure (!reason.isEmpty) { message := "createSignedHandshakeReject requires reason string" }
  Js.ensure (!ackNonce.isEmpty)
    { message := "createSignedHandshakeReject requires ackNonce string" }
  let identity ← requireBoundX3dhIdentity svc owner
  let createdAtMs ← clock
  let payload : RejectPayload :=
    { senderIdentitySigningPubKeyB64 := identity.keyPair.publicKey.val
      senderAccountId := owner
      reason
      ackNonce
      createdAtMs }
  let signatureB64 ← callCore (.sign identity.keyPair.privateKey (lib.rejectToSign payload))
  Js.ofExcept (lib.rejectBytes (payload.signed signatureB64.val))

/-! ## The inviter -/

inductive ControlCall
  | service (c : Call)
  | signAck (owner : Id) (ownerInboxId : Option String) (ownerDisplayName ackNonce : String)
  | signReject (owner : Id) (reason ackNonce : String)
deriving DecidableEq

inductive ControlReply
  | service (r : Reply)
  | packet (b : Bytes)
deriving DecidableEq

abbrev ControlState (Snap : Type) := Pool (sdk Snap) (Mem Snap) Fate ControlCall
    (Except Err ControlReply)

/-- The reasons as they are returned. -/
def RejectReason.text : RejectReason → String
  | .inviteExpired => "INVITE_EXPIRED"
  | .inviteUsedUp => "INVITE_USED_UP"

/-- What a finished handshake call tells its host to answer. -/
inductive Answer
  | ack (nonce : String)
  | reject (reason nonce : String)
deriving DecidableEq

def Answer.nonce : Answer → String
  | .ack nonce => nonce
  | .reject _ nonce => nonce

def HandshakeOutcome.answer : HandshakeOutcome → Option Answer
  | .accepted _ _ (some nonce) _ _ => some (.ack nonce.val)
  | .rejected reason (some nonce) _ _ => some (.reject reason.text nonce.val)
  | _ => none

/-- A handshake call of `owner` has told the host to answer so. -/
def Tells (s : ControlState Snap) (owner : Id) (a : Answer) : Prop :=
  ∃ (t : Nat) (b : Bytes) (out : HandshakeOutcome),
    s.threads[t]? = some ⟨.service (.handshake owner b), .ret (.ok (.service (.handshake out)))⟩ ∧
      out.answer = some a

/-- The host's use of the two functions. -/
def Advised (s : ControlState Snap) : ControlCall → Prop
  | .service _ => True
  | .signAck owner _ _ ackNonce => Tells s owner (.ack ackNonce)
  | .signReject owner reason ackNonce => Tells s owner (.reject reason ackNonce)

/-! ## The two sides -/

/-- The inviter has made this ack, or one that differs in its signature. -/
def MadeAck (core : Core Snap) (s : ControlState Snap) (ack : HandshakeAck) : Prop :=
  ∃ (t : Nat) (owner : Id) (inbox : Option String) (name nonce : String) (b :
  Bytes) (made : HandshakeAck),
    s.threads[t]? = some ⟨.signAck owner inbox name nonce, .ret (.ok (.packet b))⟩ ∧
      core.parseAck b = some made ∧
      made.payload = ack.payload

def MadeReject (core : Core Snap) (s : ControlState Snap) (reject : HandshakeReject) : Prop :=
  ∃ (t : Nat) (owner : Id) (reason nonce : String) (b : Bytes) (made : HandshakeReject),
    s.threads[t]? = some ⟨.signReject owner reason nonce, .ret (.ok (.packet b))⟩ ∧
      core.parseReject b = some made ∧
      made.payload = reject.payload

/-- A handshake was signed. -/
def signsHandshake (h : HandshakeData) : Proc.Exch (sdk Snap) → Bool
  | ⟨.core (.signHandshakeEnvelope h' _), .ok _⟩ => h' = h
  | _ => false

/-- What the inviter may hear, given the acceptor's log. -/
def inviterHears (acceptorKey : Id) (other : List (Ev Snap)) : Proc.Exch (sdk Snap) → Prop
  | ⟨.core (.verifyHandshakeEnvelope (.handshake h _)), .ok true⟩ =>
    h.senderIdentitySigningPubKeyB64 = some acceptorKey →
      ∃ e ∈ other, signsHandshake h e.exch = true
  | _ => True

/-- What the acceptor may hear, given the inviter. -/
def acceptorHears (core : Core Snap) (inviterKey : Id) (other : ControlState Snap) :
    Proc.Exch (sdk Snap) → Prop
  | ⟨.core (.verifyHandshakeEnvelope (.ack a)), .ok true⟩ =>
    a.senderIdentitySigningPubKeyB64 = inviterKey.val → MadeAck core other a
  | ⟨.core (.verifyHandshakeEnvelope (.reject r)), .ok true⟩ =>
    r.senderIdentitySigningPubKeyB64 = inviterKey.val → MadeReject core other r
  | _ => True

variable [DecidableEq Snap]

def control {core : Core Snap} (svc : Service Snap) (lib : ControlLib core) :
    ControlCall → Sdk Snap ControlReply
  | .service c => do
    let r ← program svc c
    return .service r
  | .signAck owner inbox name nonce => do
    let b ← createSignedHandshakeAck svc lib owner inbox name nonce
    return .packet b
  | .signReject owner reason nonce => do
    let b ← createSignedHandshakeReject svc lib owner reason nonce
    return .packet b

/-- An inviter and an acceptor that has no nonce yet. -/
def handshakes (inviter acceptor : Service Snap) (lib : ControlLib acceptor.core)
    (inviterKey acceptorKey : Id) : Parties (sdk Snap) (sdk Snap) (Mem Snap)
    (Mem Snap) Fate Fate ControlCall Call (Except Err ControlReply) (Except Err Reply) where
  left := ⟨act inviter.core, control inviter lib⟩
  right := system acceptor
  leftRule := ⟨fun _ => True, Advised, fun _ _ => True⟩
  rightRule :=
    ⟨fun m => ∀ o l, m.kv.lookup (.ackNonce o l) = none, fun _ _ => True, fun _ _ => True⟩
  leftOk _ u e := inviterHears acceptorKey u.log e.exch
  rightOk s _ e := acceptorHears acceptor.core inviterKey s e.exch

end RezSdk.L3
