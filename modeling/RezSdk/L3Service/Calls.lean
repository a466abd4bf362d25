import RezSdk.L3Service.Handshake
import RezSdk.L3Service.Messages
import RezSdk.L3Service.Relationships

/-!
# The calls on one service instance

`Call` lists the public operations with their arguments, `program` their
code, and `system` runs any number of them over one memory. The laws of the
codec that @rezprotocol/core keeps stand here too: `Adv` relates a snapshot
to the snapshots that sealing or opening leads to, and `Codec` says that this
never comes back and that a packet that is not opened leaves the snapshot
alone.
-/
namespace RezSdk.L3

open RezSdk.L1 RezSdk.L2

inductive Call
  | encrypt (owner peer : Id) (plaintextBytes : Bytes)
  | decrypt (owner peer : Id) (packetBytes : Bytes)
  | decryptAny (owner : Id) (packetBytes : Bytes)
  | ack (owner : Id) (ackPacketBytes : Bytes)
  | reject (owner : Id) (rejectPacketBytes : Bytes)
  | accept (a : AcceptArgs)
  | handshake (owner : Id) (packetBytes : Bytes)
  | join (owner inviteId joiner : Id) (nowMs : Option Nat)
  | encryptDevice (owner peer link device : Id) (plaintextBytes : Bytes)
  | decryptDevice (owner : Id) (peer : Option Id) (link device : Id) (packetBytes : Bytes)
  | trialDevices (owner : Id) (peer : Option Id) (link : Id) (packetBytes : Bytes)
  | initiateDevice (a : InitiatorArgs)
  | respondDevice (a : ResponderArgs)
  | upsert (a : RelationshipArgs)
  | getLink (owner link : Id)
  | listLinks (owner : Id)
deriving DecidableEq

inductive Reply
  | encrypted (r : EncryptResult)
  | decrypted (r : DecryptResult)
  | acked (r : Option AckResult)
  | rejected (r : Option RejectResult)
  | accepted (r : AcceptResult)
  | handshake (r : HandshakeOutcome)
  | joined (r : JoinResult)
  | deviceEncrypted (packet : Bytes) (sid : Id)
  | deviceDecrypted (plaintext : Bytes) (sid : Id)
  | deviceTrial (r : Option (Id × Bytes × Id))
  | deviceInitiated (handshake : HandshakeData) (sid : Id)
  | deviceResponded (sid device : Id)
  | relationship (r : PeerLinkRecord)
  | peerLink (r : Option PeerLinkSnapshot)
  | peerLinks (rs : List PeerLinkSnapshot)
deriving DecidableEq

abbrev Ev (Snap : Type) := Event (sdk Snap) Fate
abbrev State (Snap : Type) := Pool (sdk Snap) (Mem Snap) Fate Call (Except Err Reply)
abbrev Rules (Snap : Type) := Discipline (sdk Snap) (Mem Snap) Fate Call (Except Err Reply)

variable {Snap : Type}

/-- How call `t` ended, if it has. -/
def outcome (s : State Snap) (t : Nat) : Option (Call × Except Err Reply) :=
  s.threads[t]?.bind fun th =>
    match th.proc with
    | .ret x => some (th.call, x)
    | .ask .. => none

theorem outcome_some {s : State Snap} {t : Nat} {c : Call} {x : Except Err Reply} :
    outcome s t = some (c, x) ↔ s.threads[t]? = some ⟨c, .ret x⟩ := by
  simp only [outcome, Option.bind_eq_some_iff]
  constructor
  · rintro ⟨⟨c', p⟩, ht, h⟩
    cases p with
    | ret y => cases h; exact ht
    | ask o k => cases h
  · exact fun h => ⟨_, h, rfl⟩

variable [DecidableEq Snap]

def program (svc : Service Snap) : Call → Sdk Snap Reply
  | .encrypt owner peer b => do
    let r ← encryptDirectMessage owner peer b
    return .encrypted r
  | .decrypt owner peer b => do
    let r ← decryptDirectMessage svc owner peer b
    return .decrypted r
  | .decryptAny owner b => do
    let r ← decryptDirectMessageAnyPeer svc owner b
    return .decrypted r
  | .ack owner b => do
    let r ← handleIncomingHandshakeAck svc owner b
    return .acked r
  | .reject owner b => do
    let r ← handleHandshakeReject svc owner b
    return .rejected r
  | .accept a => do
    let r ← acceptInvite svc a
    return .accepted r
  | .handshake owner b => do
    let r ← handleIncomingHandshakePacket svc owner b
    return .handshake r
  | .join owner id joiner nowMs => do
    let r ← authorizeInviteJoin owner id joiner nowMs
    return .joined r
  | .encryptDevice owner peer link device b => do
    let r ← encryptForDevice owner peer link device b
    return .deviceEncrypted r.1 r.2
  | .decryptDevice owner peer link device b => do
    let r ← decryptFromDevice owner peer link device b
    return .deviceDecrypted r.1 r.2
  | .trialDevices owner peer link b => do
    let r ← trialDecryptAcrossDevices svc owner peer link b
    return .deviceTrial r
  | .initiateDevice a => do
    let r ← establishInitiatorDeviceSession svc a
    return .deviceInitiated r.1 r.2
  | .respondDevice a => do
    let r ← establishResponderDeviceSession svc a
    return .deviceResponded r.1 r.2
  | .upsert a => do
    let r ← upsertPeerRelationship a
    return .relationship r
  | .getLink owner link => do
    let r ← getPeerLink owner link
    return .peerLink r
  | .listLinks owner => do
    let rs ← listPeerLinks svc owner
    return .peerLinks rs

def system (svc : Service Snap) : System (sdk Snap) (Mem Snap) Fate Call (Except Err Reply) :=
  ⟨act svc.core, program svc⟩

/-- The answers of @rezprotocol/core are those of `core`. -/
def Lawful (core : Core Snap) : Proc.Exch (sdk Snap) → Prop
  | ⟨.core q, r⟩ => ∃ n, r = core.answer q n
  | _ => True

theorem lawful_fires {svc : Service Snap} {s s' : State Snap} {e : Ev Snap} {c : Call}
    {k : (sdk Snap).Ans e.op → Proc (sdk Snap) (Except Err Reply)}
    (h : Pool.Fires (system svc) s e c k s') : Lawful svc.core e.exch := by
  obtain ⟨t, o, r, f⟩ := e
  cases o with
  | core q => exact act_core h.act
  | _ => trivial

/-- The store after an event. -/
theorem kv_fires {svc : Service Snap} {s s' : State Snap} {e : Ev Snap} {c : Call}
    {k : (sdk Snap).Ans e.op → Proc (sdk Snap) (Except Err Reply)}
    (h : Pool.Fires (system svc) s e c k s') : s'.mem.kv = effect s.mem.kv e.op e.fate :=
  act_kv h.act

/-! ## The codec -/

/-- Sealing or opening leads from snapshot `b` to snapshot `s`. -/
inductive Adv (core : Core Snap) : Snap → Snap → Prop
  | sealed {b s : Snap} {peer : Id} {m pkt : Bytes} {n : Nat} :
      core.answer (.encryptForPeer b peer m) n = .ok (pkt, s) → Adv core b s
  | opened {b s : Snap} {pkt : Bytes} {o : Opened} {n : Nat} :
      core.answer (.decryptIncoming b pkt) n = .ok (o, s) → o.opened = true → Adv core b s

/-- What the ratchet of @rezprotocol/core keeps: it only moves forward, and a
packet it does not open does not move it. -/
structure Codec (core : Core Snap) : Prop where
  forward : ∀ s, ¬ Relation.TransGen (Adv core) s s
  still : ∀ b pkt n o s, core.answer (.decryptIncoming b pkt) n = .ok (o, s) →
    o.opened = false → s = b

end RezSdk.L3
