import RezSdk.L3Service.Calls
import RezSdk.L3Service.DeviceSets

/-!
# A core that counts

The smallest `Core` that keeps the codec's laws: a snapshot is a number,
sealing and opening add one, and a packet is opened by the snapshot it names.
Signatures verify, and an account id is its own public key. The concrete runs
of this development are runs of this core.
-/
namespace RezSdk.L3.Counting

open RezSdk.L1 RezSdk.L2

theorem isId_a : isId "a" = true := by decide

theorem isId_b : isId "b" = true := by decide

def a : Id := ⟨"a", isId_a⟩
def b : Id := ⟨"b", isId_b⟩
def c : Id := ⟨"c", by decide⟩
def d : Id := ⟨"d", by decide⟩

/-- An endless supply of ids. -/
def unary (n : Nat) : Id where
  val := .ofList (List.replicate (n + 1) 'z')
  ok := by
    have hlast : (List.replicate (n + 1) 'z').getLast (by simp) = 'z' := by simp
    simp only [isId, String.toList_ofList]
    show (!isSpace 'z' && !isSpace ((List.replicate (n + 1) 'z').getLast _)) = true
    rw [hlast]
    decide

/-- Everything succeeds, it is always 5 o'clock, and the `n`-th event may draw
the `n`-th id. -/
def smooth (n : Nat) : Op Nat → Fate
  | .clock => .time 5
  | .runtimeUuid => .fresh (unary n)
  | .stableId _ => .fresh (unary n)
  | .core _ => .rand 0
  | _ => .ok

def idOf : UInt8 → Id
  | 1 => b
  | 2 => c
  | 3 => d
  | _ => a

def fault : Fault := ⟨"disk", by decide⟩

/-- A binding of account `acct` that holds until `expiresAtMs`. -/
def bindingOf (acct : Id) (expiresAtMs : Nat) : AccountBinding :=
  ⟨some acct, some acct, some acct, some 1, some expiresAtMs, some acct, none, []⟩

/-- The handshake of acceptor `acct` for invite `inv` with nonce `nonce`. -/
def handshakeFor (acct inv nonce : Id) : HandshakeData :=
  ⟨some inv, "", none, some (bindingOf acct 50), some acct, none, some nonce, 1, [], none⟩

/-- A packet is `[acceptor, invite, nonce]`. -/
def parsePacket : Bytes → Except Err (Option HandshakePacket)
  | [x, i, n] => .ok (some ⟨handshakeFor (idOf x) (idOf i) (idOf n), some "s"⟩)
  | _ => .ok none

def answer : (q : CoreCall Nat) → Nat → Except Err q.Value
  | .encryptForPeer base _ m, _ => .ok (m, base + 1)
  | .decryptIncoming base pkt, _ =>
    if pkt = [UInt8.ofNat base] then .ok (⟨true, some b, false, [7]⟩, base + 1)
    else .ok (⟨true, none, false, []⟩, base)
  | .processAcceptedInvite _, n => .ok (handshakeFor a a a, 100 * n)
  | .completeInviteHandshake _, n => .ok (some d, 100 * n)
  | .verifyHandshakeEnvelope _, _ => .ok true
  | .verifyInviteSignature .., _ => .ok true
  | .verify .., _ => .ok true
  | .verifyAccountAuthority _, _ => .ok none
  | .sign .., _ => .ok a
  | .signHandshakeEnvelope .., _ => .ok "s"
  | .generateSigningKeyPair, _ => .ok ⟨a, a⟩
  | .dhGenerateKeyPair, _ => .ok ⟨a, a⟩
  | .dhDerive .., _ => .ok []
  | .sendHandshake .., 0 => .ok none
  | .sendHandshake .., _ + 1 => .error { message := "offline" }
  | .prepareInviteBinding _, n => .ok ([], [UInt8.ofNat n])
  | .authoritySigner owner, _ => .ok (some owner)
  | .authoritySign .., _ => .ok a
  | .verifyDurableRecordV2 .., _ => .ok (.ok a)
  | .hkdfSha256 .., _ => .ok (List.replicate 32 0)
  | .randomBytes length, _ => .ok (List.replicate length 0)
  | .aeadEncrypt _ _ plaintext _, _ => .ok plaintext
  | .aeadDecrypt .., _ => .ok []

/-- Device `id` of account `b`, its device set and its pre-key bundle. -/
def device (id : Id) : DeviceEntry := ⟨id, id, id⟩

def deviceSet (revision : Nat) (devices : List DeviceEntry) : DeviceSetRecord :=
  ⟨⟨1, "purpose", b, revision, devices, 1, 50⟩, a⟩

def bundle (id : Id) : PrekeyBundle := ⟨⟨b, id, id, id, 1, [], 1, 50⟩, a⟩

/-- An ack or a reject of account `b` is `[nonce]`. -/
def core : Core Nat where
  answer := answer
  parsePacket := parsePacket
  parseAck
    | [n] => some ⟨"b", b, none, "", (idOf n).val, 1, "s"⟩
    | _ => none
  parseReject
    | [n] => some ⟨"b", b, "INVITE_USED_UP", (idOf n).val, 1, "s"⟩
    | _ => none
  deriveAccountId k := some k
  isBase64 _ := true
  deviceIdFor k := k
  canonicalPayloadBytes _ := []
  tokenHash _ := c
  bindingPayload _ _ _ _ := []
  keyBytes _ := []
  localeLe _ _ := true
  requireIdError label := { message := label }
  base64Error := { message := "base64" }
  signedPreKeyPublic
    | [n] => some (idOf n).val
    | _ => none
  hasSignedPreKeyPrivate _ := true
  preKeyWindow := List.flatten
  deviceSetVersion := 1
  deviceSetPurpose := "purpose"
  deviceSetRecordKind := "kind"
  deviceSetPublishCapability := "capability"
  deviceSetSignable _ := []
  prekeyBundleSignable _ := []
  durableSignable _ := []
  payloadText _ := ""
  innerBytes _ _ := []
  parsePayload _ := .ok ⟨some "n", some "c"⟩
  parseInner _ := .ok ⟨[], [[3]]⟩
  parseDeviceSet _ := .ok (deviceSet 1 [device d])
  parseBundle
    | [n] => .ok (bundle (idOf n))
    | _ => .error { message := "bundle" }
  checkDeviceSet _ := .ok ()
  checkBundle _ := .ok ()
  bytesToBase64 _ := ""
  bytesToHex _ := ""
  authorityHash c := if c.devices.length = 1 then "one" else "more"

def svc : Service Nat := ⟨core, false, false, false, none⟩

/-- Account `a`'s link to account `b`, with session `d`. -/
def link (state : PeerLinkState) : PeerLinkRecord :=
  ⟨c, a, b, some b, none, none, state, none, some d, some b, false, 1, none, none, 1⟩

def session (status : SessionStatus) (device : Option Id) (snapshot : Nat) : SessionRecord Nat :=
  ⟨d, c, a, b, device, status, snapshot, 1, 1, 1⟩

/-- The store of account `a` with that link and its session. -/
def linked (state : PeerLinkState) (status : SessionStatus) : Store Nat :=
  ((((∅ : Store Nat).insert (.peerLink a c) (link state)).insert (.pair a b) c).insert
    (.session a d) (session status none 1)).insert (.sessionByLink a c) d

/-- Account `a`'s invite `d`. -/
def invite (maxUses : Nat) (accepted : List Id) (h : 0 < maxUses := by decide) : InviteRecord :=
  ⟨d, a, c, a, .active, 1, 1, 90, maxUses, accepted, none, none, none, none, by decide, by decide,
  h⟩

/-- The store of account `a` with its keys, that invite and its pre-key. -/
def inviting (i : InviteRecord) : Store Nat :=
  (((∅ : Store Nat).insert (.identity a)
    (AccountKeys.toStored ⟨⟨a, a⟩, ⟨a, a⟩, a, some (bindingOf a 50)⟩)).insert (.invite
    a d) i).insert
    (.invitePreKey a d) []

theorem inviting_other {i : InviteRecord} {k : Key} (hid : k ≠ .identity a) (hinv : k ≠ .invite a d)
    (hpre : k ≠ .invitePreKey a d) : (inviting i).lookup k = none := by
  rw [inviting, AList.lookup_insert_ne hpre, AList.lookup_insert_ne hinv,
    AList.lookup_insert_ne hid]
  rfl

theorem adv_lt {x y : Nat} (h : Adv core x y) : x < y := by
  cases h with
  | sealed h =>
    simp only [core, answer, Except.ok.injEq, Prod.mk.injEq] at h
    omega
  | opened h ho =>
    simp only [core, answer] at h
    split at h <;> simp only [Except.ok.injEq, Prod.mk.injEq] at h
    · omega
    · rw [← h.1] at ho; cases ho

theorem codec : Codec core where
  forward x h := by
    have : ∀ y, Relation.TransGen (Adv core) x y → x < y := by
      intro y hy
      induction hy with
      | single h => exact adv_lt h
      | tail _ h ih => exact Nat.lt_trans ih (adv_lt h)
    exact Nat.lt_irrefl _ (this x h)
  still base pkt n o s h ho := by
    simp only [core, answer] at h
    split at h <;> simp only [Except.ok.injEq, Prod.mk.injEq] at h
    · rw [← h.1] at ho; cases ho
    · exact h.2.symm

/-! ## Ratchets with a peer -/

/-- The same, where a snapshot also names the peer its session was made
with. -/
def peerAnswer : (q : CoreCall (Id × Nat)) → Nat → Except Err q.Value
  | .encryptForPeer base _ m, _ => .ok (m, base.1, base.2 + 1)
  | .decryptIncoming base pkt, _ =>
    if pkt = [UInt8.ofNat base.2] then .ok (⟨true, some base.1, false, [7]⟩, base.1, base.2 + 1)
    else .ok (⟨true, none, false, []⟩, base)
  | .processAcceptedInvite i, n => .ok (handshakeFor a a a, i.peerId, 100 * n)
  | .completeInviteHandshake i, n => .ok (some d, i.peerId, 100 * n)
  | .verifyHandshakeEnvelope _, _ => .ok true
  | .verifyInviteSignature .., _ => .ok true
  | .verify .., _ => .ok true
  | .verifyAccountAuthority _, _ => .ok none
  | .sign .., _ => .ok a
  | .signHandshakeEnvelope .., _ => .ok "s"
  | .generateSigningKeyPair, _ => .ok ⟨a, a⟩
  | .dhGenerateKeyPair, _ => .ok ⟨a, a⟩
  | .dhDerive .., _ => .ok []
  | .sendHandshake .., _ => .ok none
  | .prepareInviteBinding _, n => .ok ([], [UInt8.ofNat n])
  | .authoritySigner owner, _ => .ok (some owner)
  | .authoritySign .., _ => .ok a
  | .verifyDurableRecordV2 .., _ => .ok (.ok a)
  | .hkdfSha256 .., _ => .ok (List.replicate 32 0)
  | .randomBytes length, _ => .ok (List.replicate length 0)
  | .aeadEncrypt _ _ plaintext _, _ => .ok plaintext
  | .aeadDecrypt .., _ => .ok []

def peerCore : Core (Id × Nat) where
  answer := peerAnswer
  parsePacket := core.parsePacket
  parseAck := core.parseAck
  parseReject := core.parseReject
  deriveAccountId k := some k
  isBase64 _ := true
  deviceIdFor k := k
  canonicalPayloadBytes _ := []
  tokenHash _ := c
  bindingPayload _ _ _ _ := []
  keyBytes _ := []
  localeLe _ _ := true
  requireIdError label := { message := label }
  base64Error := { message := "base64" }
  signedPreKeyPublic := core.signedPreKeyPublic
  hasSignedPreKeyPrivate _ := true
  preKeyWindow := List.flatten
  deviceSetVersion := 1
  deviceSetPurpose := "purpose"
  deviceSetRecordKind := "kind"
  deviceSetPublishCapability := "capability"
  deviceSetSignable _ := []
  prekeyBundleSignable _ := []
  durableSignable _ := []
  payloadText _ := ""
  innerBytes _ _ := []
  parsePayload := core.parsePayload
  parseInner := core.parseInner
  parseDeviceSet := core.parseDeviceSet
  parseBundle := core.parseBundle
  checkDeviceSet := core.checkDeviceSet
  checkBundle := core.checkBundle
  bytesToBase64 _ := ""
  bytesToHex _ := ""
  authorityHash := core.authorityHash

def peerSvc : Service (Id × Nat) := ⟨peerCore, false, true, false, none⟩

/-- `smooth` for this core. -/
def peerSmooth (n : Nat) : Op (Id × Nat) → Fate
  | .clock => .time 5
  | .runtimeUuid => .fresh (unary n)
  | .stableId _ => .fresh (unary n)
  | .core _ => .rand 0
  | _ => .ok

/-- Account `a`'s established link `c` to account `b` with its session `d`. -/
def peerLinked : Store (Id × Nat) :=
  ((((∅ : Store (Id × Nat)).insert (.peerLink a c) (link .sessionEstablished)).insert
  (.pair a b) c).insert
    (.session a d) ⟨d, c, a, b, none, .active, (b, 1), 1, 1, 1⟩).insert (.sessionByLink a c) d

/-! ## Device sets -/

/-- The counting core with a peer-scoped secret that is not empty. -/
def deviceCore : Core Nat :=
  { core with
    answer := fun
      | .dhDerive .., _ => .ok [1]
      | q, n => answer q n
    innerBytes := fun _ _ => [1] }

/-- Device `d` of account `a`, with inbox `c`. -/
def tablet : DeviceService Nat :=
  ⟨⟨deviceCore, false, true, false, none⟩, a, d, d, ⟨d, d⟩, some c, true, a, []⟩

/-- The store of account `a` with its keys and a link to account `b`. -/
def peered : Store Nat :=
  (((∅ : Store Nat).insert (.identity a)
    (AccountKeys.toStored ⟨⟨a, a⟩, ⟨a, a⟩, a, some (bindingOf a 50)⟩)).insert (.pair
    a b) c).insert (.peerLink a c)
    { link .sessionEstablished with
      remoteIdentityDhPublicKeyB64 := some b
      remoteAccountIdentityPublicKeyB64 := some b }

/-- A record with account `b`'s set of one device. -/
def sealedSet : DurableRecord := ⟨⟨2, "kind", "", "b", "s", [], "capability", "p", 1, 50⟩, "s"⟩

end RezSdk.L3.Counting
