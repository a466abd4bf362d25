import RezSdk.L3Service.DeviceLinkRequester

/-!
# The two sides of a device link

A `DeviceLinkApprover` and any number of `runDeviceLinkRequester` runs, in any
interleaving. They share no memory: what goes from one side to the other goes
through records that a node serves which nobody trusts, so every callback may
answer anything, except that the ceremony's cryptography is taken as ideal
(`approverHears`, `requesterHears`):

* a request that opens was built by a requester, with the device, the key and
  the inbox binding it opens to;
* a response that opens for a request was built by the approver for this
  request, with the bundle and the secrets it opens to, and it was released;
* a confirmation that verifies was built by a requester, of the same secrets;
* transcripts hash the fresh key of their builder, so no two requests and no
  two responses have the same.
-/
namespace RezSdk.L3.DeviceLink

open RezSdk.L1

/-! ## The approver, with its results -/

/-- A method call, and what `approve` resolves with. -/
def serve (cfg : Config) : Call → Linking (Option Approved)
  | .start => do
    let _ ← start cfg
    return none
  | .waitForRequest rounds => do
    let _ ← waitForRequest cfg rounds
    return none
  | .approve rounds => do
    let approved ← approve cfg rounds
    return some approved
  | .cancel => stretch .cancel fun _ s => (.ok none, s.terminate .cancelled)

def serving (cfg : Config) :
    System link Approver (ObjFate Input callbacks) Call (Except Err (Option Approved)) :=
  .ofObject .callbacks (serve cfg)

abbrev ServingState := Pool link Approver (ObjFate Input callbacks) Call
    (Except Err (Option Approved))

/-- Any interleaving, from a new instance. -/
def anyServing :
    Discipline link Approver (ObjFate Input callbacks) Call (Except Err (Option Approved)) where
  init s := s = .new
  may _ _ := True
  ok _ _ := True

/-! ## What goes from one side to the other -/

abbrev ApproverEvent := Event link (ObjFate Input callbacks)
abbrev RequesterEvent := Event requesting ((o : RequesterOp) → Option o.Ans)

/-- A request was built that opens to `opened`. -/
def requests (opened : OpenedRequest) : Proc.Exch requesting → Bool
  | ⟨.buildRequest a, .ok request⟩ =>
    request.thRequestB64 = opened.thRequestB64 && request.newDeviceId = opened.newDeviceId &&
      a.deviceKeyPair.publicKeyB64 = opened.linkRequest.newDevicePublicKeyB64 &&
      opened.linkRequest.deviceInboxBinding = some a.deviceInboxBinding
  | _ => false

/-- A response was built that opens to `opened` under `a`. -/
def responds (a : OpenArgs) (opened : OpenedResponse) : Proc.Exch link → Bool
  | ⟨.await (.buildResponse b), .ok response⟩ =>
    b.thRequestB64 = a.thRequestB64 && b.delegationBundle = opened.delegationBundle &&
      response.masterSecret = opened.masterSecret && response.thResponseB64 = opened.thResponseB64
  | _ => false

/-- A confirmation of these secrets was built. -/
def confirmsOf (masterSecret : Bytes) (thResponseB64 : String) : Proc.Exch requesting → Bool
  | ⟨.buildConfirm secret th, .ok _⟩ => secret = masterSecret && th = thResponseB64
  | _ => false

/-- The stretch calls `records.put`. -/
def releases : Proc.Exch link → Bool
  | ⟨.run _ g, (i, s)⟩ => (g i s).released ≠ s.released
  | _ => false

def hasThRequest (th : String) : Proc.Exch requesting → Bool
  | ⟨.buildRequest _, .ok request⟩ => request.thRequestB64 = th
  | _ => false

def hasThResponse (th : String) : Proc.Exch link → Bool
  | ⟨.await (.buildResponse _), .ok response⟩ => response.thResponseB64 = th
  | _ => false

/-- What the approver may hear, given the two logs. -/
def approverHears (own : List ApproverEvent) (other : List RequesterEvent) : Proc.Exch link → Bool
  | ⟨.await (.openRequest ..), .ok opened⟩ => other.any fun e => requests opened e.exch
  | ⟨.await (.verifyConfirm masterSecret th _), .ok true⟩ =>
    other.any fun e => confirmsOf masterSecret th e.exch
  | ⟨.await (.buildResponse _), .ok response⟩ =>
    own.all fun e => !hasThResponse response.thResponseB64 e.exch
  | _ => true

/-- What a requester may hear. -/
def requesterHears (other : List ApproverEvent) (own : List RequesterEvent) :
    Proc.Exch requesting → Bool
  | ⟨.openResponse a, .ok opened⟩ =>
    other.any fun e => responds a opened e.exch && other.any fun e' => e'.tid = e.tid &&
      releases e'.exch
  | ⟨.buildRequest _, .ok request⟩ => own.all fun e => !hasThRequest request.thRequestB64 e.exch
  | _ => true

/-- One approver beside any number of requesters. -/
def ceremony (cfg : Config) (lib : RequesterLib) :
    Parties link requesting Approver Unit (ObjFate Input callbacks) ((o : RequesterOp) →
      Option o.Ans) Call Options (Except Err (Option Approved)) (Except Err (Linked × Field)) where
  left := serving cfg
  right := requesters lib
  leftRule := anyServing
  rightRule := .asking
  leftOk s u e := approverHears s.log u.log e.exch = true
  rightOk s u e := requesterHears s.log u.log e.exch = true

end RezSdk.L3.DeviceLink
