import RezSdk.L1Records.JsonText
import RezSdk.L2Storage.IndexedDb

/-!
# Canonical bytes of an invite (`inviteCodeV1.js`)

An invite is signed over `canonicalPayloadBytesV1` of its envelope: the text of
the envelope with the keys of every object sorted by code units. The sorted
object is made by assignments `out[key] = value` on an object literal, where
`__proto__` names an accessor of `Object.prototype`: assigning to it makes no
property, and a prototype is not written.
-/
namespace RezSdk.L3.InviteCodeV1

open RezSdk.L1 RezSdk.L1.JsonText

/-- `__proto__` -/
def protoKey : Str := [95, 95, 112, 114, 111, 116, 111, 95, 95]

section

variable {β : Type}

/-- `.sort()` of the keys -/
def sortKeys (fields : List (Str × β)) : List (Str × β) :=
  fields.mergeSort fun f g => f.1.map UInt16.toNat ≤ g.1.map UInt16.toNat

/-- `out[key] = value` -/
def assign (out : List (Str × β)) (f : Str × β) : List (Str × β) :=
  if f.1 = protoKey then out else OMap.set f.1 f.2 out

/-- The assignments to `out`, in the order of the sorted keys. -/
def sorted (fields : List (Str × β)) : List (Str × β) :=
  (sortKeys (propertyOrder fields)).foldl assign []

end

mutual

/-- mirrors src/peer-link/inviteCodeV1.js:5-13 -/
def stableNormalize : Value → Value
  | .arr xs => .arr (normalizeItems xs)
  | .obj fields => .obj (sorted (normalizeFields fields))
  | v => v

def normalizeItems : List Value → List Value
  | [] => []
  | x :: xs => stableNormalize x :: normalizeItems xs

def normalizeFields : List (Str × Value) → List (Str × Value)
  | [] => []
  | (k, v) :: fields => (k, stableNormalize v) :: normalizeFields fields

end

/-- mirrors src/peer-link/inviteCodeV1.js:15-17 -/
def canonicalPayloadBytesV1 (value : Value) : Bytes :=
  L2.IndexedDb.utf8 (.ofList (stringify (stableNormalize value)))

end RezSdk.L3.InviteCodeV1
