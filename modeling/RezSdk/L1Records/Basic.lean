import Mathlib.Data.List.Basic

/-!
# Ids, byte strings and errors

`Id` is a string that is equal to its own trim and not empty: what `requireId`
and `nonEmpty` let through, and what every store asserts of its arguments
(createKeyValueBackedPeerLinkStorage.js, `assertNonEmptyString`). `Err` is a
JavaScript error as the service throws it: message, optional code, and the
extra fields the decrypt errors carry.
-/
namespace RezSdk.L1

abbrev Bytes := List UInt8

/-- White space and line terminators, the characters `String.prototype.trim`
removes. -/
def isSpace (c : Char) : Bool :=
  let n := c.toNat
  (9 ≤ n && n ≤ 13) || n == 32 || n == 160 || n == 0x1680 || (0x2000 ≤ n && n ≤ 0x200A) ||
    n == 0x2028 || n == 0x2029 || n == 0x202F || n == 0x205F || n == 0x3000 || n == 0xFEFF

def trim (s : String) : String :=
  .ofList (((s.toList.dropWhile isSpace).reverse.dropWhile isSpace).reverse)

/-- Not empty, and no white space at either end. -/
def isId (s : String) : Bool :=
  match s.toList with
  | [] => false
  | c :: cs => !isSpace c && !isSpace ((c :: cs).getLast (List.cons_ne_nil c cs))

structure Id where
  val : String
  ok : isId val = true
deriving DecidableEq

/-- The trimmed string, or nothing when it is blank (`nonEmpty` of
@rezprotocol/core). -/
def nonEmpty (s : String) : Option Id :=
  if h : isId (trim s) = true then some ⟨trim s, h⟩ else none

/-- `asPositiveInt(value, fallback)` on a natural number.
mirrors src/peer-link/PeerLinkService.js:115-121 -/
def asPositiveInt (value fallback : Nat) : Nat := if value < 1 then fallback else value

/-- A record's version, 1 when it has none.
mirrors src/peer-link/createKeyValueBackedPeerLinkStorage.js:22-28 (`normalizeVersion`) -/
def normalizeVersion (version : Nat) : Nat := if 0 < version then version else 1

/-- A storage rejection. Its text is not blank, so it is a valid message of a
`PeerLinkCommitErrorV1`. -/
structure Fault where
  text : String
  ok : isId text = true
deriving DecidableEq

/-- One entry of `recoveryCandidates`. -/
structure RecoveryCandidate where
  peerAccountId : Id
  peerLinkId : Id
  consecutiveMisses : Nat
  rehandshakeNeeded : Bool
deriving DecidableEq

/-- The extra fields of an error. -/
inductive ErrInfo
  | none
  | decryptFailed (peerAccountId peerLinkId : Id) (consecutiveFailures : Nat)
      (rehandshakeNeeded : Bool)
  | recoveryCandidates (cs : List RecoveryCandidate)
  | staleRevision (revision knownRevision : Nat)
  | conflictingRevision (revision : Nat)
deriving DecidableEq

structure Err where
  message : String
  code : Option String := Option.none
  info : ErrInfo := .none
deriving DecidableEq

def Err.fault (f : Fault) : Err := { message := f.text }

/-- An error with a code. -/
def Err.coded (code message : String) : Err := { message, code := some code }

end RezSdk.L1
