import Mathlib.Data.List.Lex
import Mathlib.Data.List.Sort
import RezSdk.Core.OrderedMap
import RezSdk.L1Records.Json

/-!
# The IndexedDB storage provider (`IndexedDbStorageProvider.js`)

One object store holds the values of all owners. An owner's key-value store
puts the owner, percent-encoded, before its keys; the root store has the
partition `root`. With an encryption key every value is sealed under its
physical key before it is put. `null` is also what the provider reads where
nothing is stored.

The database is a map here and no request fails; the calls are made one after
the other. JSON texts, base64 and the AEAD are parameters (`Lib`).

* `partition_inj`: different owners have different partitions, but for the
  owner that is called `root`.
* `listKeys_within`: the keys with a prefix are those of any part that has them.
-/
namespace RezSdk.L2.IndexedDb

open RezSdk.L1

/-! ## Texts -/

/-- `new TextEncoder().encode(s)` -/
def utf8 (s : String) : Bytes := s.toByteArray.data.toList

def hexDigit (n : Nat) : Char := Char.ofNat (if n < 10 then 48 + n else 55 + n)

/-- Letters, digits and `- _ . ! ~ * ' ( )`. -/
def unreserved (b : UInt8) : Bool :=
  let n := b.toNat
  (65 ≤ n && n ≤ 90) || (97 ≤ n && n ≤ 122) || (48 ≤ n && n ≤ 57) ||
  [45, 95, 46, 33, 126, 42, 39, 40, 41].contains n

def encodeByte (b : UInt8) : List Char :=
  if unreserved b then [Char.ofNat b.toNat]
    else ['%', hexDigit (b.toNat / 16), hexDigit (b.toNat % 16)]

def encodeURIComponent (s : String) : String := .ofList ((utf8 s).flatMap encodeByte)

/-- The UTF-16 code units of a character. -/
def unitsOf (c : Char) : List Nat :=
  if c.toNat < 0x10000 then [c.toNat]
  else [0xD800 + (c.toNat - 0x10000) / 0x400, 0xDC00 + (c.toNat - 0x10000) % 0x400]

def utf16 (s : String) : List Nat := s.toList.flatMap unitsOf

/-- `s.startsWith(p)` -/
def startsWith (s p : String) : Bool := p.toList.isPrefixOf s.toList

/-! ## The provider -/

/-- What of the platform, of @rezprotocol/core and of the crypto provider the
stores use. -/
structure Lib where
  /-- `new TextEncoder().encode(JSON.stringify(value))` -/
  stringify : Json → Bytes
  /-- `JSON.parse(new TextDecoder().decode(bytes))` -/
  parse : Bytes → Except Err Json
  bytesToBase64 : Bytes → String
  base64ToBytes : String → Bytes
  /-- `toJSON()` of the record with this nonce and ciphertext -/
  recordJson (nonceB64 ciphertextB64 : String) : Json
  aeadEncrypt (key nonce plaintext aad : Bytes) : Bytes
  aeadDecrypt (key nonce ciphertext aad : Bytes) : Except Err Bytes

abbrev Db := List (String × Json)

def isNull : Json → Bool
  | .null => true
  | _ => false

section

variable (lib : Lib)

/-- mirrors src/storage/IndexedDbStorageProvider.js:26-29 -/
def cloneJson (value : Json) : Except Err Json :=
  if isNull value then .ok .null else lib.parse (lib.stringify value)

/-- mirrors src/storage/IndexedDbStorageProvider.js:88-100 -/
def providerGet (key : String) (db : Db) : Except Err Json :=
  cloneJson lib ((OMap.get key db).getD .null)

/-- mirrors src/storage/IndexedDbStorageProvider.js:102-115 -/
def providerPut (key : String) (value : Json) (db : Db) : Except Err Db :=
  (cloneJson lib value).map fun payload => OMap.set key payload db

/-- mirrors src/storage/IndexedDbStorageProvider.js:117-129 -/
def providerDel (key : String) (db : Db) : Db := OMap.delete key db

/-- mirrors src/storage/IndexedDbStorageProvider.js:131-145 -/
def listKeys (db : Db) : List String :=
  ((db.map Prod.fst).filter fun key => !key.isEmpty).mergeSort fun a b => utf16 a ≤ utf16 b

/-! ## The key-value stores -/

/-- mirrors src/storage/IndexedDbStorageProvider.js:12-24 -/
def encryptedValue (nonceB64 ciphertextB64 : String) : Except Err Json :=
  if nonceB64.isEmpty then .error { message := "nonceB64 is required" }
  else if ciphertextB64.isEmpty then .error { message := "ciphertextB64 is required" }
  else .ok (lib.recordJson nonceB64 ciphertextB64)

/-- mirrors src/storage/IndexedDbStorageProvider.js:240-255 -/
def encrypt (encryptionKey nonce : Bytes) (physicalKey : String) (value : Json) : Except Err Json :=
  let ciphertext := lib.aeadEncrypt encryptionKey nonce (lib.stringify value) (utf8 physicalKey)
  encryptedValue lib (lib.bytesToBase64 nonce) (lib.bytesToBase64 ciphertext)

/-- `String(stored && stored[key] || "")` of a text -/
def recordField (key : String) (stored : Json) : String :=
  (Json.text (Json.prop key (some stored))).getD ""

/-- mirrors src/storage/IndexedDbStorageProvider.js:257-275 -/
def decrypt (encryptionKey : Bytes) (physicalKey : String) (stored : Json) : Except Err Json := do
  let nonceB64 := recordField "nonceB64" stored
  let ciphertextB64 := recordField "ciphertextB64" stored
  match encryptedValue lib nonceB64 ciphertextB64 with
  | .error e =>
    throw { message := "IndexedDbStorageProvider encrypted value is malformed: " ++ e.message }
  | .ok _ =>
    let plaintext ← lib.aeadDecrypt encryptionKey (lib.base64ToBytes nonceB64)
      (lib.base64ToBytes ciphertextB64) (utf8 physicalKey)
    lib.parse plaintext

inductive Op
  | set (key : String) (value : Json)
  | get (key : String)
  | delete (key : String)
  | keys (start : String)

inductive Result
  | done
  /-- absent when it is `undefined` -/
  | value (v : Option Json)
  | existed (b : Bool)
  | keys (ks : List String)

/-- One operation of the store with this prefix; `nonce` is what
`randomBytes(12)` would give.
mirrors src/storage/IndexedDbStorageProvider.js:205-238 -/
def storeOp (encryptionKey : Option Bytes) (nonce : Bytes) (pre : String) (op : Op) (db : Db) :
    Except Err (Result × Db) :=
  match op with
  | .set key value => do
    let stored ← match encryptionKey with
      | some k => encrypt lib k nonce (pre ++ key) value
      | none => .ok value
    let db' ← providerPut lib (pre ++ key) stored db
    return (.done, db')
  | .get key => do
    let stored ← providerGet lib (pre ++ key) db
    if isNull stored then return (.value none, db)
    match encryptionKey with
    | none => return (.value (some stored), db)
    | some k =>
      let v ← decrypt lib k (pre ++ key) stored
      return (.value (some v), db)
  | .delete key => do
    let stored ← providerGet lib (pre ++ key) db
    return (.existed (!isNull stored), providerDel (pre ++ key) db)
  | .keys start =>
    .ok (.keys (((listKeys db).filter fun key => startsWith key (pre ++ start)).map fun key =>
      .ofList (key.toList.drop pre.length)), db)

/-! ## Owners -/

/-- mirrors src/storage/IndexedDbStorageProvider.js:161 -/
def ownerOf : Option String → String
  | none => ""
  | some owner => trim owner

/-- mirrors src/storage/IndexedDbStorageProvider.js:162 -/
def cacheKey (owner : String) : String := if owner.isEmpty then "<root>" else owner

/-- mirrors src/storage/IndexedDbStorageProvider.js:199 -/
def partition (owner : String) : String :=
  if owner.isEmpty then "root" else encodeURIComponent owner

/-- mirrors src/storage/IndexedDbStorageProvider.js:200 -/
def prefixOf (owner : String) : String := "kv/" ++ partition owner ++ "/"

structure Provider where
  db : Db
  /-- the stores handed out, by cache key: their prefixes -/
  stores : List (String × String)

def Provider.new : Provider := ⟨[], []⟩

/-- The prefix of the owner's store, and the provider with that store.
mirrors src/storage/IndexedDbStorageProvider.js:160-174 -/
def getKeyValueStore (owner : String) (p : Provider) : String × Provider :=
  match OMap.get (cacheKey owner) p.stores with
  | some pre => (pre, p)
  | none =>
    (prefixOf owner, { p with stores := OMap.set (cacheKey owner) (prefixOf owner) p.stores })

/-- A call of an operation on the store of an owner. -/
structure Call where
  ownerAccountId : Option String
  op : Op
  nonce : Bytes

def Call.owner (c : Call) : String := ownerOf c.ownerAccountId

/-- One call; a call that fails leaves the database as it was. -/
def call (encryptionKey : Option Bytes) (p : Provider) (c : Call) : Except Err Result × Provider :=
  let (pre, p') := getKeyValueStore c.owner p
  match storeOp lib encryptionKey c.nonce pre c.op p'.db with
  | .ok (result, db) => (.ok result, { p' with db })
  | .error e => (.error e, p')

/-- The results, call by call. -/
def results (encryptionKey : Option Bytes) : Provider → List Call → List (Except Err Result)
  | _, [] => []
  | p, c :: cs =>
    let (r, p') := call lib encryptionKey p c
    r :: results encryptionKey p' cs

end

/-! ## Partitions -/

theorem toNat_ofNat_byte : ∀ n < 256, (Char.ofNat n).toNat = n := by decide +kernel

theorem hexDigit_inj : ∀ n < 16, ∀ m < 16, hexDigit n = hexDigit m → n = m := by decide

theorem percent_reserved : ∀ n < 256, unreserved (UInt8.ofNat n) = true → Char.ofNat n ≠ '%' := by
  decide +kernel

theorem slash_free : ∀ n < 256, '/' ∉ encodeByte (UInt8.ofNat n) := by decide +kernel

theorem encodeByte_append {b b' : UInt8} {l l' : List Char}
    (h : encodeByte b ++ l = encodeByte b' ++ l') : b = b' ∧ l = l' := by
  have hlt := b.toNat_lt
  have hlt' := b'.toNat_lt
  have hpercent := percent_reserved b.toNat hlt
  have hpercent' := percent_reserved b'.toNat hlt'
  rw [UInt8.ofNat_toNat] at hpercent hpercent'
  unfold encodeByte at h
  split at h <;> split at h
  · obtain ⟨hc, hl⟩ := List.cons.inj h
    have hn := congrArg Char.toNat hc
    rw [toNat_ofNat_byte _ hlt, toNat_ofNat_byte _ hlt'] at hn
    exact ⟨UInt8.toNat_inj.mp hn, hl⟩
  · exact absurd (List.cons.inj h).1 (hpercent ‹_›)
  · exact absurd (List.cons.inj h).1.symm (hpercent' ‹_›)
  · obtain ⟨-, h⟩ := List.cons.inj h
    obtain ⟨hhi, h⟩ := List.cons.inj h
    obtain ⟨hlo, hl⟩ := List.cons.inj h
    have hdiv := hexDigit_inj _ (by omega) _ (by omega) hhi
    have hmod := hexDigit_inj _ (by omega) _ (by omega) hlo
    exact ⟨UInt8.toNat_inj.mp (by omega), hl⟩

theorem encodeBytes_inj :
    ∀ {bs bs' : Bytes}, bs.flatMap encodeByte = bs'.flatMap encodeByte → bs = bs'
  | [], [], _ => rfl
  | [], b :: bs, h => by
    rw [List.flatMap_cons] at h
    unfold encodeByte at h
    split at h <;> cases h
  | b :: bs, [], h => by
    rw [List.flatMap_cons] at h
    unfold encodeByte at h
    split at h <;> cases h
  | b :: bs, b' :: bs', h => by
    rw [List.flatMap_cons, List.flatMap_cons] at h
    obtain ⟨rfl, hrest⟩ := encodeByte_append h
    rw [encodeBytes_inj hrest]

theorem utf8_inj {s s' : String} (h : utf8 s = utf8 s') : s = s' := by
  refine String.toByteArray_inj.mp (ByteArray.ext (Array.ext' h))

theorem encodeURIComponent_inj {s s' : String} (h : encodeURIComponent s = encodeURIComponent s') :
    s = s' :=
  utf8_inj (encodeBytes_inj (String.ofList_injective h))

theorem encodeURIComponent_root : encodeURIComponent "root" = "root" := by decide +kernel

theorem slash_encodeURIComponent (s : String) : '/' ∉ (encodeURIComponent s).toList := by
  unfold encodeURIComponent
  rw [String.toList_ofList, List.mem_flatMap]
  rintro ⟨b, -, hb⟩
  have hfree := slash_free b.toNat b.toNat_lt
  rw [UInt8.ofNat_toNat] at hfree
  exact hfree hb

theorem slash_partition (owner : String) : '/' ∉ (partition owner).toList := by
  unfold partition
  split
  · decide
  · exact slash_encodeURIComponent owner

/-- Different owners have different partitions, but for the root store's. -/
theorem partition_inj {o o' : String} (h : partition o = partition o') :
    o = o' ∨ (o = "" ∨ o = "root") ∧ (o' = "" ∨ o' = "root") := by
  have hroot {s : String} (hs : encodeURIComponent s = "root") : s = "root" :=
    encodeURIComponent_inj (hs.trans encodeURIComponent_root.symm)
  unfold partition at h
  split at h <;> split at h
  · rename_i ho ho'
    exact .inl ((String.isEmpty_iff.mp ho).trans (String.isEmpty_iff.mp ho').symm)
  · rename_i ho _
    exact .inr ⟨.inl (String.isEmpty_iff.mp ho), .inr (hroot h.symm)⟩
  · rename_i _ ho'
    exact .inr ⟨.inr (hroot h), .inl (String.isEmpty_iff.mp ho')⟩
  · exact .inl (encodeURIComponent_inj h)

/-- A key of the store of `o'` begins with the prefix of `o` only if both have
the same partition. -/
theorem partition_of_startsWith {o o' key : String}
    (h : startsWith (prefixOf o' ++ key) (prefixOf o) = true) : partition o = partition o' := by
  unfold startsWith prefixOf at h
  rw [List.isPrefixOf_iff_prefix] at h
  obtain ⟨rest, hrest⟩ := h
  simp only [String.toList_append] at hrest
  have hcut {a : List Char} (ha : '/' ∉ a) (l : List Char) :
      (a ++ '/' :: l).takeWhile (· ≠ '/') = a := by
    rw [List.takeWhile_append_of_pos]
    · simp
    · intro c hc
      have : c ≠ '/' := by
        rintro rfl
        exact ha hc
      simpa using this
  have h₁ := hcut (slash_partition o) rest
  have h₂ := hcut (slash_partition o') key.toList
  refine String.toList_inj.mp (h₁.symm.trans (Eq.trans ?_ h₂))
  congr 1
  simpa using hrest

theorem startsWith_append (pre key : String) : startsWith (pre ++ key) pre = true := by
  unfold startsWith
  rw [List.isPrefixOf_iff_prefix, String.toList_append]
  exact List.prefix_append ..

/-! ## Sorted keys -/

theorem unitsOf_append {c c' : Char} {l l' : List Nat} (h : unitsOf c ++ l = unitsOf c' ++ l') :
    c = c' ∧ l = l' := by
  have hvalid (c : Char) : c.toNat < 0xD800 ∨ 0xDFFF < c.toNat ∧ c.toNat < 0x110000 := c.valid
  have hc := hvalid c
  have hc' := hvalid c'
  have hinj (hn : c.toNat = c'.toNat) : c = c' := Char.toNat_inj.mp hn
  unfold unitsOf at h
  split at h <;> split at h
  · obtain ⟨hn, hl⟩ := List.cons.inj h
    exact ⟨hinj hn, hl⟩
  · -- a surrogate is no character
    have hn := (List.cons.inj h).1
    omega
  · have hn := (List.cons.inj h).1
    omega
  · obtain ⟨hhi, h⟩ := List.cons.inj h
    obtain ⟨hlo, hl⟩ := List.cons.inj h
    exact ⟨hinj (by omega), hl⟩

theorem units_inj : ∀ {cs cs' : List Char}, cs.flatMap unitsOf = cs'.flatMap unitsOf → cs = cs'
  | [], [], _ => rfl
  | [], c :: cs, h => by
    rw [List.flatMap_cons] at h
    unfold unitsOf at h
    split at h <;> cases h
  | c :: cs, [], h => by
    rw [List.flatMap_cons] at h
    unfold unitsOf at h
    split at h <;> cases h
  | c :: cs, c' :: cs', h => by
    rw [List.flatMap_cons, List.flatMap_cons] at h
    obtain ⟨rfl, hrest⟩ := unitsOf_append h
    rw [units_inj hrest]

theorem utf16_inj {s s' : String} (h : utf16 s = utf16 s') : s = s' :=
  String.toList_inj.mp (units_inj h)

theorem pairwise_listKeys (db : Db) :
    (listKeys db).Pairwise fun a b => (decide (utf16 a ≤ utf16 b)) = true := by
  refine List.pairwise_mergeSort (fun a b c hab hbc => ?_) (fun a b => ?_) _
  · rw [decide_eq_true_iff] at hab hbc ⊢
    exact le_trans hab hbc
  · rw [Bool.or_eq_true, decide_eq_true_iff, decide_eq_true_iff]
    exact le_total _ _

/-- Keys that begin with a text, of the whole database and of a part that has
them all. -/
theorem listKeys_within {p : String → Bool} (db : Db) {start : String}
    (h : ∀ key, startsWith key start = true → p key = true) :
    (listKeys (OMap.within p db)).filter (fun key => startsWith key start) =
      (listKeys db).filter fun key => startsWith key start := by
  refine List.Perm.eq_of_pairwise (fun a b _ _ hab hba => ?_) ((pairwise_listKeys _).filter _)
    ((pairwise_listKeys _).filter _) ?_
  · rw [decide_eq_true_iff] at hab hba
    exact utf16_inj (le_antisymm hab hba)
  · unfold listKeys
    refine ((List.mergeSort_perm _ _).filter _).trans
      (.trans ?_ ((List.mergeSort_perm _ _).filter _).symm)
    unfold OMap.within
    rw [List.filter_filter, List.filter_filter, List.filter_map, List.filter_map,
      List.filter_filter]
    refine List.Perm.of_eq (congrArg _ (List.filter_congr fun e _ => ?_))
    dsimp only [Function.comp]
    cases hs : startsWith e.1 start with
    | false => rfl
    | true => rw [h e.1 hs, Bool.and_true]

end RezSdk.L2.IndexedDb
