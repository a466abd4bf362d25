import RezSdk.L2Storage.IndexedDb

/-!
# Encrypted and plaintext stores, and the stores of different owners

An encrypted provider should answer every call like a plaintext one, and no
owner should notice another. Both fail at an edge: a stored `null` is taken for
an absent value, but only where it is not sealed; and the root store shares its
partition with the owner `root` and its place in the cache with the owner
`<root>`.

* `stores_iff`: the two providers give the same results on a sequence of calls,
  and two owners do not notice each other, exactly when no stored `null` is read
  or deleted and not both owners are among these three.
* `null_differs`: the edges.
-/
namespace RezSdk.L4.OwnerStores

open RezSdk.L1 RezSdk.L2.IndexedDb

/-! ## The property -/

/-- What is assumed of the library. -/
structure Lawful (lib : Lib) : Prop where
  base64 : ∀ b, lib.base64ToBytes (lib.bytesToBase64 b) = b
  base64_ne : ∀ b, b ≠ [] → (lib.bytesToBase64 b).isEmpty = false
  aead : ∀ key nonce plaintext aad, lib.aeadDecrypt key nonce
    (lib.aeadEncrypt key nonce plaintext aad) aad = .ok plaintext
  aead_ne : ∀ key nonce plaintext aad, lib.aeadEncrypt key nonce plaintext aad ≠ []
  nonceB64 : ∀ n c, Json.prop "nonceB64" (some (lib.recordJson n c)) = some (.str n)
  ciphertextB64 : ∀ n c, Json.prop "ciphertextB64" (some (lib.recordJson n c)) = some (.str c)
  /-- records are JSON -/
  record :
    ∀ n c, lib.parse (lib.stringify (lib.recordJson (lib.bytesToBase64 n) (lib.bytesToBase64 c))) =
    .ok (lib.recordJson (lib.bytesToBase64 n) (lib.bytesToBase64 c))

/-- A JSON value: its text gives it back. -/
def IsJson (lib : Lib) (v : Json) : Prop := lib.parse (lib.stringify v) = .ok v

/-- A JSON value is set, under 12 random bytes. -/
def Valid (lib : Lib) (c : Call) : Prop := c.nonce.length = 12 ∧ ∀ key v, c.op = .set key v →
    IsJson lib v

/-- The results of the calls whose owner is `o`. -/
def observed (o : String) (calls : List Call) (rs : List (Except Err Result)) :
    List (Except Err Result) :=
  ((calls.zip rs).filter fun x => x.1.owner = o).map Prod.snd

/-- What the calls for `o` give does not depend on the calls for `o'`. -/
def Unnoticed (lib : Lib) (encryptionKey : Option Bytes) (o o' : String) : Prop := ∀ calls,
  observed o calls (results lib encryptionKey .new calls) =
    observed o (calls.filter fun c => c.owner ≠ o')
      (results lib encryptionKey .new (calls.filter fun c => c.owner ≠ o'))

/-- The root store, and the owners it is mixed up with. -/
def Rooted (o : String) : Prop := o = "" ∨ o = "root" ∨ o = "<root>"

/-- The call reads or deletes a stored `null`. -/
def ReadsNull (p : Provider) (c : Call) : Prop := ∃ key, (c.op = .get key ∨ c.op = .delete key) ∧
  OMap.get ((getKeyValueStore c.owner p).1 ++ key) p.db = some .null

/-- No call of the sequence reads or deletes a `null` that is stored when it is
made. -/
def NullFree (lib : Lib) : Provider → List Call → Prop
  | _, [] => True
  | p, c :: cs => ¬ ReadsNull p c ∧ NullFree lib (call lib none p c).2 cs

/-! ## Encrypted and plaintext -/

variable {lib : Lib}

/-- What the encrypted provider stores for `v`. -/
structure Seals (lib : Lib) (encryptionKey : Bytes) (key : String) (v stored : Json) : Prop where
  json : IsJson lib v
  record : lib.parse (lib.stringify stored) = .ok stored
  notNull : isNull stored = false
  opens : decrypt lib encryptionKey key stored = .ok v

/-- The two databases hold the same keys, in the same order. -/
inductive Same (lib : Lib) (encryptionKey : Bytes) : Db → Db → Prop
  | nil : Same lib encryptionKey [] []
  | cons {key : String} {v stored : Json} {db db' : Db} (h : Seals lib encryptionKey key v stored)
    (hrest : Same lib encryptionKey db db') :
    Same lib encryptionKey ((key, v) :: db) ((key, stored) :: db')

section

variable {encryptionKey : Bytes} {db db' : Db}

theorem Same.keys (h : Same lib encryptionKey db db') : db.map Prod.fst = db'.map Prod.fst := by
  induction h with
  | nil => rfl
  | cons _ _ ih => rw [List.map_cons, List.map_cons, ih]

theorem Same.sorted (h : Same lib encryptionKey db db') : listKeys db = listKeys db' := by
  unfold listKeys
  rw [h.keys]

theorem Same.get (h : Same lib encryptionKey db db') (key : String) :
    (OMap.get key db = none ∧ OMap.get key db' = none) ∨
    ∃ v stored, OMap.get key db = some v ∧ OMap.get key db' = some stored ∧
      Seals lib encryptionKey key v stored := by
  induction h with
  | nil => exact .inl ⟨rfl, rfl⟩
  | @cons key' v stored db db' hseals _ ih =>
    rw [OMap.get_cons, OMap.get_cons]
    by_cases hk : key' = key
    · subst hk
      rw [if_pos rfl, if_pos rfl]
      exact .inr ⟨v, stored, rfl, rfl, hseals⟩
    · rw [if_neg hk, if_neg hk]
      exact ih

theorem Same.set (h : Same lib encryptionKey db db') {key : String} {v stored : Json}
    (hs : Seals lib encryptionKey key v stored) :
    Same lib encryptionKey (OMap.set key v db) (OMap.set key stored db') := by
  induction h with
  | nil => exact .cons hs .nil
  | @cons key' v' stored' db db' hseals hrest ih =>
    rw [OMap.set_cons, OMap.set_cons]
    by_cases hk : key' = key
    · rw [if_pos hk, if_pos hk]
      exact .cons hs hrest
    · rw [if_neg hk, if_neg hk]
      exact .cons hseals ih

theorem Same.delete (h : Same lib encryptionKey db db') (key : String) :
    Same lib encryptionKey (OMap.delete key db) (OMap.delete key db') := by
  unfold OMap.delete
  induction h with
  | nil => exact .nil
  | @cons key' v stored db db' hseals _ ih =>
    rw [List.filter_cons, List.filter_cons]
    dsimp only
    split
    · exact .cons hseals ih
    · exact ih

end

theorem cloneJson_of_isJson {v : Json} (h : IsJson lib v) : cloneJson lib v = .ok v := by
  unfold cloneJson
  split
  · cases v <;> first | rfl | cases ‹isNull _ = true›
  · exact h

theorem encrypt_seals (hlib : Lawful lib) (encryptionKey : Bytes) (key : String) {nonce : Bytes}
    {v : Json} (hv : IsJson lib v) (hnonce : nonce.length = 12) :
    ∃ stored, encrypt lib encryptionKey nonce key v = .ok stored ∧
      Seals lib encryptionKey key v stored := by
  have hn : (lib.bytesToBase64 nonce).isEmpty = false := by
    refine hlib.base64_ne _ ?_
    rintro rfl
    cases hnonce
  have hc := hlib.base64_ne _ (hlib.aead_ne encryptionKey nonce (lib.stringify v) (utf8 key))
  have hrecord : ∀ n c, n.isEmpty = false → c.isEmpty = false →
      encryptedValue lib n c = .ok (lib.recordJson n c) := by
    intro n c hn hc
    unfold encryptedValue
    rw [hn, hc]
    rfl
  refine ⟨_, hrecord _ _ hn hc, hv, hlib.record _ _, ?_, ?_⟩
  · -- a record has fields
    have hfield := hlib.nonceB64 (lib.bytesToBase64 nonce)
        (lib.bytesToBase64 (lib.aeadEncrypt encryptionKey nonce (lib.stringify v) (utf8 key)))
    revert hfield
    generalize lib.recordJson _ _ = r
    intro hfield
    cases r <;> first | rfl | cases hfield
  · unfold decrypt recordField
    rw [hlib.nonceB64, hlib.ciphertextB64]
    dsimp only [Json.text, Option.getD_some]
    rw [hrecord _ _ hn hc]
    dsimp only
    rw [hlib.base64, hlib.base64, hlib.aead]
    exact hv

section

variable {encryptionKey nonce : Bytes} {db db' : Db}

/-- The stored value that the operation reads. -/
def reads (pre : String) (db : Db) : Op → Option Json
  | .get key | .delete key => OMap.get (pre ++ key) db
  | _ => none

theorem isNull_iff {v : Json} : isNull v = true ↔ v = .null := by
  cases v <;> simp [isNull]

/-- What the two providers read under a key. -/
theorem Same.read (hsame : Same lib encryptionKey db db') (key : String) :
    (OMap.get key db = none ∧ providerGet lib key db = .ok .null ∧
      providerGet lib key db' = .ok .null) ∨
    ∃ v stored, OMap.get key db = some v ∧ providerGet lib key db = .ok v ∧
      providerGet lib key db' = .ok stored ∧ Seals lib encryptionKey key v stored := by
  unfold providerGet
  rcases hsame.get key with ⟨hnone, hnone'⟩ | ⟨v, stored, hv, hstored, hseals⟩
  · rw [hnone, hnone']
    exact .inl ⟨rfl, rfl, rfl⟩
  · rw [hv, hstored, Option.getD_some, Option.getD_some]
    exact .inr ⟨v, stored, rfl, cloneJson_of_isJson hseals.json, cloneJson_of_isJson hseals.record,
      hseals⟩

theorem eq_iff_not_null {v : Json} {r r' : Result} (hnull : isNull v = true → r' ≠ r)
    (hother : isNull v = false → r' = r) : r' = r ↔ some v ≠ some .null := by
  cases h : isNull v with
  | true =>
    exact ⟨fun heq => absurd heq (hnull h), fun hne => absurd (congrArg some (isNull_iff.mp h)) hne⟩
  | false =>
    refine ⟨fun _ heq => ?_, fun _ => hother h⟩
    cases heq
    cases h

/-- Both providers carry the operation out; the results differ exactly when a
stored `null` is read. -/
theorem Same.op (hlib : Lawful lib) (hsame : Same lib encryptionKey db db') (pre : String)
    (hnonce : nonce.length = 12) {op : Op} (hop : ∀ key v, op = .set key v → IsJson lib v) :
    ∃ r r' d d', storeOp lib none nonce pre op db = .ok (r, d) ∧
      storeOp lib (some encryptionKey) nonce pre op db' = .ok (r', d') ∧
      Same lib encryptionKey d d' ∧ (r' = r ↔ reads pre db op ≠ some .null) := by
  cases op with
  | set key v =>
    have hv := hop key v rfl
    obtain ⟨stored, hencrypt, hseals⟩ := encrypt_seals hlib encryptionKey (pre ++ key) hv hnonce
    refine ⟨.done, .done, _, _, ?_, ?_, hsame.set hseals, fun _ => nofun, fun _ => rfl⟩
    · change (Except.map _ (cloneJson lib v)).bind _ = _
      rw [cloneJson_of_isJson hv]
      rfl
    · change (encrypt lib encryptionKey nonce (pre ++ key) v).bind _ = _
      rw [hencrypt]
      change (Except.map _ (cloneJson lib stored)).bind _ = _
      rw [cloneJson_of_isJson hseals.record]
      rfl
  | get key =>
    have hplain {v : Json} (h : providerGet lib (pre ++ key) db = .ok v) :
        storeOp lib none nonce pre (.get key) db = .ok (.value (if isNull v then none else some v),
          db) := by
      change (providerGet lib (pre ++ key) db).bind _ = _
      rw [h]
      change (if isNull v then _ else _) = _
      cases isNull v <;> rfl
    rcases hsame.read (pre ++ key) with ⟨hnone, hread, hread'⟩ | ⟨v, stored,
      hv, hread, hread', hseals⟩
    · have hsealed : storeOp lib (some encryptionKey) nonce pre (.get key) db' = .ok (.value none,
          db') := by
        change (providerGet lib (pre ++ key) db').bind _ = _
        rw [hread']
        rfl
      refine ⟨_, _, _, _, hplain hread, hsealed, hsame, fun _ => ?_, fun _ => rfl⟩
      dsimp only [reads]
      rw [hnone]
      nofun
    · have hsealed : storeOp lib (some encryptionKey) nonce pre (.get key) db' =
          .ok (.value (some v), db') := by
        change (providerGet lib (pre ++ key) db').bind _ = _
        rw [hread']
        change (if isNull stored then _ else _) = _
        rw [hseals.notNull]
        change (decrypt lib encryptionKey (pre ++ key) stored).bind _ = _
        rw [hseals.opens]
        rfl
      refine ⟨_, _, _, _, hplain hread, hsealed, hsame, ?_⟩
      dsimp only [reads]
      rw [hv]
      refine eq_iff_not_null (fun hnull h => ?_) fun hother => ?_
      · rw [hnull] at h
        cases h
      · rw [hother]
        rfl
  | delete key =>
    have hdelete {encryptionKey : Option Bytes} {db : Db} {v : Json}
        (h : providerGet lib (pre ++ key) db = .ok v) :
        storeOp lib encryptionKey nonce pre (.delete key) db = .ok (.existed (!isNull v),
          OMap.delete (pre ++ key) db) := by
      change (providerGet lib (pre ++ key) db).bind _ = _
      rw [h]
      rfl
    rcases hsame.read (pre ++ key) with ⟨hnone, hread, hread'⟩ | ⟨v, stored,
      hv, hread, hread', hseals⟩
    · refine ⟨_, _, _, _, hdelete hread, hdelete hread', hsame.delete _, fun _ => ?_, fun _ => rfl⟩
      dsimp only [reads]
      rw [hnone]
      nofun
    · refine ⟨_, _, _, _, hdelete hread, hdelete hread', hsame.delete _, ?_⟩
      dsimp only [reads]
      rw [hv, hseals.notNull]
      refine eq_iff_not_null (fun hnull h => ?_) fun hother => ?_
      · rw [hnull] at h
        cases h
      · rw [hother]
  | keys start =>
    refine ⟨_, _, db, db', rfl, rfl, hsame, fun _ => nofun, fun _ => ?_⟩
    rw [hsame.sorted]

end

/-- The two providers stand alike. -/
structure Alike (lib : Lib) (encryptionKey : Bytes) (p p' : Provider) : Prop where
  db : Same lib encryptionKey p.db p'.db
  stores : p.stores = p'.stores

theorem getKeyValueStore_db (o : String) (p : Provider) : (getKeyValueStore o p).2.db = p.db := by
  unfold getKeyValueStore
  split <;> rfl

theorem readsNull_iff {p : Provider} {c : Call} :
    ReadsNull p c ↔ reads (getKeyValueStore c.owner p).1 p.db c.op = some .null := by
  unfold ReadsNull reads
  cases c.op <;> simp

theorem call_ok {key : Option Bytes} {p : Provider} {c : Call} {r : Result} {d : Db}
    (h : storeOp lib key c.nonce (getKeyValueStore c.owner p).1 c.op
        (getKeyValueStore c.owner p).2.db =
        .ok (r, d)) :
    call lib key p c = (.ok r, { (getKeyValueStore c.owner p).2 with db := d }) := by
  unfold call
  dsimp only
  rw [h]

/-- One call. -/
theorem Alike.step {encryptionKey : Bytes} {p p' : Provider} (hlib : Lawful lib)
    (h : Alike lib encryptionKey p p') {c : Call} (hc : Valid lib c) :
    Alike lib encryptionKey (call lib none p c).2 (call lib (some encryptionKey) p' c).2 ∧
    ((call lib (some encryptionKey) p' c).1 = (call lib none p c).1 ↔ ¬ ReadsNull p c) := by
  have hpre : (getKeyValueStore c.owner p').1 = (getKeyValueStore c.owner p).1 := by
    unfold getKeyValueStore
    rw [h.stores]
    split <;> rfl
  have hstores :
      (getKeyValueStore c.owner p).2.stores = (getKeyValueStore c.owner p').2.stores := by
    unfold getKeyValueStore
    rw [h.stores]
    split
    · exact h.stores
    · rfl
  have hdb : Same lib encryptionKey (getKeyValueStore c.owner p).2.db
      (getKeyValueStore c.owner p').2.db := by
    rw [getKeyValueStore_db, getKeyValueStore_db]
    exact h.db
  obtain ⟨r, r', d, d', hplain, hsealed, hsame, hiff⟩ :=
    hdb.op hlib (getKeyValueStore c.owner p).1 hc.1 hc.2
  rw [readsNull_iff]
  rw [getKeyValueStore_db] at hiff
  rw [call_ok hplain, call_ok (hpre ▸ hsealed)]
  refine ⟨⟨hsame, hstores⟩, ?_⟩
  dsimp only
  rw [Except.ok.injEq]
  exact hiff

/-- A whole sequence of calls. -/
theorem Alike.run {encryptionKey : Bytes} (hlib : Lawful lib) :
    ∀ {calls : List Call} {p p' : Provider}, Alike lib encryptionKey p p' →
      (∀ c ∈ calls, Valid lib c) →
      (results lib (some encryptionKey) p' calls = results lib none p calls ↔ NullFree lib p calls)
  | [], _, _, _, _ => ⟨fun _ => trivial, fun _ => rfl⟩
  | c :: cs, p, p', h, hvalid => by
    obtain ⟨hnext, hiff⟩ := h.step hlib (hvalid c (.head _))
    have hrest := Alike.run hlib hnext fun c' hc' => hvalid c' (.tail _ hc')
    unfold NullFree
    rw [← hiff, ← hrest]
    exact List.cons_eq_cons

/-! ## Owners -/

section

variable {encryptionKey : Option Bytes} {nonce : Bytes} {pre : String} {p : String → Bool}
  {db : Db} {op : Op}

/-- An operation sees only the part of the database that has its store's
keys. -/
theorem storeOp_within (hp : ∀ key, startsWith key pre = true → p key = true) :
    storeOp lib encryptionKey nonce pre op (OMap.within p db) =
      (storeOp lib encryptionKey nonce pre op db).map fun x => (x.1, OMap.within p x.2) := by
  have hget (key : String) : OMap.get (pre ++ key) (OMap.within p db) = OMap.get (pre ++ key) db :=
    OMap.get_within (hp _ (startsWith_append pre key)) db
  have hread (key : String) :
      providerGet lib (pre ++ key) (OMap.within p db) = providerGet lib (pre ++ key) db := by
    unfold providerGet
    rw [hget]
  cases op with
  | set key v =>
    have hput (stored : Json) : providerPut lib (pre ++ key) stored (OMap.within p db) =
        (providerPut lib (pre ++ key) stored db).map (OMap.within p) := by
      unfold providerPut
      cases cloneJson lib stored with
      | error e => rfl
      | ok payload =>
        exact congrArg Except.ok
          (OMap.within_set (hp _ (startsWith_append pre key)) payload db).symm
    have hrest (stored : Json) : ((providerPut lib (pre ++ key) stored (OMap.within p db)).bind
        fun d => .ok (Result.done, d)) =
        Except.map (fun x => (x.1, OMap.within p x.2))
          ((providerPut lib (pre ++ key) stored db).bind fun d => .ok (Result.done, d)) := by
      rw [hput]
      cases providerPut lib (pre ++ key) stored db <;> rfl
    cases encryptionKey with
    | none => exact hrest v
    | some k =>
      change (encrypt lib k nonce (pre ++ key) v).bind _ = Except.map _
          ((encrypt lib k nonce (pre ++ key) v).bind _)
      cases encrypt lib k nonce (pre ++ key) v with
      | error e => rfl
      | ok stored => exact hrest stored
  | get key =>
    change (providerGet lib (pre ++ key) (OMap.within p db)).bind _ =
        Except.map _ ((providerGet lib (pre ++ key) db).bind _)
    rw [hread]
    cases providerGet lib (pre ++ key) db with
    | error e => rfl
    | ok stored =>
      change (if isNull stored then _ else _) = Except.map _ (if isNull stored then _ else _)
      cases isNull stored with
      | true => rfl
      | false =>
        cases encryptionKey with
        | none => rfl
        | some k =>
          change (decrypt lib k (pre ++ key) stored).bind _ = Except.map _
              ((decrypt lib k (pre ++ key) stored).bind _)
          cases decrypt lib k (pre ++ key) stored <;> rfl
  | delete key =>
    change (providerGet lib (pre ++ key) (OMap.within p db)).bind _ =
        Except.map _ ((providerGet lib (pre ++ key) db).bind _)
    rw [hread]
    cases providerGet lib (pre ++ key) db with
    | error e => rfl
    | ok stored =>
      exact congrArg (fun d => Except.ok (Result.existed (!isNull stored), d))
        (OMap.within_delete _ _).symm
  | keys start =>
    have hstart (key : String) (h : startsWith key (pre ++ start) = true) : p key = true := by
      refine hp key ?_
      unfold startsWith at h ⊢
      rw [List.isPrefixOf_iff_prefix, String.toList_append] at h
      rw [List.isPrefixOf_iff_prefix]
      exact (List.prefix_append _ _).trans h
    unfold storeOp
    dsimp only
    rw [listKeys_within db hstart]
    rfl

theorem bind_ok {α β : Type} {x : Except Err α} {f : α → Except Err β} {b : β}
    (h : (x >>= f) = .ok b) : ∃ a, x = .ok a ∧ f a = .ok b := by
  cases x with
  | error e => cases h
  | ok a => exact ⟨a, rfl, h⟩

/-- An operation leaves the part of the database without its store's keys
alone. -/
theorem storeOp_out (hp : ∀ key, p (pre ++ key) = false) {r : Result} {d : Db}
    (h : storeOp lib encryptionKey nonce pre op db = .ok (r, d)) :
    OMap.within p d = OMap.within p db := by
  unfold storeOp at h
  cases op with
  | set key v =>
    have hrest {stored : Json} (h : (providerPut lib (pre ++ key) stored db >>= fun d =>
        pure (Result.done, d)) = .ok (r, d)) :
        OMap.within p d = OMap.within p db := by
      obtain ⟨d', hput, h⟩ := bind_ok h
      cases h
      unfold providerPut at hput
      cases hclone : cloneJson lib stored with
      | error e =>
        rw [hclone] at hput
        cases hput
      | ok payload =>
        rw [hclone] at hput
        cases hput
        exact OMap.within_set_out (hp key) payload db
    cases encryptionKey with
    | none => exact hrest h
    | some k =>
      obtain ⟨stored, -, h⟩ := bind_ok h
      exact hrest h
  | get key =>
    obtain ⟨stored, -, h⟩ := bind_ok h
    change (if isNull stored then _ else _) = _ at h
    split at h
    · cases h
      rfl
    · cases encryptionKey with
      | none =>
        cases h
        rfl
      | some k =>
        obtain ⟨v, -, h⟩ := bind_ok h
        cases h
        rfl
  | delete key =>
    obtain ⟨stored, -, h⟩ := bind_ok h
    cases h
    exact OMap.within_delete_out (hp key) db
  | keys start =>
    cases h
    rfl

end

/-- Owners that share stores only among themselves. -/
structure Group where
  mem : String → Bool
  cache : ∀ {o o'}, cacheKey o = cacheKey o' → mem o = mem o'
  partition : ∀ {o o'}, partition o = partition o' → mem o = mem o'

section

open Classical

namespace Group

variable (G : Group)

/-- A key of a store of the group. -/
noncomputable def inside (key : String) : Bool :=
  decide (∃ o, G.mem o = true ∧ startsWith key (prefixOf o) = true)

noncomputable def cached (key : String) : Bool := decide (∃ o, G.mem o = true ∧ cacheKey o = key)

/-- What of a provider the group uses. -/
noncomputable def part (p : Provider) : Provider :=
  ⟨OMap.within G.inside p.db, OMap.within G.cached p.stores⟩

variable {G}

theorem inside_of_mem {o : String} (ho : G.mem o = true) (key : String)
    (h : startsWith key (prefixOf o) = true) : G.inside key = true :=
  decide_eq_true ⟨o, ho, h⟩

theorem not_inside {o : String} (ho : G.mem o = false) (key : String) :
    G.inside (prefixOf o ++ key) = false := by
  refine decide_eq_false ?_
  rintro ⟨g, hg, hkey⟩
  rw [G.partition (partition_of_startsWith hkey), ho] at hg
  cases hg

theorem cached_of_mem {o : String} (ho : G.mem o = true) : G.cached (cacheKey o) = true :=
  decide_eq_true ⟨o, ho, rfl⟩

theorem not_cached {o : String} (ho : G.mem o = false) : G.cached (cacheKey o) = false := by
  refine decide_eq_false ?_
  rintro ⟨g, hg, hkey⟩
  rw [G.cache hkey, ho] at hg
  cases hg

end Group

end

/-- Every store handed out has the prefix of an owner with its cache key. -/
def Handed (p : Provider) : Prop := ∀ key pre, OMap.get key p.stores = some pre →
    ∃ o, cacheKey o = key ∧ pre = prefixOf o

section

variable {p : Provider} {o : String}

theorem Handed.store (h : Handed p) (o : String) :
    ∃ o', cacheKey o' = cacheKey o ∧ (getKeyValueStore o p).1 = prefixOf o' := by
  unfold getKeyValueStore
  split
  · exact h _ _ ‹_›
  · exact ⟨o, rfl, rfl⟩

theorem Handed.get (h : Handed p) (o : String) : Handed (getKeyValueStore o p).2 := by
  unfold getKeyValueStore
  split
  · exact h
  · intro key pre hkey
    dsimp only at hkey
    rw [OMap.get_set] at hkey
    split at hkey
    · cases hkey
      exact ⟨o, ‹_›, rfl⟩
    · exact h key pre hkey

theorem Handed.after {encryptionKey : Option Bytes} (h : Handed p) (c : Call) :
    Handed (call lib encryptionKey p c).2 := by
  unfold call
  dsimp only
  split <;> exact h.get c.owner

variable {G : Group}

theorem store_part (ho : G.mem o = true) :
    getKeyValueStore o (G.part p) =
      ((getKeyValueStore o p).1, G.part (getKeyValueStore o p).2) := by
  have hget : OMap.get (cacheKey o) (G.part p).stores = OMap.get (cacheKey o) p.stores :=
    OMap.get_within (Group.cached_of_mem ho) p.stores
  unfold getKeyValueStore
  rw [hget]
  split
  · rfl
  · unfold Group.part
    dsimp only
    rw [OMap.within_set (Group.cached_of_mem ho)]

theorem part_store (ho : G.mem o = false) : G.part (getKeyValueStore o p).2 = G.part p := by
  unfold getKeyValueStore
  split
  · rfl
  · unfold Group.part
    dsimp only
    rw [OMap.within_set_out (Group.not_cached ho)]

/-- A call of a member does the same on the group's part. -/
theorem call_part {encryptionKey : Option Bytes} (hp : Handed p) {c : Call}
    (hc : G.mem c.owner = true) :
    call lib encryptionKey (G.part p) c =
      ((call lib encryptionKey p c).1, G.part (call lib encryptionKey p c).2) := by
  obtain ⟨o, ho, hpre⟩ := hp.store c.owner
  have hmem : G.mem o = true := (G.cache ho).trans hc
  have hin (key : String) (h : startsWith key (getKeyValueStore c.owner p).1 = true) :
      G.inside key = true :=
    Group.inside_of_mem hmem key (hpre ▸ h)
  unfold call
  rw [store_part hc]
  dsimp only
  have hop : storeOp lib encryptionKey c.nonce (getKeyValueStore c.owner p).1 c.op
      (G.part (getKeyValueStore c.owner p).2).db =
      (storeOp lib encryptionKey c.nonce (getKeyValueStore c.owner p).1 c.op
      (getKeyValueStore c.owner p).2.db).map
        fun x => (x.1, OMap.within G.inside x.2) := storeOp_within hin
  rw [hop]
  cases storeOp lib encryptionKey c.nonce (getKeyValueStore c.owner p).1 c.op
    (getKeyValueStore c.owner p).2.db <;> rfl

/-- A call of another owner leaves the group's part alone. -/
theorem part_call {encryptionKey : Option Bytes} (hp : Handed p) {c : Call}
    (hc : G.mem c.owner = false) : G.part (call lib encryptionKey p c).2 = G.part p := by
  obtain ⟨o, ho, hpre⟩ := hp.store c.owner
  have hmem : G.mem o = false := (G.cache ho).trans hc
  have hout (key : String) : G.inside ((getKeyValueStore c.owner p).1 ++ key) = false := by
    rw [hpre]
    exact Group.not_inside hmem key
  refine Eq.trans ?_ (part_store hc)
  unfold call
  dsimp only
  split
  · rename_i r d hop
    unfold Group.part
    dsimp only
    rw [storeOp_out hout hop]
  · rfl

end

section

variable {G : Group} {encryptionKey : Option Bytes}

theorem results_cons (p : Provider) (c : Call) (cs : List Call) :
    results lib encryptionKey p (c :: cs) = (call lib encryptionKey p c).1 ::
        results lib encryptionKey (call lib encryptionKey p c).2 cs := rfl

/-- What the members see of a sequence of calls is what their own calls give on
the group's part. -/
theorem results_part :
    ∀ {calls : List Call} {p : Provider}, Handed p →
      (calls.zip (results lib encryptionKey p calls)).filter (fun x => G.mem x.1.owner) =
        (calls.filter fun c => G.mem c.owner).zip
          (results lib encryptionKey (G.part p) (calls.filter fun c => G.mem c.owner))
  | [], _, _ => rfl
  | c :: cs, p, hp => by
    have hafter : Handed (call lib encryptionKey p c).2 := hp.after c
    rw [results_cons, List.zip_cons_cons, List.filter_cons, List.filter_cons, results_part hafter]
    dsimp only
    cases hc : G.mem c.owner with
    | true => rw [if_pos rfl, if_pos rfl, results_cons, call_part hp hc, List.zip_cons_cons]
    | false => rw [if_neg nofun, if_neg nofun, part_call hp hc]

theorem observed_part {o : String} (ho : G.mem o = true) (calls : List Call) :
    observed o calls (results lib encryptionKey .new calls) =
      observed o (calls.filter fun c => G.mem c.owner)
        (results lib encryptionKey (G.part .new) (calls.filter fun c => G.mem c.owner)) := by
  have hnew : Handed .new := fun key pre h => by cases h
  unfold observed
  rw [← results_part hnew, List.filter_filter]
  refine congrArg _ (List.filter_congr fun x _ => ?_)
  by_cases hx : x.1.owner = o
  · rw [hx, ho, Bool.and_true]
  · rw [decide_eq_false hx, Bool.false_and]

/-- Owners of different groups do not notice each other. -/
theorem unnoticed_of_group {o o' : String} (ho : G.mem o = true) (ho' : G.mem o' = false) :
    Unnoticed lib encryptionKey o o' := by
  intro calls
  rw [observed_part ho calls, observed_part ho (calls.filter fun c => c.owner ≠ o'),
    List.filter_filter]
  have hsame : (calls.filter fun c => G.mem c.owner && decide (c.owner ≠ o')) =
      calls.filter fun c => G.mem c.owner := by
    refine List.filter_congr fun c _ => ?_
    by_cases hc : c.owner = o'
    · rw [hc, ho', Bool.false_and]
    · rw [decide_eq_true hc, Bool.and_true]
  rw [hsame]

end

/-! ## The root store -/

theorem cacheKey_inj {o o' : String} (h : cacheKey o = cacheKey o') :
    o = o' ∨ (o = "" ∨ o = "<root>") ∧ (o' = "" ∨ o' = "<root>") := by
  unfold cacheKey at h
  split at h <;> split at h
  · rename_i ho ho'
    exact .inl ((String.isEmpty_iff.mp ho).trans (String.isEmpty_iff.mp ho').symm)
  · rename_i ho _
    exact .inr ⟨.inl (String.isEmpty_iff.mp ho), .inr h.symm⟩
  · rename_i _ ho'
    exact .inr ⟨.inr h, .inl (String.isEmpty_iff.mp ho')⟩
  · exact .inl h

instance (o : String) : Decidable (Rooted o) := inferInstanceAs (Decidable (_ ∨ _ ∨ _))

/-- The root store and the owners it is mixed up with. -/
def rootGroup : Group where
  mem o := decide (Rooted o)
  cache h := by
    rcases cacheKey_inj h with rfl | ⟨ho, ho'⟩
    · rfl
    · rw [decide_eq_decide]
      unfold Rooted
      grind
  partition h := by
    rcases partition_inj h with rfl | ⟨ho, ho'⟩
    · rfl
    · rw [decide_eq_decide]
      unfold Rooted
      grind

/-- Every other owner is alone. -/
def ownGroup (o : String) (ho : ¬ Rooted o) : Group where
  mem x := x = o
  cache h := by
    unfold Rooted at ho
    rw [decide_eq_decide]
    rcases cacheKey_inj h with rfl | ⟨h₁, h₂⟩
    · rfl
    · grind
  partition h := by
    unfold Rooted at ho
    rw [decide_eq_decide]
    rcases partition_inj h with rfl | ⟨h₁, h₂⟩
    · rfl
    · grind

theorem unnoticed {o o' : String} {encryptionKey : Option Bytes} (hne : o ≠ o')
    (h : ¬ (Rooted o ∧ Rooted o')) : Unnoticed lib encryptionKey o o' := by
  by_cases ho : Rooted o
  · have ho' : ¬ Rooted o' := fun ho' => h ⟨ho, ho'⟩
    exact unnoticed_of_group (G := rootGroup) (decide_eq_true ho) (decide_eq_false ho')
  · exact unnoticed_of_group (G := ownGroup o ho) (decide_eq_true rfl)
      (decide_eq_false (Ne.symm hne))

/-- The owner that `getKeyValueStore` is called with. -/
def accountOf (o : String) : Option String := if o.isEmpty then none else some o

/-- The root store is used, then `o'` sets a value, and `o` lists its keys. -/
def mixedUp (o o' : String) : List Call :=
  [⟨none, .keys "", []⟩, ⟨accountOf o', .set "k" .null, []⟩, ⟨accountOf o, .keys "", []⟩]

theorem prefixOf_root : prefixOf "root" = "kv/root/" := by
  unfold prefixOf partition
  rw [encodeURIComponent_root]
  decide

/-- With the root store handed out, all three owners use its prefix. -/
theorem rooted_store {stores : List (String × String)}
    (hroot : OMap.get "<root>" stores = some "kv/root/")
    (hcalled : ∀ pre, OMap.get "root" stores = some pre → pre = "kv/root/") (db : Db) {o : String}
    (ho : Rooted o) : (getKeyValueStore o ⟨db, stores⟩).1 = "kv/root/" := by
  unfold getKeyValueStore
  rcases ho with rfl | rfl | rfl
  · rw [show cacheKey "" = "<root>" from rfl, hroot]
  · rw [show cacheKey "root" = "root" from rfl]
    dsimp only
    cases h : OMap.get "root" stores with
    | none => exact prefixOf_root
    | some pre => exact hcalled pre h
  · rw [show cacheKey "<root>" = "<root>" from rfl, hroot]

theorem listKeys_single {key : String} (h : key.isEmpty = false) (v : Json) :
    listKeys [(key, v)] = [key] := by
  unfold listKeys
  rw [List.map_cons, List.map_nil, List.filter_cons_of_pos (by rw [h]; rfl),
    List.filter_nil, List.mergeSort_singleton]

theorem listKeys_nil : listKeys [] = [] := by
  unfold listKeys
  rw [List.map_nil, List.filter_nil, List.mergeSort_nil]

/-- Nothing is listed while nothing is set. -/
theorem results_keys {encryptionKey : Option Bytes} :
    ∀ {calls : List Call} {p : Provider}, p.db = [] → (∀ c ∈ calls, ∃ start, c.op = .keys start) →
      ∀ r ∈ results lib encryptionKey p calls, r = .ok (.keys [])
  | [], _, _, _, r, hr => absurd hr List.not_mem_nil
  | c :: cs, p, hp, hcalls, r, hr => by
    obtain ⟨start, hop⟩ := hcalls c (.head _)
    have hdb : (getKeyValueStore c.owner p).2.db = [] := (getKeyValueStore_db c.owner p).trans hp
    have hcall : call lib encryptionKey p c = (.ok (.keys []), (getKeyValueStore c.owner p).2) := by
      unfold call
      dsimp only
      rw [hop, hdb]
      unfold storeOp
      dsimp only
      rw [listKeys_nil, ← hdb]
      rfl
    rw [results_cons, hcall] at hr
    rcases List.mem_cons.mp hr with rfl | hr
    · rfl
    · exact results_keys hdb (fun c' hc' => hcalls c' (.tail _ hc')) r hr

theorem owner_accountOf {o : String} (ho : Rooted o) (op : Op) (nonce : Bytes) :
    (⟨accountOf o, op, nonce⟩ : Call).owner = o := by
  change ownerOf (accountOf o) = o
  rcases ho with rfl | rfl | rfl <;> decide +kernel

/-- The root store is handed out, and `root` at most with the same prefix. -/
def RootFirst (stores : List (String × String)) : Prop :=
  OMap.get "<root>" stores = some "kv/root/" ∧ ∀ pre, OMap.get "root" stores = some pre →
    pre = "kv/root/"

theorem rootFirst_store {o : String} (ho : Rooted o) (db : Db) :
    RootFirst (getKeyValueStore o ⟨db, [("<root>", "kv/root/")]⟩).2.stores := by
  rcases ho with rfl | rfl | rfl
  · exact ⟨rfl, fun pre h => by cases h⟩
  · refine ⟨rfl, fun pre h => ?_⟩
    have h : some (prefixOf "root") = some pre := h
    rw [prefixOf_root] at h
    exact (Option.some.inj h).symm
  · exact ⟨rfl, fun pre h => by cases h⟩

/-- What `o'` sets, `o` lists. -/
theorem results_mixedUp {o o' : String} (ho : Rooted o) (ho' : Rooted o') :
    results lib none .new (mixedUp o o') = [.ok (.keys []), .ok .done, .ok (.keys ["k"])] := by
  have hfirst : call lib none .new ⟨none, .keys "", []⟩ = (.ok (.keys []),
      ⟨[], [("<root>", "kv/root/")]⟩) := by
    refine Eq.trans (b := (.ok (.keys (((listKeys []).filter _).map _)), _)) rfl ?_
    rw [listKeys_nil]
    rfl
  have hset : call lib none ⟨[], [("<root>", "kv/root/")]⟩ ⟨accountOf o', .set "k" .null, []⟩ =
      (.ok .done,
      ⟨[("kv/root/k", .null)], (getKeyValueStore o' ⟨[], [("<root>", "kv/root/")]⟩).2.stores⟩) := by
    have hroot : RootFirst [("<root>", "kv/root/")] := rootFirst_store (.inl rfl) []
    have hpre := rooted_store hroot.1 hroot.2 [] ho'
    have hop :
        storeOp lib none [] (getKeyValueStore o' ⟨[], [("<root>", "kv/root/")]⟩).1 (.set "k" .null)
        (getKeyValueStore o' ⟨[], [("<root>", "kv/root/")]⟩).2.db = .ok (.done,
        [("kv/root/k", .null)]) := by
      rw [getKeyValueStore_db, hpre]
      rfl
    have howner := owner_accountOf ho' (.set "k" .null) []
    have hcall := call_ok (c := ⟨accountOf o', .set "k" .null, []⟩) (howner.symm ▸ hop)
    rw [howner] at hcall
    exact hcall
  have hlist (stores : List (String × String)) (hstores : RootFirst stores) :
      (call lib none ⟨[("kv/root/k", .null)], stores⟩ ⟨accountOf o, .keys "", []⟩).1 =
      .ok (.keys ["k"]) := by
    have hop :
        storeOp lib none [] (getKeyValueStore o ⟨[("kv/root/k", .null)], stores⟩).1 (.keys "")
        (getKeyValueStore o ⟨[("kv/root/k", .null)], stores⟩).2.db = .ok (.keys ["k"],
        [("kv/root/k", .null)]) := by
      rw [getKeyValueStore_db, rooted_store hstores.1 hstores.2 _ ho]
      unfold storeOp
      dsimp only
      rw [listKeys_single rfl]
      rfl
    have hcall :=
      call_ok (c := ⟨accountOf o, .keys "", []⟩) ((owner_accountOf ho (.keys "") []).symm ▸ hop)
    rw [hcall]
  unfold mixedUp
  rw [results_cons, hfirst, results_cons, hset, results_cons]
  dsimp only
  rw [hlist _ (rootFirst_store ho' [])]
  rfl

theorem noticed {o o' : String} (ho : Rooted o) (ho' : Rooted o') : ¬ Unnoticed lib none o o' := by
  intro h
  have hcalls := h (mixedUp o o')
  have hlast : Except.ok (Result.keys ["k"]) ∈ observed o (mixedUp o o')
      (results lib none .new (mixedUp o o')) := by
    rw [results_mixedUp ho ho']
    refine List.mem_map.mpr ⟨(⟨accountOf o, .keys "", []⟩, _),
      List.mem_filter.mpr ⟨.tail _ (.tail _ (.head _)), ?_⟩, rfl⟩
    exact decide_eq_true (owner_accountOf ho _ _)
  rw [hcalls] at hlast
  obtain ⟨x, hx, hr⟩ := List.mem_map.mp hlast
  have hmem := List.of_mem_zip (List.mem_filter.mp hx).1
  have hnone := results_keys (p := .new) rfl (fun c hc => ?_) x.2 hmem.2
  · rw [hr] at hnone
    cases hnone
  · obtain ⟨hc, hne'⟩ := List.mem_filter.mp hc
    unfold mixedUp at hc
    rcases List.mem_cons.mp hc with rfl | hc
    · exact ⟨_, rfl⟩
    · rcases List.mem_cons.mp hc with rfl | hc
      · rw [owner_accountOf ho'] at hne'
        exact absurd rfl (of_decide_eq_true hne')
      · rcases List.mem_cons.mp hc with rfl | hc
        · exact ⟨_, rfl⟩
        · cases hc

/-- **Exactly when the two providers agree on a sequence of calls and two owners
do not notice each other.** -/
theorem stores_iff (lib : Lib) (hlib : Lawful lib) (encryptionKey : Bytes) (calls : List Call)
    (hcalls : ∀ c ∈ calls, Valid lib c) (o o' : String) (hne : o ≠ o') :
    (results lib (some encryptionKey) .new calls = results lib none .new calls ∧
      ∀ key : Option Bytes, Unnoticed lib key o o') ↔
    NullFree lib .new calls ∧ ¬ (Rooted o ∧ Rooted o') := by
  have halike : Alike lib encryptionKey .new .new := ⟨.nil, rfl⟩
  rw [halike.run hlib hcalls]
  constructor
  · rintro ⟨hnull, hkeys⟩
    exact ⟨hnull, fun h => noticed h.1 h.2 (hkeys none)⟩
  · rintro ⟨hnull, hroot⟩
    exact ⟨hnull, fun key => unnoticed hne hroot⟩

namespace Example

/-- One character a byte. -/
def chars (b : Bytes) : String := .ofList (b.map fun x => Char.ofNat x.toNat)
def bytes (s : String) : Bytes := s.toList.map fun c => UInt8.ofNat c.toNat

/-- Bytes with an end mark. -/
def wrap (b : Bytes) : Bytes := b.flatMap (fun x => [0, x]) ++ [1]

def unwrap : Bytes → Bytes × Bytes
  | 0 :: x :: rest => ((x :: (unwrap rest).1), (unwrap rest).2)
  | _ :: rest => ([], rest)
  | [] => ([], [])

def record (nonceB64 ciphertextB64 : String) : Json :=
  .obj [("nonceB64", .str nonceB64), ("ciphertextB64", .str ciphertextB64)]

/-- The texts of the values below. -/
def stringify : Json → Bytes
  | .obj [("nonceB64", .str n), ("ciphertextB64", .str c)] =>
    123 :: (wrap (bytes n) ++ wrap (bytes c))
  | .bool true => [116, 114, 117, 101]
  | _ => [110, 117, 108, 108]

def parse : Bytes → Except Err Json
  | 123 :: text => .ok (record (chars (unwrap text).1) (chars (unwrap (unwrap text).2).1))
  | [116, 114, 117, 101] => .ok (.bool true)
  | [110, 117, 108, 108] => .ok .null
  | _ => .error { message := "Unexpected token" }

/-- A tag over the key, the nonce and the associated data. -/
def tag (key nonce aad : Bytes) : UInt8 := (key ++ nonce ++ aad).foldl (· + ·) 0

def platform : Lib where
  stringify
  parse
  bytesToBase64 := chars
  base64ToBytes := bytes
  recordJson := record
  aeadEncrypt key nonce plaintext aad := tag key nonce aad :: plaintext
  aeadDecrypt key nonce ciphertext aad := match ciphertext with
    | t :: plaintext =>
      if t = tag key nonce aad then .ok plaintext else .error { message := "decrypt failed" }
    | [] => .error { message := "decrypt failed" }

theorem bytes_chars (b : Bytes) : bytes (chars b) = b := by
  unfold bytes chars
  rw [String.toList_ofList, List.map_map]
  refine (List.map_congr_left fun x _ => ?_).trans (List.map_id b)
  dsimp only [Function.comp, id]
  rw [toNat_ofNat_byte _ x.toNat_lt, UInt8.ofNat_toNat]

theorem unwrap_wrap (b rest : Bytes) : unwrap (wrap b ++ rest) = (b, rest) := by
  induction b with
  | nil => rfl
  | cons x b ih =>
    have hcons : wrap (x :: b) ++ rest = 0 :: x :: (wrap b ++ rest) := rfl
    rw [hcons, unwrap, ih]

theorem lawful : Lawful platform where
  base64 := bytes_chars
  base64_ne b h := by
    cases b with
    | nil => exact absurd rfl h
    | cons x b =>
      rw [← Bool.not_eq_true, String.isEmpty_iff]
      intro hempty
      have hlist := congrArg String.toList hempty
      unfold platform chars at hlist
      rw [String.toList_ofList] at hlist
      cases hlist
  aead key nonce plaintext aad := if_pos rfl
  aead_ne _ _ _ _ := List.cons_ne_nil _ _
  nonceB64 _ _ := rfl
  ciphertextB64 _ _ := rfl
  record n c := by
    change parse (123 :: (wrap (bytes (chars n)) ++ wrap (bytes (chars c)))) =
        .ok (record (chars n) (chars c))
    rw [bytes_chars, bytes_chars]
    change Except.ok (record (chars (unwrap (wrap n ++ wrap c)).1)
        (chars (unwrap (unwrap (wrap n ++ wrap c)).2).1)) = _
    have hlast := unwrap_wrap c []
    rw [List.append_nil] at hlast
    rw [unwrap_wrap, hlast]

def key : Bytes := List.replicate 32 7
def nonce : Bytes := List.replicate 12 1

/-- A value is set, read and deleted again. -/
def calls : List Call := [⟨none, .set "k" (.bool true), nonce⟩, ⟨some "alice", .get "k", nonce⟩,
      ⟨none, .get "k", nonce⟩, ⟨none, .delete "k", nonce⟩]

/-- `null` is set and read. -/
def nulls : List Call := [⟨none, .set "k" .null, nonce⟩, ⟨none, .get "k", nonce⟩]

end Example

open Example in
theorem stores_iff_true : NullFree platform .new calls ∧ ¬ (Rooted "" ∧ Rooted "alice") ∧
    results platform (some key) .new calls = results platform none .new calls := by
  have hnull : NullFree platform .new calls := by
    refine ⟨fun h => ?_, fun h => ?_, fun h => ?_, fun h => ?_, trivial⟩
    · have h : none = some Json.null := readsNull_iff.mp h
      cases h
    · have h : none = some Json.null := readsNull_iff.mp h
      cases h
    · have h : some (Json.bool true) = some Json.null := readsNull_iff.mp h
      cases h
    · have h : some (Json.bool true) = some Json.null := readsNull_iff.mp h
      cases h
  have hroot : ¬ (Rooted "" ∧ Rooted "alice") := by decide
  refine ⟨hnull, hroot, ((stores_iff platform lawful key calls (fun c hc => ?_) "" "alice"
    (by decide)).mpr ⟨hnull, hroot⟩).1⟩
  simp only [calls, List.mem_cons, List.not_mem_nil, or_false] at hc
  rcases hc with rfl | rfl | rfl | rfl <;> refine ⟨rfl, fun k v hop => ?_⟩ <;> cases hop
  rfl

set_option maxRecDepth 4000 in
open Example in
/-- A stored `null` reads as `undefined` without encryption, and as `null` with
it; and what the owner `root` sets, the root store lists. -/
theorem null_differs :
    results platform none .new nulls = [.ok .done, .ok (.value none)] ∧
    results platform (some key) .new nulls = [.ok .done, .ok (.value (some .null))] ∧
    ¬ Unnoticed platform none "" "root" := by
  exact ⟨rfl, rfl, noticed (.inl rfl) (.inr (.inl rfl))⟩

end RezSdk.L4.OwnerStores
