import Mathlib.Data.List.Infix
import RezSdk.L2Storage.Stores

/-!
# The session store on its text keys

`KeyValueSecureSessionStore` keeps its records and two indexes under one
prefix of the key-value store. Elsewhere a key is a constructor of `Key`; here
it is the text the source builds, and the store is a map from texts to
records and session ids.

* `cut`: a text is split in one way at the first `::`, when what stands before
  it has no `::` and does not end in a colon.
* `recordKey_inj`, `indexKey_inj`, `deviceIndexKey_inj` and the `_ne_` lemmas:
  the keys of different sessions and slots differ.
* `Rep`: what the store holds after a history of puts and deletes.
* `lookups_exact`: the lookups return what the history says.
-/
namespace RezSdk.L2.SessionIndex

open RezSdk.L1

variable {Snap : Type}

/-! ## Keys -/

/-- mirrors src/peer-link/createKeyValueBackedPeerLinkStorage.js:181-187 -/
def recordPrefix : String := "peer-link:sessions:"
def peerLinkIndexPrefix : String := "peer-link:sessions:by-peer-link:"
def peerLinkDeviceIndexPrefix : String := "peer-link:sessions:by-peer-link-device:"

/-- mirrors src/peer-link/createKeyValueBackedPeerLinkStorage.js:190-194 (`_recordKey`) -/
def recordKey (owner sid : Id) : String := recordPrefix ++ owner.val ++ "::" ++ sid.val

/-- mirrors src/peer-link/createKeyValueBackedPeerLinkStorage.js:196-200 (`_indexKey`) -/
def indexKey (owner link : Id) : String := peerLinkIndexPrefix ++ owner.val ++ "::" ++ link.val

/-- mirrors src/peer-link/createKeyValueBackedPeerLinkStorage.js:202-207 (`_deviceIndexKey`) -/
def deviceIndexKey (owner link device : Id) : String :=
  peerLinkDeviceIndexPrefix ++ owner.val ++ "::" ++ link.val ++ "::" ++ device.val

/-- The text has no `::` and does not end in a colon. -/
def Plain (i : Id) : Prop := ¬ [':', ':'] <:+: i.val.toList ∧ i.val.toList.getLast? ≠ some ':'

/-- A plain id that does not read like an index. -/
def PlainOwner (i : Id) : Prop := Plain i ∧ ¬ "by-peer-link".toList <+: i.val.toList

theorem cut {p q x y : List Char} (hp : ¬ [':', ':'] <:+: p) (hpl : p.getLast? ≠ some ':')
    (hq : ¬ [':', ':'] <:+: q) (hql : q.getLast? ≠ some ':')
    (h : p ++ ':' :: ':' :: x = q ++ ':' :: ':' :: y) : p = q ∧ x = y := by
  -- a split that comes earlier puts a colon at the end, or two in a row, of the longer side
  have hshort : ∀ {r x y : List Char}, ¬ [':', ':'] <:+: r → r.getLast? ≠ some ':' → r ≠ [] →
      ':' :: ':' :: x = r ++ ':' :: ':' :: y → False := by
    intro r x y hr hrl hne h
    match r with
    | [] => exact hne rfl
    | [c] =>
      rw [List.cons_append, List.cons.injEq] at h
      exact hrl (by rw [← h.1]; rfl)
    | c :: d :: r =>
      rw [List.cons_append, List.cons_append, List.cons.injEq, List.cons.injEq] at h
      exact hr ⟨[], r, by rw [← h.1, ← h.2.1]; rfl⟩
  induction p generalizing q with
  | nil =>
    cases q with
    | nil =>
      rw [List.nil_append, List.nil_append, List.cons.injEq, List.cons.injEq] at h
      exact ⟨rfl, h.2.2⟩
    | cons d q => exact (hshort hq hql (List.cons_ne_nil _ _) h).elim
  | cons c p ih =>
    cases q with
    | nil => exact (hshort hp hpl (List.cons_ne_nil _ _) h.symm).elim
    | cons d q =>
      rw [List.cons_append, List.cons_append, List.cons.injEq] at h
      have tail : ∀ {e : Char} {r : List Char}, ¬ [':', ':'] <:+: e :: r →
          (e :: r).getLast? ≠ some ':' →
          ¬ [':', ':'] <:+: r ∧ r.getLast? ≠ some ':' := by
        intro e r hr hrl
        refine ⟨fun hin => hr (List.infix_cons hin), fun hl => hrl ?_⟩
        cases r with
        | nil => cases hl
        | cons f r => rw [List.getLast?_cons_cons, hl]
      obtain ⟨hp', hpl'⟩ := tail hp hpl
      obtain ⟨hq', hql'⟩ := tail hq hql
      obtain ⟨rfl, rfl⟩ := ih hp' hpl' hq' hql' h.2
      exact ⟨by rw [h.1], rfl⟩

theorem id_ext {i j : Id} (h : i.val.toList = j.val.toList) : i = j := by
  cases i
  cases j
  rw [Id.mk.injEq]
  exact String.toList_injective h

theorem cut_id {i j : Id} {x y : List Char} (hi : Plain i) (hj : Plain j)
    (h : i.val.toList ++ ':' :: ':' :: x = j.val.toList ++ ':' :: ':' :: y) : i = j ∧ x = y := by
  obtain ⟨hij, hxy⟩ := cut hi.1 hi.2 hj.1 hj.2 h
  exact ⟨id_ext hij, hxy⟩

theorem recordKey_toList (owner sid : Id) : (recordKey owner sid).toList =
    "peer-link:sessions:".toList ++ (owner.val.toList ++ ':' :: ':' :: sid.val.toList) := by
  simp [recordKey, recordPrefix]

theorem indexKey_toList (owner link : Id) :
    (indexKey owner link).toList = "peer-link:sessions:".toList ++
        ("by-peer-link:".toList ++ (owner.val.toList ++ ':' :: ':' :: link.val.toList)) := by
  simp [indexKey, peerLinkIndexPrefix]

theorem deviceIndexKey_toList (owner link device : Id) :
    (deviceIndexKey owner link device).toList =
      "peer-link:sessions:".toList ++ ("by-peer-link-device:".toList ++ (owner.val.toList ++
                ':' :: ':' :: (link.val.toList ++ ':' :: ':' :: device.val.toList))) := by
  simp [deviceIndexKey, peerLinkDeviceIndexPrefix]

theorem recordKey_inj {owner sid owner' sid' : Id} (ho : Plain owner) (ho' : Plain owner')
    (h : recordKey owner sid = recordKey owner' sid') : owner = owner' ∧ sid = sid' := by
  have h := congrArg String.toList h
  rw [recordKey_toList, recordKey_toList, List.append_cancel_left_eq] at h
  obtain ⟨howner, hrest⟩ := cut_id ho ho' h
  exact ⟨howner, id_ext hrest⟩

theorem indexKey_inj {owner link owner' link' : Id} (ho : Plain owner) (ho' : Plain owner')
    (h : indexKey owner link = indexKey owner' link') : owner = owner' ∧ link = link' := by
  have h := congrArg String.toList h
  rw [indexKey_toList, indexKey_toList, List.append_cancel_left_eq, List.append_cancel_left_eq] at h
  obtain ⟨howner, hrest⟩ := cut_id ho ho' h
  exact ⟨howner, id_ext hrest⟩

theorem deviceIndexKey_inj {owner link device owner' link' device' : Id} (ho : Plain owner)
    (ho' : Plain owner') (hl : Plain link) (hl' : Plain link')
    (h : deviceIndexKey owner link device = deviceIndexKey owner' link' device') :
    owner = owner' ∧ link = link' ∧ device = device' := by
  have h := congrArg String.toList h
  rw [deviceIndexKey_toList, deviceIndexKey_toList, List.append_cancel_left_eq,
    List.append_cancel_left_eq] at h
  obtain ⟨howner, hrest⟩ := cut_id ho ho' h
  obtain ⟨hlink, hdevice⟩ := cut_id hl hl' hrest
  exact ⟨howner, hlink, id_ext hdevice⟩

/-- No record key reads like an index key. -/
theorem recordKey_not_index {owner : Id} (sid : Id) (ho : PlainOwner owner) {z : List Char}
    (h :
        (recordKey owner sid).toList =
          "peer-link:sessions:".toList ++ ("by-peer-link".toList ++ z)) : False := by
  rw [recordKey_toList, List.append_cancel_left_eq] at h
  have howner : owner.val.toList <+: "by-peer-link".toList ++ z := ⟨_, h⟩
  rcases List.prefix_or_prefix_of_prefix howner (List.prefix_append _ _) with ⟨u, hu⟩ | hin
  · cases u with
    | nil => exact ho.2 ⟨[], by rw [List.append_nil, ← hu, List.append_nil]⟩
    | cons c u =>
      rw [← hu, List.append_assoc, List.append_cancel_left_eq, List.cons_append,
        List.cons.injEq] at h
      have hmem : ':' ∈ "by-peer-link".toList := by
        rw [← hu, h.1]
        simp
      exact absurd hmem (by decide)
  · exact ho.2 hin

theorem recordKey_ne_indexKey {owner sid owner' link : Id} (ho : PlainOwner owner) :
    recordKey owner sid ≠ indexKey owner' link := by
  intro h
  refine recordKey_not_index sid ho
    (z := ':' :: (owner'.val.toList ++ ':' :: ':' :: link.val.toList)) ?_
  rw [h, indexKey_toList]
  rfl

theorem recordKey_ne_deviceIndexKey {owner sid owner' link device : Id} (ho : PlainOwner owner) :
    recordKey owner sid ≠ deviceIndexKey owner' link device := by
  intro h
  refine recordKey_not_index sid ho (z := "-device:".toList ++
    (owner'.val.toList ++ ':' :: ':' :: (link.val.toList ++ ':' :: ':' :: device.val.toList))) ?_
  rw [h, deviceIndexKey_toList]
  rfl

theorem indexKey_ne_deviceIndexKey {owner link owner' link' device : Id} :
    indexKey owner link ≠ deviceIndexKey owner' link' device := by
  intro h
  have h := congrArg String.toList h
  rw [indexKey_toList, deviceIndexKey_toList, List.append_cancel_left_eq] at h
  have hsplit : "by-peer-link:".toList = "by-peer-link".toList ++ [':'] := by decide
  have hsplit' : "by-peer-link-device:".toList = "by-peer-link".toList ++ "-device:".toList := by
    decide
  rw [hsplit, hsplit', List.append_assoc, List.append_assoc, List.append_cancel_left_eq] at h
  cases h

/-! ## The store -/

/-- What lies under a key: a session record, or the session id of an index
entry. -/
inductive Stored (Snap : Type)
  | record (r : SessionRecord Snap)
  | sid (s : Id)
deriving DecidableEq

abbrev Kv (Snap : Type) := AList fun _ : String => Stored Snap

/-- mirrors src/peer-link/createKeyValueBackedPeerLinkStorage.js:209-212 -/
def getById (kv : Kv Snap) (owner sid : Id) : Option (Stored Snap) :=
  kv.lookup (recordKey owner sid)

/-- Follow an index entry. -/
def follow (kv : Kv Snap) (owner : Id) (key : String) : Option (Stored Snap) :=
  match kv.lookup key with
  | some (.sid s) => getById kv owner s
  | _ => none

/-- mirrors src/peer-link/createKeyValueBackedPeerLinkStorage.js:214-220 -/
def getByPeerLinkId (kv : Kv Snap) (owner link : Id) : Option (Stored Snap) :=
  follow kv owner (indexKey owner link)

/-- mirrors src/peer-link/createKeyValueBackedPeerLinkStorage.js:223-229 -/
def getByPeerLinkAndDevice (kv : Kv Snap) (owner link device : Id) : Option (Stored Snap) :=
  follow kv owner (deviceIndexKey owner link device)

/-- The body of the scan: a device session of this owner and link. -/
def deviceOf (owner link : Id) : Stored Snap → Option (SessionRecord Snap)
  | .record r =>
    if r.localAccountId = owner ∧ r.peerLinkId = link ∧ r.peerDeviceId.isSome then some r else none
  | .sid _ => none

/-- `localeLe` is `left.localeCompare(right) <= 0`.
mirrors src/peer-link/createKeyValueBackedPeerLinkStorage.js:235-259 -/
def listByPeerLink (localeLe : String → String → Bool) (kv : Kv Snap) (owner link : Id) :
    List (SessionRecord Snap) :=
  let keys := kv.keys.filter fun k => recordPrefix.toList.isPrefixOf k.toList
  let out := keys.filterMap fun k => (kv.lookup k).bind (deviceOf owner link)
  let text := fun r : SessionRecord Snap => (r.peerDeviceId.map Id.val).getD ""
  out.insertionSort fun a b => localeLe (text a) (text b) = true

/-- The index slot of a session. -/
def slotKey (owner link : Id) : Option Id → String
  | some device => deviceIndexKey owner link device
  | none => indexKey owner link

/-- The version a put gives: one more than that of an existing record.
mirrors src/peer-link/createKeyValueBackedPeerLinkStorage.js:267-273 -/
def nextVersion (existing : Option (Stored Snap)) (record : SessionRecord Snap) : Nat :=
  match existing with
  | some (.record e) => normalizeVersion e.version + 1
  | _ => normalizeVersion record.version

/-- mirrors src/peer-link/createKeyValueBackedPeerLinkStorage.js:261-283 -/
def put (kv : Kv Snap) (record : SessionRecord Snap) : Kv Snap :=
  let key := recordKey record.localAccountId record.sessionId
  let next := { record with version := nextVersion (kv.lookup key) record }
  (kv.insert key (.record next)).insert
  (slotKey record.localAccountId record.peerLinkId record.peerDeviceId)
    (.sid record.sessionId)

/-- The index entry of a deleted session goes when it still names it. -/
def dropIndex (kv : Kv Snap) (key : String) (sid : Id) : Kv Snap :=
  match kv.lookup key with
  | some (.sid s) => if s = sid then kv.erase key else kv
  | _ => kv

/-- mirrors src/peer-link/createKeyValueBackedPeerLinkStorage.js:285-310 -/
def delete (kv : Kv Snap) (owner sid : Id) : Bool × Kv Snap :=
  let key := recordKey owner sid
  let existing := kv.lookup key
  let kv' := kv.erase key
  match existing with
  | none => (false, kv')
  | some (.record e) => (true, dropIndex kv' (slotKey owner e.peerLinkId e.peerDeviceId) sid)
  | some (.sid _) => (true, kv')

/-! ## Histories -/

inductive Change (Snap : Type)
  | put (r : SessionRecord Snap)
  | delete (owner sid : Id)

def apply (kv : Kv Snap) : Change Snap → Kv Snap
  | .put r => put kv r
  | .delete owner sid => (delete kv owner sid).2

/-- The store after a history, newest change first. -/
def after : List (Change Snap) → Kv Snap
  | [] => ∅
  | c :: h => apply (after h) c

/-- The record a session has now: the last one put, unless it was deleted
since. -/
def current (owner sid : Id) : List (Change Snap) → Option (SessionRecord Snap)
  | [] => none
  | .put r :: h =>
    if r.localAccountId = owner ∧ r.sessionId = sid then
      some { r with version := nextVersion ((current owner sid h).map .record) r }
    else current owner sid h
  | .delete owner' sid' :: h => if owner' = owner ∧ sid' = sid then none else current owner sid h

/-- The session most recently put for a slot: an owner, a link and a device or
no device. -/
def mostRecent (owner link : Id) (device : Option Id) : List (Change Snap) → Option Id
  | [] => none
  | .put r :: h =>
    if r.localAccountId = owner ∧ r.peerLinkId = link ∧ r.peerDeviceId = device
      then some r.sessionId
    else mostRecent owner link device h
  | .delete .. :: h => mostRecent owner link device h

/-- The ids of a change are plain. -/
def Change.Plain : Change Snap → Prop
  | .put r => PlainOwner r.localAccountId ∧ SessionIndex.Plain r.peerLinkId
  | .delete owner _ => PlainOwner owner

/-- Every put of a session names the same link and device. -/
def Steady (h : List (Change Snap)) : Prop :=
  ∀ r r', .put r ∈ h → .put r' ∈ h → r.localAccountId = r'.localAccountId →
  r.sessionId = r'.sessionId →
    r.peerLinkId = r'.peerLinkId ∧ r.peerDeviceId = r'.peerDeviceId

/-! ## What the store holds -/

/-- The entry of a slot: its most recent session, while that one exists. -/
def entry (owner link : Id) (device : Option Id) (h : List (Change Snap)) : Option (Stored Snap) :=
  (mostRecent owner link device h).bind fun s => (current owner s h).map fun _ => .sid s

structure Rep (h : List (Change Snap)) (kv : Kv Snap) : Prop where
  record : ∀ owner sid, PlainOwner owner →
    kv.lookup (recordKey owner sid) = (current owner sid h).map .record
  slot : ∀ owner link device, PlainOwner owner → Plain link →
    kv.lookup (slotKey owner link device) = entry owner link device h
  keys : ∀ k ∈ kv.keys, (∃ owner sid, PlainOwner owner ∧ k = recordKey owner sid) ∨
    ∃ owner link device, PlainOwner owner ∧ Plain link ∧ k = slotKey owner link device

theorem recordKey_ne_slotKey {owner sid owner' link : Id} {device : Option Id}
    (ho : PlainOwner owner) : recordKey owner sid ≠ slotKey owner' link device := by
  cases device with
  | none => exact recordKey_ne_indexKey ho
  | some d => exact recordKey_ne_deviceIndexKey ho

theorem slotKey_inj {owner link owner' link' : Id} {device device' : Option Id}
    (ho : PlainOwner owner) (ho' : PlainOwner owner') (hl : Plain link) (hl' : Plain link')
    (h : slotKey owner link device = slotKey owner' link' device') :
    owner = owner' ∧ link = link' ∧ device = device' := by
  cases device with
  | none =>
    cases device' with
    | none =>
      obtain ⟨howner, hlink⟩ := indexKey_inj ho.1 ho'.1 h
      exact ⟨howner, hlink, rfl⟩
    | some d => exact absurd h indexKey_ne_deviceIndexKey
  | some d =>
    cases device' with
    | none => exact absurd h.symm indexKey_ne_deviceIndexKey
    | some d' =>
      obtain ⟨howner, hlink, hdevice⟩ := deviceIndexKey_inj ho.1 ho'.1 hl hl' h
      exact ⟨howner, hlink, by rw [hdevice]⟩

theorem current_ids {owner sid : Id} {h : List (Change Snap)} {r : SessionRecord Snap}
    (hr : current owner sid h = some r) :
    r.localAccountId = owner ∧ r.sessionId = sid ∧
    ∃ r', .put r' ∈ h ∧ r'.localAccountId = owner ∧ r'.sessionId = sid ∧
      r'.peerLinkId = r.peerLinkId ∧ r'.peerDeviceId = r.peerDeviceId := by
  induction h with
  | nil => cases hr
  | cons c h ih =>
    have hold : current owner sid h = some r → r.localAccountId = owner ∧ r.sessionId = sid ∧
        ∃ r', .put r' ∈ c :: h ∧ r'.localAccountId = owner ∧ r'.sessionId = sid ∧
        r'.peerLinkId = r.peerLinkId ∧
          r'.peerDeviceId = r.peerDeviceId := by
      intro hr
      obtain ⟨ho, hs, r', hmem, hids⟩ := ih hr
      exact ⟨ho, hs, r', .tail _ hmem, hids⟩
    cases c with
    | put r₁ =>
      rw [current] at hr
      split at hr
      · rename_i hids
        cases hr
        exact ⟨hids.1, hids.2, r₁, .head _, hids.1, hids.2, rfl, rfl⟩
      · exact hold hr
    | delete o s =>
      rw [current] at hr
      split at hr
      · cases hr
      · exact hold hr

theorem mostRecent_put {owner link sid : Id} {device : Option Id} {h : List (Change Snap)}
    (hs : mostRecent owner link device h = some sid) :
    ∃ r, .put r ∈ h ∧ r.localAccountId = owner ∧ r.sessionId = sid ∧ r.peerLinkId = link ∧
      r.peerDeviceId = device := by
  induction h with
  | nil => cases hs
  | cons c h ih =>
    have hold : mostRecent owner link device h = some sid → ∃ r, .put r ∈ c :: h ∧
        r.localAccountId = owner ∧
        r.sessionId = sid ∧ r.peerLinkId = link ∧ r.peerDeviceId = device := by
      intro hs
      obtain ⟨r, hmem, hids⟩ := ih hs
      exact ⟨r, .tail _ hmem, hids⟩
    cases c with
    | put r =>
      rw [mostRecent] at hs
      split at hs
      · rename_i hids
        cases hs
        exact ⟨r, .head _, hids.1, rfl, hids.2.1, hids.2.2⟩
      · exact hold hs
    | delete o s => exact hold hs

theorem Steady.tail {c : Change Snap} {h : List (Change Snap)} (hs : Steady (c :: h)) : Steady h :=
  fun r r' hr hr' => hs r r' (.tail _ hr) (.tail _ hr')

theorem rep_put {h : List (Change Snap)} {kv : Kv Snap} (hrep : Rep h kv) {r : SessionRecord Snap}
    (hp : (Change.put r).Plain) (hsteady : Steady (.put r :: h)) :
    Rep (.put r :: h) (put kv r) := by
  obtain ⟨hro, hrl⟩ := hp
  refine ⟨fun owner sid ho => ?_, fun owner link device ho hl => ?_, fun k hk => ?_⟩
  · rw [put, AList.lookup_insert_ne (recordKey_ne_slotKey ho), current]
    split
    · rename_i hids
      obtain ⟨rfl, rfl⟩ := hids
      rw [AList.lookup_insert, hrep.record _ _ ho]
      rfl
    · rename_i hids
      rw [AList.lookup_insert_ne, hrep.record _ _ ho]
      intro heq
      obtain ⟨howner, hsid⟩ := recordKey_inj ho.1 hro.1 heq
      exact hids ⟨howner.symm, hsid.symm⟩
  · by_cases hslot : r.localAccountId = owner ∧ r.peerLinkId = link ∧ r.peerDeviceId = device
    · obtain ⟨rfl, rfl, rfl⟩ := hslot
      rw [put, AList.lookup_insert, entry, mostRecent, if_pos ⟨rfl, rfl, rfl⟩,
        Option.bind_some, current,
        if_pos ⟨rfl, rfl⟩]
      rfl
    · rw [put, AList.lookup_insert_ne, AList.lookup_insert_ne (recordKey_ne_slotKey hro).symm,
        hrep.slot _ _ _ ho hl, entry, entry, mostRecent, if_neg hslot]
      · cases hm : mostRecent owner link device h with
        | none => rfl
        | some s =>
          obtain ⟨r', hmem, hro', hrs', hrl', hrd'⟩ := mostRecent_put hm
          have hother : ¬ (r.localAccountId = owner ∧ r.sessionId = s) := by
            rintro ⟨hro₁, hrs₁⟩
            obtain ⟨hlink, hdevice⟩ :=
              hsteady r r' (.head _) (.tail _ hmem) (hro₁.trans hro'.symm) (hrs₁.trans hrs'.symm)
            exact hslot ⟨hro₁, hlink.trans hrl', hdevice.trans hrd'⟩
          rw [Option.bind_some, Option.bind_some, current, if_neg hother]
      · intro heq
        obtain ⟨howner, hlink, hdevice⟩ := slotKey_inj ho hro hl hrl heq
        exact hslot ⟨howner.symm, hlink.symm, hdevice.symm⟩
  · rw [put, ← AList.mem_keys, AList.mem_insert, AList.mem_insert] at hk
    rcases hk with rfl | rfl | hk
    · exact .inr ⟨_, _, _, hro, hrl, rfl⟩
    · exact .inl ⟨_, _, hro, rfl⟩
    · exact hrep.keys k (AList.mem_keys.mp hk)

/-- Only the entry under `key` goes, and only when it names `sid`. -/
theorem lookup_dropIndex_other {kv : Kv Snap} {key k : String} {sid : Id}
    (h : k ≠ key ∨ kv.lookup key ≠ some (.sid sid)) :
    (dropIndex kv key sid).lookup k = kv.lookup k := by
  unfold dropIndex
  split
  · rename_i s hs
    split
    · rename_i heq
      rcases h with hne | hne
      · exact AList.lookup_erase_ne hne
      · rw [heq] at hs
        exact absurd hs hne
    · rfl
  · rfl

theorem lookup_dropIndex_self {kv : Kv Snap} {key : String} {sid : Id}
    (h : kv.lookup key = some (.sid sid)) : (dropIndex kv key sid).lookup key = none := by
  unfold dropIndex
  rw [h]
  dsimp only
  rw [if_pos rfl]
  exact AList.lookup_erase _ _

theorem entry_eq_sid {owner link sid : Id} {device : Option Id} {h : List (Change Snap)}
    (he : entry owner link device h = some (.sid sid)) :
    mostRecent owner link device h = some sid := by
  unfold entry at he
  cases hm : mostRecent owner link device h with
  | none =>
    rw [hm] at he
    cases he
  | some s =>
    rw [hm, Option.bind_some] at he
    cases hc : current owner s h with
    | none =>
      rw [hc] at he
      cases he
    | some r =>
      rw [hc] at he
      cases he
      rfl

/-- Deleting a session that is not a slot's most recent one leaves its entry. -/
theorem entry_delete_other {owner sid owner' link : Id} {device : Option Id}
    {h : List (Change Snap)}
    (hother : ¬ (owner = owner' ∧ mostRecent owner' link device h = some sid)) :
    entry owner' link device (.delete owner sid :: h) = entry owner' link device h := by
  rw [entry, entry, mostRecent]
  cases hm : mostRecent owner' link device h with
  | none => rfl
  | some s =>
    rw [Option.bind_some, Option.bind_some, current, if_neg]
    rintro ⟨ho, hs⟩
    exact hother ⟨ho, by rw [hm, hs]⟩

theorem keys_dropIndex {kv : Kv Snap} {key k : String} {sid : Id}
    (hk : k ∈ (dropIndex kv key sid).keys) : k ∈ kv.keys := by
  unfold dropIndex at hk
  split at hk
  · split at hk
    · exact AList.mem_keys.mp (AList.mem_erase.mp (AList.mem_keys.mpr hk)).2
    · exact hk
  · exact hk

/-- The record key is gone and the slot of the deleted record was looked at;
everything else is as it was. -/
theorem delete_kv {h : List (Change Snap)} {kv : Kv Snap} (hrep : Rep h kv) {owner : Id} (sid : Id)
    (ho : PlainOwner owner) : (delete kv owner sid).2 =
      match current owner sid h with
      | none => kv.erase (recordKey owner sid)
      | some e =>
        dropIndex (kv.erase (recordKey owner sid)) (slotKey owner e.peerLinkId e.peerDeviceId)
          sid := by
  unfold delete
  dsimp only
  rw [hrep.record _ _ ho]
  cases current owner sid h with
  | none => rfl
  | some e => rfl

theorem rep_delete {h : List (Change Snap)} {kv : Kv Snap} (hrep : Rep h kv) {owner sid : Id}
    (ho : PlainOwner owner) (hplain : ∀ c ∈ h, c.Plain) (hsteady : Steady h) :
    Rep (.delete owner sid :: h) (delete kv owner sid).2 := by
  rw [delete_kv hrep sid ho]
  have hlink : ∀ e, current owner sid h = some e → Plain e.peerLinkId := by
    intro e he
    obtain ⟨-, -, r, hmem, -, -, hl, -⟩ := current_ids he
    rw [← hl]
    exact (hplain _ hmem).2
  refine ⟨fun owner' sid' ho' => ?_, fun owner' link' device' ho' hl' => ?_, fun k hk => ?_⟩
  · have herased : (kv.erase (recordKey owner sid)).lookup (recordKey owner' sid') =
        (current owner' sid' (.delete owner sid :: h)).map .record := by
      rw [current]
      split
      · rename_i hids
        rw [hids.1, hids.2, AList.lookup_erase]
        rfl
      · rename_i hids
        rw [AList.lookup_erase_ne, hrep.record _ _ ho']
        intro heq
        obtain ⟨howner, hsid⟩ := recordKey_inj ho'.1 ho.1 heq
        exact hids ⟨howner.symm, hsid.symm⟩
    cases current owner sid h with
    | none => exact herased
    | some e => exact (lookup_dropIndex_other (.inl (recordKey_ne_slotKey ho'))).trans herased
  · have herased : (kv.erase (recordKey owner sid)).lookup (slotKey owner' link' device') =
        entry owner' link' device' h := by
      rw [AList.lookup_erase_ne (recordKey_ne_slotKey ho).symm, hrep.slot _ _ _ ho' hl']
    by_cases hsame : owner = owner' ∧ mostRecent owner' link' device' h = some sid
    · obtain ⟨rfl, hm⟩ := hsame
      have hgoal : entry owner link' device' (.delete owner sid :: h) = none := by
        rw [entry, mostRecent, hm, Option.bind_some, current, if_pos ⟨rfl, rfl⟩]
        rfl
      rw [hgoal]
      cases hcur : current owner sid h with
      | none =>
        refine herased.trans ?_
        rw [entry, hm, Option.bind_some, hcur]
        rfl
      | some e =>
        -- the slot is the one the deleted record names
        obtain ⟨-, -, r, hmem, hro, hrs, hrl, hrd⟩ := current_ids hcur
        obtain ⟨r', hmem', hro', hrs', hrl', hrd'⟩ := mostRecent_put hm
        obtain ⟨hl, hd⟩ := hsteady r r' hmem hmem' (hro.trans hro'.symm) (hrs.trans hrs'.symm)
        dsimp only
        rw [← hrl, ← hrd, hl, hd, hrl', hrd']
        refine lookup_dropIndex_self ?_
        rw [herased, entry, hm, Option.bind_some, hcur]
        rfl
    · rw [entry_delete_other hsame]
      cases hcur : current owner sid h with
      | none => exact herased
      | some e =>
        refine (lookup_dropIndex_other ?_).trans herased
        by_cases hkey : slotKey owner' link' device' = slotKey owner e.peerLinkId e.peerDeviceId
        · refine .inr fun hnames => hsame ?_
          rw [← hkey, herased] at hnames
          exact ⟨(slotKey_inj ho' ho hl' (hlink e hcur) hkey).1.symm, entry_eq_sid hnames⟩
        · exact .inl hkey
  · refine hrep.keys k ?_
    cases hcur : current owner sid h with
    | none =>
      rw [hcur] at hk
      exact AList.mem_keys.mp (AList.mem_erase.mp (AList.mem_keys.mpr hk)).2
    | some e =>
      rw [hcur] at hk
      exact AList.mem_keys.mp (AList.mem_erase.mp (AList.mem_keys.mpr (keys_dropIndex hk))).2

theorem rep_after {h : List (Change Snap)} (hplain : ∀ c ∈ h, c.Plain) (hsteady : Steady h) :
    Rep h (after h) := by
  induction h with
  | nil =>
    refine ⟨fun _ _ _ => rfl, fun _ _ _ _ _ => rfl, fun k hk => ?_⟩
    cases hk
  | cons c h ih =>
    have hrep := ih (fun c' hc' => hplain c' (.tail _ hc')) hsteady.tail
    cases c with
    | put r => exact rep_put hrep (hplain _ (.head _)) hsteady
    | delete owner sid =>
      exact rep_delete hrep (hplain _ (.head _)) (fun c' hc' => hplain c' (.tail _ hc'))
        hsteady.tail

/-! ## The lookups -/

/-- The record of a slot's most recent session, while it exists. -/
def lookedUp (owner link : Id) (device : Option Id) (h : List (Change Snap)) :
    Option (Stored Snap) :=
  (mostRecent owner link device h).bind fun s => (current owner s h).map .record

theorem Rep.follow {h : List (Change Snap)} {kv : Kv Snap} (hrep : Rep h kv) {owner link : Id}
    (device : Option Id) (ho : PlainOwner owner) (hl : Plain link) :
    follow kv owner (slotKey owner link device) = lookedUp owner link device h := by
  unfold SessionIndex.follow
  rw [hrep.slot _ _ _ ho hl, entry, lookedUp]
  cases mostRecent owner link device h with
  | none => rfl
  | some s =>
    rw [Option.bind_some, Option.bind_some]
    cases hc : current owner s h with
    | none => rfl
    | some r =>
      dsimp only [Option.map_some]
      rw [getById, hrep.record _ _ ho, hc]
      rfl

theorem recordKey_prefix (owner sid : Id) :
    recordPrefix.toList.isPrefixOf (recordKey owner sid).toList = true := by
  rw [recordKey_toList, List.isPrefixOf_iff_prefix]
  exact List.prefix_append _ _

/-- What the scan picks under a key. -/
theorem Rep.picks {h : List (Change Snap)} {kv : Kv Snap} (hrep : Rep h kv) {owner link : Id}
    {r : SessionRecord Snap} {k : String} (hk : k ∈ kv.keys)
    (hpick : (kv.lookup k).bind (deviceOf owner link) = some r) :
    k = recordKey owner r.sessionId ∧ current owner r.sessionId h = some r ∧ r.peerLinkId = link ∧
    r.peerDeviceId.isSome = true := by
  rcases hrep.keys k hk with ⟨o, s, ho, rfl⟩ | ⟨o, l, d, ho, hl, rfl⟩
  · rw [hrep.record _ _ ho] at hpick
    cases hc : current o s h with
    | none =>
      rw [hc] at hpick
      cases hpick
    | some r' =>
      rw [hc] at hpick
      simp only [Option.map_some, Option.bind_some, deviceOf] at hpick
      split at hpick
      · rename_i hids
        cases hpick
        obtain ⟨howner, hsid, -⟩ := current_ids hc
        obtain ⟨rfl, rfl⟩ : o = owner ∧ s = r.sessionId := ⟨howner.symm.trans hids.1, hsid.symm⟩
        exact ⟨rfl, hc, hids.2⟩
      · cases hpick
  · rw [hrep.slot _ _ _ ho hl, entry] at hpick
    cases hm : mostRecent o l d h with
    | none =>
      rw [hm] at hpick
      cases hpick
    | some s =>
      rw [hm, Option.bind_some] at hpick
      cases hc : current o s h with
      | none =>
        rw [hc] at hpick
        cases hpick
      | some r' =>
        rw [hc] at hpick
        cases hpick

theorem Rep.mem_list {h : List (Change Snap)} {kv : Kv Snap} (hrep : Rep h kv)
    (localeLe : String → String → Bool) {owner : Id} (link : Id) (ho : PlainOwner owner)
    (r : SessionRecord Snap) :
    r ∈ listByPeerLink localeLe kv owner link ↔
    ∃ sid, current owner sid h = some r ∧ r.peerLinkId = link ∧ r.peerDeviceId.isSome = true := by
  unfold listByPeerLink
  dsimp only
  rw [(List.perm_insertionSort _ _).mem_iff, List.mem_filterMap]
  constructor
  · rintro ⟨k, hk, hpick⟩
    obtain ⟨-, hc, hids⟩ := hrep.picks (List.mem_filter.mp hk).1 hpick
    exact ⟨r.sessionId, hc, hids⟩
  · rintro ⟨sid, hc, hl, hd⟩
    have hlook : kv.lookup (recordKey owner sid) = some (.record r) := by
      rw [hrep.record _ _ ho, hc]
      rfl
    have hmem : recordKey owner sid ∈ kv.keys := by
      rw [← AList.mem_keys, ← AList.lookup_isSome, hlook]
      rfl
    refine ⟨recordKey owner sid, List.mem_filter.mpr ⟨hmem, recordKey_prefix owner sid⟩, ?_⟩
    rw [hlook, Option.bind_some, deviceOf, if_pos ⟨(current_ids hc).1, hl, hd⟩]

theorem Rep.nodup_list {h : List (Change Snap)} {kv : Kv Snap} (hrep : Rep h kv)
    (localeLe : String → String → Bool) (owner link : Id) :
    (listByPeerLink localeLe kv owner link).Nodup := by
  unfold listByPeerLink
  dsimp only
  rw [(List.perm_insertionSort _ _).nodup_iff]
  -- the key a record is picked under is determined by the record
  have hnodup : ∀ l : List String, (∀ k ∈ l, k ∈ kv.keys) → l.Nodup →
      (l.filterMap fun k => (kv.lookup k).bind (deviceOf owner link)).Nodup := by
    intro l
    induction l with
    | nil => exact fun _ _ => List.nodup_nil
    | cons k l ih =>
      intro hmem hnd
      obtain ⟨hknot, hnd⟩ := List.nodup_cons.mp hnd
      have hrest := ih (fun k' hk' => hmem k' (.tail _ hk')) hnd
      rw [List.filterMap_cons]
      cases hp : (kv.lookup k).bind (deviceOf owner link) with
      | none => exact hrest
      | some r =>
        refine List.nodup_cons.mpr ⟨fun hin => ?_, hrest⟩
        obtain ⟨k', hk', hp'⟩ := List.mem_filterMap.mp hin
        have hkey := (hrep.picks (hmem k (.head _)) hp).1
        have hkey' := (hrep.picks (hmem k' (.tail _ hk')) hp').1
        rw [hkey, ← hkey'] at hknot
        exact hknot hk'
  exact hnodup _ (fun k hk => (List.mem_filter.mp hk).1) (kv.nodupKeys.filter _)

/-- Deleting a session keeps what a slot shows, unless it shows that
session. -/
theorem lookedUp_delete {owner sid owner' link : Id} {device : Option Id} {h : List (Change Snap)}
    (hother : ∀ r, lookedUp owner' link device h = some (.record r) →
        ¬ (owner = owner' ∧ r.sessionId = sid)) :
    lookedUp owner' link device (.delete owner sid :: h) = lookedUp owner' link device h := by
  unfold lookedUp at hother ⊢
  rw [mostRecent]
  cases hm : mostRecent owner' link device h with
  | none => rfl
  | some s =>
    rw [hm, Option.bind_some] at hother
    rw [Option.bind_some, Option.bind_some, current]
    split
    · rename_i hids
      cases hc : current owner' s h with
      | none => rfl
      | some r =>
        have hsid := (current_ids hc).2.1
        exact absurd ⟨hids.1, hsid.trans hids.2.symm⟩ (hother r (by rw [hc]; rfl))
    · rfl

theorem current_delete {owner sid owner' sid' : Id} {h : List (Change Snap)}
    {r : SessionRecord Snap} :
    current owner sid (.delete owner' sid' :: h) = some r ↔
    current owner sid h = some r ∧ ¬ (owner' = owner ∧ r.sessionId = sid') := by
  rw [current]
  constructor
  · intro hr
    split at hr
    · cases hr
    · rename_i hids
      refine ⟨hr, fun hsame => hids ⟨hsame.1, ?_⟩⟩
      rw [← hsame.2, (current_ids hr).2.1]
  · rintro ⟨hr, hother⟩
    rw [if_neg]
    · exact hr
    · rintro ⟨ho, hs⟩
      exact hother ⟨ho, by rw [(current_ids hr).2.1, hs]⟩

/-- **The session indexes are exact**: after any puts and deletes the lookups
show the most recent session of their slot while it exists, the scan lists the
device sessions of its link once each, and a delete changes no lookup of
another session. -/
theorem lookups_exact (localeLe : String → String → Bool) (h : List (Change Snap))
    (hplain : ∀ c ∈ h, c.Plain) (hsteady : Steady h) (owner link : Id) (ho : PlainOwner owner)
    (hl : Plain link) :
    getByPeerLinkId (after h) owner link = lookedUp owner link none h ∧
    (∀ device,
        getByPeerLinkAndDevice (after h) owner link device = lookedUp owner link (some device) h) ∧
    (listByPeerLink localeLe (after h) owner link).Nodup ∧
    (∀ r, r ∈ listByPeerLink localeLe (after h) owner link ↔
        ∃ sid, current owner sid h = some r ∧ r.peerLinkId = link ∧ r.peerDeviceId.isSome = true) ∧
    ∀ owner' sid', PlainOwner owner' →
      (∀ sid, ¬ (owner' = owner ∧ sid = sid') →
          getById (delete (after h) owner' sid').2 owner sid = getById (after h) owner sid) ∧
      ((∀ r, getByPeerLinkId (after h) owner link = some (.record r) →
            ¬ (owner' = owner ∧ r.sessionId = sid')) →
        getByPeerLinkId (delete (after h) owner' sid').2 owner link =
          getByPeerLinkId (after h) owner link) ∧
      (∀ device,
          (∀ r, getByPeerLinkAndDevice (after h) owner link device = some (.record r) →
              ¬ (owner' = owner ∧ r.sessionId = sid')) →
          getByPeerLinkAndDevice (delete (after h) owner' sid').2 owner link device =
            getByPeerLinkAndDevice (after h) owner link device) ∧
      ∀ r, r ∈ listByPeerLink localeLe (delete (after h) owner' sid').2 owner link ↔
        r ∈ listByPeerLink localeLe (after h) owner link ∧
        ¬ (owner' = owner ∧ r.sessionId = sid') := by
  have hrep := rep_after hplain hsteady
  have hlink := hrep.follow none ho hl
  have hdevice := fun device => hrep.follow (some device) ho hl
  refine ⟨hlink, hdevice, hrep.nodup_list localeLe owner link, hrep.mem_list localeLe link ho,
    fun owner' sid' ho' => ?_⟩
  have hrep' : Rep (.delete owner' sid' :: h) (delete (after h) owner' sid').2 :=
    rep_delete hrep ho' hplain hsteady
  refine ⟨fun sid hother => ?_, fun hother => ?_, fun device hother => ?_, fun r => ?_⟩
  · rw [getById, getById, hrep'.record _ _ ho, hrep.record _ _ ho, current, if_neg]
    exact fun hsame => hother ⟨hsame.1, hsame.2.symm⟩
  · refine (hrep'.follow none ho hl).trans
      ((lookedUp_delete fun r hr => hother r ?_).trans hlink.symm)
    exact hlink.trans hr
  · refine (hrep'.follow (some device) ho hl).trans
      ((lookedUp_delete fun r hr => hother r ?_).trans (hdevice device).symm)
    exact (hdevice device).trans hr
  · rw [hrep'.mem_list localeLe link ho, hrep.mem_list localeLe link ho]
    constructor
    · rintro ⟨sid, hc, hids⟩
      obtain ⟨hc, hother⟩ := current_delete.mp hc
      exact ⟨⟨sid, hc, hids⟩, hother⟩
    · rintro ⟨⟨sid, hc, hids⟩, hother⟩
      exact ⟨sid, current_delete.mpr ⟨hc, hother⟩, hids⟩

namespace Example

def ofText (s : String) (h : isId s = true := by decide) : Id := ⟨s, h⟩

/-- A session of owner `owner` without a device. -/
def row (owner sid : Id) (snapshot : Nat) : SessionRecord Nat :=
  ⟨sid, ofText "l", owner, ofText "p", none, .active, snapshot, 1, 1, 1⟩

/-- Owner `a:` puts session `b`, then owner `a` puts session `:b`: both records
lie under `peer-link:sessions:a:::b`. -/
def colliding : List (Change Nat) :=
  [.put (row (ofText "a") (ofText ":b") 2), .put (row (ofText "a:") (ofText "b") 1)]

/-- Owner `a` puts two sessions and deletes the first. -/
def replaced : List (Change Nat) :=
  [.delete (ofText "a") (ofText "s"), .put (row (ofText "a") (ofText "t") 2),
  .put (row (ofText "a") (ofText "s") 1)]

/-- The ids of a change have no `::`, and its owner does not read like an
index. -/
def admitted : Change Nat → Bool
  | .put r => [r.sessionId, r.peerLinkId, r.localAccountId, r.peerAccountId].all
      (fun i => !decide ([':', ':'] <:+: i.val.toList)) &&
      !"by-peer-link".toList.isPrefixOf r.localAccountId.val.toList
  | .delete owner sid => [owner, sid].all (fun i => !decide ([':', ':'] <:+: i.val.toList)) &&
      !"by-peer-link".toList.isPrefixOf owner.val.toList

end Example

open Example in
/-- The lookup of owner `a:` returns the record of owner `a`. -/
theorem lookup_collides : (∀ c ∈ colliding, admitted c = true) ∧ Steady colliding ∧
    getByPeerLinkId (after colliding) (ofText "a:") (ofText "l") ≠
      lookedUp (ofText "a:") (ofText "l") none colliding := by
  refine ⟨by decide +kernel, ?_, by decide +kernel⟩
  intro r r' hr hr' _ _
  simp only [colliding, List.mem_cons, Change.put.injEq, List.not_mem_nil, or_false] at hr hr'
  rcases hr with rfl | rfl <;> rcases hr' with rfl | rfl <;> exact ⟨rfl, rfl⟩

open Example in
/-- The first session is gone and the second is still found. -/
theorem lookups_exact_replaced :
    getByPeerLinkId (after replaced) (ofText "a") (ofText "l") =
      some (.record (row (ofText "a") (ofText "t") 2)) := by
  have hplain : ∀ c ∈ replaced, c.Plain := by
    intro c hc
    simp only [replaced, List.mem_cons, List.not_mem_nil, or_false] at hc
    rcases hc with rfl | rfl | rfl
    · exact ⟨⟨by decide, by decide⟩, by decide⟩
    · exact ⟨⟨⟨by decide, by decide⟩, by decide⟩, by decide, by decide⟩
    · exact ⟨⟨⟨by decide, by decide⟩, by decide⟩, by decide, by decide⟩
  have hsteady : Steady replaced := by
    intro r r' hr hr' _ _
    simp only [replaced, List.mem_cons, Change.put.injEq, reduceCtorEq, List.not_mem_nil,
      or_false, false_or] at hr hr'
    rcases hr with rfl | rfl <;> rcases hr' with rfl | rfl <;> exact ⟨rfl, rfl⟩
  have hexact := lookups_exact (fun _ _ => true) replaced hplain hsteady (ofText "a") (ofText "l")
    ⟨⟨by decide, by decide⟩, by decide⟩ ⟨by decide, by decide⟩
  rw [hexact.1]
  decide +kernel

end RezSdk.L2.SessionIndex
