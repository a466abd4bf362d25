import RezSdk.L3Service.Counting
import RezSdk.L3Service.DeviceSets

/-!
# The authority binding of a device set (`PeerLinkService.js`)

`deviceSetAuthorityBinding` names what a revision of a device set stands for:
version, purpose, account, revision and the membership, as (device id, device
key, inbox) triples. A refreshed set (other times, another signature, the rows
in another order) has to keep it, or every refresh would look like
equivocation; a set with another membership has to change it, or equivocation
would pass.

The device rows of a record may carry further fields, which the function drops
before it hashes; they are the `Extra` of a row here.

Results:
* `sortByText_eq_iff`: with distinct ids, sorting two lists of devices by id
  gives one list exactly when they hold the same devices.
* `authorityBinding_eq_iff`: two records have one binding exactly when they
  agree on the governed fields.
-/
namespace RezSdk.L4.AuthorityBinding

open RezSdk.L1 RezSdk.L2 RezSdk.L3

variable {Snap Extra Extra' : Type}

/-- A device of a `DeviceSetRecordV1`, with the fields that are not governed. -/
structure DeviceRow (Extra : Type) where
  deviceId : Id
  devicePublicKeyB64 : Id
  inboxId : Id
  extra : Extra
deriving DecidableEq

/-- A `DeviceSetRecordV1` with its rows as the class keeps them. -/
structure RowSet (Extra : Type) where
  v : Nat
  purpose : String
  accountIdentityPublicKeyB64 : Id
  revision : Nat
  devices : List (DeviceRow Extra)
  issuedAtMs : Nat
  expiresAtMs : Nat
  sigB64 : Id
deriving DecidableEq

/-- The (deviceId, devicePublicKeyB64, inboxId) triple of a row. -/
def DeviceRow.triple (d : DeviceRow Extra) : DeviceEntry :=
  ⟨d.deviceId, d.devicePublicKeyB64, d.inboxId⟩

/-- mirrors src/peer-link/PeerLinkService.js:279-292 -/
def authorityBinding (core : Core Snap) (set : RowSet Extra) : String :=
  let devices := sortByText core (·.deviceId.val) (set.devices.map DeviceRow.triple)
  core.authorityHash
    { v := set.v
      purpose := set.purpose
      accountIdentityPublicKeyB64 := set.accountIdentityPublicKeyB64
      revision := set.revision
      devices }

/-- The record as the rest of the service sees it. -/
def RowSet.record (set : RowSet Extra) : DeviceSetRecord :=
  { v := set.v
    purpose := set.purpose
    accountIdentityPublicKeyB64 := set.accountIdentityPublicKeyB64
    revision := set.revision
    devices := set.devices.map DeviceRow.triple
    issuedAtMs := set.issuedAtMs
    expiresAtMs := set.expiresAtMs
    sigB64 := set.sigB64 }

/-- It is the binding that `ingestPeerDeviceSet` compares and stores. -/
theorem authorityBinding_record (core : Core Snap) (set : RowSet Extra) :
    authorityBinding core set = deviceSetAuthorityBinding core set.record := rfl

/-! ## The property -/

/-- No two devices of the record have one id. -/
def RowSet.Distinct (set : RowSet Extra) : Prop := (set.devices.map (·.deviceId)).Nodup

/-- The two records agree on all that a revision stands for. -/
structure SameAuthority (set : RowSet Extra) (set' : RowSet Extra') : Prop where
  v : set.v = set'.v
  purpose : set.purpose = set'.purpose
  account : set.accountIdentityPublicKeyB64 = set'.accountIdentityPublicKeyB64
  revision : set.revision = set'.revision
  triples : ∀ d : DeviceEntry, d ∈ set.devices.map DeviceRow.triple ↔
    d ∈ set'.devices.map DeviceRow.triple

/-- `localeCompare` is a total order on ids, with ties only between equal
ones. -/
structure Collates (core : Core Snap) : Prop where
  total : ∀ a b : Id, core.localeLe a.val b.val = true ∨ core.localeLe b.val a.val = true
  trans : ∀ a b c : Id, core.localeLe a.val b.val = true → core.localeLe b.val c.val = true →
    core.localeLe a.val c.val = true
  ties : ∀ a b : Id, core.localeLe a.val b.val = true → core.localeLe b.val a.val = true → a = b

/-! ## Sorting by id -/

theorem perm_sortByText (core : Core Snap) (l : List DeviceEntry) :
    (sortByText core (·.deviceId.val) l).Perm l := List.perm_insertionSort _ l

theorem pairwise_sortByText {core : Core Snap} (hcore : Collates core) (l : List DeviceEntry) :
    (sortByText core (·.deviceId.val) l).Pairwise fun a b => core.localeLe a.deviceId.val
      b.deviceId.val = true := by
  have htotal : Std.Total fun a b :
      DeviceEntry => core.localeLe a.deviceId.val b.deviceId.val = true :=
    ⟨fun a b => hcore.total a.deviceId b.deviceId⟩
  have htrans : IsTrans DeviceEntry fun a b => core.localeLe a.deviceId.val b.deviceId.val = true :=
    ⟨fun a b c => hcore.trans a.deviceId b.deviceId c.deviceId⟩
  exact List.pairwise_insertionSort _ l

/-- An id stands for one device of a list with distinct ids. -/
theorem entry_of_id {l : List DeviceEntry} (h : (l.map (·.deviceId)).Nodup) {a b : DeviceEntry}
    (ha : a ∈ l) (hb : b ∈ l) (hid : a.deviceId = b.deviceId) : a = b :=
  List.inj_on_of_nodup_map h ha hb hid

/-- Sorting forgets the order of the devices and nothing else. -/
theorem sortByText_eq_iff {core : Core Snap} (hcore : Collates core) {l l' : List DeviceEntry}
    (h : (l.map (·.deviceId)).Nodup) (h' : (l'.map (·.deviceId)).Nodup) :
    sortByText core (·.deviceId.val) l = sortByText core (·.deviceId.val) l' ↔
    ∀ d, d ∈ l ↔ d ∈ l' := by
  have hperm := perm_sortByText core l
  have hperm' := perm_sortByText core l'
  constructor
  · intro heq d
    rw [← hperm.mem_iff, heq, hperm'.mem_iff]
  · intro hmem
    have hboth : l.Perm l' := (List.perm_ext_iff_of_nodup h.of_map h'.of_map).mpr hmem
    refine List.Perm.eq_of_pairwise (fun a b ha hb hab hba => ?_) (pairwise_sortByText hcore l)
      (pairwise_sortByText hcore l') (hperm.trans (hboth.trans hperm'.symm))
    have hid : a.deviceId = b.deviceId := hcore.ties _ _ hab hba
    have hb : b ∈ l := (hmem b).mpr (hperm'.mem_iff.mp hb)
    exact entry_of_id h (hperm.mem_iff.mp ha) hb hid

theorem RowSet.Distinct.triples {set : RowSet Extra} (h : set.Distinct) :
    ((set.devices.map DeviceRow.triple).map (·.deviceId)).Nodup := by
  rw [List.map_map]
  exact h

/-- **The authority binding** is the same for two records exactly when they
agree on version, purpose, account, revision and the set of their devices'
(id, key, inbox) triples: the order of the rows, their other fields, the times
and the signature do not count. -/
theorem authorityBinding_eq_iff (core : Core Snap) (hhash : Function.Injective core.authorityHash)
    (hcore : Collates core) (set : RowSet Extra) (set' : RowSet Extra') (h : set.Distinct)
    (h' : set'.Distinct) :
    authorityBinding core set = authorityBinding core set' ↔ SameAuthority set set' := by
  have hsort := sortByText_eq_iff hcore h.triples h'.triples
  constructor
  · intro heq
    have hcontent := hhash heq
    rw [AuthorityContent.mk.injEq] at hcontent
    obtain ⟨hv, hpurpose, haccount, hrevision, hdevices⟩ := hcontent
    exact ⟨hv, hpurpose, haccount, hrevision, hsort.mp hdevices⟩
  · intro hsame
    have hcontent : sortByText core (·.deviceId.val) (set.devices.map DeviceRow.triple) =
        sortByText core (·.deviceId.val) (set'.devices.map DeviceRow.triple) :=
          hsort.mpr hsame.triples
    simp only [authorityBinding, hsame.v, hsame.purpose, hsame.account, hsame.revision, hcontent]

namespace Example

open Counting (a b c d)

/-! A hash without collisions: the content written out, every list with a mark
before each item and one at its end. -/

def marked {α : Type} (item : α → List Char) (l : List α) : List Char :=
  l.flatMap (fun x => '+' :: item x) ++ ['.']

/-- What `item` writes can be read back from the front of a text. -/
def Readable {α : Type} (item : α → List Char) : Prop :=
  ∀ x y r r', item x ++ r = item y ++ r' → x = y ∧ r = r'

theorem marked_readable {α : Type} {item : α → List Char} (h : Readable item) :
    Readable (marked item) := by
  intro l
  induction l with
  | nil =>
    intro l' r r' heq
    cases l' with
    | nil => exact ⟨rfl, by simpa [marked] using heq⟩
    | cons y l' => simp [marked] at heq
  | cons x l ih =>
    intro l' r r' heq
    cases l' with
    | nil => simp [marked] at heq
    | cons y l' =>
      simp only [marked, List.flatMap_cons, List.cons_append, List.append_assoc,
        List.cons.injEq, true_and] at heq
      obtain ⟨rfl, hrest⟩ := h _ _ _ _ heq
      have hrest : marked item l ++ r = marked item l' ++ r' := by
        simpa [marked] using hrest
      obtain ⟨rfl, rfl⟩ := ih _ _ _ hrest
      exact ⟨rfl, rfl⟩

def word (s : String) : List Char := marked (fun x => [x]) s.toList

theorem word_readable : Readable word := by
  intro s s' r r' heq
  have hchar : Readable fun x : Char => [x] := fun x y r r' h => by simpa using h
  obtain ⟨hs, hr⟩ := marked_readable hchar _ _ _ _ heq
  exact ⟨String.toList_inj.mp hs, hr⟩

def count (n : Nat) : List Char := marked (fun _ => []) (List.replicate n ())

theorem count_readable : Readable count := by
  intro n n' r r' heq
  have hunit : Readable fun _ : Unit => [] := fun x y r r' h => ⟨rfl, h⟩
  obtain ⟨hn, hr⟩ := marked_readable hunit _ _ _ _ heq
  exact ⟨by simpa using congrArg List.length hn, hr⟩

theorem id_val {x y : Id} (h : x.val = y.val) : x = y := by
  cases x
  cases y
  cases h
  rfl

def triple (e : DeviceEntry) : List Char :=
  word e.deviceId.val ++ (word e.devicePublicKeyB64.val ++ word e.inboxId.val)

theorem triple_readable : Readable triple := by
  intro e e' r r' heq
  simp only [triple, List.append_assoc] at heq
  obtain ⟨hid, heq⟩ := word_readable _ _ _ _ heq
  obtain ⟨hkey, heq⟩ := word_readable _ _ _ _ heq
  obtain ⟨hinbox, heq⟩ := word_readable _ _ _ _ heq
  refine ⟨?_, heq⟩
  rw [DeviceEntry.mk.injEq]
  exact ⟨id_val hid, id_val hkey, id_val hinbox⟩

def content (x : AuthorityContent) : List Char :=
  count x.v ++ (word x.purpose ++
    (word x.accountIdentityPublicKeyB64.val ++ (count x.revision ++ marked triple x.devices)))

def core : Core Nat :=
  { Counting.core with
    localeLe := fun x y => decide (x ≤ y)
    authorityHash := fun x => String.ofList (content x) }

theorem core_hash : Function.Injective core.authorityHash := by
  intro x x' heq
  have heq : content x = content x' := String.ofList_injective heq
  have heq : content x ++ [] = content x' ++ [] := by rw [heq]
  simp only [content, List.append_assoc] at heq
  obtain ⟨hv, heq⟩ := count_readable _ _ _ _ heq
  obtain ⟨hpurpose, heq⟩ := word_readable _ _ _ _ heq
  obtain ⟨haccount, heq⟩ := word_readable _ _ _ _ heq
  obtain ⟨hrevision, heq⟩ := count_readable _ _ _ _ heq
  obtain ⟨hdevices, -⟩ := marked_readable triple_readable _ _ _ _ heq
  rw [AuthorityContent.mk.injEq]
  exact ⟨hv, hpurpose, id_val haccount, hrevision, hdevices⟩

theorem core_collates : Collates core where
  total x y := by
    simp only [core, decide_eq_true_eq]
    exact String.le_total x.val y.val
  trans x y z hxy hyz := by
    simp only [core, decide_eq_true_eq] at hxy hyz ⊢
    exact String.le_trans hxy hyz
  ties x y hxy hyx := by
    simp only [core, decide_eq_true_eq] at hxy hyx
    exact id_val (String.le_antisymm hxy hyx)

/-- The set of account `a` with two devices. -/
def issued : RowSet Unit :=
  ⟨1, "devices", a, 7, [⟨b, b, b, ()⟩, ⟨c, c, c, ()⟩], 10, 20, a⟩

/-- The same membership, read back in another order with a further field and
signed anew. -/
def refreshed : RowSet Nat :=
  ⟨1, "devices", a, 7, [⟨c, c, c, 5⟩, ⟨b, b, b, 6⟩], 30, 40, d⟩

end Example

open Example in
theorem authorityBinding_refreshed :
    issued.Distinct ∧ refreshed.Distinct ∧
    authorityBinding core issued = authorityBinding core refreshed := by
  have hissued : issued.Distinct := by
    unfold RowSet.Distinct
    decide
  have hrefreshed : refreshed.Distinct := by
    unfold RowSet.Distinct
    decide
  refine ⟨hissued, hrefreshed, ?_⟩
  refine (authorityBinding_eq_iff core core_hash core_collates issued refreshed
    hissued hrefreshed).mpr ?_
  refine ⟨rfl, rfl, rfl, rfl, fun e => ?_⟩
  simp only [issued, refreshed, List.map_cons, List.map_nil, List.mem_cons,
    List.not_mem_nil, or_false]
  exact or_comm

end RezSdk.L4.AuthorityBinding
