import RezSdk.Core.Histories
import RezSdk.L3Service.AuthorityStates
import RezSdk.L3Service.Footprints
import RezSdk.L4Runs.SetPublishing

/-!
# Revocations, from the account to its peers

An account that revokes device certificates publishes its authority state; who
opens it hands it to the opener of device sets.

* `authority_published`: a record that was published opens for as long as it is
  current, under the account's own key, and to exactly the certificates that
  were given, whatever their order and however often they were named.
* `revocation_reaches_ingest`: who has opened it ingests no device set whose
  chain has a revoked certificate, and such a run writes nothing but its own
  account keys.
* `sortedCertIds_eq_iff`: two lists are published as one text if and only if they
  name the same certificates.
-/
namespace RezSdk.L4.AuthorityStates

open RezSdk.L1 RezSdk.L2 RezSdk.L3 RezSdk.L1.JsonText RezSdk.L4.SetOpening RezSdk.L4.SetPublishing

variable {Snap : Type}

/-! ## The list of certificates -/

section

variable {ids others : List Str} {c : Str}

theorem perm_sortedCertIds : (sortedCertIds ids).Perm ids.reverse.dedup.reverse :=
  List.mergeSort_perm _ _

theorem mem_sortedCertIds : c ∈ sortedCertIds ids ↔ c ∈ ids := by
  rw [perm_sortedCertIds.mem_iff, List.mem_reverse, List.mem_dedup, List.mem_reverse]

theorem nodup_sortedCertIds : (sortedCertIds ids).Nodup := by
  rw [perm_sortedCertIds.nodup_iff, List.nodup_reverse]
  exact List.nodup_dedup _

theorem pairwise_sortedCertIds :
    (sortedCertIds ids).Pairwise fun x y => x.map UInt16.toNat ≤ y.map UInt16.toNat := by
  have h : (sortedCertIds ids).Pairwise fun x y =>
      decide (x.map UInt16.toNat ≤ y.map UInt16.toNat) = true := by
    refine List.pairwise_mergeSort (fun x y z hxy hyz => ?_) (fun x y => ?_) _
    · exact decide_eq_true ((of_decide_eq_true hxy).trans (of_decide_eq_true hyz))
    · rw [Bool.or_eq_true, decide_eq_true_iff, decide_eq_true_iff]
      exact le_total _ _
  exact h.imp fun hle => of_decide_eq_true hle

/-- A list in order that names every certificate once is the published one. -/
theorem sortedCertIds_eq
    (hsorted : others.Pairwise fun x y => x.map UInt16.toNat ≤ y.map UInt16.toNat)
    (hnodup : others.Nodup) (h : ∀ c, c ∈ ids ↔ c ∈ others) : sortedCertIds ids = others := by
  refine List.Perm.eq_of_pairwise (fun x y _ _ hxy hyx => ?_) pairwise_sortedCertIds hsorted ?_
  · exact List.map_injective_iff.mpr (fun _ _ => UInt16.toNat_inj.mp) (le_antisymm hxy hyx)
  · refine (List.perm_ext_iff_of_nodup nodup_sortedCertIds hnodup).mpr fun c => ?_
    rw [mem_sortedCertIds]
    exact h c

/-- The published list depends on the set of certificates alone. -/
theorem sortedCertIds_eq_iff :
    sortedCertIds ids = sortedCertIds others ↔ ∀ c, c ∈ ids ↔ c ∈ others := by
  refine ⟨fun h c => ?_, fun h => ?_⟩
  · rw [← mem_sortedCertIds, h, mem_sortedCertIds]
  · exact sortedCertIds_eq pairwise_sortedCertIds nodup_sortedCertIds fun c =>
      (h c).trans mem_sortedCertIds.symm

theorem sortedCertIds_idem : sortedCertIds (sortedCertIds ids) = sortedCertIds ids :=
  sortedCertIds_eq_iff.mpr fun _ => mem_sortedCertIds

end

/-! ## What is relied on -/

/-- The class `AccountAuthorityStateV1` and the primitives of the core. -/
structure Correct (core : Core Snap) (lib : AuthorityLib) : Prop where
  predicates : Predicates core
  /-- the account's signer signs with the key it names -/
  rootSigns : ∀ owner account msg n n' sig, core.answer (.authoritySigner owner) n =
    .ok (some account) →
    core.answer (.authoritySign owner msg) n' = .ok sig → Signed core account msg sig
  /-- the constructor keeps a state whose certificates are in order -/
  constructs : ∀ state built, sortedCertIds state.revokedCertIds = state.revokedCertIds →
    lib.construct state = .ok built →
    built = state
  /-- the class reads what it has written -/
  reads : ∀ state built, lib.construct state = .ok built →
    ∃ json, lib.payloadJson (lib.payloadText built) = some json ∧ lib.fromJson json = .ok built
  /-- a record of this kind that is signed by its owner is accepted while it is
  current -/
  verified : ∀ (skeleton : DurableSkeleton) (owner sig : Id) (nowMs : Nat), skeleton.v = 2 →
    skeleton.recordKind = lib.accountAuthorityStateRecordKind → skeleton.certChain = [] →
      skeleton.requiredCapability = "" →
    skeleton.ownerPublicKeyB64 = owner.val → skeleton.signerPublicKeyB64 = owner.val →
      skeleton.issuedAtMs ≤ nowMs →
    Signed core owner (core.durableSignable skeleton) sig →
    ((∃ n signer, core.answer (.verifyDurableRecordV2 ⟨skeleton, sig.val⟩ nowMs none) n =
    .ok (.ok signer)) ↔
      nowMs < skeleton.expiresAtMs)

/-- A device-set record is refused when its chain has a certificate that the
given state revokes. -/
def Revokes (core : Core Snap) (lib : AuthorityLib) (certId : Bytes → Str) : Prop :=
  ∀ record nowMs state n signer,
    core.answer (.verifyDurableRecordV2 record nowMs (some (lib.toRevocationState state))) n =
      .ok (.ok signer) →
    ∀ cert ∈ record.certChain, certId cert ∉ state.revokedCertIds

/-! ## What is published -/

/-- `state` is what the account `account` has published as `p`. -/
structure Authored (svc : DeviceService Snap) (lib : AuthorityLib) (a : AuthorityArgs)
    (p : PublishedAuthority) (account : Id) (epoch : Nat) (ids : List Str)
    (state : AuthorityState) : Prop where
  root : svc.hasAdminRoot = true
  derives : svc.core.deriveAccountId account = some a.owner
  epochGiven : a.epoch = some (epoch : Int)
  idsGiven : a.revokedCertIds = some ids
  coordinates : p.coordinates = ⟨lib.accountAuthorityStateRecordKind, "v1", account⟩
  body : state.toAuthorityStateBody = authorityBody lib account epoch ids
    (cutoffOf a.minValidIssuedAtMs) p.record.issuedAtMs
  json : ∃ json, lib.payloadJson (lib.payloadText state) = some json ∧ lib.fromJson json = .ok state
  signed : Signed svc.core account (lib.signableBytes state.toAuthorityStateBody) state.sigB64
  skeleton : p.record.toDurableSkeleton = authoritySkeleton lib account
    (lib.payloadText state) p.record.issuedAtMs a.ttlMs
  sealed : ∃ sig : Id, p.record.sigB64 = sig.val ∧
    Signed svc.core account (svc.core.durableSignable p.record.toDurableSkeleton) sig

section

variable {svc : DeviceService Snap} {lib : AuthorityLib} {a : AuthorityArgs}
  {p : PublishedAuthority}

theorem yields_rootSigner {owner : Id} : Yields svc.core (fun signer : SetSigner =>
    svc.core.deriveAccountId signer.accountPublicKeyB64 = some owner ∧
      ∃ n, svc.core.answer (.authoritySigner owner) n = .ok (some signer.accountPublicKeyB64))
    (resolveAccountIdentitySigner svc owner) := by
  refine Js.yields_bind yields_core fun found hfound => ?_
  refine Js.yields_bind Js.yields_orThrow fun account haccount => ?_
  subst haccount
  refine Js.yields_bind Js.yields_orThrow fun derived hderived => ?_
  refine Js.yields_bind Js.yields_ensure fun _ howner => ?_
  refine Js.yields_bind Js.yields_any fun identity _ => ?_
  refine Js.yields_bind Js.yields_any fun _ _ => ?_
  rw [decide_eq_true_eq] at howner
  subst howner
  exact Js.yields_pure ⟨hderived, hfound⟩

theorem yields_build (hcore : Correct svc.core lib) :
    Yields svc.core
      (fun p => ∃ account epoch ids state, Authored svc lib a p account epoch ids state)
      (buildAccountAuthorityStateRecord svc lib a) := by
  refine Js.yields_bind Js.yields_orThrow fun epoch hepoch => ?_
  refine Js.yields_bind Js.yields_orThrow fun ids hids => ?_
  refine Js.yields_bind Js.yields_any fun now _ => ?_
  refine Js.yields_bind Js.yields_ensure fun _ hroot => ?_
  refine Js.yields_bind yields_rootSigner fun signer hsigner => ?_
  obtain ⟨hderives, n, hn⟩ := hsigner
  refine Js.yields_bind yields_core fun stateSig hstate => ?_
  refine Js.yields_bind Js.yields_ofExcept fun built hbuilt => ?_
  refine Js.yields_bind yields_core fun envSig henv => ?_
  obtain ⟨n₁, hn₁⟩ := hstate
  obtain ⟨n₂, hn₂⟩ := henv
  have hjson := hcore.reads _ _ hbuilt
  obtain rfl := hcore.constructs _ _ sortedCertIds_idem hbuilt
  obtain ⟨hgiven, hpos⟩ := Option.filter_eq_some_iff.mp hepoch
  have hnat : (epoch.toNat : Int) = epoch := Int.toNat_of_nonneg (of_decide_eq_true hpos)
  exact Js.yields_pure ⟨signer.accountPublicKeyB64, epoch.toNat, ids, _, hroot,
    hderives, hnat ▸ hgiven, hids, rfl, rfl, hjson,
    hcore.rootSigns _ _ _ _ _ _ hn hn₁, rfl, envSig, rfl, hcore.rootSigns _ _ _ _ _ _ hn hn₂⟩

end

/-! ## What is opened -/

/-- What an opened state has been checked for. -/
structure Opened (core : Core Snap) (lib : AuthorityLib) (account : Id) (record : DurableRecord)
    (nowMs : Nat) (o : OpenedAuthority) : Prop where
  kind : record.recordKind = lib.accountAuthorityStateRecordKind
  owner : record.ownerPublicKeyB64 = account.val
  verified : ∃ n signer, core.answer (.verifyDurableRecordV2 record nowMs none) n = .ok (.ok signer)
  json : ∃ json, lib.payloadJson record.payloadB64 = some json ∧
    lib.fromJson json = .ok o.authorityState
  account : o.authorityState.accountIdentityPublicKeyB64 = account
  signer : o.authorityState.signerPublicKeyB64.val = record.signerPublicKeyB64
  signed : Signed core o.authorityState.signerPublicKeyB64
    (lib.signableBytes o.authorityState.toAuthorityStateBody)
    o.authorityState.sigB64
  projected : o = ⟨o.authorityState, lib.toRevocationState o.authorityState, o.authorityState.epoch⟩

section

variable {core : Core Snap} {lib : AuthorityLib} {account : Id} {record : DurableRecord}
  {nowMs : Nat} {o : OpenedAuthority}

theorem yields_open (hpred : Predicates core) :
    Yields core (Opened core lib account record nowMs)
      (openAuthorityStateRecordAgainst lib account record nowMs) := by
  refine Js.yields_bind Js.yields_ensure fun _ hkind => ?_
  refine Js.yields_bind Js.yields_ensure fun _ howner => ?_
  refine Js.yields_bind yields_core fun verdict hverdict => ?_
  refine Js.yields_bind Js.yields_ofExcept fun signer hsigner => ?_
  refine Js.yields_bind Js.yields_orThrow fun json hjson => ?_
  refine Js.yields_bind Js.yields_ofExcept fun state hstate => ?_
  refine Js.yields_bind Js.yields_ensure fun _ haccount => ?_
  refine Js.yields_bind Js.yields_ensure fun _ hsame => ?_
  refine Js.yields_bind yields_core fun signed hsigned => ?_
  refine Js.yields_bind Js.yields_ensure fun _ hgood => ?_
  simp only [decide_eq_true_eq] at hkind howner haccount hsame
  obtain ⟨n, hn⟩ := hverdict
  obtain ⟨n', hn'⟩ := hsigned
  subst hgood
  have hverified : ∃ n signer, core.answer (.verifyDurableRecordV2 record nowMs none) n =
      .ok (.ok signer) := by
    cases verdict with
    | error reason => cases hsigner
    | ok key => exact ⟨n, key, hn⟩
  exact Js.yields_pure ⟨hkind, howner, hverified, ⟨json, hjson, hstate⟩, haccount,
    hsame, signed_of_once hpred hn', rfl⟩

theorem resolves_open (hpred : Predicates core) (h : Opened core lib account record nowMs o) :
    Resolves core o (openAuthorityStateRecordAgainst lib account record nowMs) := by
  obtain ⟨n, signer, hverified⟩ := h.verified
  obtain ⟨json, hjson, hstate⟩ := h.json
  refine Js.resolves_bind (Js.resolves_passed (decide_eq_true h.kind)) ?_
  refine Js.resolves_bind (Js.resolves_passed (decide_eq_true h.owner)) ?_
  refine Js.resolves_bind (resolves_core (v := (.ok signer : Except String Id)) fun n' =>
    (hpred.record _ _ _ n' n).trans hverified) ?_
  refine Js.resolves_bind (Js.resolves_ofExcept (a := signer) rfl) ?_
  refine Js.resolves_bind (Js.resolves_found hjson) ?_
  refine Js.resolves_bind (Js.resolves_ofExcept hstate) ?_
  refine Js.resolves_bind (Js.resolves_passed (decide_eq_true h.account)) ?_
  refine Js.resolves_bind (Js.resolves_passed (decide_eq_true h.signer)) ?_
  refine Js.resolves_bind (resolves_core h.signed) ?_
  refine Js.resolves_bind (Js.resolves_passed rfl) ?_
  rw [h.projected]
  exact Js.resolves_pure

end

section

variable {svc : DeviceService Snap} {lib : AuthorityLib} {a : AuthorityArgs}
  {p : PublishedAuthority} {account : Id} {epoch : Nat}
  {ids : List Str} {state : AuthorityState}

/-- Whoever opens the record, as whatever account, opens this state. -/
theorem Authored.only (h : Authored svc lib a p account epoch ids state) {core : Core Snap}
    {account' : Id} {nowMs : Nat} {o : OpenedAuthority}
    (ho : Opened core lib account' p.record nowMs o) :
    o = ⟨state, lib.toRevocationState state, epoch⟩ := by
  obtain ⟨json, hjson, hstate⟩ := h.json
  obtain ⟨json', hjson', hstate'⟩ := ho.json
  have hpayload : p.record.payloadB64 = lib.payloadText state :=
    congrArg DurableSkeleton.payloadB64 h.skeleton
  rw [hpayload, hjson, Option.some.injEq] at hjson'
  subst hjson'
  have hsame : state = o.authorityState := Except.ok.inj (hstate.symm.trans hstate')
  have hepoch : epoch = state.epoch := (congrArg AuthorityStateBody.epoch h.body).symm
  rw [ho.projected, ← hsame, hepoch]

theorem Authored.opened_iff (hcore : Correct svc.core lib)
    (h : Authored svc lib a p account epoch ids state) {nowMs : Nat}
    (hnow : p.record.issuedAtMs ≤ nowMs) :
    Opened svc.core lib account p.record nowMs ⟨state, lib.toRevocationState state, epoch⟩ ↔
    nowMs < p.record.issuedAtMs + a.ttlMs := by
  obtain ⟨sig, hsig, hsealed⟩ := h.sealed
  have hskeleton := h.skeleton
  have hexpires : p.record.expiresAtMs = p.record.issuedAtMs + a.ttlMs :=
    congrArg DurableSkeleton.expiresAtMs hskeleton
  have hrecord : p.record = ⟨p.record.toDurableSkeleton, sig.val⟩ := by rw [← hsig]
  have hverified := hcore.verified p.record.toDurableSkeleton account sig nowMs
      (by rw [hskeleton]; rfl) (by rw [hskeleton]; rfl)
    (by rw [hskeleton]; rfl) (by rw [hskeleton]; rfl) (by rw [hskeleton]; rfl)
    (by rw [hskeleton]; rfl) hnow hsealed
  rw [← hrecord, hexpires] at hverified
  refine ⟨fun ho => hverified.mp ho.verified, fun hcurrent => ?_⟩
  obtain ⟨json, hjson, hstate⟩ := h.json
  have hbody := h.body
  refine ⟨congrArg DurableSkeleton.recordKind hskeleton,
    congrArg DurableSkeleton.ownerPublicKeyB64 hskeleton,
    hverified.mpr hcurrent, ⟨json, ?_, hstate⟩,
      congrArg AuthorityStateBody.accountIdentityPublicKeyB64 hbody, ?_, ?_, ?_⟩
  · rw [congrArg DurableSkeleton.payloadB64 hskeleton]
    exact hjson
  · rw [congrArg DurableSkeleton.signerPublicKeyB64 hskeleton]
    exact congrArg (fun b => b.signerPublicKeyB64.val) hbody
  · have hsigner : state.signerPublicKeyB64 = account :=
      congrArg AuthorityStateBody.signerPublicKeyB64 hbody
    rw [hsigner]
    exact h.signed
  · have hepoch : state.epoch = epoch := congrArg AuthorityStateBody.epoch hbody
    rw [hepoch]

end

/-- **A published authority state opens**, while it is current, to the
certificates that were revoked. -/
theorem authority_published {svc : DeviceService Snap} {lib : AuthorityLib}
    (hcore : Correct svc.core lib) {a : AuthorityArgs} {τ : Run Snap} {p : PublishedAuthority}
    (hrun : Proc.Trace (buildAccountAuthorityStateRecord svc lib a) τ (.ok p))
    (hτ : ∀ e ∈ τ, Answered svc.core e) :
    ∃ account epoch ids state, Authored svc lib a p account epoch ids state ∧
      (∀ c, c ∈ state.revokedCertIds ↔ c ∈ ids) ∧ state.revokedCertIds.Nodup ∧
      ∀ nowMs, p.record.issuedAtMs ≤ nowMs →
        (Resolves svc.core ⟨state, lib.toRevocationState state, epoch⟩
            (openAuthorityStateRecordAgainst lib account p.record nowMs) ↔
          nowMs < p.record.issuedAtMs + a.ttlMs) := by
  obtain ⟨account, epoch, ids, state, h⟩ := Js.Yields.trace hrun hτ (yields_build hcore)
  have hids : state.revokedCertIds = sortedCertIds ids :=
    congrArg AuthorityStateBody.revokedCertIds h.body
  refine ⟨account, epoch, ids, state, h, fun c => ?_, ?_,
    fun nowMs hnow => ⟨fun hresolves => ?_, fun hcurrent => ?_⟩⟩
  · rw [hids]
    exact mem_sortedCertIds
  · rw [hids]
    exact nodup_sortedCertIds
  · obtain ⟨σ, hopen, hσ⟩ := hresolves.run (answerable svc.core)
    exact (h.opened_iff hcore hnow).mp (Js.Yields.trace hopen hσ (yields_open hcore.predicates))
  · exact resolves_open hcore.predicates ((h.opened_iff hcore hnow).mpr hcurrent)

/-! ## Revocations reach the device sets -/

/-- Classes of operations that write nothing but this runtime's account keys. -/
def keysOnly : OpClass → Bool
  | .set k => k = .identity
  | .delete _ => false
  | .lock => false
  | _ => true

def KeysOnly (o : Op Snap) : Prop := keysOnly (classOf o) = true

section

variable {core : Core Snap} {lib : AuthorityLib} {certId : Bytes → Str} {α β : Type}

theorem keysOnly_foot {l : List OpClass} {q : Proc (sdk Snap) α} (hq : Foot l q)
    (hl : l.all keysOnly = true) : q.All KeysOnly := by
  refine Proc.All.mono (fun o ho => ?_) hq
  exact List.all_eq_true.mp hl _ (List.contains_iff_mem.mp ho.1)

abbrev watch : Monitor (sdk Snap) Unit := ⟨fun _ _ => (), fun _ => KeysOnly⟩

/-- Its lawful runs end with an error and have written nothing else. -/
abbrev Refuses (core : Core Snap) (q : Sdk Snap α) : Prop :=
  Obeys watch (Answered core) (fun _ x => ∃ e, x = .error e) () q

theorem refuses_skip {q : Sdk Snap α} {f : α → Sdk Snap β} (hq : Proc.All KeysOnly q)
    (hf : ∀ v, Refuses core (f v)) : Refuses core (q >>= f : Sdk Snap β) := by
  refine obeys_js_bind (obeys_still (hq.mono fun _ ho => ⟨ho, fun _ => rfl⟩) fun x => ?_)
  cases x with
  | error e => exact ⟨e, rfl⟩
  | ok v => exact hf v

theorem refuses_bind {q : Sdk Snap α} {f : α → Sdk Snap β} (hq : Refuses core q) :
    Refuses core (q >>= f : Sdk Snap β) := by
  refine obeys_js_bind (hq.mono fun _ x hx => ?_)
  obtain ⟨e, rfl⟩ := hx
  exact ⟨e, rfl⟩

theorem refuses_checkEnvelope {o : OpenArgs}
    (h : ∀ n signer,
        core.answer (.verifyDurableRecordV2 o.record o.nowMs o.revocationState) n ≠
          .ok (.ok signer)) : Refuses core (checkEnvelope core o) := by
  refine refuses_skip (Js.all_ensure _ _ _) fun _ => ?_
  refine refuses_skip (Js.all_ensure _ _ _) fun _ => ?_
  refine refuses_skip (Js.all_ensure _ _ _) fun _ => ?_
  refine refuses_skip (Js.all_ensure _ _ _) fun _ => ?_
  refine obeys_js_bind ⟨rfl, fun outer houter => ?_⟩
  obtain ⟨n, hn⟩ := houter
  cases outer with
  | error e => exact ⟨e, rfl⟩
  | ok verdict =>
    cases verdict with
    | error reason => exact ⟨_, rfl⟩
    | ok signer => exact (h n signer hn.symm).elim

theorem refuses_ingest {svc : DeviceService Snap} {i : IngestArgs} (hcore : svc.core = core)
    (h : ∀ nowMs n signer,
        core.answer (.verifyDurableRecordV2 i.record nowMs i.revocationState) n ≠
          .ok (.ok signer)) : Refuses core (ingestPeerDeviceSet svc i) := by
  refine refuses_skip (Js.all_ensure _ _ _) fun _ => ?_
  refine refuses_skip (keysOnly_foot (l := [.clock]) (foot_clock rfl) rfl) fun now => ?_
  refine refuses_skip (keysOnly_foot (l := [.get .pair, .get .peerLink]) ?_ rfl) fun context => ?_
  · refine foot_bind foot_getByPair fun found => ?_
    refine foot_bind foot_orThrow fun link => ?_
    refine foot_bind foot_orThrow fun dh => ?_
    exact foot_bind foot_orThrow fun account => foot_pure
  refine refuses_skip (keysOnly_foot foot_requireBound rfl) fun identity => ?_
  subst hcore
  exact refuses_bind (refuses_bind (refuses_checkEnvelope (h _)))

end

/-- **Revocations reach the device sets**: no device set with a revoked
certificate is ingested by who has opened the account's authority state. -/
theorem revocation_reaches_ingest {svc : DeviceService Snap} {lib : AuthorityLib}
    {certId : Bytes → Str} (hcore : Correct svc.core lib) (hrevokes : Revokes svc.core lib certId)
    {a : AuthorityArgs} {τ : Run Snap} {p : PublishedAuthority}
    (hpublish : Proc.Trace (buildAccountAuthorityStateRecord svc lib a) τ (.ok p))
    (hτ : ∀ e ∈ τ, Answered svc.core e) {owner peer : Id} {nowMs : Option Nat} {τ' : Run Snap}
    {o : OpenedAuthority}
    (hopen :
        Proc.Trace (openPeerAuthorityStateRecord lib owner peer (some p.record) nowMs) τ' (.ok o))
    (hτ' : ∀ e ∈ τ', Answered svc.core e) {reader : DeviceService Snap}
    (hreader : reader.core = svc.core) {i : IngestArgs}
    (hstate : i.revocationState = some o.revocationState) {cert : Bytes}
    (hcert : cert ∈ i.record.certChain) {ids : List Str} (hids : a.revokedCertIds = some ids)
    (hrevoked : certId cert ∈ ids) {σ : Run Snap} {x : Except Err Ingested}
    (hrun : Proc.Trace (ingestPeerDeviceSet reader i) σ x) (hσ : ∀ e ∈ σ, Answered svc.core e) :
    (∃ e, x = .error e) ∧ ∀ e ∈ σ, KeysOnly e.op := by
  obtain ⟨account, epoch, ids', state, h⟩ := Js.Yields.trace hpublish hτ (yields_build hcore)
  have hlist : state.revokedCertIds = sortedCertIds ids' :=
    congrArg AuthorityStateBody.revokedCertIds h.body
  obtain rfl : ids' = ids := Option.some.inj (h.idsGiven.symm.trans hids)
  have hopened : o = ⟨state, lib.toRevocationState state, epoch⟩ := by
    refine Js.Yields.trace hopen hτ' (P := fun o => o = ⟨state, lib.toRevocationState state, epoch⟩)
      ?_
    refine Js.yields_bind Js.yields_orThrow fun record hrecord => ?_
    obtain rfl := Option.some.inj hrecord
    refine Js.yields_bind Js.yields_any fun now _ => ?_
    refine Js.yields_bind Js.yields_any fun context _ => ?_
    exact (yields_open hcore.predicates).mono fun _ ho => h.only ho
  have hrefuses : Refuses svc.core (ingestPeerDeviceSet reader i) := by
    refine refuses_ingest hreader fun nowMs n signer hverified => ?_
    rw [hstate, hopened] at hverified
    refine hrevokes _ _ _ _ _ hverified cert hcert ?_
    rw [hlist]
    exact mem_sortedCertIds.mpr hrevoked
  exact ⟨Obeys.trace hrun hσ hrefuses, Obeys.asked (fun _ _ ho => ho) hrun hσ hrefuses⟩

/-! ## A concrete revocation -/

namespace Example

open Counting (a b)

/-- The first state of account `a`, with these certificates revoked. -/
def revoking (ids : List Str) : AuthorityState := ⟨⟨1, "authority", a, 1, ids, 0, 5, a⟩, a⟩

/-- The states that there are, with the certificates `98` and `99`. -/
def states : List AuthorityState := [[], [[98]], [[99]], [[98], [99]]].map revoking

def lib : AuthorityLib where
  accountAuthorityStateVersion := 1
  accountAuthorityStatePurpose := "authority"
  accountAuthorityStateRecordKind := "authority-state"
  signableBytes _ := []
  construct s := if s ∈ states then .ok s else .error { message := "state" }
  payloadText s := .ofList (List.replicate (states.idxOf s) 'x')
  payloadJson text := some (.str (List.replicate text.length 120))
  fromJson
    | .str text => (states[text.length]?).elim (.error { message := "state" }) .ok
    | _ => .error { message := "state" }
  toRevocationState s := s.revokedCertIds.map fun _ => 0

/-- A chain counts as revoked once anything is. -/
def verdict (record : DurableRecord) (nowMs : Nat) (revocationState : Option Bytes) :
    Except String Id :=
  if record.expiresAtMs ≤ nowMs then .error "expired"
  else if revocationState.any (!·.isEmpty) && !record.certChain.isEmpty then .error "revoked"
  else .ok a

/-- Every signature is good. -/
def core : Core Nat :=
  { Counting.deviceCore with
    answer := fun
      | .verifyDurableRecordV2 record nowMs revocationState, _ =>
        .ok (verdict record nowMs revocationState)
      | q, n => Counting.deviceCore.answer q n }

/-- Device `d` of account `a`, which has the account key. -/
def root : DeviceService Nat := { Counting.tablet with core }

theorem verdict_iff {record : DurableRecord} {nowMs : Nat} :
    (∃ signer, verdict record nowMs none = .ok signer) ↔ nowMs < record.expiresAtMs := by
  unfold verdict
  by_cases h : record.expiresAtMs ≤ nowMs
  · rw [if_pos h]
    constructor
    · intro hok
      obtain ⟨signer, hok⟩ := hok
      cases hok
    · intro hlt
      omega
  · rw [if_neg h]
    exact ⟨fun _ => by omega, fun _ => ⟨a, rfl⟩⟩

theorem constructed {s built : AuthorityState} (h : lib.construct s = .ok built) :
    s ∈ states ∧ built = s := by
  have h : (if s ∈ states then Except.ok s else .error ({ message := "state" } : Err)) =
      .ok built := h
  by_cases hs : s ∈ states
  · rw [if_pos hs] at h
    exact ⟨hs, (Except.ok.inj h).symm⟩
  · rw [if_neg hs] at h
    cases h

theorem correct : Correct core lib where
  predicates := ⟨fun _ _ _ _ _ => rfl, fun _ _ _ _ _ => rfl⟩
  rootSigns _ _ _ _ _ _ _ _ _ := rfl
  constructs state built _ h := (constructed h).2
  reads state built h := by
    obtain ⟨hmem, rfl⟩ := constructed h
    have hall : ∀ s ∈ states, ∃ json, lib.payloadJson (lib.payloadText s) = some json ∧
        lib.fromJson json = .ok s :=
      List.forall_mem_cons.mpr ⟨⟨_, rfl, rfl⟩, List.forall_mem_cons.mpr ⟨⟨_, rfl, rfl⟩,
        List.forall_mem_cons.mpr ⟨⟨_, rfl, rfl⟩, List.forall_mem_singleton.mpr ⟨_, rfl, rfl⟩⟩⟩⟩
    exact hall built hmem
  verified skeleton owner sig nowMs _ _ _ _ _ _ _ _ := by
    have hverdict : (∃ signer, verdict ⟨skeleton, sig.val⟩ nowMs none = .ok signer) ↔
        nowMs < skeleton.expiresAtMs := verdict_iff
    rw [← hverdict]
    constructor
    · intro h
      obtain ⟨n, signer, h⟩ := h
      exact ⟨signer, Except.ok.inj h⟩
    · intro h
      obtain ⟨signer, h⟩ := h
      exact ⟨0, signer, congrArg Except.ok h⟩

/-- The id of a certificate is its bytes. -/
def certId (cert : Bytes) : Str := cert.map (·.toUInt16)

theorem revokes : Revokes core lib certId := by
  intro record nowMs state n signer h cert hcert hmem
  have h : verdict record nowMs (some (lib.toRevocationState state)) = .ok signer := Except.ok.inj h
  have hstate : (lib.toRevocationState state).isEmpty = false := by
    have hne : state.revokedCertIds ≠ [] := List.ne_nil_of_mem hmem
    simpa [lib] using hne
  have hchain : record.certChain.isEmpty = false := by simpa using List.ne_nil_of_mem hcert
  rw [verdict, Option.any_some, hstate, hchain] at h
  by_cases hexpired : record.expiresAtMs ≤ nowMs
  · rw [if_pos hexpired] at h
    cases h
  · rw [if_neg hexpired] at h
    cases h

/-- Reads give what is stored, and it is 5 o'clock. -/
def answers : (o : Op Nat) → (sdk Nat).Ans o
  | .core q => core.answer q 0
  | o => SetPublishing.Example.answers o

theorem answered (o : Op Nat) : Answered core ⟨o, answers o⟩ := by
  cases o with
  | core q => exact ⟨0, rfl⟩
  | _ => trivial

theorem lawful_follow {α : Type} (q : Proc (sdk Nat) α) :
    ∀ e ∈ (Proc.follow answers q).1, Answered core e :=
  Proc.forall_follow answered

/-- Certificate `99` is named twice. -/
def args : AuthorityArgs := ⟨a, some 1, some [[99], [98], [99]], some 0, none, 45⟩

theorem args_sorted : sortedCertIds [[99], [98], [99]] = [[98], [99]] :=
  sortedCertIds_eq (by decide) (by decide) fun c => by
    simp only [List.mem_cons, List.not_mem_nil, or_false]
    tauto

abbrev publishing : List (Proc.Exch (sdk Nat)) × Except Err PublishedAuthority :=
  Proc.follow answers (buildAccountAuthorityStateRecord root lib args)

abbrev opening (record : DurableRecord) : List (Proc.Exch (sdk Nat)) × Except Err OpenedAuthority :=
  Proc.follow answers (openPeerAuthorityStateRecord lib b a (some record) none)

/-- A device set of account `a` under certificate `99`. -/
def ingest (revocationState : Bytes) : IngestArgs where
  owner := b
  peer := a
  record := ⟨⟨2, "kind", "", "a", "d", [[99]], "capability", "p", 1, 50⟩, "s"⟩
  nowMs := none
  revocationState := some revocationState

theorem ok_of_toOption {α : Type} {x : Except Err α} {v : α} (h : x.toOption = some v) :
    x = .ok v := by
  cases x with
  | error e => cases h
  | ok w => exact congrArg Except.ok (Option.some.inj h)

/-- What is published. -/
def record : PublishedAuthority :=
  ⟨⟨authoritySkeleton lib a (lib.payloadText (revoking [[98], [99]])) 5 45, a.val⟩,
  ⟨"authority-state", "v1", a⟩⟩

theorem publishing_record : publishing.2 = .ok record := by
  have hbody : authorityBody lib a 1 [[99], [98],
      [99]] 0 5 = (revoking [[98], [99]]).toAuthorityStateBody := by
    unfold authorityBody
    rw [args_sorted]
    rfl
  have hresolves : Js.Resolves (fun e => e.ans = answers e.op) record
      (buildAccountAuthorityStateRecord root lib args) := by
    refine Js.resolves_bind (Js.resolves_found (a := 1) rfl) ?_
    refine Js.resolves_bind (Js.resolves_found (a := [[99], [98], [99]]) rfl) ?_
    refine Js.resolves_bind (Proc.resolves_follow (v := 5) rfl) ?_
    refine Js.resolves_bind (Js.resolves_passed rfl) ?_
    refine Js.resolves_bind (Proc.resolves_follow (v := ⟨a, a, []⟩) rfl) ?_
    have hnow : asPositiveInt (args.nowMs.getD 0) 5 = 5 := rfl
    have hcutoff : cutoffOf args.minValidIssuedAtMs = 0 := rfl
    dsimp only
    rw [hnow, hcutoff, show (1 : Int).toNat = 1 from rfl, hbody]
    exact Proc.resolves_follow rfl
  exact Js.Resolves.trace Proc.trace_follow (Proc.forall_follow fun _ => rfl) hresolves

/-- The record is published, and account `b` opens it. -/
theorem opened :
    ∃ p o, Proc.Trace (buildAccountAuthorityStateRecord root lib args) publishing.1 (.ok p) ∧
      Proc.Trace (openPeerAuthorityStateRecord lib b a (some p.record) none) (opening p.record).1
        (.ok o) := by
  have hopens : ((opening record.record).2.toOption.isSome) = true := by decide +kernel
  obtain ⟨o, ho⟩ := Option.isSome_iff_exists.mp hopens
  exact ⟨record, o, publishing_record ▸ Proc.trace_follow, ok_of_toOption ho ▸ Proc.trace_follow⟩

end Example

open AuthorityStates.Example in
/-- The certificates `99`, `98` and once more `99` are published as `98`, `99`. -/
theorem authority_published_root :
    ∃ p account epoch state, Authored root lib args p account epoch [[99], [98], [99]] state ∧
      state.revokedCertIds = [[98], [99]] ∧
      Resolves core ⟨state, lib.toRevocationState state, epoch⟩
        (openAuthorityStateRecordAgainst lib account p.record p.record.issuedAtMs) := by
  obtain ⟨p, -, hrun, -⟩ := opened
  obtain ⟨account, epoch, ids, state, h, -, -, hopens⟩ :=
    authority_published correct hrun (lawful_follow _)
  obtain rfl : [[99], [98], [99]] = ids := Option.some.inj h.idsGiven
  have hsorted : state.revokedCertIds = [[98], [99]] :=
    (congrArg AuthorityStateBody.revokedCertIds h.body).trans args_sorted
  exact ⟨p, account, epoch, state, h, hsorted,
    (hopens _ (Nat.le_refl _)).mpr (Nat.lt_add_of_pos_right (by decide))⟩

open AuthorityStates.Example in
theorem revocation_reaches_ingest_root : ∃ revocationState, ∃ e,
    (Proc.follow answers (ingestPeerDeviceSet root (ingest revocationState))).2 = .error e := by
  obtain ⟨p, o, hrun, hopen⟩ := opened
  have hcore : root.core = root.core := rfl
  have hstate : (ingest o.revocationState).revocationState = some o.revocationState := rfl
  exact ⟨o.revocationState, (revocation_reaches_ingest correct revokes hrun
    (lawful_follow _) hopen (lawful_follow _) hcore hstate
    (List.mem_singleton_self _) rfl (.head _) Proc.trace_follow (lawful_follow _)).1⟩

end RezSdk.L4.AuthorityStates
