import RezSdk.L2Storage.InboxClaimStore

/-!
# The shape of a claim and its round trip through storage

`WellFormed` is what `#normalizeStored` lets through: trimmed texts, a positive
time, and the close keys and the generation all there or all absent.

* `wellKept_hydrate`: hydrating gives well-formed claims, whatever is stored.
* `normalize_toRow`, `hydrate_table`: a well-formed record is read back from
  its row as it was, and so is a whole table.
* `producers_agree`: the three producers agree on whether a well-formed claim
  bears a lease.
-/
namespace RezSdk.L4.ClaimShape

open RezSdk.L1 RezSdk.L2.InboxClaims

variable {Cap : Type} {lib : Lib Cap}

/-- What the store relies on: `Number` of a number, a capability that survives
`toJSON` and construction, Base64 texts without blanks, and
`claimLeasePresence`. -/
structure LawfulLib (lib : Lib Cap) : Prop where
  number : ∀ n, lib.number (.num n) = n
  capability : ∀ c, lib.makeCapability (.obj (lib.capabilityFields c)) = .ok c
  base64 : ∀ b, b ≠ [] → isId (lib.bytesToBase64 b) = true
  presence : ∀ r, lib.claimLeasePresence r = .all ↔ r.closePublicKeyB64.isSome = true ∧
    r.generation.isSome = true

/-! ## Well-formed records -/

/-- All of the close keys and the generation, or none of them. -/
inductive Close (r : Record Cap) : Prop
  | none (closePublic : r.closePublicKeyB64 = none) (closePrivate : r.closePrivateKeyB64 = none)
      (generation : r.generation = none)
  | all {p q : String} {g : JsNumber} (closePublic : r.closePublicKeyB64 = some p)
      (closePrivate : r.closePrivateKeyB64 = some q)
      (generation : r.generation = some g) (hp : isId p = true) (hq : isId q = true)
      (integer : g.isInteger = true)
      (positive : g.atLeastOne = true)

structure ValidLease (l : Lease) : Prop where
  issued : l.issuedAtMs.positive = true
  expires : l.expiresAtMs.positive = true
  lt : l.issuedAtMs.lt l.expiresAtMs = true

structure WellFormed (r : Record Cap) : Prop where
  inboxId : isId r.inboxId = true
  claimantPublic : isId r.claimantPublicKeyB64 = true
  claimantPrivate : isId r.claimantPrivateKeyB64 = true
  signature : isId r.claimSignatureB64 = true
  claimedAtMs : r.claimedAtMs.positive = true
  close : Close r
  lease : ∀ l, r.lease = some l → ValidLease l

theorem validLease_of_leaseOf {value : Option Json} {l : Lease} (h : leaseOf lib value = some l) :
    ValidLease l := by
  unfold leaseOf at h
  dsimp only at h
  split at h
  · split at h
    · rename_i hvalid
      cases h
      rw [Bool.and_eq_true, Bool.and_eq_true] at hvalid
      exact ⟨hvalid.1.1, hvalid.1.2, hvalid.2⟩
    · cases h
  · cases h

/-- `withClose` fills all three or leaves the record alone. -/
theorem withClose_cases {value : Option Json} {out r : Record Cap}
    (h : withClose lib value out = some r) :
    r = out ∨
    ∃ p q g, r = { out with
        closePublicKeyB64 := some p, closePrivateKeyB64 := some q, generation := some g } ∧
      isId p = true ∧ isId q = true ∧ g.isInteger = true ∧ g.atLeastOne = true := by
  unfold withClose at h
  dsimp only at h
  split at h
  · split at h
    · rename_i hall
      rw [Bool.and_eq_true, Bool.and_eq_true, Bool.and_eq_true, Bool.not_eq_true',
        Bool.not_eq_true'] at hall
      obtain ⟨⟨hp, hq⟩, hinteger, hone⟩ := hall
      rw [Option.some.injEq] at h
      exact .inr ⟨_, _, _, h.symm, Json.isId_trimmed hp, Json.isId_trimmed hq, hinteger, hone⟩
    · cases h
  · rw [Option.some.injEq] at h
    exact .inl h.symm

/-- What `#normalizeStored` lets through is well formed. -/
theorem wellFormed_of_normalize {m : Material Cap} {r : Record Cap}
    (h : normalizeStored lib m = .ok (some r)) : WellFormed r := by
  unfold normalizeStored at h
  dsimp only at h
  split at h
  · cases h
  · rename_i htexts
    split at h
    · cases h
    · rename_i hclaimed
      simp only [Bool.or_eq_true, not_or, Bool.not_eq_true] at htexts
      obtain ⟨⟨⟨hinbox, hpublic⟩, hprivate⟩, hsignature⟩ := htexts
      rw [Bool.not_eq_true', Bool.not_eq_false] at hclaimed
      cases hcap : rootCapOf lib m with
      | error e => rw [hcap] at h; cases h
      | ok cap =>
        cases cap with
        | none => rw [hcap] at h; cases h
        | some cap =>
          rw [hcap] at h
          change Except.ok (withClose lib m.value _) = _ at h
          rw [Except.ok.injEq] at h
          obtain rfl | ⟨p, q, g, rfl, hp, hq, hinteger, hone⟩ := withClose_cases h
          · exact ⟨Json.isId_trimmed hinbox, Json.isId_trimmed hpublic, Json.isId_trimmed hprivate,
              Json.isId_trimmed hsignature, hclaimed, .none rfl rfl rfl,
                fun l hl => validLease_of_leaseOf hl⟩
          · exact ⟨Json.isId_trimmed hinbox, Json.isId_trimmed hpublic, Json.isId_trimmed hprivate,
              Json.isId_trimmed hsignature, hclaimed, .all rfl rfl rfl hp hq hinteger hone,
              fun l hl => validLease_of_leaseOf hl⟩

/-! ## The round trip -/

theorem ofJson_text (cls : RetentionClass) :
    RetentionClass.ofJson (some (.str cls.text)) = some cls := by
  cases cls <;> decide

theorem leaseOf_leaseJson (hlib : LawfulLib lib) {l : Lease} (h : ValidLease l) :
    leaseOf lib (some (leaseJson l)) = some l := by
  have hissued : numberOf lib (Json.prop "issuedAtMs" (some (leaseJson l))) = l.issuedAtMs :=
    hlib.number _
  have hexpires : numberOf lib (Json.prop "expiresAtMs" (some (leaseJson l))) = l.expiresAtMs :=
    hlib.number _
  have hclass : RetentionClass.ofJson (Json.prop "retentionClass" (some (leaseJson l))) =
      some l.retentionClass :=
    ofJson_text l.retentionClass
  unfold leaseOf
  rw [hissued, hexpires, hclass]
  dsimp only
  rw [h.issued, h.expires, h.lt]
  rfl

theorem closeFields_none {r : Record Cap} (h : r.generation = none) : closeFields r = [] := by
  unfold closeFields
  rw [h]

theorem closeFields_all {r : Record Cap} {p q : String} {g : JsNumber}
    (hp : r.closePublicKeyB64 = some p) (hq : r.closePrivateKeyB64 = some q)
    (hg : r.generation = some g) (hinteger : g.isInteger = true) :
    closeFields r =
      [("closePublicKeyB64", .str p), ("closePrivateKeyB64", .str q), ("generation", .num g)] := by
  unfold closeFields
  rw [hg, hp, hq]
  dsimp only
  rw [if_pos hinteger]
  rfl

/-- The fields that say how the record can be closed are read back. -/
theorem withClose_row {r out : Record Cap} {value : Option Json} (hlib : LawfulLib lib)
    (hr : Close r)
    (hout :
        out = { r with closePublicKeyB64 := none, closePrivateKeyB64 := none, generation := none })
    (hp : Json.prop "closePublicKeyB64" value = r.closePublicKeyB64.map .str)
    (hq : Json.prop "closePrivateKeyB64" value = r.closePrivateKeyB64.map .str)
    (hg : Json.prop "generation" value = r.generation.map .num) :
    withClose lib value out = some r := by
  unfold withClose
  rw [hp, hq, hg]
  cases hr with
  | none closePublic closePrivate generation =>
    rw [closePublic, closePrivate, generation]
    refine congrArg some ?_
    rw [hout]
    obtain ⟨_, _, _, _, _, _, _, _, _, _⟩ := r
    cases closePublic
    cases closePrivate
    cases generation
    rfl
  | all closePublic closePrivate generation hidp hidq hinteger hone =>
    rw [closePublic, closePrivate, generation]
    dsimp only [Option.map_some]
    rw [Json.trimmed_str, Json.trimmed_str, trim_of_isId hidp, trim_of_isId hidq,
      isId_ne_empty hidp, isId_ne_empty hidq]
    have hnumber (n : JsNumber) : numberOf lib (some (.num n)) = n := hlib.number n
    rw [hnumber, hinteger, hone]
    refine congrArg some ?_
    rw [hout]
    obtain ⟨_, _, _, _, _, _, _, _, _, _⟩ := r
    cases closePublic
    cases closePrivate
    cases generation
    rfl

section

variable {r : Record Cap}

theorem prop_closePublic (h : Close r) :
    Json.prop "closePublicKeyB64" (some (toRow lib r)) = r.closePublicKeyB64.map .str := by
  cases h with
  | none hp hq hg =>
    unfold toRow
    rw [closeFields_none hg, hp]
    cases r.lease <;> rfl
  | all hp hq hg _ _ hinteger _ =>
    unfold toRow
    rw [closeFields_all hp hq hg hinteger, hp]
    rfl

theorem prop_closePrivate (h : Close r) :
    Json.prop "closePrivateKeyB64" (some (toRow lib r)) = r.closePrivateKeyB64.map .str := by
  cases h with
  | none hp hq hg =>
    unfold toRow
    rw [closeFields_none hg, hq]
    cases r.lease <;> rfl
  | all hp hq hg _ _ hinteger _ =>
    unfold toRow
    rw [closeFields_all hp hq hg hinteger, hq]
    rfl

theorem prop_generation (h : Close r) :
    Json.prop "generation" (some (toRow lib r)) = r.generation.map .num := by
  cases h with
  | none hp hq hg =>
    unfold toRow
    rw [closeFields_none hg, hg]
    cases r.lease <;> rfl
  | all hp hq hg _ _ hinteger _ =>
    unfold toRow
    rw [closeFields_all hp hq hg hinteger, hg]
    rfl

theorem prop_lease (h : Close r) :
    Json.prop "lease" (some (toRow lib r)) = r.lease.map leaseJson := by
  cases h with
  | none hp hq hg =>
    unfold toRow
    rw [closeFields_none hg]
    cases r.lease <;> rfl
  | all hp hq hg _ _ hinteger _ =>
    unfold toRow
    rw [closeFields_all hp hq hg hinteger]
    cases r.lease <;> rfl

theorem leaseOf_row (hlib : LawfulLib lib) (h : WellFormed r) :
    leaseOf lib (Json.prop "lease" (some (toRow lib r))) = r.lease := by
  rw [prop_lease h.close]
  cases hlease : r.lease with
  | none => rfl
  | some l => exact leaseOf_leaseJson hlib (h.lease l hlease)

/-- A well-formed record is read back from its row as it was. -/
theorem normalize_toRow (hlib : LawfulLib lib) (h : WellFormed r) :
    normalizeStored lib ⟨some (toRow lib r), none⟩ = .ok (some r) := by
  have hinbox : Json.trimmed (Json.prop "inboxId" (some (toRow lib r))) = r.inboxId :=
    trim_of_isId h.inboxId
  have hpublic : Json.trimmed (Json.prop "claimantPublicKeyB64" (some (toRow lib r))) =
      r.claimantPublicKeyB64 :=
    trim_of_isId h.claimantPublic
  have hprivate : Json.trimmed (Json.prop "claimantPrivateKeyB64" (some (toRow lib r))) =
      r.claimantPrivateKeyB64 :=
    trim_of_isId h.claimantPrivate
  have hsignature :
      Json.trimmed (Json.prop "claimSignatureB64" (some (toRow lib r))) = r.claimSignatureB64 :=
    trim_of_isId h.signature
  have hclaimed : numberOf lib (Json.prop "claimedAtMs" (some (toRow lib r))) = r.claimedAtMs :=
    hlib.number _
  have hcap : rootCapOf lib ⟨some (toRow lib r), none⟩ = .ok (some r.rootCap) := by
    change (lib.makeCapability (.obj (lib.capabilityFields r.rootCap))).map some = _
    rw [hlib.capability]
    rfl
  unfold normalizeStored
  dsimp only
  rw [hinbox, hpublic, hprivate, hsignature, hclaimed, hcap, isId_ne_empty h.inboxId,
    isId_ne_empty h.claimantPublic,
    isId_ne_empty h.claimantPrivate, isId_ne_empty h.signature, h.claimedAtMs, leaseOf_row hlib h]
  change Except.ok (withClose lib (some (toRow lib r)) _) = _
  rw [withClose_row hlib h.close rfl (prop_closePublic h.close) (prop_closePrivate h.close)
    (prop_generation h.close)]

end

/-- Every claim is well formed and stands under its own inbox, once. -/
structure WellKept (table : Table Cap) : Prop where
  wellFormed : ∀ p ∈ table, WellFormed p.2
  own : ∀ p ∈ table, p.2.inboxId = p.1
  nodup : (table.map Prod.fst).Nodup

theorem WellKept.nil : WellKept ([] : Table Cap) where
  wellFormed _ h := absurd h List.not_mem_nil
  own _ h := absurd h List.not_mem_nil
  nodup := List.nodup_nil

theorem WellKept.set {table : Table Cap} (h : WellKept table) {r : Record Cap} (hr : WellFormed r) :
    WellKept (OMap.set r.inboxId r table) where
  wellFormed p hp := by
    rcases OMap.mem_set hp with rfl | hp
    · exact hr
    · exact h.wellFormed p hp
  own p hp := by
    rcases OMap.mem_set hp with rfl | hp
    · rfl
    · exact h.own p hp
  nodup := OMap.nodup_set h.nodup

theorem wellKept_foldlM {entries : List Json} : ∀ {table table' : Table Cap}, WellKept table →
    entries.foldlM (addStored lib) table = .ok table' → WellKept table' := by
  induction entries with
  | nil =>
    intro table table' h he
    cases he
    exact h
  | cons entry entries ih =>
    intro table table' h he
    rw [List.foldlM_cons] at he
    cases hnormal : normalizeStored lib ⟨some entry, none⟩ with
    | error e =>
      rw [show addStored lib table entry = .error e by unfold addStored; rw [hnormal]; rfl] at he
      cases he
    | ok normalized =>
      cases normalized with
      | none =>
        rw [show addStored lib table entry = .ok table by unfold addStored; rw [hnormal]; rfl] at he
        exact ih h he
      | some r =>
        rw [show addStored lib table entry =
          .ok (OMap.set r.inboxId r table) by unfold addStored; rw [hnormal]; rfl] at he
        exact ih (h.set (wellFormed_of_normalize hnormal)) he

/-- Hydrating gives a well-kept table, whatever is stored. -/
theorem wellKept_hydrate {stored : Option Json} {table : Table Cap}
    (h : hydrate lib stored = .ok table) : WellKept table := by
  unfold hydrate at h
  split at h
  · exact wellKept_foldlM .nil h
  · cases h
    exact .nil

theorem foldlM_rows (hlib : LawfulLib lib) {rows : Table Cap} :
    ∀ {table : Table Cap}, WellKept (table ++ rows) →
      (rows.map fun p => toRow lib p.2).foldlM (addStored lib) table = .ok (table ++ rows) := by
  induction rows with
  | nil =>
    intro table _
    rw [List.append_nil]
    rfl
  | cons p rows ih =>
    intro table h
    have hmem : p ∈ table ++ p :: rows := List.mem_append_right _ (.head _)
    have hnew : OMap.get p.1 table = none := by
      rw [OMap.get_eq_none]
      intro hk
      have hnodup := h.nodup
      rw [List.map_append, List.map_cons, List.nodup_append] at hnodup
      exact hnodup.2.2 _ hk _ (.head _) rfl
    have hadd : addStored lib table (toRow lib p.2) = .ok (table ++ [p]) := by
      unfold addStored
      rw [normalize_toRow hlib (h.wellFormed p hmem)]
      change Except.ok (OMap.set p.2.inboxId p.2 table) = _
      rw [h.own p hmem, OMap.set_new hnew]
    rw [List.map_cons, List.foldlM_cons, hadd]
    change (rows.map fun p => toRow lib p.2).foldlM (addStored lib) (table ++ [p]) = _
    rw [ih (by rwa [List.append_assoc, List.singleton_append]), List.append_assoc,
      List.singleton_append]

/-- A well-kept table is read back from storage as it was. -/
theorem hydrate_table (hlib : LawfulLib lib) {table : Table Cap} (h : WellKept table) :
    hydrate lib (some (tableJson lib table)) = .ok table := by
  change (table.map fun p => toRow lib p.2).foldlM (addStored lib) [] = _
  exact foldlM_rows hlib h

/-! ## The producers -/

/-- What the re-attestation, the node delegation and the terminal close take a
claim for. -/
structure Agree (lib : Lib Cap) (r : Record Cap) : Prop where
  reattestation : ∀ nowMs, (reattestationPayload lib r nowMs).generation.isSome =
    r.generation.isSome
  closeKey : ∀ nowMs, (reattestationPayload lib r nowMs).closePublicKeyB64.isSome =
    r.generation.isSome
  delegation : ∀ cls, (delegationLease r cls).isSome = r.generation.isSome
  terminalClose : (terminalClose r).isOk = r.generation.isSome

theorem producers_agree (hlib : LawfulLib lib) {r : Record Cap} (h : Close r) : Agree lib r := by
  cases h with
  | none hp hq hg =>
    have hpresence : lib.claimLeasePresence r ≠ .all := by
      intro hall
      have := ((hlib.presence r).mp hall).2
      rw [hg] at this
      cases this
    refine ⟨fun _ => ?_, fun _ => ?_, fun _ => ?_, ?_⟩
    · dsimp only [reattestationPayload]
      rw [if_neg hpresence, hg]
    · dsimp only [reattestationPayload]
      rw [if_neg hpresence, hg]
      rfl
    · unfold delegationLease Record.carriesGeneration
      rw [hg]
      rfl
    · unfold L2.InboxClaims.terminalClose
      rw [hp, hq, hg]
      rfl
  | all hp hq hg hidp hidq hinteger _ =>
    have hpresence : lib.claimLeasePresence r = .all :=
      (hlib.presence r).mpr ⟨by rw [hp]; rfl, by rw [hg]; rfl⟩
    refine ⟨fun _ => ?_, fun _ => ?_, fun _ => ?_, ?_⟩
    · dsimp only [reattestationPayload]
      rw [if_pos hpresence]
    · dsimp only [reattestationPayload]
      rw [if_pos hpresence, hp, hg]
      rfl
    · unfold delegationLease Record.carriesGeneration
      rw [hg, Option.any_some, if_pos hinteger]
      rfl
    · unfold L2.InboxClaims.terminalClose
      rw [hp, hq, hg]
      dsimp only
      rw [isId_ne_empty hidp, isId_ne_empty hidq, hinteger]
      rfl

end RezSdk.L4.ClaimShape
