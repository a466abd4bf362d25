import RezSdk.L3Service.InviteCodeV1

/-!
# What the canonical bytes of an invite tell apart

* `bytes_iff`: two JSON values have the same canonical bytes if and only if they
  are the same up to the order of keys, up to what stands under a key
  `__proto__`, and up to an infinity (which a too large numeral is read as) and
  `null`.
* `canonical_iff`: so the bytes tell apart what they should except where two
  different values become the same that way. The bytes of a value are those of
  the value that is read from its text.
-/
namespace RezSdk.L4.InviteBytes

open RezSdk.L1 RezSdk.L1.JsonText RezSdk.L3.InviteCodeV1

/-- The same value up to the order of keys, where only the keys in `P` count. -/
inductive Same (P : Str → Prop) : Value → Value → Prop
  | null : Same P .null .null
  | bool (b : Bool) : Same P (.bool b) (.bool b)
  | num {n m : Number} : n.plain = m.plain → Same P (.num n) (.num m)
  | str (s : Str) : Same P (.str s) (.str s)
  | arr {xs ys : List Value} : xs.length = ys.length →
    (∀ (i : Nat) x y, xs[i]? = some x → ys[i]? = some y → Same P x y) → Same P (.arr xs) (.arr ys)
  | obj {fields others : List (Str × Value)} :
    (∀ k, P k → (OMap.get k fields).isSome = (OMap.get k others).isSome) →
    (∀ k v w, P k → OMap.get k fields = some v → OMap.get k others = some w → Same P v w) →
    Same P (.obj fields) (.obj others)

/-- Every key counts. -/
abbrev Equal : Value → Value → Prop := Same fun _ => True

mutual

/-- With `null` for every infinity. -/
def written : Value → Value
  | .num n => if n.isFinite then .num n else .null
  | .arr xs => .arr (writtenItems xs)
  | .obj fields => .obj (writtenFields fields)
  | v => v

def writtenItems : List Value → List Value
  | [] => []
  | x :: xs => written x :: writtenItems xs

def writtenFields : List (Str × Value) → List (Str × Value)
  | [] => []
  | (k, v) :: fields => (k, written v) :: writtenFields fields

end

/-- As they are written, and only the keys other than `__proto__` count. -/
abbrev Alike (x y : Value) : Prop := Same (· ≠ protoKey) (written x) (written y)

/-! ## The sorted object -/

section

variable {β γ : Type} {fields others : List (Str × β)}

theorem perm_of_get (hfields : (fields.map Prod.fst).Nodup) (hothers : (others.map Prod.fst).Nodup)
    (h : ∀ k, OMap.get k fields = OMap.get k others) : fields.Perm others := by
  refine (List.perm_ext_iff_of_nodup (List.Nodup.of_map Prod.fst hfields)
    (List.Nodup.of_map Prod.fst hothers)).mpr
    fun f => ⟨fun hf => ?_, fun hf => ?_⟩
  · exact OMap.mem_of_get ((h f.1).symm.trans (OMap.get_of_mem hfields hf))
  · exact OMap.mem_of_get ((h f.1).trans (OMap.get_of_mem hothers hf))

theorem get_of_perm (hfields : (fields.map Prod.fst).Nodup) (h : fields.Perm others) (k : Str) :
    OMap.get k fields = OMap.get k others := by
  have hothers : (others.map Prod.fst).Nodup := (h.map Prod.fst).nodup_iff.mp hfields
  refine Option.ext fun v => ⟨fun hv => ?_, fun hv => ?_⟩
  · exact OMap.get_of_mem hothers (h.mem_iff.mp (OMap.mem_of_get hv))
  · exact OMap.get_of_mem hfields (h.mem_iff.mpr (OMap.mem_of_get hv))

theorem get_map (g : β → γ) (k : Str) (fields : List (Str × β)) :
    OMap.get k (fields.map fun f => (f.1, g f.2)) = (OMap.get k fields).map g := by
  induction fields with
  | nil => rfl
  | cons f fields ih =>
    rw [List.map_cons, OMap.get_cons, ih]
    obtain ⟨k', v⟩ := f
    rw [OMap.get_cons]
    split <;> rfl

theorem get_filter {k : Str} (fields : List (Str × β)) :
    OMap.get k (fields.filter fun f => f.1 ≠ protoKey) =
      if k = protoKey then none else OMap.get k fields := by
  induction fields with
  | nil => rw [List.filter_nil, OMap.get, ite_self]
  | cons f fields ih =>
    obtain ⟨k', v⟩ := f
    by_cases hk' : k' = protoKey
    · rw [List.filter_cons_of_neg (by simpa using hk'), ih, OMap.get_cons]
      by_cases hk : k = protoKey
      · rw [if_pos hk, if_pos hk]
      · rw [if_neg hk, if_neg hk, if_neg fun heq => hk (heq.symm.trans hk')]
    · rw [List.filter_cons_of_pos (by simpa using hk'), OMap.get_cons, OMap.get_cons, ih]
      by_cases heq : k' = k
      · rw [if_pos heq, if_pos heq, if_neg (heq ▸ hk')]
      · rw [if_neg heq, if_neg heq]

theorem foldl_assign (done rest : List (Str × β)) (h : ((done ++ rest).map Prod.fst).Nodup) :
    rest.foldl assign done = done ++ rest.filter fun f => f.1 ≠ protoKey := by
  induction rest generalizing done with
  | nil => exact (List.append_nil done).symm
  | cons f rest ih =>
    rw [List.foldl_cons, assign]
    have hmid : (done ++ f :: rest).Perm (f :: (done ++ rest)) := List.perm_middle
    have htail : ((done ++ rest).map Prod.fst).Nodup := by
      have := (hmid.map Prod.fst).nodup_iff.mp h
      rw [List.map_cons, List.nodup_cons] at this
      exact this.2
    split
    · rw [ih done htail, List.filter_cons_of_neg (by simpa)]
    · have hnew : OMap.get f.1 done = none := by
        rw [OMap.get_eq_none]
        rw [List.map_append, List.map_cons, List.nodup_append] at h
        exact fun hmem => h.2.2 _ hmem _ (.head _) rfl
      rw [OMap.set_new hnew, ih _ (by rwa [List.append_assoc]), List.filter_cons_of_pos (by simpa),
        List.append_assoc]
      rfl

theorem perm_sortKeys : (sortKeys fields).Perm fields := List.mergeSort_perm _ _

theorem sorted_eq (h : (fields.map Prod.fst).Nodup) :
    sorted fields = (sortKeys (propertyOrder fields)).filter fun f => f.1 ≠ protoKey := by
  have hperm : (sortKeys (propertyOrder fields)).Perm fields :=
    perm_sortKeys.trans perm_propertyOrder
  have hnodup : ((sortKeys (propertyOrder fields)).map Prod.fst).Nodup :=
    (hperm.map Prod.fst).nodup_iff.mpr h
  rw [sorted, foldl_assign [] (sortKeys (propertyOrder fields)) hnodup]
  rfl

theorem perm_sorted (h : (fields.map Prod.fst).Nodup) :
    (sorted fields).Perm (fields.filter fun f => f.1 ≠ protoKey) := by
  rw [sorted_eq h]
  exact (perm_sortKeys.trans perm_propertyOrder).filter _

theorem sortKeys_map (g : β → γ) (fields : List (Str × β)) :
    sortKeys (fields.map fun f => (f.1, g f.2)) = (sortKeys fields).map fun f => (f.1, g f.2) :=
  (List.map_mergeSort (f := fun f : Str × β => (f.1, g f.2)) fun _ _ _ _ => rfl).symm

theorem keys_map (g : β → γ) (fields : List (Str × β)) :
    (fields.map fun f => (f.1, g f.2)).map Prod.fst = fields.map Prod.fst := by
  rw [List.map_map]
  rfl

theorem sorted_map (g : β → γ) (h : (fields.map Prod.fst).Nodup) :
    sorted (fields.map fun f => (f.1, g f.2)) = (sorted fields).map fun f => (f.1, g f.2) := by
  rw [sorted_eq h, sorted_eq (by rwa [keys_map]), propertyOrder_map, sortKeys_map, List.filter_map]
  rfl

theorem pairwise_sortKeys :
    (sortKeys fields).Pairwise fun f g => f.1.map UInt16.toNat ≤ g.1.map UInt16.toNat := by
  have h : (sortKeys fields).Pairwise fun f g =>
      decide (f.1.map UInt16.toNat ≤ g.1.map UInt16.toNat) = true := by
    refine List.pairwise_mergeSort (fun a b c hab hbc => ?_) (fun a b => ?_) fields
    · exact decide_eq_true ((of_decide_eq_true hab).trans (of_decide_eq_true hbc))
    · rw [Bool.or_eq_true, decide_eq_true_iff, decide_eq_true_iff]
      exact le_total _ _
  exact h.imp fun hle => of_decide_eq_true hle

theorem nodup_filter (h : (fields.map Prod.fst).Nodup) :
    ((fields.filter fun f => f.1 ≠ protoKey).map Prod.fst).Nodup :=
  h.sublist (List.filter_sublist.map _)

theorem nodup_sorted (h : (fields.map Prod.fst).Nodup) : ((sorted fields).map Prod.fst).Nodup :=
  ((perm_sorted h).map Prod.fst).nodup_iff.mpr (nodup_filter h)

theorem get_sorted (h : (fields.map Prod.fst).Nodup) (k : Str) :
    OMap.get k (sorted fields) = if k = protoKey then none else OMap.get k fields := by
  rw [get_of_perm (nodup_sorted h) (perm_sorted h), get_filter]

theorem pairwise_sorted (h : (fields.map Prod.fst).Nodup) :
    (sorted fields).Pairwise fun f g => f.1.map UInt16.toNat ≤ g.1.map UInt16.toNat := by
  rw [sorted_eq h]
  exact pairwise_sortKeys.sublist List.filter_sublist

theorem sorted_of_perm (hfields : (fields.map Prod.fst).Nodup)
    (hothers : (others.map Prod.fst).Nodup) (h : (sorted fields).Perm (sorted others)) :
    sorted fields = sorted others := by
  refine List.Perm.eq_of_pairwise (fun f g hf hg hfg hgf => ?_) (pairwise_sorted hfields)
    (pairwise_sorted hothers) h
  have hkey : f.1 = g.1 :=
    List.map_injective_iff.mpr (fun _ _ => UInt16.toNat_inj.mp) (le_antisymm hfg hgf)
  have hf' := OMap.get_of_mem (nodup_sorted hothers) (h.mem_iff.mp hf)
  rw [hkey, OMap.get_of_mem (nodup_sorted hothers) hg, Option.some.injEq] at hf'
  exact Prod.ext hkey hf'.symm

/-- The sorted object forgets the order of the keys and `__proto__`, and nothing
else. -/
theorem sorted_inj (hfields : (fields.map Prod.fst).Nodup) (hothers : (others.map Prod.fst).Nodup) :
    propertyOrder (sorted fields) = propertyOrder (sorted others) ↔
      ∀ k, k ≠ protoKey → OMap.get k fields = OMap.get k others := by
  constructor
  · intro h k hk
    have hperm : (sorted fields).Perm (sorted others) :=
      perm_propertyOrder.symm.trans ((List.Perm.of_eq h).trans perm_propertyOrder)
    have hget := get_of_perm (nodup_sorted hfields) hperm k
    rwa [get_sorted hfields, get_sorted hothers, if_neg hk, if_neg hk] at hget
  · intro h
    refine congrArg propertyOrder (sorted_of_perm hfields hothers
      (perm_of_get (nodup_sorted hfields) (nodup_sorted hothers) fun k => ?_))
    rw [get_sorted hfields, get_sorted hothers]
    split
    · rfl
    · exact h k ‹_›

end

/-! ## Values as they are written -/

theorem writtenItems_eq (xs : List Value) : writtenItems xs = xs.map written := by
  induction xs with
  | nil => rfl
  | cons x xs ih => rw [writtenItems, ih, List.map_cons]

theorem writtenFields_eq (fields : List (Str × Value)) :
    writtenFields fields = fields.map fun f => (f.1, written f.2) := by
  induction fields with
  | nil => rfl
  | cons f fields ih => rw [writtenFields, ih, List.map_cons]

theorem written_arr (xs : List Value) : written (.arr xs) = .arr (xs.map written) := by
  rw [written, writtenItems_eq]

theorem written_obj (fields : List (Str × Value)) :
    written (.obj fields) = .obj (fields.map fun f => (f.1, written f.2)) := by
  rw [written, writtenFields_eq]

theorem written_finite {n : Number} (h : n.isFinite = true) : written (.num n) = .num n := by
  rw [written, if_pos h]

theorem alike_arr {xs ys : List Value} : Alike (.arr xs) (.arr ys) ↔
    xs.length = ys.length ∧ ∀ (i : Nat) x y, xs[i]? = some x → ys[i]? = some y → Alike x y := by
  unfold Alike
  rw [written_arr, written_arr]
  constructor
  · intro h
    cases h with
    | arr hlen hall =>
      rw [List.length_map, List.length_map] at hlen
      refine ⟨hlen, fun i x y hx hy => hall i _ _ ?_ ?_⟩
      · rw [List.getElem?_map, hx, Option.map_some]
      · rw [List.getElem?_map, hy, Option.map_some]
  · rintro ⟨hlen, hall⟩
    refine .arr (by rw [List.length_map, List.length_map, hlen]) fun i x' y' hx hy => ?_
    rw [List.getElem?_map] at hx hy
    obtain ⟨x, hxi, rfl⟩ := Option.map_eq_some_iff.mp hx
    obtain ⟨y, hyi, rfl⟩ := Option.map_eq_some_iff.mp hy
    exact hall i x y hxi hyi

theorem alike_obj {fields others : List (Str × Value)} :
    Alike (.obj fields) (.obj others) ↔
    (∀ k, k ≠ protoKey → (OMap.get k fields).isSome = (OMap.get k others).isSome) ∧
    ∀ k v w, k ≠ protoKey → OMap.get k fields = some v → OMap.get k others = some w →
      Alike v w := by
  unfold Alike
  rw [written_obj, written_obj]
  constructor
  · intro h
    cases h with
    | obj hkeys hall =>
      refine ⟨fun k hk => ?_, fun k v w hk hv hw => hall k _ _ hk ?_ ?_⟩
      · have hsome := hkeys k hk
        rwa [get_map, get_map, Option.isSome_map, Option.isSome_map] at hsome
      · rw [get_map, hv, Option.map_some]
      · rw [get_map, hw, Option.map_some]
  · rintro ⟨hkeys, hall⟩
    refine .obj (fun k hk => ?_) fun k v' w' hk hv hw => ?_
    · rw [get_map, get_map, Option.isSome_map, Option.isSome_map, hkeys k hk]
    · rw [get_map] at hv hw
      obtain ⟨v, hvk, rfl⟩ := Option.map_eq_some_iff.mp hv
      obtain ⟨w, hwk, rfl⟩ := Option.map_eq_some_iff.mp hw
      exact hall k v w hk hvk hwk

/-- What is the same is alike. -/
theorem Same.alike {x y : Value} (h : Equal x y) : Alike x y := by
  induction h with
  | null => exact .null
  | bool b => exact .bool b
  | @num n m hnm =>
    cases n with
    | inf negative =>
      cases m with
      | inf _ => exact .null
      | _ => cases hnm
    | _ =>
      cases m with
      | inf _ => cases hnm
      | _ => exact .num hnm
  | str s => exact .str s
  | arr hlen _ ih => exact alike_arr.mpr ⟨hlen, ih⟩
  | obj hkeys _ ih =>
    exact alike_obj.mpr ⟨fun k _ => hkeys k trivial, fun k v w _ => ih k v w trivial⟩

/-! ## The normal form of a value -/

theorem normalizeItems_eq (xs : List Value) : normalizeItems xs = xs.map stableNormalize := by
  induction xs with
  | nil => rfl
  | cons x xs ih => rw [normalizeItems, ih, List.map_cons]

theorem normalizeFields_eq (fields : List (Str × Value)) :
    normalizeFields fields = fields.map fun f => (f.1, stableNormalize f.2) := by
  induction fields with
  | nil => rfl
  | cons f fields ih => rw [normalizeFields, ih, List.map_cons]

/-- What the text of the normalised value is read as. -/
def normal (x : Value) : Value := arranged (stableNormalize x)

theorem normal_arr (xs : List Value) : normal (.arr xs) = .arr (xs.map normal) := by
  rw [normal, stableNormalize, arranged_arr, normalizeItems_eq, List.map_map]
  rfl

theorem normal_obj {fields : List (Str × Value)} (h : (fields.map Prod.fst).Nodup) :
    normal (.obj fields) =
      .obj (propertyOrder (sorted (fields.map fun f => (f.1, normal f.2)))) := by
  rw [normal, stableNormalize, arranged_obj, normalizeFields_eq, sorted_map stableNormalize h,
    ← propertyOrder_map, List.map_map,
    sorted_map normal h]
  rfl

theorem wellFormed_stableNormalize {x : Value} (h : WellFormed x) :
    WellFormed (stableNormalize x) := by
  induction h with
  | null => exact .null
  | bool b => exact .bool b
  | num hn => exact .num hn
  | str s => exact .str s
  | arr _ ih =>
    rw [stableNormalize, normalizeItems_eq]
    refine .arr fun y hy => ?_
    obtain ⟨x, hx, rfl⟩ := List.mem_map.mp hy
    exact ih x hx
  | obj hkeys _ ih =>
    rw [stableNormalize, normalizeFields_eq, sorted_map stableNormalize hkeys]
    have hperm := perm_sorted hkeys
    refine .obj ?_ fun g hg => ?_
    · rw [keys_map]
      exact (hperm.map Prod.fst).nodup_iff.mpr (hkeys.sublist (List.filter_sublist.map _))
    · obtain ⟨f, hf, rfl⟩ := List.mem_map.mp hg
      exact ih f (List.mem_of_mem_filter (hperm.mem_iff.mp hf))

theorem normal_finite {n : Number} (h : n.isFinite = true) : normal (.num n) = .num n.plain := by
  rw [normal, stableNormalize, arranged, if_pos h]
  all_goals nofun

/-- Two values have one normal form if and only if they are alike. -/
theorem normal_iff {x : Value} (hx : WellFormed x) :
    ∀ {y : Value}, WellFormed y → (normal x = normal y ↔ Alike x y) := by
  -- `null` and the infinities are alike, and like nothing else
  have hnull : ∀ {y : Value}, WellFormed y → (.null = normal y ↔ Alike .null y) := by
    intro y hy
    cases hy with
    | null => exact ⟨fun _ => .null, fun _ => rfl⟩
    | @num m hm =>
      cases m with
      | inf negative => exact ⟨fun _ => .null, fun _ => rfl⟩
      | _ => exact ⟨fun h => (by cases h), fun h => (by cases h)⟩
    | _ => exact ⟨fun h => (by cases h), fun h => (by cases h)⟩
  induction hx with
  | null => exact hnull
  | bool b =>
    intro y hy
    cases hy with
    | bool b' =>
      refine ⟨fun h => ?_, fun h => by cases h; rfl⟩
      cases h
      exact .bool b
    | @num m hm => cases m <;> exact ⟨fun h => (by cases h), fun h => (by cases h)⟩
    | _ => exact ⟨fun h => (by cases h), fun h => (by cases h)⟩
  | @num n hn =>
    intro y hy
    by_cases hfinite : n.isFinite = true
    swap
    · cases n with
      | inf negative => exact hnull hy
      | _ => exact absurd rfl hfinite
    · unfold Alike
      rw [normal_finite hfinite, written_finite hfinite]
      cases hy with
      | @num m hm =>
        by_cases hm : m.isFinite = true
        · rw [normal_finite hm, written_finite hm]
          refine ⟨fun h => .num (Value.num.inj h), fun h => ?_⟩
          cases h with
          | num hplain => exact congrArg Value.num hplain
        · cases m with
          | inf negative => exact ⟨fun h => (by cases h), fun h => (by cases h)⟩
          | _ => exact absurd rfl hm
      | _ => exact ⟨fun h => (by cases h), fun h => (by cases h)⟩
  | str s =>
    intro y hy
    cases hy with
    | str s' =>
      refine ⟨fun h => ?_, fun h => by cases h; rfl⟩
      cases h
      exact .str s
    | @num m hm => cases m <;> exact ⟨fun h => (by cases h), fun h => (by cases h)⟩
    | _ => exact ⟨fun h => (by cases h), fun h => (by cases h)⟩
  | @arr xs hxs ih =>
    intro y hy
    cases hy with
    | @arr ys hys =>
      rw [normal_arr, normal_arr, Value.arr.injEq, alike_arr]
      constructor
      · intro heq
        have hlen := congrArg List.length heq
        rw [List.length_map, List.length_map] at hlen
        refine ⟨hlen, fun i x y hxi hyi => ?_⟩
        have hi : (xs.map normal)[i]? = (ys.map normal)[i]? := by rw [heq]
        rw [List.getElem?_map, List.getElem?_map, hxi, hyi, Option.map_some,
          Option.map_some, Option.some.injEq] at hi
        exact (ih x (List.mem_of_getElem? hxi) (hys y (List.mem_of_getElem? hyi))).mp hi
      · rintro ⟨hlen, hall⟩
        refine List.ext_getElem? fun i => ?_
        rw [List.getElem?_map, List.getElem?_map]
        cases hxi : xs[i]? with
        | none =>
          rw [List.getElem?_eq_none (by rw [← hlen]; exact List.getElem?_eq_none_iff.mp hxi)]
        | some x =>
          obtain ⟨hi, -⟩ := List.getElem?_eq_some_iff.mp hxi
          obtain ⟨y, hyi⟩ : ∃ y, ys[i]? = some y := ⟨_, List.getElem?_eq_getElem (hlen ▸ hi)⟩
          rw [hyi, Option.map_some, Option.map_some, Option.some.injEq]
          exact (ih x (List.mem_of_getElem? hxi) (hys _ (List.mem_of_getElem? hyi))).mpr
            (hall i x y hxi hyi)
    | @num m hm => cases m <;> exact ⟨fun h => (by cases h), fun h => (by cases h)⟩
    | _ => exact ⟨fun h => (by cases h), fun h => (by cases h)⟩
  | @obj fields hkeys hfields ih =>
    intro y hy
    cases hy with
    | @obj others hothers hvalues =>
      rw [normal_obj hkeys, normal_obj hothers, Value.obj.injEq, alike_obj]
      rw [sorted_inj (by rwa [keys_map]) (by rwa [keys_map])]
      simp only [get_map]
      constructor
      · intro h
        refine ⟨fun k hk => ?_, fun k v w hk hv hw => ?_⟩
        · have hget := congrArg Option.isSome (h k hk)
          rwa [Option.isSome_map, Option.isSome_map] at hget
        · have hget := h k hk
          rw [hv, hw, Option.map_some, Option.map_some, Option.some.injEq] at hget
          exact (ih _ (OMap.mem_of_get hv) (hvalues _ (OMap.mem_of_get hw))).mp hget
      · rintro ⟨hsame, hall⟩ k hk
        have hsome := hsame k hk
        cases hv : OMap.get k fields with
        | none =>
          rw [hv] at hsome
          rw [Option.isSome_eq_false_iff.mp hsome.symm |> Option.isNone_iff_eq_none.mp]
        | some v =>
          rw [hv] at hsome
          obtain ⟨w, hw⟩ := Option.isSome_iff_exists.mp hsome.symm
          rw [hw, Option.map_some, Option.map_some, Option.some.injEq]
          exact (ih _ (OMap.mem_of_get hv) (hvalues _ (OMap.mem_of_get hw))).mpr
            (hall k v w hk hv hw)
    | @num m hm => cases m <;> exact ⟨fun h => (by cases h), fun h => (by cases h)⟩
    | _ => exact ⟨fun h => (by cases h), fun h => (by cases h)⟩

/-! ## The bytes -/

/-- The bytes are the same if and only if the values are alike. -/
theorem bytes_iff {x y : Value} (hx : WellFormed x) (hy : WellFormed y) :
    canonicalPayloadBytesV1 x = canonicalPayloadBytesV1 y ↔ Alike x y := by
  rw [← normal_iff hx hy, normal, normal,
    ← stringify_inj (wellFormed_stableNormalize hx) (wellFormed_stableNormalize hy)]
  refine ⟨fun h => ?_, fun h => ?_⟩
  · exact String.ofList_injective (L2.IndexedDb.utf8_inj h)
  · rw [canonicalPayloadBytesV1, h]
    rfl

theorem wellFormed_arranged {x : Value} (h : WellFormed x) : WellFormed (arranged x) := by
  induction h with
  | null => exact .null
  | bool b => exact .bool b
  | @num n hn =>
    cases n with
    | negZero => exact .num Number.isDouble_zero
    | fin q => exact .num hn
    | inf negative => exact .null
  | str s => exact .str s
  | arr _ ih =>
    rw [arranged_arr]
    refine .arr fun y hy => ?_
    obtain ⟨x, hx, rfl⟩ := List.mem_map.mp hy
    exact ih x hx
  | obj hkeys _ ih =>
    rw [arranged_obj]
    refine .obj ?_ fun g hg => ?_
    · rw [keys_map]
      exact nodup_propertyOrder hkeys
    · obtain ⟨f, hf, rfl⟩ := List.mem_map.mp hg
      exact ih f (perm_propertyOrder.mem_iff.mp hf)

/-- What is read from the text of a value is like it. -/
theorem arranged_alike {x : Value} (h : WellFormed x) : Alike (arranged x) x := by
  induction h with
  | null => exact .null
  | bool b => exact .bool b
  | @num n hn =>
    cases n with
    | inf negative => exact .null
    | _ => exact .num rfl
  | str s => exact .str s
  | @arr xs _ ih =>
    rw [arranged_arr]
    refine alike_arr.mpr ⟨List.length_map _, fun i y x hy hx => ?_⟩
    rw [List.getElem?_map, hx, Option.map_some, Option.some.injEq] at hy
    subst hy
    exact ih x (List.mem_of_getElem? hx)
  | @obj fields hkeys _ ih =>
    rw [arranged_obj]
    have hget : ∀ k, OMap.get k ((propertyOrder fields).map fun f => (f.1, arranged f.2)) =
        (OMap.get k fields).map arranged := by
      intro k
      rw [get_map, get_of_perm (nodup_propertyOrder hkeys) perm_propertyOrder]
    refine alike_obj.mpr ⟨fun k _ => ?_, fun k v w _ hv hw => ?_⟩
    · rw [hget, Option.isSome_map]
    · rw [hget, hw, Option.map_some, Option.some.injEq] at hv
      subst hv
      exact ih _ (OMap.mem_of_get hw)

/-- **Canonical bytes.** The bytes of a value are those of the value that is read
from its text, and the bytes of two values are the same exactly when the values
are equal, as long as no two different values become equal without what stands
under `__proto__` and with `null` for the infinities. -/
theorem canonical_iff {x y : Value} (hx : WellFormed x) (hy : WellFormed y) :
    ((∃ z, parse (stringify x) = some z ∧ canonicalPayloadBytesV1 z = canonicalPayloadBytesV1 x) ∧
      (canonicalPayloadBytesV1 x = canonicalPayloadBytesV1 y ↔ Equal x y)) ↔
    (Alike x y → Equal x y) := by
  have htrip : ∃ z, parse (stringify x) = some z ∧
      canonicalPayloadBytesV1 z = canonicalPayloadBytesV1 x :=
    ⟨_, parse_stringify hx, (bytes_iff (wellFormed_arranged hx) hx).mpr (arranged_alike hx)⟩
  rw [bytes_iff hx hy]
  exact ⟨fun h => h.2.mp, fun h => ⟨htrip, h, Same.alike⟩⟩

namespace Example

/-- `{}` -/
def empty : Value := .obj []

/-- `{"__proto__":true}` -/
def inherited : Value := .obj [(protoKey, .bool true)]

/-- `[1e400]` -/
def large : Value := .arr [.num (.inf false)]

/-- `[null]` -/
def nulled : Value := .arr [.null]

/-- `{"b":-0,"a":1e400}` -/
def one : Value := .obj [([98], .num .negZero), ([97], .num (.inf false))]

/-- `{"a":null,"b":0}` -/
def other : Value := .obj [([97], .null), ([98], .num (.fin 0))]

theorem wellFormed_empty : WellFormed empty := .obj List.nodup_nil (List.forall_mem_nil _)

theorem wellFormed_inherited : WellFormed inherited :=
  .obj (List.nodup_singleton _) (List.forall_mem_singleton.mpr (.bool true))

theorem wellFormed_large : WellFormed large := .arr (List.forall_mem_singleton.mpr (.num trivial))

theorem wellFormed_nulled : WellFormed nulled := .arr (List.forall_mem_singleton.mpr .null)

theorem wellFormed_one : WellFormed one :=
  .obj (by decide) (List.forall_mem_cons.mpr ⟨.num trivial,
    List.forall_mem_singleton.mpr (.num trivial)⟩)

theorem wellFormed_other : WellFormed other :=
  .obj (by decide) (List.forall_mem_cons.mpr ⟨.null,
    List.forall_mem_singleton.mpr (.num Number.isDouble_zero)⟩)

end Example

open Example

theorem canonical_iff_one :
    WellFormed one ∧ WellFormed other ∧
    (((∃ z, parse (stringify one) = some z ∧
            canonicalPayloadBytesV1 z = canonicalPayloadBytesV1 one) ∧
        (canonicalPayloadBytesV1 one = canonicalPayloadBytesV1 other ↔ Equal one other)) ↔
      (Alike one other → Equal one other)) :=
  ⟨wellFormed_one, wellFormed_other, canonical_iff wellFormed_one wellFormed_other⟩

/-- Different values with the same bytes: what stands under `__proto__` is not
written, and an infinity is written as `null`. -/
theorem same_bytes :
    WellFormed inherited ∧ WellFormed empty ∧ WellFormed large ∧ WellFormed nulled ∧
    ¬(canonicalPayloadBytesV1 inherited = canonicalPayloadBytesV1 empty ↔ Equal inherited empty) ∧
    ¬(canonicalPayloadBytesV1 large = canonicalPayloadBytesV1 nulled ↔ Equal large nulled) := by
  have hnone : ∀ k, k ≠ protoKey → OMap.get k [(protoKey, Value.bool true)] = none :=
    fun k hk => if_neg hk.symm
  have hempty : Alike inherited empty := by
    refine alike_obj.mpr ⟨fun k hk => ?_, fun k v w hk hv _ => ?_⟩
    · rw [hnone k hk]
      rfl
    · rw [hnone k hk] at hv
      cases hv
  have hnulled : Alike large nulled := by
    refine alike_arr.mpr ⟨rfl, fun i x y hx hy => ?_⟩
    obtain rfl := List.mem_singleton.mp (List.mem_of_getElem? hx)
    obtain rfl := List.mem_singleton.mp (List.mem_of_getElem? hy)
    exact .null
  refine ⟨wellFormed_inherited, wellFormed_empty, wellFormed_large, wellFormed_nulled,
    fun h => ?_, fun h => ?_⟩
  · cases h.mp ((bytes_iff wellFormed_inherited wellFormed_empty).mpr hempty) with
    | obj hkeys _ => exact absurd (hkeys protoKey trivial) (by decide)
  · cases h.mp ((bytes_iff wellFormed_large wellFormed_nulled).mpr hnulled) with
    | arr _ hall => cases hall 0 _ _ rfl rfl

end RezSdk.L4.InviteBytes
