import Mathlib.Data.List.Nodup

/-!
# Ordered maps

A map that remembers the order in which its keys were first set, as a list of
pairs. Setting a key that is there keeps its place, a new key goes to the end.

* `get_set_self`, `get_set_ne`: reading after `set`.
* `set_set`, `set_get`, `delete_set`: what takes a `set` back.
* `within`: the part of a map on some keys, and how it moves with the map.
-/
namespace RezSdk.OMap

variable {κ β γ : Type} [DecidableEq κ]

def get (k : κ) : List (κ × β) → Option β
  | [] => none
  | (k', v) :: m => if k' = k then some v else get k m

def set (k : κ) (v : β) : List (κ × β) → List (κ × β)
  | [] => [(k, v)]
  | (k', v') :: m => if k' = k then (k, v) :: m else (k', v') :: set k v m

def delete (k : κ) (m : List (κ × β)) : List (κ × β) := m.filter fun p => p.1 ≠ k

theorem get_cons (k k' : κ) (v : β) (m : List (κ × β)) :
    get k ((k', v) :: m) = if k' = k then some v else get k m := rfl

theorem set_cons (k k' : κ) (v v' : β) (m : List (κ × β)) :
    set k v ((k', v') :: m) = if k' = k then (k, v) :: m else (k', v') :: set k v m := rfl

theorem get_set_self (k : κ) (v : β) (m : List (κ × β)) : get k (set k v m) = some v := by
  induction m with
  | nil => exact if_pos rfl
  | cons p m ih =>
    obtain ⟨k', v'⟩ := p
    unfold set
    split
    · exact if_pos rfl
    · rename_i h
      unfold get
      rw [if_neg h, ih]

theorem get_set_ne {k k₁ : κ} (h : k₁ ≠ k) (v : β) (m : List (κ × β)) :
    get k (set k₁ v m) = get k m := by
  induction m with
  | nil => exact if_neg h
  | cons p m ih =>
    obtain ⟨k', v'⟩ := p
    unfold set
    split
    · rename_i hk
      subst hk
      unfold get
      rw [if_neg h, if_neg h]
    · unfold get
      rw [ih]

theorem get_set (k k₁ : κ) (v : β) (m : List (κ × β)) :
    get k (set k₁ v m) = if k₁ = k then some v else get k m := by
  split
  · rename_i h
    subst h
    exact get_set_self k₁ v m
  · exact get_set_ne ‹_› v m

theorem mem_of_get {k : κ} {v : β} {m : List (κ × β)} (h : get k m = some v) : (k, v) ∈ m := by
  induction m with
  | nil => cases h
  | cons p m ih =>
    obtain ⟨k', v'⟩ := p
    unfold get at h
    split at h
    · rename_i hk
      subst hk
      cases h
      exact .head _
    · exact .tail _ (ih h)

theorem get_eq_none {k : κ} {m : List (κ × β)} : get k m = none ↔ k ∉ m.map Prod.fst := by
  induction m with
  | nil => simp [get]
  | cons p m ih =>
    obtain ⟨k', v'⟩ := p
    unfold get
    by_cases hk : k' = k
    · simp [hk]
    · simp [hk, ih, Ne.symm hk]

theorem get_of_mem {k : κ} {v : β} {m : List (κ × β)} (hm : (m.map Prod.fst).Nodup)
    (h : (k, v) ∈ m) : get k m = some v := by
  induction m with
  | nil => cases h
  | cons p m ih =>
    obtain ⟨k', v'⟩ := p
    rw [List.map_cons, List.nodup_cons] at hm
    unfold get
    rcases List.mem_cons.mp h with heq | h
    · cases heq
      exact if_pos rfl
    · have hne : k' ≠ k := by
        rintro rfl
        exact hm.1 (List.mem_map.mpr ⟨_, h, rfl⟩)
      rw [if_neg hne, ih hm.2 h]

theorem set_set (k : κ) (v v' : β) (m : List (κ × β)) : set k v (set k v' m) = set k v m := by
  induction m with
  | nil => exact if_pos rfl
  | cons p m ih =>
    obtain ⟨k₁, v₁⟩ := p
    rw [set_cons, set_cons]
    by_cases h : k₁ = k
    · rw [if_pos h, if_pos h, set_cons, if_pos rfl]
    · rw [if_neg h, if_neg h, set_cons, if_neg h, ih]

/-- Setting what is there. -/
theorem set_get {k : κ} {v : β} {m : List (κ × β)} (h : get k m = some v) : set k v m = m := by
  induction m with
  | nil => cases h
  | cons p m ih =>
    obtain ⟨k₁, v₁⟩ := p
    unfold get at h
    unfold set
    split
    · rename_i hk
      rw [if_pos hk] at h
      cases h
      rw [hk]
    · rename_i hk
      rw [if_neg hk] at h
      rw [ih h]

theorem set_new {k : κ} {v : β} {m : List (κ × β)} (h : get k m = none) :
    set k v m = m ++ [(k, v)] := by
  induction m with
  | nil => rfl
  | cons p m ih =>
    obtain ⟨k₁, v₁⟩ := p
    unfold get at h
    unfold set
    split
    · rename_i hk
      rw [if_pos hk] at h
      cases h
    · rename_i hk
      rw [if_neg hk] at h
      rw [ih h]
      rfl

theorem delete_set {k : κ} {v : β} {m : List (κ × β)} (h : get k m = none) :
    delete k (set k v m) = m := by
  rw [set_new h]
  unfold delete
  rw [List.filter_append, List.filter_eq_self.mpr]
  · simp
  · intro p hp
    have hk := get_eq_none.mp h
    rw [decide_eq_true_eq]
    rintro rfl
    exact hk (List.mem_map_of_mem hp)

theorem get_delete (k k₁ : κ) (m : List (κ × β)) :
    get k (delete k₁ m) = if k₁ = k then none else get k m := by
  unfold delete
  induction m with
  | nil => rw [List.filter_nil, get, ite_self]
  | cons p m ih =>
    obtain ⟨k', v⟩ := p
    by_cases hk : k' = k₁
    · subst hk
      rw [List.filter_cons_of_neg (by simp), ih, get_cons]
      split <;> rfl
    · rw [List.filter_cons_of_pos (by simpa using hk), get_cons, ih, get_cons]
      split
      · rename_i h
        subst h
        rw [if_neg (Ne.symm hk)]
      · rfl

theorem keys_set (k : κ) (v : β) (m : List (κ × β)) :
    (set k v m).map Prod.fst =
      if k ∈ m.map Prod.fst then m.map Prod.fst else m.map Prod.fst ++ [k] := by
  induction m with
  | nil => simp [set]
  | cons p m ih =>
    obtain ⟨k₁, v₁⟩ := p
    unfold set
    by_cases hk : k₁ = k
    · simp [hk]
    · rw [if_neg hk, List.map_cons, ih]
      by_cases hm : k ∈ m.map Prod.fst
      · rw [if_pos hm, if_pos (by rw [List.map_cons]; exact .tail _ hm)]
        rfl
      · rw [if_neg hm, if_neg]
        · rfl
        · rw [List.map_cons, List.mem_cons]
          rintro (h | h)
          · exact hk h.symm
          · exact hm h

theorem nodup_set {k : κ} {v : β} {m : List (κ × β)} (hm : (m.map Prod.fst).Nodup) :
    ((set k v m).map Prod.fst).Nodup := by
  rw [keys_set]
  split
  · exact hm
  · rename_i h
    rw [List.nodup_append]
    refine ⟨hm, List.nodup_singleton k, fun a ha b hb => ?_⟩
    rw [List.mem_singleton] at hb
    subst hb
    rintro rfl
    exact h ha

theorem nodup_delete {k : κ} {m : List (κ × β)} (hm : (m.map Prod.fst).Nodup) :
    ((delete k m).map Prod.fst).Nodup :=
  hm.sublist (List.Sublist.map _ List.filter_sublist)

theorem mem_set {k : κ} {v : β} {m : List (κ × β)} {p : κ × β} (h : p ∈ set k v m) :
    p = (k, v) ∨ p ∈ m := by
  induction m with
  | nil => exact .inl (List.mem_singleton.mp h)
  | cons q m ih =>
    obtain ⟨k₁, v₁⟩ := q
    unfold set at h
    split at h
    · rcases List.mem_cons.mp h with h | h
      · exact .inl h
      · exact .inr (.tail _ h)
    · rcases List.mem_cons.mp h with h | h
      · exact .inr (h ▸ .head _)
      · rcases ih h with h | h
        · exact .inl h
        · exact .inr (.tail _ h)

/-- What a `set` drops. -/
theorem mem_set_of_mem {k : κ} {v : β} {m : List (κ × β)} {p : κ × β} (h : p ∈ m) :
    p ∈ set k v m ∨ p.1 = k ∧ get k m = some p.2 := by
  induction m with
  | nil => exact absurd h List.not_mem_nil
  | cons q m ih =>
    obtain ⟨k', v'⟩ := q
    rw [set_cons, get_cons]
    by_cases hk : k' = k
    · rw [if_pos hk, if_pos hk]
      rcases List.mem_cons.mp h with rfl | h
      · exact .inr ⟨hk, rfl⟩
      · exact .inl (.tail _ h)
    · rw [if_neg hk, if_neg hk]
      rcases List.mem_cons.mp h with rfl | h
      · exact .inl (.head _)
      · exact (ih h).imp (.tail _) id

/-! ## Parts of a map -/

section

variable {p : κ → Bool}

/-- The part of a map on the keys with `p`. -/
def within (p : κ → Bool) (m : List (κ × β)) : List (κ × β) := m.filter fun e => p e.1

omit [DecidableEq κ] in
theorem within_cons_in {k : κ} (hk : p k = true) (v : β) (m : List (κ × β)) :
    within p ((k, v) :: m) = (k, v) :: within p m := List.filter_cons_of_pos hk

omit [DecidableEq κ] in
theorem within_cons_out {k : κ} (hk : p k = false) (v : β) (m : List (κ × β)) :
    within p ((k, v) :: m) = within p m := by
  refine List.filter_cons_of_neg ?_
  dsimp only
  rw [hk]
  nofun

theorem get_within {k : κ} (hk : p k = true) (m : List (κ × β)) : get k (within p m) = get k m := by
  induction m with
  | nil => rfl
  | cons e m ih =>
    obtain ⟨k', v⟩ := e
    cases hp : p k' with
    | true => rw [within_cons_in hp, get_cons, get_cons, ih]
    | false =>
      have hne : k' ≠ k := by
        rintro rfl
        rw [hk] at hp
        cases hp
      rw [within_cons_out hp, get_cons, if_neg hne, ih]

theorem within_set {k : κ} (hk : p k = true) (v : β) (m : List (κ × β)) :
    within p (set k v m) = set k v (within p m) := by
  induction m with
  | nil => exact within_cons_in hk v []
  | cons e m ih =>
    obtain ⟨k', v'⟩ := e
    by_cases he : k' = k
    · subst he
      rw [set_cons, if_pos rfl, within_cons_in hk, within_cons_in hk, set_cons, if_pos rfl]
    · rw [set_cons, if_neg he]
      cases hp : p k' with
      | true => rw [within_cons_in hp, within_cons_in hp, set_cons, if_neg he, ih]
      | false => rw [within_cons_out hp, within_cons_out hp, ih]

/-- A key outside does not matter. -/
theorem within_set_out {k : κ} (hk : p k = false) (v : β) (m : List (κ × β)) :
    within p (set k v m) = within p m := by
  induction m with
  | nil => exact within_cons_out hk v []
  | cons e m ih =>
    obtain ⟨k', v'⟩ := e
    by_cases he : k' = k
    · subst he
      rw [set_cons, if_pos rfl, within_cons_out hk, within_cons_out hk]
    · rw [set_cons, if_neg he]
      cases hp : p k' with
      | true => rw [within_cons_in hp, within_cons_in hp, ih]
      | false => rw [within_cons_out hp, within_cons_out hp, ih]

theorem within_delete (k : κ) (m : List (κ × β)) :
    within p (delete k m) = delete k (within p m) := by
  unfold within delete
  rw [List.filter_filter, List.filter_filter]
  congr 1
  funext e
  exact Bool.and_comm ..

theorem within_delete_out {k : κ} (hk : p k = false) (m : List (κ × β)) :
    within p (delete k m) = within p m := by
  unfold within delete
  rw [List.filter_filter]
  refine List.filter_congr fun e _ => ?_
  by_cases he : e.1 = k
  · rw [he, hk, Bool.false_and]
  · rw [decide_eq_true he, Bool.and_true]

end

end RezSdk.OMap
