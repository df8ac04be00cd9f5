import Mathlib.Data.List.Nodup
import Mathlib.Data.List.Perm.Subperm
import StringCatalog.OrderedMap

/-! Facts about maps that remember the order of their keys: what is found in them, what putting a
value under a key changes, and which maps pairs make up. -/

namespace StringCatalog.OrderedMap

variable {α β : Type} [DecidableEq α] {map other : OrderedMap α β}

/-! ### Look-up -/

theorem mem_of_get?_eq_some {key : α} {value : β} (h : get? map key = some value) :
    (key, value) ∈ map := by
  induction map with
  | nil => contradiction
  | cons pair rest ih =>
    obtain ⟨k, v⟩ := pair
    rw [get?] at h
    split at h
    · rename_i heq
      cases h
      rw [heq]
      exact List.mem_cons_self
    · exact List.mem_cons_of_mem _ (ih h)

theorem get?_eq_some_iff (h : (map.map (·.1)).Nodup) {key : α} {value : β} :
    get? map key = some value ↔ (key, value) ∈ map := by
  refine ⟨mem_of_get?_eq_some, fun hmem => ?_⟩
  induction map with
  | nil => contradiction
  | cons pair rest ih =>
    rw [List.map_cons, List.nodup_cons] at h
    rw [get?]
    rcases List.mem_cons.mp hmem with rfl | hrest
    · exact if_pos rfl
    · have hne : pair.1 ≠ key := fun heq => h.1 (heq ▸ List.mem_map_of_mem hrest)
      rw [if_neg hne, ih h.2 hrest]

/-- Maps with the same pairs have the same values. -/
theorem get?_congr (h : (map.map (·.1)).Nodup) (hother : (other.map (·.1)).Nodup)
    (hmem : ∀ pair, pair ∈ map ↔ pair ∈ other) (key : α) : get? map key = get? other key := by
  refine Option.ext fun value => ?_
  rw [get?_eq_some_iff h, get?_eq_some_iff hother, hmem]

theorem get?_append_singleton (map : OrderedMap α β) (pair : α × β) (key : α) :
    get? (map ++ [pair]) key = (get? map key).or (if pair.1 = key then some pair.2 else none) := by
  induction map with
  | nil => rfl
  | cons first rest ih =>
    rw [List.cons_append, get?, get?, ih]
    split <;> rfl

theorem get?_eq_none_iff {key : α} : get? map key = none ↔ key ∉ map.map (·.1) := by
  induction map with
  | nil => simp [get?]
  | cons pair rest ih =>
    rw [get?, List.map_cons, List.mem_cons]
    by_cases hkey : pair.1 = key
    · simp [hkey]
    · simp [hkey, Ne.symm hkey, ih]

/-- Maps with the same keys in the same order are known by their values. -/
theorem eq_of_get?_eq (hkeys : map.map (·.1) = other.map (·.1)) (hnodup : (map.map (·.1)).Nodup)
    (h : ∀ key, get? map key = get? other key) : map = other := by
  induction map generalizing other with
  | nil => exact (List.map_eq_nil_iff.mp hkeys.symm).symm
  | cons pair rest ih =>
    cases other with
    | nil => contradiction
    | cons pair' rest' =>
      obtain ⟨hkey, hrest⟩ := List.cons.inj hkeys
      change pair.1 = pair'.1 at hkey
      rw [List.map_cons, List.nodup_cons] at hnodup
      have hvalue := h pair.1
      rw [get?, get?, if_pos rfl, if_pos hkey.symm, Option.some.injEq] at hvalue
      refine List.cons_eq_cons.mpr ⟨Prod.ext hkey hvalue, ih hrest hnodup.2 fun key => ?_⟩
      by_cases hk : pair.1 = key
      · have hnot : key ∉ rest.map (·.1) := hk ▸ hnodup.1
        rw [get?_eq_none_iff.mpr hnot, get?_eq_none_iff.mpr (hrest ▸ hnot)]
      · have hlater := h key
        rwa [get?, get?, if_neg hk, if_neg (hkey ▸ hk)] at hlater

/-! ### Putting -/

theorem get?_put (map : OrderedMap α β) (key k : α) (value : β) :
    get? (put map key value) k = if key = k then some value else get? map k := by
  induction map with
  | nil => rfl
  | cons pair rest ih =>
    obtain ⟨k', v'⟩ := pair
    rw [put]
    split
    · rename_i heq
      subst heq
      simp only [get?]
      split <;> rfl
    · rename_i hne
      simp only [get?, ih]
      split
      · rename_i heq
        subst heq
        rw [if_neg (Ne.symm hne)]
      · rfl

theorem put_of_notMem {key : α} (h : key ∉ map.map (·.1)) (value : β) :
    map.put key value = map ++ [(key, value)] := by
  induction map with
  | nil => rfl
  | cons pair map ih =>
    obtain ⟨hne, hrest⟩ := not_or.mp (mt List.mem_cons.mpr h)
    rw [put, if_neg (Ne.symm hne), ih hrest]
    rfl

theorem put_eq_self {key : α} {value : β} (h : get? map key = some value) :
    put map key value = map := by
  induction map with
  | nil => contradiction
  | cons pair rest ih =>
    obtain ⟨k, v⟩ := pair
    rw [get?] at h
    rw [put]
    split
    · rename_i hk
      rw [if_pos hk, Option.some.injEq] at h
      rw [h]
    · rename_i hk
      rw [if_neg hk] at h
      rw [ih h]

theorem put_subperm (map : OrderedMap α β) (key : α) (value : β) :
    List.Subperm (map.put key value) (map ++ [(key, value)]) := by
  induction map with
  | nil => exact List.Subperm.refl _
  | cons pair map ih =>
    rw [put]
    split
    · -- the old pair of the key goes
      rename_i hkey
      rw [hkey]
      exact (List.perm_append_singleton _ _).symm.subperm.trans (List.sublist_cons_self _ _).subperm
    · exact (List.subperm_cons pair).mpr ih

theorem mem_put {key : α} {value : β} {pair : α × β} (h : pair ∈ put map key value) :
    pair = (key, value) ∨ pair ∈ map := by
  have hmem := (put_subperm map key value).subset h
  rcases List.mem_append.mp hmem with hold | hnew
  · exact Or.inr hold
  · exact Or.inl (List.mem_singleton.mp hnew)

/-- A key that is there stays in its place. -/
theorem map_fst_put {key : α} (h : key ∈ map.map (·.1)) (value : β) :
    (put map key value).map (·.1) = map.map (·.1) := by
  induction map with
  | nil => contradiction
  | cons pair rest ih =>
    rw [put]
    split
    · rename_i hkey
      rw [List.map_cons, List.map_cons, hkey]
    · rename_i hkey
      have hrest := (List.mem_cons.mp h).resolve_left (Ne.symm hkey)
      rw [List.map_cons, ih hrest, List.map_cons]

theorem mem_keys_put {key k : α} {value : β} :
    k ∈ (put map key value).map (·.1) ↔ k ∈ map.map (·.1) ∨ k = key := by
  rw [← not_iff_not, ← get?_eq_none_iff, get?_put, not_or, ← get?_eq_none_iff]
  by_cases hk : key = k
  · simp [hk]
  · simp [hk, Ne.symm hk]

theorem nodup_put (h : (map.map (·.1)).Nodup) (key : α) (value : β) :
    ((put map key value).map (·.1)).Nodup := by
  by_cases hkey : key ∈ map.map (·.1)
  · rwa [map_fst_put hkey]
  · rw [put_of_notMem hkey, List.map_append]
    exact List.nodup_append_comm.mpr (List.nodup_cons.mpr ⟨hkey, h⟩)

/-! ### Maps of pairs -/

/-- Pairs with different keys make up the map as they stand. -/
theorem ofPairs_of_nodup {pairs : List (α × β)} (h : (pairs.map (·.1)).Nodup) :
    ofPairs pairs = pairs := by
  -- behind the pairs that are in the map already
  suffices hfold : ∀ map : OrderedMap α β, ((map ++ pairs).map (·.1)).Nodup →
      pairs.foldl (fun map pair => map.put pair.1 pair.2) map = map ++ pairs from hfold [] h
  clear h
  induction pairs with
  | nil => simp
  | cons pair pairs ih =>
    intro map hnodup
    have hnot : pair.1 ∉ map.map (·.1) := by
      rw [List.map_append, List.nodup_append] at hnodup
      exact fun hmem => hnodup.2.2 _ hmem _ (by simp) rfl
    rw [List.foldl_cons, put_of_notMem hnot, ih _ (by simpa using hnodup)]
    simp

/-- A map that is made of pairs has no others, and none more often. -/
theorem ofPairs_subperm (pairs : List (α × β)) : List.Subperm (ofPairs pairs) pairs := by
  suffices hfold : ∀ map : OrderedMap α β, List.Subperm
      (pairs.foldl (fun map pair => put map pair.1 pair.2) map) (map ++ pairs) from hfold []
  induction pairs with
  | nil => simp [List.Subperm.refl]
  | cons pair pairs ih =>
    intro map
    have hput := (List.subperm_append_right pairs).mpr (put_subperm map pair.1 pair.2)
    simpa using (ih _).trans hput

theorem nodup_ofPairs (pairs : List (α × β)) : ((ofPairs pairs).map (·.1)).Nodup := by
  suffices hfold : ∀ map : OrderedMap α β, (map.map (·.1)).Nodup →
      ((pairs.foldl (fun map pair => put map pair.1 pair.2) map).map (·.1)).Nodup from
    hfold [] List.nodup_nil
  induction pairs with
  | nil => exact fun map h => h
  | cons pair pairs ih => exact fun map h => ih _ (nodup_put h pair.1 pair.2)

theorem mem_keys_ofPairs {pairs : List (α × β)} {key : α} :
    key ∈ (ofPairs pairs).map (·.1) ↔ key ∈ pairs.map (·.1) := by
  suffices hfold : ∀ map : OrderedMap α β,
      key ∈ (pairs.foldl (fun map pair => put map pair.1 pair.2) map).map (·.1) ↔
        key ∈ map.map (·.1) ∨ key ∈ pairs.map (·.1) by
    rw [ofPairs, hfold]
    simp
  induction pairs with
  | nil => simp
  | cons pair pairs ih =>
    intro map
    rw [List.foldl_cons, ih, mem_keys_put, List.map_cons, List.mem_cons, or_assoc]

end StringCatalog.OrderedMap
