import StringCatalog.Proofs.OrderedMap
import StringCatalog.Proofs.Text.Distinct
import StringCatalog.Validation

/-! Which resources pass validation, and which keys are in several catalogs. Taking resources out of
those that pass it leaves ones that pass. -/

namespace StringCatalog

namespace Resource

theorem duplicateKeys_singleton_eq_nil_iff {name : Text} {rs : List Resource} :
    duplicateKeys [(name, rs)] = [] ↔ (rs.map (·.key)).Nodup := by
  have huses : ([(name, rs)].flatMap fun c => c.2.map fun r => (r.key, c.1)).map (·.1) =
      rs.map (·.key) := by simp
  rw [← huses]
  exact Text.repeated_eq_nil_iff fun key names => (key, names)

/-- Resources pass if no key has a fault and no two keys are equal. -/
theorem validate_eq_ok_iff {rs : List Resource} {source : Option Path} :
    validate rs source = .ok () ↔ (∀ r ∈ rs, keyFault? r = none) ∧ (rs.map (·.key)).Nodup := by
  rw [← List.findSome?_eq_none_iff]
  unfold validate
  cases hfault : rs.findSome? keyFault? with
  | some e => simp
  | none =>
    dsimp only
    split
    · rename_i hnone
      simpa using duplicateKeys_singleton_eq_nil_iff.mp hnone
    · rename_i hsome
      simpa using mt duplicateKeys_singleton_eq_nil_iff.mpr hsome

/-- Taking resources out makes none of the others invalid, whatever file they are said to be
from. -/
theorem validate_sublist {rs kept : List Resource} (hsub : kept.Sublist rs) {source : Option Path}
    (h : validate rs source = .ok ()) (source' : Option Path) : validate kept source' = .ok () := by
  rw [validate_eq_ok_iff] at h ⊢
  exact ⟨fun r hr => h.1 r (hsub.subset hr), (hsub.map _).nodup h.2⟩

/-! ### Keys in several catalogs -/

/-- Some of the resources has the key. -/
def hasKey (key : Text) (rs : List Resource) : Bool := rs.any (·.key == key)

theorem hasKey_iff {key : Text} {rs : List Resource} :
    hasKey key rs = true ↔ key ∈ rs.map (·.key) := by
  simp [hasKey]

/-- The catalogs in which a key occurs. -/
def catalogsWith (key : Text) (catalogs : List (Text × List Resource)) : List Text :=
  (catalogs.filter fun c => hasKey key c.2).map (·.1)

theorem uses_of_nodup {name key : Text} {rs : List Resource} (h : (rs.map (·.key)).Nodup) :
    ((rs.map fun r => (r.key, name)).filter (·.1 == key)).map (·.2) =
      if hasKey key rs then [name] else [] := by
  induction rs with
  | nil => rfl
  | cons r rs ih =>
    obtain ⟨hr, hrs⟩ := List.nodup_cons.mp h
    have hrest := ih hrs
    by_cases hkey : r.key = key
    · have hnone : ¬hasKey key rs = true := by
        rwa [hasKey_iff, ← hkey]
      have hhere : hasKey key (r :: rs) = true := by simp [hasKey, hkey]
      rw [if_neg hnone] at hrest
      rw [if_pos hhere, List.map_cons, List.filter_cons_of_pos (by simpa using hkey), List.map_cons,
        hrest]
    · have hsame : hasKey key (r :: rs) = hasKey key rs := by simp [hasKey, hkey]
      rw [hsame, List.map_cons, List.filter_cons_of_neg (by simpa using hkey), hrest]

theorem names_of_uses {key : Text} {catalogs : List (Text × List Resource)}
    (h : ∀ c ∈ catalogs, (c.2.map (·.key)).Nodup) :
    ((catalogs.flatMap fun c => c.2.map fun r => (r.key, c.1)).filter (·.1 == key)).map (·.2) =
      catalogsWith key catalogs := by
  induction catalogs with
  | nil => rfl
  | cons c catalogs ih =>
    obtain ⟨hfirst, hrest⟩ := List.forall_mem_cons.mp h
    rw [List.flatMap_cons, List.filter_append, List.map_append, ih hrest, uses_of_nodup hfirst]
    unfold catalogsWith
    by_cases hkey : hasKey key c.2 = true
    · rw [if_pos hkey, List.filter_cons_of_pos (by simpa using hkey)]
      rfl
    · rw [if_neg hkey, List.filter_cons_of_neg (by simpa using hkey)]
      rfl

/-- In catalogs none of which has a key twice, the keys that are found are those of at least two of
the catalogs, each with these catalogs. -/
theorem mem_duplicateKeys_iff {catalogs : List (Text × List Resource)}
    (h : ∀ c ∈ catalogs, (c.2.map (·.key)).Nodup) {key : Text} {names : List Text} :
    (key, names) ∈ duplicateKeys catalogs ↔
      names = catalogsWith key catalogs ∧ 2 ≤ names.length := by
  unfold duplicateKeys
  simp only [names_of_uses h, List.mem_filterMap, Text.mem_sortedDistinct]
  constructor
  · rintro ⟨key', -, hfound⟩
    split at hfound
    · rename_i hlength
      cases hfound
      exact ⟨rfl, hlength⟩
    · contradiction
  · rintro ⟨rfl, hlength⟩
    refine ⟨key, ?_, if_pos hlength⟩
    obtain ⟨name, hname⟩ : ∃ name, name ∈ catalogsWith key catalogs :=
      List.exists_mem_of_length_pos (by omega)
    obtain ⟨c, hc, -⟩ := List.mem_map.mp hname
    obtain ⟨hmem, hkey⟩ := List.mem_filter.mp hc
    obtain ⟨r, hr, hrkey⟩ := List.mem_map.mp (hasKey_iff.mp hkey)
    exact List.mem_map.mpr ⟨(r.key, c.1),
      List.mem_flatMap.mpr ⟨c, hmem, List.mem_map.mpr ⟨r, hr, rfl⟩⟩, hrkey⟩

/-- No key is found twice. -/
theorem nodup_duplicateKeys (catalogs : List (Text × List Resource)) :
    ((duplicateKeys catalogs).map (·.1)).Nodup := by
  unfold duplicateKeys
  rw [List.map_filterMap]
  refine (Text.nodup_sortedDistinct _).filterMap fun key key' found hkey hkey' => ?_
  have hsame : ∀ {key found : Text} {names : List Text}, found ∈ Option.map Prod.fst
      (if 2 ≤ names.length then some (key, names) else none) → key = found := by
    intro key found names hfound
    split at hfound
    · exact Option.some.inj hfound
    · contradiction
  rw [hsame hkey, hsame hkey']

end Resource

end StringCatalog
