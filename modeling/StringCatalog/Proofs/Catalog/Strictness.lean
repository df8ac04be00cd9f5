import StringCatalog.Proofs.Catalog.Extraction

/-! Strict extraction. It has a result exactly if the extraction that is not strict has one without
errors, and then both have the same. -/

namespace StringCatalog.Catalog

variable {c : Catalog} {x : Extraction} {path : Option Path} {skipStale : Bool}

/-- What an entry comes to is no error. -/
def isHarmless : Issue ⊕ Resource → Bool
  | .inl issue => issue.level != .error
  | .inr _ => true

theorem isOk_filterMap (found : List (Issue ⊕ Resource)) :
    (Extraction.mk (found.filterMap Sum.getRight?) (found.filterMap Sum.getLeft?)).isOk =
      found.all isHarmless := by
  unfold Extraction.isOk
  induction found with
  | nil => rfl
  | cons y found ih =>
    cases y with
    | inl issue => simpa [isHarmless] using congrArg (issue.level != .error && ·) ih
    | inr r => simpa [isHarmless] using ih

/-- An entry that is not skipped comes to a resource if it has one, and else to an error. -/
theorem extractEntry_true_iff {e : CatalogEntry} {y : Issue ⊕ Resource} :
    extractEntry path true skipStale e = .ok y ↔
      extractEntry path false skipStale e = .ok y ∧ isHarmless y = true := by
  unfold extractEntry
  by_cases hskip : (skipStale && e.isStale) = true
  · rw [if_pos hskip, if_pos hskip]
    refine ⟨fun h => ⟨h, ?_⟩, fun h => h.1⟩
    cases h
    rfl
  · rw [if_neg hskip, if_neg hskip]
    cases hresource : e.toResource with
    | ok r =>
      refine ⟨fun h => ⟨h, ?_⟩, fun h => h.1⟩
      cases h
      rfl
    | error failure =>
      cases failure with
      | generation error =>
        constructor
        · intro h
          contradiction
        · rintro ⟨h, hharmless⟩
          cases h
          contradiction
      | numeralTooLong => simp
      | tooDeep => simp

/-- Strict extraction succeeds exactly where the other one does without errors. -/
theorem extract_true_iff : c.extract true skipStale = .ok x ↔
    c.extract false skipStale = .ok x ∧ x.isOk = true := by
  have hextract : ∀ strict, c.extract strict skipStale = .ok x ↔ ∃ found,
      List.Forall₂ (fun e y => extractEntry c.path strict skipStale e = .ok y) c.entries found ∧
        ⟨found.filterMap Sum.getRight?, found.filterMap Sum.getLeft?⟩ = x := by
    intro strict
    unfold extract
    simp only [Sequence.bind_eq_ok_iff, Sequence.mapM_eq_ok_iff, Except.ok.injEq]
  rw [hextract, hextract]
  simp only [extractEntry_true_iff, Sequence.forall₂_and_right]
  constructor
  · rintro ⟨found, ⟨heach, hall⟩, rfl⟩
    exact ⟨⟨found, heach, rfl⟩, (isOk_filterMap found).trans (List.all_eq_true.mpr hall)⟩
  · rintro ⟨⟨found, heach, rfl⟩, hok⟩
    have hall := List.all_eq_true.mp ((isOk_filterMap found).symm.trans hok)
    exact ⟨found, ⟨heach, hall⟩, rfl⟩

/-- Where there are no errors it makes no difference whether the extraction is strict. -/
theorem extract_of_isOk (h : c.extract false skipStale = .ok x) (hok : x.isOk = true)
    (strict : Bool) : c.extract strict skipStale = .ok x := by
  cases strict with
  | false => exact h
  | true => exact extract_true_iff.mpr ⟨h, hok⟩

theorem toResource_of_extractEntry {strict : Bool} {e : CatalogEntry} {r : Resource}
    (h : extractEntry path strict skipStale e = .ok (.inr r)) : e.toResource = .ok r := by
  unfold extractEntry at h
  split at h
  · cases h
  · split at h
    · cases h
      assumption
    · split at h <;> cases h
    · contradiction

/-- The resources of an extraction are those of entries. -/
theorem exists_entry_of_mem_resources {strict : Bool} (h : c.extract strict skipStale = .ok x)
    {r : Resource} (hr : r ∈ x.resources) : ∃ e : CatalogEntry, e.toResource = .ok r := by
  obtain ⟨found, hfound, h⟩ := Sequence.bind_eq_ok_iff.mp h
  cases h
  obtain ⟨y, hy, hright⟩ := List.mem_filterMap.mp hr
  obtain ⟨e, -, hentry⟩ := (Sequence.mem_of_mapM_eq_ok hfound y).mp hy
  obtain rfl := Sum.getRight?_eq_some_iff.mp hright
  exact ⟨e, toResource_of_extractEntry hentry⟩

end StringCatalog.Catalog
