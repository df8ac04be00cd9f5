import StringCatalog.Proofs.Sequence
import StringCatalog.Text.Basic

/-! Texts without repetitions, and what is found by looking for repeated ones. -/

namespace StringCatalog.Text

theorem mem_sortedDistinct {ts : List Text} {t : Text} : t ∈ sortedDistinct ts ↔ t ∈ ts := by
  simp [sortedDistinct]

theorem nodup_sortedDistinct (ts : List Text) : (sortedDistinct ts).Nodup := by
  rw [sortedDistinct, (List.mergeSort_perm _ _).nodup_iff]
  exact Sequence.nodup_eraseDups ts

/-- Among names with what they come from, none is reported as repeated exactly if they are all
different. -/
theorem repeated_eq_nil_iff {α : Type} {uses : List (Text × Text)} (f : Text → List Text → α) :
    ((sortedDistinct (uses.map (·.1))).filterMap fun n =>
      let sources := (uses.filter (·.1 == n)).map (·.2)
      if 2 ≤ sources.length then some (f n sources) else none) = [] ↔
        (uses.map (·.1)).Nodup := by
  have hcount : ∀ n, (uses.map (·.1)).count n = (uses.filter (·.1 == n)).length := by
    intro n
    rw [← List.countP_eq_length_filter, List.count, List.countP_map]
    rfl
  rw [List.nodup_iff_count_le_one]
  simp only [List.filterMap_eq_nil_iff, mem_sortedDistinct, List.length_map, ite_eq_right_iff,
    reduceCtorEq, imp_false, hcount]
  constructor
  · intro h n
    by_cases hn : n ∈ uses.map (·.1)
    · have := h n hn
      omega
    · have := List.count_eq_zero.mpr hn
      rw [hcount] at this
      omega
  · intro h n _
    have := h n
    omega

end StringCatalog.Text
