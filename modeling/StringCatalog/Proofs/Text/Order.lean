import Mathlib.Data.List.Lex
import StringCatalog.Proofs.Text.Basic
import StringCatalog.Proofs.Text.Distinct

/-! The order of texts is that of the numbers of their code points, the first difference deciding. So
texts in ascending order are known by which ones they are. -/

namespace StringCatalog.Text

/-- The numbers of the code points of a text. -/
def codes (t : Text) : List Nat := t.map CodePoint.toNat

theorem codes_injective {s t : Text} (h : s.codes = t.codes) : s = t :=
  List.map_injective_iff.mpr (fun _ _ => CodePoint.toNat_injective) h

theorem not_le_iff {s t : Text} : le s t = false ↔ t.codes < s.codes := by
  induction s generalizing t with
  | nil => simp [le, codes]
  | cons a s ih =>
    cases t with
    | nil => simp [le, codes]
    | cons b t =>
      have hhead : a = b ↔ a.toNat = b.toNat :=
        ⟨congrArg CodePoint.toNat, CodePoint.toNat_injective⟩
      have hcodes : ∀ (c : CodePoint) (u : Text), codes (c :: u) = c.toNat :: u.codes :=
        fun _ _ => rfl
      rw [hcodes, hcodes, List.cons_lt_cons_iff, ← ih, le, Bool.or_eq_false_iff,
        decide_eq_false_iff_not, Bool.and_eq_false_iff, beq_eq_false_iff_ne, ne_eq, hhead]
      grind

/-- Texts are in order if the numbers of their code points are. -/
theorem le_iff {s t : Text} : le s t = true ↔ s.codes ≤ t.codes := by
  rw [← not_lt, ← not_le_iff, Bool.not_eq_false]

theorem le_trans (s t u : Text) (hst : le s t = true) (htu : le t u = true) : le s u = true :=
  le_iff.mpr ((le_iff.mp hst).trans (le_iff.mp htu))

theorem le_total (s t : Text) : (le s t || le t s) = true := by
  rw [Bool.or_eq_true, le_iff, le_iff]
  exact Std.le_total

/-- The texts without repetitions stand in strictly ascending order. -/
theorem pairwise_sortedDistinct (ts : List Text) :
    (sortedDistinct ts).Pairwise fun s t => s.codes < t.codes := by
  have hle : (sortedDistinct ts).Pairwise fun s t => le s t = true :=
    List.pairwise_mergeSort le_trans le_total _
  refine (hle.and (nodup_sortedDistinct ts)).imp fun {s t} h => ?_
  exact lt_of_le_of_ne (le_iff.mp h.1) fun heq => h.2 (codes_injective heq)

/-- Neither the order of texts nor repetitions matter for those without repetitions. -/
theorem sortedDistinct_congr {ts us : List Text} (h : ∀ t, t ∈ ts ↔ t ∈ us) :
    sortedDistinct ts = sortedDistinct us := by
  have hperm : (sortedDistinct ts).Perm (sortedDistinct us) := by
    rw [List.perm_ext_iff_of_nodup (nodup_sortedDistinct ts) (nodup_sortedDistinct us)]
    simpa [mem_sortedDistinct] using h
  refine hperm.eq_of_pairwise (fun s t _ _ hst hts => ?_) (pairwise_sortedDistinct ts)
    (pairwise_sortedDistinct us)
  exact absurd hst (lt_asymm hts)

end StringCatalog.Text
