import Mathlib.Data.List.Basic
import StringCatalog.Text.LetterCase

/-! What the case mappings can make of a character: itself, the image of a run that holds it, or one
of the listed sequences. A property of numbers that all these have is one of the forms in the other
case. -/

namespace StringCatalog

theorem CodePoint.toNat_ofNat {n : Nat} (h : n ≤ 0x10FFFF) : (CodePoint.ofNat n).toNat = n := by
  unfold CodePoint.ofNat
  split
  · rename_i hhalf
    simp only [CodePoint.toNat]
    omega
  · rename_i hchar
    have hvalid : n.isValidChar := by
      rcases Nat.lt_or_ge n 0xD800 with hlow | hhigh
      · exact Or.inl hlow
      · exact Or.inr ⟨by omega, by omega⟩
    rw [CodePoint.toNat, Char.ofNat, dif_pos hvalid]
    rfl

/-- The images of all runs are numbers of code points. -/
theorem image_of_run : ∀ run ∈ lowerRuns ++ upperRuns,
    0 ≤ run.first + run.shift ∧ run.last + run.shift ≤ 0x10FFFF := by
  decide +kernel

theorem code_of_upperSequences :
    ∀ pair ∈ upperSequences, ∀ code ∈ pair.2, code ≤ 0x10FFFF := by
  decide +kernel

variable {p : Nat → Prop} {c : CodePoint}

/-- A mapping along runs leaves a character alone or puts it into the image of a run. -/
theorem prop_mapCase {runs : List CaseRun} (hruns : runs ⊆ lowerRuns ++ upperRuns)
    (himage : ∀ run ∈ runs, ∀ n : Nat,
      run.first + run.shift ≤ n → n ≤ run.last + run.shift → p n)
    (hc : p c.toNat) : p (mapCase runs c).toNat := by
  unfold mapCase
  cases hfind : runs.find? (·.contains c.toNat) with
  | none => exact hc
  | some run =>
    have hmem := List.mem_of_find?_eq_some hfind
    have hbounds := image_of_run run (hruns hmem)
    have hcontains := List.find?_some hfind
    simp only [CaseRun.contains, Bool.and_eq_true, Nat.ble_eq] at hcontains
    have hnumber : (CodePoint.ofNat (Int.toNat (c.toNat + run.shift))).toNat =
        Int.toNat (c.toNat + run.shift) := CodePoint.toNat_ofNat (by omega)
    show p (CodePoint.ofNat (Int.toNat (c.toNat + run.shift))).toNat
    rw [hnumber]
    exact himage run hmem _ (by omega) (by omega)

theorem prop_lowerChar
    (himage : ∀ run ∈ lowerRuns, ∀ n : Nat,
      run.first + run.shift ≤ n → n ≤ run.last + run.shift → p n)
    (hdotted : p 0x69 ∧ p 0x307) (hc : p c.toNat) : ∀ d ∈ lowerChar c, p d.toNat := by
  intro d hd
  unfold lowerChar at hd
  split at hd
  · rcases List.mem_pair.mp hd with rfl | rfl
    · exact hdotted.1
    · rw [CodePoint.toNat_ofNat (by decide)]
      exact hdotted.2
  · rw [List.mem_singleton.mp hd]
    exact prop_mapCase (List.subset_append_left _ _) himage hc

theorem prop_upperChar
    (himage : ∀ run ∈ upperRuns, ∀ n : Nat,
      run.first + run.shift ≤ n → n ≤ run.last + run.shift → p n)
    (hsequence : ∀ pair ∈ upperSequences, ∀ code ∈ pair.2, p code)
    (hc : p c.toNat) : ∀ d ∈ upperChar c, p d.toNat := by
  intro d hd
  unfold upperChar at hd
  split at hd
  · rename_i codes hlookup
    obtain ⟨code, hcode, rfl⟩ := List.mem_map.mp hd
    obtain ⟨before, after, hsequences, -⟩ := List.lookup_eq_some_iff.mp hlookup
    have hpair : (c.toNat, codes) ∈ upperSequences := by simp [hsequences]
    rw [CodePoint.toNat_ofNat (code_of_upperSequences _ hpair code hcode)]
    exact hsequence _ hpair code hcode
  · rw [List.mem_singleton.mp hd]
    exact prop_mapCase (List.subset_append_right _ _) himage hc

end StringCatalog
