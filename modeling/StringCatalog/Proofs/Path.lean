import StringCatalog.Path
import StringCatalog.Proofs.Text.Basic
import StringCatalog.Proofs.Text.Encoding

/-! Paths that have been made absolute. To make such a path absolute again leaves it as it is. -/

namespace StringCatalog

theorem PathFault.of?_eq_none_iff {t : Text} : of? t = none ↔
    (∀ c ∈ t, (c.char?.isNone && !c.isByte) = false) ∧ CodePoint.char '\x00' ∉ t := by
  have hany : (t.any fun c => c.char?.isNone && !c.isByte) = true ↔
      ¬∀ c ∈ t, (c.char?.isNone && !c.isByte) = false := by
    simp
  unfold of?
  split
  · rename_i h
    exact ⟨nofun, fun hnone => absurd hnone.1 (hany.mp h)⟩
  · rename_i h
    have hall := not_not.mp (mt hany.mpr h)
    split
    · rename_i hnull
      exact ⟨nofun, fun hnone => absurd (List.contains_iff_mem.mp hnull) hnone.2⟩
    · rename_i hnull
      exact ⟨fun _ => ⟨hall, mt List.contains_iff_mem.mpr hnull⟩, fun _ => rfl⟩

theorem PathFault.of?_append {s t : Text} (hs : of? s = none) (ht : of? t = none) :
    of? (s ++ t) = none := by
  rw [of?_eq_none_iff] at hs ht ⊢
  exact ⟨List.forall_mem_append.mpr ⟨hs.1, ht.1⟩,
    fun hnull => (List.mem_append.mp hnull).elim hs.2 ht.2⟩

namespace Path

/-- The last part of a path that can be shown can be shown too. -/
theorem isEncodable_name {p : Path} (h : p.display.isEncodable = true) :
    p.name.isEncodable = true := by
  have hparts : ∀ part ∈ p.parts, part.isEncodable = true := by
    unfold display at h
    split at h
    case h_1 hnil =>
      obtain ⟨-, hjoin⟩ := List.append_eq_nil_iff.mp hnil
      exact (Text.isEncodable_join (Text.isEncodable_ofString "/")).mp (by rw [hjoin]; rfl)
    case h_2 =>
      rw [Text.isEncodable_append, Bool.and_eq_true] at h
      exact (Text.isEncodable_join (Text.isEncodable_ofString "/")).mp h.2
  unfold name
  rw [List.getLastD_eq_getLast?]
  cases hlast : p.parts.getLast? with
  | none => rfl
  | some part => exact hparts part (List.mem_of_getLast? hlast)

/-- Collapsing keeps names, but no double dots. -/
theorem mem_collapse {parts : List Text} {name : Text} (h : name ∈ collapse parts) :
    name ∈ parts ∧ name ≠ ".." := by
  have hfold : ∀ done : List Text, name ∈ parts.foldl
      (fun done (p : Text) => if p = ".." then done.dropLast else done ++ [p]) done →
        name ∈ done ∨ (name ∈ parts ∧ name ≠ "..") := by
    clear h
    induction parts with
    | nil => exact fun _ => Or.inl
    | cons p parts ih =>
      intro done h
      rcases ih _ h with hdone | ⟨hparts, hne⟩
      · dsimp only at hdone
        split at hdone
        · exact Or.inl (List.dropLast_subset done hdone)
        · rename_i hp
          rcases List.mem_append.mp hdone with hbefore | hlast
          · exact Or.inl hbefore
          · rw [List.mem_singleton.mp hlast]
            exact Or.inr ⟨List.mem_cons_self, hp⟩
      · exact Or.inr ⟨List.mem_cons_of_mem p hparts, hne⟩
  rcases hfold [] h with hnil | hmem
  · contradiction
  · exact hmem

theorem collapse_of_notMem {parts : List Text} (h : Text.ofString ".." ∉ parts) :
    collapse parts = parts := by
  have hfold : ∀ done : List Text, parts.foldl
      (fun done (p : Text) => if p = ".." then done.dropLast else done ++ [p]) done =
        done ++ parts := by
    induction parts with
    | nil => simp
    | cons p parts ih =>
      obtain ⟨hp, hrest⟩ := not_or.mp (mt List.mem_cons.mpr h)
      intro done
      rw [List.foldl_cons, if_neg (Ne.symm hp), ih hrest, List.append_assoc]
      rfl
  exact hfold []

/-- A path from the root without double dots, whose names may all stand in a path. -/
structure IsResolved (p : Path) : Prop where
  root : p.root = "/"
  dots : Text.ofString ".." ∉ p.parts
  faultless : ∀ name ∈ p.parts, PathFault.of? name = none

theorem isResolved_of_resolve {directory p q : Path} (h : directory.resolve p = .ok q) :
    q.IsResolved := by
  unfold resolve at h
  dsimp only at h
  split at h
  · contradiction
  · rename_i hfault
    rw [List.findSome?_eq_none_iff] at hfault
    cases h
    exact ⟨rfl, fun hdots => (mem_collapse hdots).2 rfl,
      fun name hname => hfault name (mem_collapse hname).1⟩

namespace IsResolved

variable {p q : Path}

theorem isAbsolute (h : p.IsResolved) : p.isAbsolute = true := by
  rw [Path.isAbsolute, h.root]
  rfl

/-- A path that has been made absolute stays as it is, whatever directory it is seen from. -/
theorem resolve (h : p.IsResolved) (directory : Path) : directory.resolve p = .ok p := by
  have happend : directory.append p = p := if_pos h.isAbsolute
  rw [Path.resolve, happend, List.findSome?_eq_none_iff.mpr h.faultless]
  dsimp only
  rw [collapse_of_notMem h.dots, ← h.root]

theorem parent (h : p.IsResolved) : p.parent.IsResolved :=
  ⟨h.root, fun hdots => h.dots (List.dropLast_subset _ hdots),
    fun name hname => h.faultless name (List.dropLast_subset _ hname)⟩

theorem faultless_name (h : p.IsResolved) : PathFault.of? p.name = none := by
  rw [name, List.getLastD_eq_getLast?]
  cases hlast : p.parts.getLast? with
  | none => rfl
  | some name => exact h.faultless name (List.mem_of_getLast? hlast)

theorem fault?_eq_none (h : p.IsResolved) : p.fault? = none := by
  have hdisplay : p.display = "/" ++ Text.join "/" p.parts := by
    rw [display, h.root]
    rfl
  have hslash : PathFault.of? "/" = none := by decide
  rw [fault?, hdisplay]
  -- every character is a slash or in a name
  have hmem : ∀ c ∈ Text.ofString "/" ++ Text.join "/" p.parts,
      ∃ t, c ∈ t ∧ PathFault.of? t = none := by
    intro c hc
    rcases List.mem_append.mp hc with hc | hc
    · exact ⟨_, hc, hslash⟩
    · rcases Text.mem_join hc with hc | ⟨name, hname, hc⟩
      · exact ⟨_, hc, hslash⟩
      · exact ⟨name, hc, h.faultless name hname⟩
  refine PathFault.of?_eq_none_iff.mpr ⟨fun c hc => ?_, fun hnull => ?_⟩
  · obtain ⟨t, hc, ht⟩ := hmem c hc
    exact (PathFault.of?_eq_none_iff.mp ht).1 c hc
  · obtain ⟨t, hc, ht⟩ := hmem _ hnull
    exact (PathFault.of?_eq_none_iff.mp ht).2 hc

/-- Resolved paths are told apart by their parts. -/
theorem parts_ne (hp : p.IsResolved) (hq : q.IsResolved) (hne : p ≠ q) :
    p.parts ≠ q.parts := by
  intro hparts
  refine hne ?_
  cases p
  cases q
  obtain rfl := hp.root
  obtain rfl := hq.root
  obtain rfl := hparts
  rfl

end IsResolved

end Path

end StringCatalog
