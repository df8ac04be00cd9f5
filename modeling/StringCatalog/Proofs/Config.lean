import StringCatalog.Config.Reader
import StringCatalog.Proofs.Path
import StringCatalog.Proofs.Sequence

/-! The paths of a configuration: all that are read are made absolute. -/

namespace StringCatalog

/-- Both paths of a target are resolved. -/
structure Target.IsResolved (target : Target) : Prop where
  input : target.input.IsResolved
  output : target.output.IsResolved

namespace Config

/-- All targets are resolved. -/
structure IsResolved (config : Config) : Prop where
  main : config.main.IsResolved
  diffs : ∀ target ∈ config.diffs, target.IsResolved

variable {homeOf : Text → Option Path} {root : Path}

theorem isResolved_resolvePath {text : Text} {p : Path} (h : resolvePath homeOf root text = .ok p) :
    p.IsResolved := by
  obtain ⟨path, -, h⟩ := Sequence.bind_eq_ok_iff.mp h
  exact Path.isResolved_of_resolve (Sequence.mapError_eq_ok_iff.mp h)

theorem isResolved_diffOf {index : Nat} {value : Value} {target : Target}
    (h : diffOf homeOf root index value = .ok target) : target.IsResolved := by
  unfold diffOf at h
  split at h
  · obtain ⟨input, -, h⟩ := Sequence.bind_eq_ok_iff.mp h
    obtain ⟨output, -, h⟩ := Sequence.bind_eq_ok_iff.mp h
    split at h
    · contradiction
    · obtain ⟨inputPath, hinput, h⟩ := Sequence.bind_eq_ok_iff.mp h
      obtain ⟨outputPath, houtput, h⟩ := Sequence.bind_eq_ok_iff.mp h
      cases h
      exact ⟨isResolved_resolvePath hinput, isResolved_resolvePath houtput⟩
  · contradiction

theorem isResolved_diffsOf {members : Members} {diffs : List Target}
    (h : diffsOf homeOf root members = .ok diffs) : ∀ target ∈ diffs, target.IsResolved := by
  unfold diffsOf at h
  dsimp only at h
  split at h
  · cases h
    nofun
  · split at h
    · intro target htarget
      obtain ⟨item, -, hitem⟩ := (Sequence.mem_of_mapM_eq_ok h target).mp htarget
      exact isResolved_diffOf hitem
    · contradiction

theorem isResolved_ofMembers {members : Members} {config : Config}
    (h : ofMembers homeOf root members = .ok config) : config.IsResolved := by
  unfold ofMembers at h
  simp only [Sequence.bind_eq_ok_iff] at h
  obtain ⟨_, -, _, -, _, -, _, -, _, -, diffs, hdiffs, input, hinput, output, houtput, h⟩ := h
  cases h
  exact ⟨⟨isResolved_resolvePath hinput, isResolved_resolvePath houtput⟩,
    isResolved_diffsOf hdiffs⟩

theorem isTypeName_ofMembers {members : Members} {config : Config}
    (h : ofMembers homeOf root members = .ok config) : isTypeName config.typeName = true := by
  unfold ofMembers at h
  simp only [Sequence.bind_eq_ok_iff] at h
  obtain ⟨_, -, _, -, _, -, name, hname, _, -, _, -, _, -, _, -, h⟩ := h
  cases h
  obtain ⟨text, -, hname⟩ := Sequence.bind_eq_ok_iff.mp hname
  split at hname
  · cases hname
    assumption
  · contradiction

end Config

end StringCatalog
