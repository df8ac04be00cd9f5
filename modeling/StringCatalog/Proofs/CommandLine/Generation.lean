import StringCatalog.Proofs.CommandLine.Outputs

/-! Runs that generate and go well. They print what the reports of their targets say, and only a
generation that goes through ends in this way. -/

namespace StringCatalog

namespace FileTree

theorem isTypeName_readConfig {tree : FileTree} {env : Environment} {p : Path} {root : Option Path}
    {config : Config} (h : tree.readConfig env p root = .ok config) :
    Config.isTypeName config.typeName = true := by
  unfold readConfig at h
  simp only [Sequence.bind_eq_ok_iff] at h
  obtain ⟨p, -, root, -, members, -, h⟩ := h
  split at h
  · rename_i hread
    cases h
    exact Config.isTypeName_ofMembers hread
  · contradiction
  · contradiction
  · contradiction

end FileTree

namespace CommandLine

open Session

variable {env : Environment} {arguments : List Text} {tree after : FileTree} {config : Config}
  {inv : Invocation} {root file : Path} {dry : Bool} {w w' : World}

theorem Asks.isResolved (h : Asks env arguments tree config dry) : config.IsResolved := by
  obtain ⟨inv, root, file, -, -, -, -, -, hsettings⟩ := h
  exact isResolved_settings hsettings

/-! ### The name of the extended type -/

theorem isTypeName_baseConfig (h : baseConfig tree env inv root file = .ok config) :
    Config.isTypeName config.typeName = true := by
  obtain ⟨found, -, h⟩ := Sequence.bind_eq_ok_iff.mp h
  split at h
  · exact FileTree.isTypeName_readConfig h
  · split at h
    · obtain ⟨_, -, h⟩ := Sequence.bind_eq_ok_iff.mp h
      obtain ⟨_, -, h⟩ := Sequence.bind_eq_ok_iff.mp h
      cases h
      have hdefault : Config.isTypeName Swift.defaultTypeName = true := by decide
      exact hdefault
    · contradiction
    · exact FileTree.isTypeName_readConfig h

theorem isTypeName_settings (h : settings tree env inv root file = .ok config) :
    Config.isTypeName config.typeName = true := by
  unfold settings at h
  simp only [Sequence.bind_eq_ok_iff] at h
  obtain ⟨base, hbase, _, -, _, -, _, -, _, -, h⟩ := h
  have hname := isTypeName_baseConfig hbase
  cases h
  exact hname

theorem Asks.isTypeName (h : Asks env arguments tree config dry) :
    Config.isTypeName config.typeName = true := by
  obtain ⟨inv, root, file, -, -, -, -, -, hsettings⟩ := h
  exact isTypeName_settings hsettings

/-! ### The run -/

theorem completes_generate_iff (hsettings : settings w.files env inv root file = .ok config) :
    Completes (generate env inv root file) w exitOk w' ↔
      Completes (Project.generate env config inv.dryRun) w () w' := by
  unfold generate
  rw [completes_files_bind_iff, hsettings]
  dsimp only
  rw [completes_tryCatch_iff, completes_bind_iff]
  simp only [completes_pure_iff]
  constructor
  · rintro (⟨_, _, h, -, rfl⟩ | ⟨e, between, -, h⟩)
    · exact h
    · exact absurd rfl ((ends_explain_ne e between).of_completes h).2
  · exact fun h => .inl ⟨(), w', h, trivial, rfl⟩

theorem runOn_eq_iff (h : Asks env arguments tree config dry) :
    runOn env arguments tree = (.ok exitOk, w) ↔
      Completes (Project.generate env config dry) ⟨tree, []⟩ () w := by
  obtain ⟨inv, root, file, harguments, haction, rfl, hroot, hfile, hsettings⟩ := h
  rw [runOn_of_ofArguments harguments]
  have hperform : Completes (perform env inv) ⟨tree, []⟩ exitOk w ↔
      Completes (generate env inv root file) ⟨tree, []⟩ exitOk w := by
    unfold perform
    rw [completes_ofExcept_bind_iff hroot, completes_ofExcept_bind_iff hfile, haction]
  exact hperform.trans (completes_generate_iff hsettings)

/-- A run that generates goes well if the generation goes through and what its reports say can be
printed, and then it prints this. -/
theorem runOn_of_goesThrough (h : Asks env arguments tree config dry) {main : Project.Report}
    {further : List Project.Report}
    (hgoes : Project.GoesThrough env config dry tree main further after)
    (hprintable : ArePrintable (Project.transcript dry main further)) :
    runOn env arguments tree =
      (.ok exitOk, ⟨after, Text.unlines (Project.transcript dry main further)⟩) :=
  (runOn_eq_iff h).mpr
    (Project.completes_generate_iff.mpr ⟨main, further, after, hgoes, hprintable, rfl⟩)

theorem exists_goesThrough (h : Asks env arguments tree config dry)
    (hexit : (runOn env arguments tree).1 = .ok exitOk) :
    ∃ main further after, Project.GoesThrough env config dry tree main further after ∧
      ArePrintable (Project.transcript dry main further) ∧ runOn env arguments tree =
        (.ok exitOk, ⟨after, Text.unlines (Project.transcript dry main further)⟩) := by
  obtain ⟨main, further, after, hgoes, hprintable, -⟩ :=
    Project.completes_generate_iff.mp ((runOn_eq_iff h).mp (Prod.ext hexit rfl))
  exact ⟨main, further, after, hgoes, hprintable, runOn_of_goesThrough h hgoes hprintable⟩

/-- A catalog with one key. -/
def catalogOf (key : String) : FileNode :=
  .file (String.toUTF8 ("\x7b\"sourceLanguage\": \"en\", \"version\": \"1.0\", \"strings\": \x7b\"" ++
    key ++ "\": \x7b\x7d\x7d\x7d"))

end CommandLine

end StringCatalog
