import StringCatalog.Proofs.CommandLine.Outputs
import StringCatalog.Proofs.Project.Obstacle

/-! How a run ends: with one of three exit codes, or without one for an obstacle. The errors of
catalogs, of the configuration and of a generation always come to an exit code. -/

namespace StringCatalog.CommandLine

open Session

variable {env : Environment} {arguments : List Text} {tree : FileTree} {config : Config}
  {inv : Invocation} {root file p : Path} {f : Failure}

def exitCodes : List Nat := [exitOk, exitFailed, exitBad]

/-- The texts that the arguments give as the paths of catalogs and source files. -/
def Invocation.paths (inv : Invocation) : List Text :=
  inv.input.toList ++ inv.output.toList ++ inv.diffs.flatMap fun d => [d.1, d.2]

/-- The root of the project of a run, and its configuration file. -/
structure Placed (env : Environment) (inv : Invocation) (root file : Path) : Prop where
  root_eq : projectRoot env inv = .ok root
  file_eq : configFile env inv root = .ok file

/-- What keeps a run from having an exit code, by the step that meets it. -/
inductive Obstacle (env : Environment) (inv : Invocation) (tree : FileTree) : Failure → Prop
  /-- The root of the project is given without a value or is no path, or is in the home of a user
  who has none. -/
  | root {f : Failure} (failed : projectRoot env inv = .error f) : Obstacle env inv tree f
  /-- The configuration file is given without a value or is no path, or is in the home of a user who
  has none. -/
  | file {root : Path} {f : Failure} (placed : projectRoot env inv = .ok root)
      (failed : configFile env inv root = .error f) : Obstacle env inv tree f
  | filePath {root file : Path} {fault : PathFault} (placed : Placed env inv root file)
      (failed : env.directory.resolve file = .error fault) : Obstacle env inv tree (.path fault)
  /-- The path of the configuration file is too long to be looked up. -/
  | lookup {root file : Path} (placed : Placed env inv root file)
      (action : inv.action = some .generate)
      (long : tree.locate env.place file = .error .nameTooLong) :
      Obstacle env inv tree (.file ⟨.nameTooLong, file⟩)
  /-- The paths in a configuration are seen from the root of the project, or from the directory of
  the file when that is checked in setting up. -/
  | config {root file p base : Path} {f : Failure} (placed : Placed env inv root file)
      (action : inv.action ≠ none) (resolved : env.directory.resolve file = .ok p)
      (origin : base = root ∨ base = p.parent) (obstacle : tree.ConfigObstacle env base p f) :
      Obstacle env inv tree f
  /-- There is no configuration file, and a first one cannot be written. -/
  | setUp {root file p : Path} {f : Failure} (placed : Placed env inv root file)
      (action : inv.action = some .init) (resolved : env.directory.resolve file = .ok p)
      (absent : tree.pathExists env.place p = .ok false)
      (failed : (∃ e, f = .file e) ∨ f = .tooDeep ∧ FileJob.deepest ≤ p.parent.parts.length) :
      Obstacle env inv tree f
  | diagnosis {root file input : Path} {config : Config} {f : Failure}
      (placed : Placed env inv root file) (action : inv.action = some .doctor)
      (read : tree.readConfig env file (some root) = .ok config)
      (named : input ∈ Project.inputs config)
      (obstacle : Project.DiagnosisObstacle tree env input f) : Obstacle env inv tree f
  | argument {root file : Path} {t : Text} {fault : PathFault} (placed : Placed env inv root file)
      (action : inv.action = some .generate) (given : t ∈ inv.paths)
      (failed : root.resolve (Path.ofText t) = .error fault) : Obstacle env inv tree (.path fault)
  | generation {root file : Path} {config : Config} {f : Failure}
      (placed : Placed env inv root file) (action : inv.action = some .generate)
      (settled : settings tree env inv root file = .ok config)
      (obstacle : Project.Obstacle tree env config inv.dryRun f) : Obstacle env inv tree f
  | line {line : Text} (unprintable : line.isEncodable = false) :
      Obstacle env inv tree (.unprintable line)

/-- An obstacle is no error of a catalog, of the configuration or of a generation. -/
theorem Obstacle.not_isForeseen (h : Obstacle env inv tree f) : ¬f.IsForeseen := by
  have hpath : ∀ {α : Type} {r : Except PathFault α}, r.mapError Failure.path = .error f →
      ¬f.IsForeseen := by
    intro α r h
    obtain ⟨fault, -, rfl⟩ := Sequence.mapError_eq_error_iff.mp h
    exact id
  cases h with
  | root failed =>
    unfold projectRoot at failed
    split at failed
    · cases failed
      exact id
    · rcases Sequence.bind_eq_error_iff.mp failed with failed | ⟨_, -, failed⟩
      · exact hpath failed
      · exact hpath failed
  | file _ failed =>
    unfold configFile at failed
    split at failed
    · cases failed
      exact id
    · rcases Sequence.bind_eq_error_iff.mp failed with failed | ⟨_, -, failed⟩
      · exact hpath failed
      · split at failed
        · contradiction
        · exact hpath failed
  | filePath | lookup | argument | line => exact id
  | config _ _ _ _ obstacle => exact obstacle.not_isForeseen
  | setUp _ _ _ _ failed =>
    rcases failed with ⟨e, rfl⟩ | ⟨rfl, -⟩
    · exact id
    · exact id
  | diagnosis _ _ _ _ obstacle => exact obstacle.not_isForeseen
  | generation _ _ _ obstacle => exact obstacle.not_isForeseen

/-! ### The configuration -/

theorem Placed.isResolved_root (h : Placed env inv root file) : root.IsResolved := by
  have hroot := h.root_eq
  unfold projectRoot at hroot
  split at hroot
  · contradiction
  · obtain ⟨_, -, hroot⟩ := Sequence.bind_eq_ok_iff.mp hroot
    exact Environment.isResolved_resolve hroot

theorem readConfig_eq_error (hplaced : Placed env inv root file) (haction : inv.action ≠ none)
    (h : tree.readConfig env file (some root) = .error f) :
    (∃ e, f = .config e) ∨ Obstacle env inv tree f := by
  cases hresolve : env.directory.resolve file with
  | error fault =>
    have hfile : Environment.resolve env.directory file = .error (.path fault) := by
      rw [Environment.resolve, hresolve]
      rfl
    have hread : tree.readConfig env file (some root) = .error (.path fault) := by
      rw [FileTree.readConfig, hfile]
      rfl
    obtain rfl := Except.error.inj (hread.symm.trans h)
    exact .inr (.filePath hplaced hresolve)
  | ok p =>
    have hfile : Environment.resolve env.directory file = .ok p :=
      Sequence.mapError_eq_ok_iff.mpr hresolve
    exact (FileTree.readConfig_eq_error (some root) hfile hplaced.isResolved_root
      h).imp_right (.config hplaced haction hresolve (.inl rfl))

theorem argumentPath_eq_error (hplaced : Placed env inv root file)
    (haction : inv.action = some .generate) {t : Text} (ht : t ∈ inv.paths)
    (h : argumentPath root t = .error f) : Obstacle env inv tree f := by
  obtain ⟨fault, hfault, rfl⟩ := Sequence.mapError_eq_error_iff.mp h
  exact .argument hplaced haction ht hfault

theorem mem_toList_of_given {t : Option Text} {text : Text} (h : given t = some text) :
    text ∈ t.toList :=
  Option.mem_toList.mpr (Option.filter_eq_some_iff.mp h).1

theorem mem_paths_of_input {t : Text} (h : given inv.input = some t) : t ∈ inv.paths :=
  List.mem_append_left _ (List.mem_append_left _ (mem_toList_of_given h))

theorem mem_paths_of_output {t : Text} (h : given inv.output = some t) : t ∈ inv.paths :=
  List.mem_append_left _ (List.mem_append_right _ (mem_toList_of_given h))

theorem override_eq_error (hplaced : Placed env inv root file)
    (haction : inv.action = some .generate) {t : Option Text} {configured : Path}
    (ht : ∀ text, given t = some text → text ∈ inv.paths)
    (h : override root t configured = .error f) : Obstacle env inv tree f := by
  unfold override at h
  split at h
  · rename_i text hgiven
    exact argumentPath_eq_error hplaced haction (ht text hgiven) h
  · contradiction

theorem overrideDiffs_eq_error (hplaced : Placed env inv root file)
    (haction : inv.action = some .generate) {configured : List Target}
    (h : overrideDiffs root inv.diffs configured = .error f) : Obstacle env inv tree f := by
  unfold overrideDiffs at h
  split at h
  · contradiction
  · obtain ⟨d, hd, h⟩ := Sequence.exists_of_mapM_eq_error h
    have hpaths : ∀ t ∈ [d.1, d.2], t ∈ inv.paths := fun t ht =>
      List.mem_append_right _ (List.mem_flatMap.mpr ⟨d, hd, ht⟩)
    rcases Sequence.bind_eq_error_iff.mp h with h | ⟨input, -, h⟩
    · exact argumentPath_eq_error hplaced haction (hpaths _ (by simp)) h
    rcases Sequence.bind_eq_error_iff.mp h with h | ⟨output, -, h⟩
    · exact argumentPath_eq_error hplaced haction (hpaths _ (by simp)) h
    · contradiction

theorem baseConfig_eq_error (hplaced : Placed env inv root file)
    (haction : inv.action = some .generate) (h : baseConfig tree env inv root file = .error f) :
    (∃ e, f = .config e) ∨ Obstacle env inv tree f := by
  have hsome : inv.action ≠ none := by
    rw [haction]
    nofun
  rcases Sequence.bind_eq_error_iff.mp h with h | ⟨found, -, h⟩
  · obtain ⟨rfl, hlong⟩ := FileTree.pathExists_eq_error h
    exact .inr (.lookup hplaced haction hlong)
  split at h
  · exact readConfig_eq_error hplaced hsome h
  · split at h
    · rename_i hinput houtput
      rcases Sequence.bind_eq_error_iff.mp h with h | ⟨_, -, h⟩
      · exact .inr (argumentPath_eq_error hplaced haction (mem_paths_of_input hinput) h)
      rcases Sequence.bind_eq_error_iff.mp h with h | ⟨_, -, h⟩
      · exact .inr (argumentPath_eq_error hplaced haction (mem_paths_of_output houtput) h)
      · contradiction
    · exact .inl ⟨_, (Except.error.inj h).symm⟩
    · exact readConfig_eq_error hplaced hsome h

theorem settings_eq_error (hplaced : Placed env inv root file)
    (haction : inv.action = some .generate) (h : settings tree env inv root file = .error f) :
    (∃ e, f = .config e) ∨ Obstacle env inv tree f := by
  rcases Sequence.bind_eq_error_iff.mp h with h | ⟨base, -, h⟩
  · exact baseConfig_eq_error hplaced haction h
  rcases Sequence.bind_eq_error_iff.mp h with h | ⟨_, -, h⟩
  · exact .inr (override_eq_error hplaced haction (fun _ => mem_paths_of_input) h)
  rcases Sequence.bind_eq_error_iff.mp h with h | ⟨_, -, h⟩
  · exact .inr (override_eq_error hplaced haction (fun _ => mem_paths_of_output) h)
  rcases Sequence.bind_eq_error_iff.mp h with h | ⟨_, -, h⟩
  · exact .inr (overrideDiffs_eq_error hplaced haction h)
  rcases Sequence.bind_eq_error_iff.mp h with h | ⟨_, -, h⟩
  · obtain ⟨e, -, rfl⟩ := Sequence.mapError_eq_error_iff.mp h
    exact .inl ⟨_, rfl⟩
  · contradiction

/-! ### The actions -/

/-- There is an exit code, or an obstacle. -/
@[reducible]
def IsCoded (env : Environment) (inv : Invocation) (tree : FileTree) :
    Except Failure Nat → World → Prop :=
  either (fun code _ => code ∈ exitCodes) fun f _ => Obstacle env inv tree f

theorem exitOk_mem : exitOk ∈ exitCodes := by decide

theorem exitFailed_mem : exitFailed ∈ exitCodes := by decide

theorem exitBad_mem : exitBad ∈ exitCodes := by decide

theorem ends_refuse {message : Text} {w : World} :
    Ends (refuse message) w (IsCoded env inv tree) :=
  .bind (ends_say (fun _ => .pure exitBad_mem) .line)

/-- The handler of a generation has an exit code for all that it explains. -/
theorem ends_explain {w : World} (h : f.IsExplained ∨ Obstacle env inv tree f) :
    Ends (explain f) w (IsCoded env inv tree) := by
  rw [or_iff_not_imp_left] at h
  cases f with
  | catalog e => exact ends_refuse
  | generation e | file e => exact .bind (ends_say (fun _ => .pure exitFailed_mem) .line)
  | _ => exact .throw (h id)

theorem ends_generate {w : World} (hplaced : Placed env inv root file)
    (haction : inv.action = some .generate) (hw : w.files = tree) :
    Ends (generate env inv root file) w (IsCoded env inv tree) := by
  subst hw
  unfold generate
  refine ends_files_bind ?_
  cases hsettings : settings w.files env inv root file with
  | error f =>
    have hf := settings_eq_error hplaced haction hsettings
    cases f with
    | config e => exact ends_refuse
    | _ => exact .throw (hf.resolve_left nofun)
  | ok config =>
    refine .tryCatch (.bind ((Project.ends_generate_obstacle (isResolved_settings
      hsettings)).mono fun r after h => ?_))
    cases r with
    | ok => exact .pure exitOk_mem
    | error f => exact ends_explain (h.imp_right (.generation hplaced haction hsettings))

end StringCatalog.CommandLine
