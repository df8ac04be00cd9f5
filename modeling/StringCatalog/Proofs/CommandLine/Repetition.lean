import StringCatalog.Proofs.CommandLine.Generation
import StringCatalog.Proofs.Project.Repetition

/-! What a run does when it is repeated. Nothing that the first run writes has a part in what the
second one reads, but the directories that it makes may be on the way to a configuration file. -/

namespace StringCatalog

/-- A path that begins at the root leads to where it is resolved to, if it leads anywhere. -/
theorem Environment.place_of_resolve {directory p q : Path} (hp : p.isAbsolute = true)
    (h : resolve directory p = .ok q) (place : Location) : p.place place = q.parts := by
  have h := Sequence.mapError_eq_ok_iff.mp h
  rw [Path.resolve, Path.append, if_pos hp] at h
  split at h
  · contradiction
  · cases h
    rw [Path.place, if_pos hp]
    rfl

namespace CommandLine

open Session

variable {env : Environment} {arguments : List Text} {tree after : FileTree} {config : Config}
  {inv : Invocation} {root file : Path}

theorem isAbsolute_configFile (h : configFile env inv root = .ok file) :
    file.isAbsolute = true := by
  unfold configFile at h
  split at h
  · contradiction
  · obtain ⟨file', -, h⟩ := Sequence.bind_eq_ok_iff.mp h
    split at h
    · cases h
      assumption
    · exact (Environment.isResolved_resolve h).isAbsolute

/-! ### The settings of a run and of its repetition -/

/-- The settings are the same in a tree in which the configuration file is there as before, or not
there as before. -/
theorem settings_congr {made replaced : List Location}
    (hframe : FileTree.Frame made replaced tree after) (hfile : file.isAbsolute = true)
    (hkept : ∀ p, Environment.resolve env.directory file = .ok p → p.parts ∉ replaced)
    (habsent : tree.pathExists env.place file = .ok false →
      after.pathExists env.place file = .ok false)
    (h : settings tree env inv root file = .ok config) :
    settings after env inv root file = .ok config := by
  have hread : ∀ {root : Option Path} {config : Config},
      tree.readConfig env file root = .ok config → after.readConfig env file root = .ok config := by
    intro root config h
    refine FileTree.readConfig_congr (fun p hp bytes => ?_) h
    refine hframe.find?_eq_file ?_
    rw [(Environment.isResolved_resolve hp).place]
    exact hkept p hp
  obtain ⟨base, hbase, hrest⟩ := Sequence.bind_eq_ok_iff.mp h
  refine Sequence.bind_eq_ok_iff.mpr ⟨base, ?_, hrest⟩
  obtain ⟨found, hexists, hbase⟩ := Sequence.bind_eq_ok_iff.mp hbase
  refine Sequence.bind_eq_ok_iff.mpr ⟨found, ?_, ?_⟩
  -- a file that is there stays where it is; one that is not there must not come up
  · cases found with
    | false => exact habsent hexists
    | true =>
      obtain ⟨p, hp, -⟩ := Sequence.bind_eq_ok_iff.mp hbase
      refine hframe.pathExists_eq_true ?_ hexists
      rw [Environment.place_of_resolve hfile hp]
      exact hkept p hp
  · cases found with
    | true => exact hread hbase
    | false =>
      rw [if_neg Bool.false_ne_true] at hbase ⊢
      split at hbase
      · exact hbase
      · exact hbase
      · exact hread hbase

/-! ### The repetition -/

/-- In a tree in which everything is in a directory, a run that generates and goes well can be
repeated: the second run goes well, says of all targets that there is nothing to do, and changes no
file. The configuration file is no output of the run; and if there is none at its path before the
run, then there is none after it either, in the directories that the run makes. -/
theorem generate_again (hrun : Generates env arguments tree config)
    (hfile : LooksFor env arguments file) (hrooted : tree.IsRooted) (hapart : Project.Apart config)
    (hconfig : ∀ p, Environment.resolve env.directory file = .ok p →
      ∀ output ∈ Project.outputs config, output ≠ p ∧ FileJob.temporary output ≠ p)
    (hname : CodePoint.char '\r' ∉ config.main.input.name)
    (hexit : (runOn env arguments tree).1 = .ok exitOk)
    (habsent : tree.pathExists env.place file = .ok false →
      (runOn env arguments tree).2.files.pathExists env.place file = .ok false) :
    ∃ main further, (main :: further).map (·.target) = config.main :: config.diffs ∧
      (∀ r ∈ main :: further, r.due = false) ∧
      runOn env arguments (runOn env arguments tree).2.files =
        (.ok exitOk, ⟨(runOn env arguments tree).2.files,
          Text.unlines (Project.transcript false main further)⟩) := by
  have hresolved := hrun.asks.isResolved
  obtain ⟨main, further, after, hgoes, hprintable, hfirst⟩ := exists_goesThrough hrun.asks hexit
  rw [hfirst] at habsent ⊢
  obtain ⟨hreports, hfollows⟩ := Project.follows_of_goesThrough hresolved hapart hrooted hgoes
  obtain ⟨inv, root, file', harguments, haction, hdry, hroot, hfile', hsettings⟩ := hrun
  obtain ⟨inv', root', harguments', hroot', hfile⟩ := hfile
  obtain rfl := Except.ok.inj (harguments.symm.trans harguments')
  obtain rfl := Except.ok.inj (hroot.symm.trans hroot')
  obtain rfl := Except.ok.inj (hfile.symm.trans hfile')
  have hkept : ∀ p, Environment.resolve env.directory file = .ok p →
      p.parts ∉ Project.replaced env config (Project.plan tree env config) := by
    intro p hp
    refine Project.parts_notMem_replaced hresolved List.prefix_rfl
      (Environment.isResolved_resolve hp) (fun o ho => ?_) fun output houtput =>
        (hconfig p hp output houtput).2
    exact (hconfig p hp _ (Project.mem_outputs_of_reached List.prefix_rfl ho)).1
  have hagain : Asks env arguments after config false :=
    ⟨inv, root, file, harguments, haction, hdry, hroot, hfile,
      settings_congr hfollows.progress.frame (isAbsolute_configFile hfile) hkept habsent hsettings⟩
  have hreports' := Project.reports_again hresolved hapart hrooted (isTypeName_settings hsettings)
    hname hgoes
  have hstill : ∀ r ∈ main.still :: further.map Project.Report.still, r.due = false := by
    rw [← List.map_cons]
    exact List.forall_mem_map.mpr fun _ _ => rfl
  exact ⟨main.still, further.map Project.Report.still, Project.targets_of_reports hreports', hstill,
    runOn_of_goesThrough hagain
      (Project.goesThrough_still hreports' fun r hr => .inr (hstill r hr))
      (Project.arePrintable_transcript_still hprintable)⟩

/-- The targets come from the command line, and there is no configuration file before or after. -/
theorem generate_again_menu :
    let env := userEnvironment none
    let tree := menuProject ""
    let arguments : List Text := ["generate", "--config", "none.yaml", "--input", "A.json",
      "--output", "x/A.swift", "--diff", "B.json", "B.swift"]
    let after := (runOn env arguments tree).2.files
    (runOn env arguments tree).1 = .ok exitOk ∧
      tree.pathExists env.place ⟨"/", ["p", "none.yaml"]⟩ = .ok false ∧
      after.pathExists env.place ⟨"/", ["p", "none.yaml"]⟩ = .ok false ∧
      ∃ config, Generates env arguments tree config ∧
        LooksFor env arguments ⟨"/", ["p", "none.yaml"]⟩ ∧ tree.IsRooted ∧ Project.Apart config ∧
        ∃ main further, (main :: further).map (·.target) = config.main :: config.diffs ∧
          (∀ r ∈ main :: further, r.due = false) ∧ runOn env arguments after =
            (.ok exitOk, ⟨after, Text.unlines (Project.transcript false main further)⟩) := by
  intro env tree arguments after
  have hrooted : tree.IsRooted := by decide +kernel
  have hexit : (runOn env arguments tree).1 = .ok exitOk := by decide +kernel
  have hbefore : tree.pathExists env.place ⟨"/", ["p", "none.yaml"]⟩ = .ok false := by
    decide +kernel
  have hafter : after.pathExists env.place ⟨"/", ["p", "none.yaml"]⟩ = .ok false := by
    decide +kernel
  obtain ⟨config, hrun, hfile, hpaths⟩ : ∃ config, Asks env arguments tree config false ∧
      LooksFor env arguments ⟨"/", ["p", "none.yaml"]⟩ ∧
      (Project.inputs config, Project.outputs config) =
        ([⟨"/", ["p", "A.json"]⟩, ⟨"/", ["p", "B.json"]⟩],
          [⟨"/", ["p", "x", "A.swift"]⟩, ⟨"/", ["p", "B.swift"]⟩]) :=
    exists_asks (by decide +kernel)
  obtain ⟨hinputs, houtputs⟩ := Prod.mk.inj hpaths
  have hapart : Project.Apart config := by
    constructor <;> simp only [hinputs, houtputs] <;> decide
  have hconfig : ∀ p, Environment.resolve env.directory ⟨"/", ["p", "none.yaml"]⟩ = .ok p →
      ∀ output ∈ Project.outputs config, output ≠ p ∧ FileJob.temporary output ≠ p := by
    intro p hp
    have hsame : Environment.resolve env.directory ⟨"/", ["p", "none.yaml"]⟩ =
        .ok ⟨"/", ["p", "none.yaml"]⟩ := by decide +kernel
    obtain rfl := Except.ok.inj (hp.symm.trans hsame)
    rw [houtputs]
    decide
  have hname : CodePoint.char '\r' ∉ config.main.input.name := by
    rw [(List.cons.inj hinputs).1]
    decide
  exact ⟨hexit, hbefore, hafter, config, hrun, hfile, hrooted, hapart,
    generate_again hrun hfile hrooted hapart hconfig hname hexit fun _ => hafter⟩

/-- The first run makes a directory where the second one then looks for its configuration file. -/
theorem exists_generate_again_fails : ∃ env arguments tree config file,
    Generates env arguments tree config ∧ LooksFor env arguments file ∧ tree.IsRooted ∧
      Project.Apart config ∧ (∀ p, Environment.resolve env.directory file = .ok p →
        ∀ output ∈ Project.outputs config, output ≠ p ∧ FileJob.temporary output ≠ p) ∧
      CodePoint.char '\r' ∉ config.main.input.name ∧
      (runOn env arguments tree).1 = .ok exitOk ∧
      (runOn env arguments (runOn env arguments tree).2.files).1 ≠ .ok exitOk := by
  obtain ⟨env, henv⟩ : ∃ env, env = userEnvironment none := ⟨_, rfl⟩
  obtain ⟨arguments, harguments⟩ : ∃ arguments : List Text, arguments =
    (["generate", "--config", "x", "--input", "A.json", "--output", "x/A.swift"] : List Text) :=
    ⟨_, rfl⟩
  obtain ⟨config, hrun, hfile, hpaths⟩ : ∃ config,
      Asks env arguments (menuProject "") config false ∧
        LooksFor env arguments ⟨"/", ["p", "x"]⟩ ∧
        (Project.inputs config, Project.outputs config) =
          ([⟨"/", ["p", "A.json"]⟩], [⟨"/", ["p", "x", "A.swift"]⟩]) := by
    subst henv harguments
    exact exists_asks (by decide +kernel)
  obtain ⟨hinputs, houtputs⟩ := Prod.mk.inj hpaths
  refine ⟨env, arguments, menuProject "", config, ⟨"/", ["p", "x"]⟩, hrun, hfile, by decide +kernel,
    ?_, ?_, ?_, ?_, ?_⟩
  · constructor <;> simp only [hinputs, houtputs] <;> decide
  · intro p hp
    have hresolve : Environment.resolve env.directory ⟨"/", ["p", "x"]⟩ =
        .ok ⟨"/", ["p", "x"]⟩ := by
      subst henv
      decide +kernel
    obtain rfl := Except.ok.inj (hp.symm.trans hresolve)
    rw [houtputs]
    decide
  · rw [(List.cons.inj hinputs).1]
    decide
  · subst henv harguments
    decide +kernel
  · subst henv harguments
    decide +kernel

end CommandLine

end StringCatalog
