import StringCatalog.CommandLine.Program
import StringCatalog.Proofs.Path
import StringCatalog.Proofs.Project.Outputs
import StringCatalog.Yaml.Document

/-! What a run that generates leaves behind. However it ends, the source files are done in order up
to some point, and those from there on are left as they were; a run that goes well has done all. -/

namespace StringCatalog

namespace Environment

theorem isResolved_resolve {directory p q : Path} (h : resolve directory p = .ok q) :
    q.IsResolved :=
  Path.isResolved_of_resolve (Sequence.mapError_eq_ok_iff.mp h)

end Environment

theorem FileTree.isResolved_readConfig {tree : FileTree} {env : Environment} {p : Path}
    {root : Option Path} {config : Config} (h : tree.readConfig env p root = .ok config) :
    config.IsResolved := by
  unfold readConfig at h
  simp only [Sequence.bind_eq_ok_iff] at h
  obtain ⟨p, -, root, -, members, -, h⟩ := h
  split at h
  · rename_i hread
    cases h
    exact Config.isResolved_ofMembers hread
  · contradiction
  · contradiction
  · contradiction

namespace CommandLine

open Session

variable {env : Environment} {arguments : List Text} {tree : FileTree} {config : Config}
  {inv : Invocation} {root file : Path} {dry : Bool}

/-! ### The paths of the settings -/

theorem isResolved_baseConfig (h : baseConfig tree env inv root file = .ok config) :
    config.IsResolved := by
  obtain ⟨found, -, h⟩ := Sequence.bind_eq_ok_iff.mp h
  split at h
  · exact FileTree.isResolved_readConfig h
  · split at h
    · obtain ⟨input, hinput, h⟩ := Sequence.bind_eq_ok_iff.mp h
      obtain ⟨output, houtput, h⟩ := Sequence.bind_eq_ok_iff.mp h
      cases h
      exact ⟨⟨Environment.isResolved_resolve hinput, Environment.isResolved_resolve houtput⟩, nofun⟩
    · contradiction
    · exact FileTree.isResolved_readConfig h

theorem isResolved_override {t : Option Text} {configured p : Path} (hp : configured.IsResolved)
    (h : override root t configured = .ok p) : p.IsResolved := by
  unfold override at h
  split at h
  · exact Environment.isResolved_resolve h
  · cases h
    exact hp

theorem isResolved_overrideDiffs {diffs : List (Text × Text)} {configured targets : List Target}
    (hconfigured : ∀ target ∈ configured, target.IsResolved)
    (h : overrideDiffs root diffs configured = .ok targets) :
    ∀ target ∈ targets, target.IsResolved := by
  unfold overrideDiffs at h
  split at h
  · cases h
    exact hconfigured
  · intro target htarget
    obtain ⟨d, -, hd⟩ := (Sequence.mem_of_mapM_eq_ok h target).mp htarget
    obtain ⟨input, hinput, hd⟩ := Sequence.bind_eq_ok_iff.mp hd
    obtain ⟨output, houtput, hd⟩ := Sequence.bind_eq_ok_iff.mp hd
    cases hd
    exact ⟨Environment.isResolved_resolve hinput, Environment.isResolved_resolve houtput⟩

theorem isResolved_settings (h : settings tree env inv root file = .ok config) :
    config.IsResolved := by
  unfold settings at h
  simp only [Sequence.bind_eq_ok_iff] at h
  obtain ⟨base, hbase, input, hinput, output, houtput, diffs, hdiffs, level, -, h⟩ := h
  have hbase := isResolved_baseConfig hbase
  cases h
  exact ⟨⟨isResolved_override hbase.main.input hinput,
    isResolved_override hbase.main.output houtput⟩, isResolved_overrideDiffs hbase.diffs hdiffs⟩

/-! ### Requests -/

/-- The arguments ask for a generation, dry or not, and the settings give a configuration. -/
def Asks (env : Environment) (arguments : List Text) (tree : FileTree) (config : Config)
    (dry : Bool) : Prop :=
  ∃ inv root file, Invocation.ofArguments arguments = .ok inv ∧ inv.action = some .generate ∧
    inv.dryRun = dry ∧ projectRoot env inv = .ok root ∧ configFile env inv root = .ok file ∧
      settings tree env inv root file = .ok config

/-- The arguments ask for a generation that is not dry, and the settings give a configuration. -/
def Generates (env : Environment) (arguments : List Text) (tree : FileTree) (config : Config) :
    Prop :=
  Asks env arguments tree config false

theorem Generates.asks (h : Generates env arguments tree config) :
    Asks env arguments tree config false := h

/-- The path at which a run looks for its configuration. -/
def LooksFor (env : Environment) (arguments : List Text) (file : Path) : Prop :=
  ∃ inv root, Invocation.ofArguments arguments = .ok inv ∧ projectRoot env inv = .ok root ∧
    configFile env inv root = .ok file

/-- What arguments ask for, with the path of the configuration file and the configuration. -/
def request (env : Environment) (arguments : List Text) (tree : FileTree) :
    Option (Invocation × Path × Config) := do
  let inv ← (Invocation.ofArguments arguments).toOption
  let root ← (projectRoot env inv).toOption
  let file ← (configFile env inv root).toOption
  let config ← (settings tree env inv root file).toOption
  some (inv, file, config)

/-- A request of which a part is known. -/
theorem exists_asks {α : Type} {part : Config → α} {a : α}
    (h : (request env arguments tree).map (fun q =>
      (q.1.action, q.1.dryRun, q.2.1, part q.2.2)) = some (some .generate, dry, file, a)) :
    ∃ config, Asks env arguments tree config dry ∧ LooksFor env arguments file ∧
      part config = a := by
  have hoption : ∀ {ε β : Type} {x : Except ε β} {b : β}, x.toOption = some b → x = .ok b := by
    intro ε β x b hx
    cases x with
    | error e => contradiction
    | ok b' => exact congrArg _ (Option.some.inj hx)
  obtain ⟨⟨inv, file', config⟩, hrequest, hparts⟩ := Option.map_eq_some_iff.mp h
  unfold request at hrequest
  simp only [Option.bind_eq_bind, Option.bind_eq_some_iff] at hrequest
  obtain ⟨_, harguments, root, hroot, _, hfile, _, hsettings, hrequest⟩ := hrequest
  cases hrequest
  simp only [Prod.mk.injEq] at hparts
  obtain ⟨haction, hdry, rfl, hpart⟩ := hparts
  exact ⟨config, ⟨inv, root, file', hoption harguments, haction, hdry, hoption hroot, hoption hfile,
    hoption hsettings⟩, ⟨inv, root, hoption harguments, hoption hroot, hoption hfile⟩, hpart⟩

/-! ### The run -/

theorem runOn_of_ofArguments (h : Invocation.ofArguments arguments = .ok inv) (env : Environment)
    (tree : FileTree) : runOn env arguments tree = (perform env inv).run.run ⟨tree, []⟩ := by
  rw [runOn, run, h]

/-- The handler of failures touches no file, and tells of none as of a run that went well. -/
theorem ends_explain_ne (e : Failure) (w : World) :
    Ends (explain e) w fun code ended => ended.files = w.files ∧ code ≠ .ok exitOk := by
  have hrefuse : ∀ (message : Text) (code : Nat), code ≠ exitOk →
      Ends (do say message; return code) w fun code ended =>
        ended.files = w.files ∧ code ≠ .ok exitOk := by
    intro message code hcode
    refine .bind (ends_say (fun _ => .pure ⟨rfl, ?_⟩) fun _ => ⟨rfl, nofun⟩)
    exact fun h => hcode (Except.ok.inj h)
  cases e with
  | catalog e => exact hrefuse _ exitBad (by decide)
  | generation e | file e => exact hrefuse _ exitFailed (by decide)
  | _ => exact .throw ⟨rfl, nofun⟩

/-- A run that generates leaves the files that the generation does, and its exit code tells whether
that went through. -/
theorem exists_ends_of_generates (h : Generates env arguments tree config)
    {claim : Except Failure Unit → World → Prop}
    (hends : Ends (Project.generate env config false) ⟨tree, []⟩ claim) :
    ∃ r w, claim r w ∧ (runOn env arguments tree).2.files = w.files ∧
      ((runOn env arguments tree).1 = .ok exitOk ↔ r = .ok ()) := by
  obtain ⟨inv, root, file, harguments, haction, hdry, hroot, hfile, hsettings⟩ := h
  rw [runOn_of_ofArguments harguments]
  suffices hperform : Ends (perform env inv) ⟨tree, []⟩ fun code ended => ∃ r w, claim r w ∧
      ended.files = w.files ∧ (code = .ok exitOk ↔ r = .ok ()) from hperform
  -- the handler around the generation prints and chooses the exit code, but touches no file
  have hgenerate : Ends (generate env inv root file) ⟨tree, []⟩ fun code ended => ∃ r w,
      claim r w ∧ ended.files = w.files ∧ (code = .ok exitOk ↔ r = .ok ()) := by
    unfold generate
    refine ends_files_bind ?_
    dsimp only
    rw [hsettings]
    dsimp only
    rw [hdry]
    refine .tryCatch (.bind (hends.mono fun r w hclaim => ?_))
    cases r with
    | ok => exact .pure ⟨.ok (), w, hclaim, rfl, by simp⟩
    | error e =>
      refine (ends_explain_ne e w).mono fun code ended h => ⟨.error e, w, hclaim, h.1, ?_⟩
      simp [h.2]
  unfold perform
  refine .ofExcept_bind hroot (.ofExcept_bind hfile ?_)
  rw [haction]
  exact hgenerate

/-- In a tree in which everything is in a directory, a run that generates does the source files one
after another, and each as a whole. Wherever it ends, those from there on are left as they were,
unless a directory for one of those up to there has come to be where nothing was, and if it ends
well all are done. -/
theorem outputs_done_in_order (hrun : Generates env arguments tree config)
    (hrooted : tree.IsRooted) (hapart : Project.Apart config) :
    ∃ done rest, Project.plan tree env config = done ++ rest ∧
      (∀ o ∈ done, ∃ text, o.source = .ok text ∧
        Project.Holds tree (runOn env arguments tree).2.files env.place o.path text) ∧
      (∀ o ∈ rest, Project.IsLeft tree (runOn env arguments tree).2.files env.place
        (done ++ rest.take 1) o.path) ∧
      ((runOn env arguments tree).1 = .ok exitOk → rest = []) := by
  have hresolved : config.IsResolved := by
    obtain ⟨inv, root, file, -, -, -, -, -, hsettings⟩ := hrun
    exact isResolved_settings hsettings
  obtain ⟨r, w, ⟨done, rest, hplan, hprogress, hall⟩, hfiles, hcode⟩ :=
    exists_ends_of_generates hrun (Project.ends_generate hresolved hapart hrooted rfl)
  rw [hfiles]
  exact ⟨done, rest, hplan, hprogress.complete,
    fun o ho => hprogress.isLeft hresolved hapart hrooted hplan ho,
    fun hexit => hall () (hcode.mp hexit)⟩

/-- The environment of a run in the directory of a project. Only the one who runs it has a home. -/
def userEnvironment (accessLevel : Option Text) : Environment where
  directory := ⟨"/", ["p"]⟩
  homeOf user := if user.isEmpty then some ⟨"/", ["home"]⟩ else none
  accessLevel := accessLevel
  readDocument := Yaml.readDocument
  calls := 997

/-- A project with one catalog or, with more lines in its configuration file, with two that have the
same key. -/
def menuProject (lines : String) : FileTree :=
  let catalog := String.toUTF8
    "\x7b\"sourceLanguage\": \"en\", \"version\": \"1.0\", \"strings\": \x7b\"menu\": \x7b\x7d\x7d\x7d"
  ⟨[(["p"], .directory), (["p", "A.json"], .file catalog), (["p", "B.json"], .file catalog),
    (["p", "xcstrings_gen.yaml"],
      .file (String.toUTF8 ("input: A.json\noutput: A.swift\n" ++ lines)))]⟩

/-- The catalog of the second source file is missing: only the first one is done. -/
theorem outputs_done_in_order_menu :
    let env := userEnvironment none
    let tree := menuProject "diffs: [\x7binput: C.json, output: C.swift\x7d]\n"
    ∃ config, Generates env ["generate"] tree config ∧ tree.IsRooted ∧ Project.Apart config ∧
      (runOn env ["generate"] tree).1 = .ok exitBad ∧
      ∃ done rest, Project.plan tree env config = done ++ rest ∧
        (∀ o ∈ done, ∃ text, o.source = .ok text ∧
          Project.Holds tree (runOn env ["generate"] tree).2.files env.place o.path text) ∧
        (∀ o ∈ rest, Project.IsLeft tree (runOn env ["generate"] tree).2.files env.place
          (done ++ rest.take 1) o.path) ∧
        ((runOn env ["generate"] tree).1 = .ok exitOk → rest = []) := by
  intro env tree
  have hrooted : tree.IsRooted := by decide +kernel
  have hcode : (runOn env ["generate"] tree).1 = .ok exitBad := by decide +kernel
  obtain ⟨config, hrun, -, hpaths⟩ : ∃ config, Asks env ["generate"] tree config false ∧
      LooksFor env ["generate"] ⟨"/", ["p", "xcstrings_gen.yaml"]⟩ ∧
      (Project.inputs config, Project.outputs config) =
        ([⟨"/", ["p", "A.json"]⟩, ⟨"/", ["p", "C.json"]⟩],
          [⟨"/", ["p", "A.swift"]⟩, ⟨"/", ["p", "C.swift"]⟩]) :=
    exists_asks (by decide +kernel)
  obtain ⟨hinputs, houtputs⟩ := Prod.mk.inj hpaths
  have hapart : Project.Apart config := by
    constructor <;> simp only [hinputs, houtputs] <;> decide
  exact ⟨config, hrun, hrooted, hapart, hcode, outputs_done_in_order hrun hrooted hapart⟩

/-- The first source file is made in a directory where the second one is to be. That one is left
neither with its source nor as it was. -/
theorem exists_output_made_directory : ∃ env arguments tree config,
    Generates env arguments tree config ∧ tree.IsRooted ∧ Project.Apart config ∧
      ∀ done rest, Project.plan tree env config = done ++ rest →
        (∀ o ∈ done, ∃ text, o.source = .ok text ∧
          Project.Holds tree (runOn env arguments tree).2.files env.place o.path text) →
        ∃ o ∈ rest, (runOn env arguments tree).2.files.find? env.place o.path ≠
          tree.find? env.place o.path := by
  obtain ⟨env, henv⟩ : ∃ env, env = userEnvironment none := ⟨_, rfl⟩
  obtain ⟨arguments, harguments⟩ : ∃ arguments : List Text, arguments =
    (["generate", "--input", "A.json", "--output", "a/b.swift", "--diff", "B.json", "a"] :
      List Text) := ⟨_, rfl⟩
  obtain ⟨second, hsecond⟩ : ∃ second : Path, second = ⟨"/", ["p", "a"]⟩ := ⟨_, rfl⟩
  obtain ⟨config, hrun, -, hpaths⟩ : ∃ config,
      Asks env arguments (menuProject "") config false ∧
        LooksFor env arguments ⟨"/", ["p", "xcstrings_gen.yaml"]⟩ ∧
        (Project.inputs config, Project.outputs config) =
          ([⟨"/", ["p", "A.json"]⟩, ⟨"/", ["p", "B.json"]⟩],
            [⟨"/", ["p", "a", "b.swift"]⟩, second]) := by
    subst henv harguments hsecond
    exact exists_asks (by decide +kernel)
  obtain ⟨hinputs, houtputs⟩ := Prod.mk.inj hpaths
  have hbefore : (menuProject "").find? env.place second = none := by
    subst henv hsecond
    decide +kernel
  have hafter : (runOn env arguments (menuProject "")).2.files.find? env.place second =
      some .directory := by
    subst henv harguments hsecond
    decide +kernel
  refine ⟨env, arguments, menuProject "", config, hrun, by decide +kernel, ?_,
    fun done rest hplan hdone => ?_⟩
  · constructor <;> simp only [hinputs, houtputs, hsecond] <;> decide
  · have hmem : second ∈ (Project.plan (menuProject "") env config).map (·.path) := by
      rw [Project.map_path_plan, houtputs]
      simp
    obtain ⟨o, ho, rfl⟩ := List.mem_map.mp hmem
    rw [hplan] at ho
    rcases List.mem_append.mp ho with hdoneMem | hrestMem
    · -- a directory holds no source
      obtain ⟨text, -, hholds⟩ := hdone o hdoneMem
      obtain ⟨bytes, hfile⟩ := hholds.exists_file
      cases hfile.symm.trans hafter
    · refine ⟨o, hrestMem, ?_⟩
      rw [hafter, hbefore]
      nofun

end CommandLine

end StringCatalog
