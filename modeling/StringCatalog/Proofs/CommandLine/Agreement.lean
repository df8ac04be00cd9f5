import StringCatalog.Proofs.CommandLine.Generation
import StringCatalog.Proofs.Project.Generation

/-! Diagnosis and generation agree, but for what they print and how far they can go. A project that
the diagnosis finds in order can be generated if nothing is in the way of its outputs, and a dry run
goes well exactly if it can say so. A project that can be generated strictly is found in order, if
the diagnosis can say so. -/

namespace StringCatalog.CommandLine

open Session

variable {env : Environment} {tree : FileTree} {project file : Path} {base config : Config}
  {root settingsFile : Option Text} {strict : Bool}

/-! ### Arguments -/

/-- An option that holds its value, where it is given. -/
def holding (name : Text) (value : Option Text) : List Text := value.toList.map fun v => name ++ v

/-- The options that give the root of the project and its configuration file. -/
def placing (root settingsFile : Option Text) : List Text :=
  holding "--project-root=" root ++ holding "--config=" settingsFile

/-- The value of an option as the arguments give it. Two hyphens are no value. -/
def valueOf (default : Option Text) : Option Text → Option Text
  | none => default
  | some text => if text = "--" then none else some text

/-- A run for the project at a root, with a configuration file. -/
def placed (inv : Invocation) (root settingsFile : Option Text) : Invocation :=
  { inv with
    projectRoot := valueOf inv.projectRoot root
    config := valueOf inv.config settingsFile }

def diagnosis (root settingsFile : Option Text) : Invocation :=
  placed { Invocation.empty with action := some .doctor } root settingsFile

def dryRun (root settingsFile : Option Text) (strict : Bool) : Invocation :=
  placed { Invocation.empty with action := some .generate, strict := strict, dryRun := true }
    root settingsFile

theorem applyInner_projectRoot (text : Text) (inv : Invocation) :
    Invocation.applyInner .projectRoot text inv = .ok (placed inv (some text) none) := by
  have hvalue : ∀ default, valueOf default (some text) = if text = "--" then none else some text :=
    fun _ => rfl
  rw [Invocation.applyInner, if_neg (by decide), placed, hvalue]
  split <;> rfl

theorem applyInner_config (text : Text) (inv : Invocation) :
    Invocation.applyInner .config text inv = .ok (placed inv none (some text)) := by
  have hvalue : ∀ default, valueOf default (some text) = if text = "--" then none else some text :=
    fun _ => rfl
  rw [Invocation.applyInner, if_neg (by decide), placed, hvalue]
  split <;> rfl

/-- What the options are taken for. -/
def placingItems (root settingsFile : Option Text) : List Item :=
  root.toList.map (fun text => .option (some .projectRoot) (some text)) ++
    settingsFile.toList.map fun text => .option (some .config) (some text)

theorem enter_inner (bound : Nat) (inv : Invocation) (flag : Flag) (text : Text)
    (items : List Item) :
    Invocation.enter (bound + 1) inv true false (.option (some flag) (some text) :: items) =
      (Invocation.applyInner flag text inv >>= fun inv =>
        Invocation.enter bound inv true false items) := rfl

/-- The options are entered behind all other arguments. -/
theorem enter_placing (inv : Invocation) (root settingsFile : Option Text) :
    Invocation.enter ((placingItems root settingsFile).length + 1) inv true false
      (placingItems root settingsFile) = .ok (placed inv root settingsFile) := by
  have hconfig : ∀ inv text, Invocation.enter 2 inv true false
      [.option (some .config) (some text)] = .ok (placed inv none (some text)) := by
    intro inv text
    rw [enter_inner, applyInner_config]
    rfl
  cases root with
  | none =>
    cases settingsFile with
    | none => rfl
    | some text => exact hconfig inv text
  | some text =>
    cases settingsFile with
    | none =>
      show Invocation.enter 2 inv true false [.option (some .projectRoot) (some text)] = _
      rw [enter_inner, applyInner_projectRoot]
      rfl
    | some text' =>
      show Invocation.enter 3 inv true false
        [.option (some .projectRoot) (some text), .option (some .config) (some text')] = _
      rw [enter_inner, applyInner_projectRoot]
      exact hconfig (placed inv (some text) none) text'

theorem ofArguments_diagnosis (root settingsFile : Option Text) :
    Invocation.ofArguments ("doctor" :: placing root settingsFile) =
      .ok (diagnosis root settingsFile) := by
  have henter := enter_placing { Invocation.empty with action := some .doctor } root settingsFile
  cases root <;> cases settingsFile <;> exact henter

theorem ofArguments_dryRun (root settingsFile : Option Text) :
    Invocation.ofArguments ("generate" :: "--dry-run" :: placing root settingsFile) =
      .ok (dryRun root settingsFile false) := by
  have henter := enter_placing
    { Invocation.empty with action := some .generate, dryRun := true } root settingsFile
  cases root <;> cases settingsFile <;> exact henter

theorem ofArguments_strictDryRun (root settingsFile : Option Text) :
    Invocation.ofArguments ("generate" :: "--strict" :: "--dry-run" :: placing root settingsFile) =
      .ok (dryRun root settingsFile true) := by
  have henter := enter_placing
    { Invocation.empty with action := some .generate, strict := true, dryRun := true }
    root settingsFile
  cases root <;> cases settingsFile <;> exact henter

/-! ### The configuration of a run -/

/-- The configuration file of a project, and the configuration in it. -/
def configOf (tree : FileTree) (env : Environment) (root settingsFile : Option Text) :
    Except Failure (Path × Config) := do
  let project ← projectRoot env (diagnosis root settingsFile)
  let file ← configFile env (diagnosis root settingsFile) project
  let config ← tree.readConfig env file (some project)
  .ok (file, config)

theorem configOf_eq_ok_iff : configOf tree env root settingsFile = .ok (file, base) ↔
    ∃ project, projectRoot env (diagnosis root settingsFile) = .ok project ∧
      configFile env (diagnosis root settingsFile) project = .ok file ∧
        tree.readConfig env file (some project) = .ok base := by
  unfold configOf
  simp only [Sequence.bind_eq_ok_iff]
  constructor
  · rintro ⟨project, hroot, file, hfile, config, hread, h⟩
    cases h
    exact ⟨project, hroot, hfile, hread⟩
  · rintro ⟨project, hroot, hfile, hread⟩
    exact ⟨project, hroot, file, hfile, base, hread, rfl⟩

/-- Where the command line names no catalog, the configuration is that of the file, which has to be
looked up as it is named. -/
theorem baseConfig_eq_ok_iff {inv : Invocation} (hinput : inv.input = none) :
    baseConfig tree env inv project file = .ok base ↔
      (∃ found, tree.pathExists env.place file = .ok found) ∧
        tree.readConfig env file (some project) = .ok base := by
  have hbase : baseConfig tree env inv project file =
      (tree.pathExists env.place file >>= fun _ => tree.readConfig env file (some project)) := by
    unfold baseConfig
    refine congrArg _ (funext fun found => ?_)
    cases found with
    | true => rfl
    | false =>
      rw [hinput]
      rfl
  rw [hbase, Sequence.bind_eq_ok_iff, exists_and_right]

/-- The configuration of a run that sets an access level and may be strict. -/
def withLevel (base : Config) (level : Swift.AccessLevel) (strict : Bool) : Config :=
  { base with
    accessLevel := some level
    options := { base.options with strict := base.options.strict || strict } }

theorem read_modifier (level : Swift.AccessLevel) :
    Swift.AccessLevel.read (some level.modifier) = .ok (some level) := by
  cases level <;> decide

theorem exists_level {named : Option Swift.AccessLevel}
    (h : Swift.AccessLevel.read env.accessLevel = .ok named)
    (configured : Option Swift.AccessLevel) : ∃ level, Swift.AccessLevel.resolve [none,
      env.accessLevel, configured.map Swift.AccessLevel.modifier] = .ok level := by
  have hnone : Swift.AccessLevel.read none = .ok none := rfl
  rw [Swift.AccessLevel.resolve, hnone]
  dsimp only
  rw [Swift.AccessLevel.resolve, h]
  cases named with
  | some level => exact ⟨level, rfl⟩
  | none =>
    cases configured with
    | none => exact ⟨.internal, rfl⟩
    | some level =>
      refine ⟨level, ?_⟩
      dsimp only [Option.map_some]
      rw [Swift.AccessLevel.resolve, read_modifier]

/-- The settings of a dry run are those of the configuration file, with an access level. -/
theorem settings_dryRun_eq_ok_iff :
    settings tree env (dryRun root settingsFile strict) project file = .ok config ↔
      ∃ base level, baseConfig tree env (dryRun root settingsFile strict) project file = .ok base ∧
        Swift.AccessLevel.resolve [none, env.accessLevel,
          base.accessLevel.map Swift.AccessLevel.modifier] = .ok level ∧
            config = withLevel base level strict := by
  have hdefault : ∀ given : Bool,
      (given || (dryRun root settingsFile strict).includeDefaultValue) = given := Bool.or_false
  unfold settings
  simp only [Sequence.bind_eq_ok_iff, Sequence.mapError_eq_ok_iff, hdefault]
  constructor
  · rintro ⟨base, hbase, input, hinput, output, houtput, diffs, hdiffs, level, hlevel, h⟩
    cases hinput
    cases houtput
    cases hdiffs
    cases h
    exact ⟨base, level, hbase, hlevel, rfl⟩
  · rintro ⟨base, level, hbase, hlevel, rfl⟩
    exact ⟨base, hbase, base.main.input, rfl, base.main.output, rfl, base.diffs, rfl, level, hlevel,
      rfl⟩

/-- A dry run asks for the generation of the project of a diagnosis if the configuration file can be
looked up as it is named. -/
theorem exists_asks_dryRun {named : Option Swift.AccessLevel}
    (hlevel : Swift.AccessLevel.read env.accessLevel = .ok named)
    (hconfig : configOf tree env root settingsFile = .ok (file, base))
    (hlookup : ∃ found, tree.pathExists env.place file = .ok found) {arguments : List Text}
    (harguments : Invocation.ofArguments arguments = .ok (dryRun root settingsFile strict)) :
    ∃ level, Asks env arguments tree (withLevel base level strict) true := by
  obtain ⟨project, hroot, hfile, hread⟩ := configOf_eq_ok_iff.mp hconfig
  obtain ⟨level, hresolve⟩ := exists_level hlevel base.accessLevel
  have hsettings : settings tree env (dryRun root settingsFile strict) project file =
      .ok (withLevel base level strict) := settings_dryRun_eq_ok_iff.mpr
    ⟨base, level, (baseConfig_eq_ok_iff rfl).mpr ⟨hlookup, hread⟩, hresolve, rfl⟩
  exact ⟨level, dryRun root settingsFile strict, project, file, harguments, rfl, rfl, hroot, hfile,
    hsettings⟩

/-! ### Runs that go well -/

theorem exists_asks_of_exitOk {arguments : List Text} {inv : Invocation}
    (harguments : Invocation.ofArguments arguments = .ok inv)
    (haction : inv.action = some .generate) (hexit : (runOn env arguments tree).1 = .ok exitOk) :
    ∃ config, Asks env arguments tree config inv.dryRun := by
  rw [runOn_of_ofArguments harguments, ← exists_completes_iff] at hexit
  unfold perform at hexit
  simp only [completes_bind_iff, completes_ofExcept_iff] at hexit
  obtain ⟨w, root, _, ⟨hroot, rfl⟩, file, _, ⟨hfile, rfl⟩, h⟩ := hexit
  rw [haction] at h
  dsimp only at h
  unfold generate at h
  rw [completes_files_bind_iff] at h
  cases hsettings : settings tree env inv root file with
  | ok config => exact ⟨config, inv, root, file, harguments, haction, rfl, hroot, hfile, hsettings⟩
  | error e =>
    rw [hsettings] at h
    cases e with
    | config e => cases h.eq_of_bind_pure
    | _ => cases h

/-- A dry run that goes well is one of the project of a diagnosis. -/
theorem asks_of_exitOk_dryRun (hconfig : configOf tree env root settingsFile = .ok (file, base))
    {arguments : List Text}
    (harguments : Invocation.ofArguments arguments = .ok (dryRun root settingsFile strict))
    (hexit : (runOn env arguments tree).1 = .ok exitOk) :
    ∃ level, Asks env arguments tree (withLevel base level strict) true := by
  obtain ⟨config, hasks⟩ := exists_asks_of_exitOk harguments rfl hexit
  have hsame := hasks
  obtain ⟨inv, project, file', harguments', -, -, hroot, hfile, hsettings⟩ := hsame
  cases harguments.symm.trans harguments'
  obtain ⟨base', level, hbase, -, rfl⟩ := settings_dryRun_eq_ok_iff.mp hsettings
  -- the settings come from the file that a diagnosis reads
  have hread := ((baseConfig_eq_ok_iff rfl).mp hbase).2
  have hconfig' : configOf tree env root settingsFile = .ok (file', base') :=
    configOf_eq_ok_iff.mpr ⟨project, hroot, hfile, hread⟩
  cases hconfig.symm.trans hconfig'
  exact ⟨level, hasks⟩

/-- A diagnosis goes well exactly if the project is in order and it can say so. -/
theorem exitOk_diagnosis_iff :
    (runOn env ("doctor" :: placing root settingsFile) tree).1 = .ok exitOk ↔ ∃ file base,
      configOf tree env root settingsFile = .ok (file, base) ∧
        ArePrintable [Project.configLine file base] ∧ ∀ path ∈ Project.inputs base, ∃ catalog x,
          Project.IsDiagnosed tree env base.options path catalog x ∧
            ArePrintable (Project.catalogLines path catalog x) := by
  have hdoctor : ∀ project file, (∃ w, Completes (doctor env project file) ⟨tree, []⟩ exitOk w) ↔
      ∃ w, Completes (Project.diagnose env file project) ⟨tree, []⟩ true w := by
    intro project file
    unfold doctor
    constructor
    · rintro ⟨w, h⟩
      obtain ⟨ok, between, hdiagnose, h⟩ := completes_bind_iff.mp h
      cases ok with
      | true => exact ⟨between, hdiagnose⟩
      | false => cases (completes_pure_iff.mp h).1
    · rintro ⟨w, hdiagnose⟩
      exact ⟨w, hdiagnose.bind (completes_pure_iff.mpr ⟨rfl, rfl⟩)⟩
  have hperform : (∃ w, Completes (perform env (diagnosis root settingsFile)) ⟨tree, []⟩ exitOk w) ↔
      ∃ project file, projectRoot env (diagnosis root settingsFile) = .ok project ∧
        configFile env (diagnosis root settingsFile) project = .ok file ∧
          ∃ w, Completes (doctor env project file) ⟨tree, []⟩ exitOk w := by
    unfold perform
    simp only [completes_bind_iff, completes_ofExcept_iff]
    constructor
    · rintro ⟨w, project, _, ⟨hroot, rfl⟩, file, _, ⟨hfile, rfl⟩, h⟩
      exact ⟨project, file, hroot, hfile, w, h⟩
    · rintro ⟨project, file, hroot, hfile, w, h⟩
      exact ⟨w, project, _, ⟨hroot, rfl⟩, file, _, ⟨hfile, rfl⟩, h⟩
  rw [runOn_of_ofArguments (ofArguments_diagnosis root settingsFile), ← exists_completes_iff,
    hperform]
  simp only [hdoctor, Project.exists_completes_diagnose_iff, configOf_eq_ok_iff]
  constructor
  · rintro ⟨project, file, hroot, hfile, base, hread, hrest⟩
    exact ⟨file, base, ⟨project, hroot, hfile, hread⟩, hrest⟩
  · rintro ⟨file, base, ⟨project, hroot, hfile, hread⟩, hrest⟩
    exact ⟨project, file, hroot, hfile, base, hread, hrest⟩

/-- The diagnosis of a project with one catalog, which is in order, goes well exactly if the lines
about the configuration and about the catalog can be printed. -/
theorem exitOk_diagnosis_iff_of_isDiagnosed {catalog : Catalog} {x : Extraction}
    (hconfig : configOf tree env root settingsFile = .ok (file, base)) (hdiffs : base.diffs = [])
    (hdiagnosed : Project.IsDiagnosed tree env base.options base.main.input catalog x)
    (hissues : ArePrintable (x.issues.map Project.issueLine))
    (houtput : base.main.output.display.isEncodable = true) :
    (runOn env ("doctor" :: placing root settingsFile) tree).1 = .ok exitOk ↔
      file.name.isEncodable = true ∧ base.main.input.display.isEncodable = true ∧
        catalog.sourceLanguage.isEncodable = true := by
  rw [exitOk_diagnosis_iff]
  constructor
  · rintro ⟨file', base', hconfig', hline, hinputs⟩
    cases hconfig.symm.trans hconfig'
    obtain ⟨catalog', x', hdiagnosed', hlines⟩ := hinputs base.main.input List.mem_cons_self
    cases hdiagnosed.read.symm.trans hdiagnosed'.read
    obtain ⟨hfile, hinput, -⟩ :=
      Project.isEncodable_configLine_iff.mp (arePrintable_cons.mp hline).1
    have hcatalog := (arePrintable_cons.mp (arePrintable_append.mp hlines).2).1
    exact ⟨hfile, hinput, (Project.isEncodable_catalogLine_iff.mp hcatalog).2⟩
  · rintro ⟨hfile, hinput, hlanguage⟩
    have hline : ArePrintable [Project.configLine file base] := arePrintable_cons.mpr
      ⟨Project.isEncodable_configLine_iff.mpr ⟨hfile, hinput, houtput⟩, arePrintable_nil⟩
    have hcatalog : ArePrintable [Project.catalogLine base.main.input catalog x] :=
      arePrintable_cons.mpr ⟨Project.isEncodable_catalogLine_iff.mpr
        ⟨Path.isEncodable_name hinput, hlanguage⟩, arePrintable_nil⟩
    refine ⟨file, base, hconfig, hline, fun path hpath => ?_⟩
    -- the main catalog is the only one
    rw [Project.inputs, hdiffs, List.map_nil, List.mem_singleton] at hpath
    subst hpath
    exact ⟨catalog, x, hdiagnosed, arePrintable_append.mpr ⟨hissues, hcatalog⟩⟩

theorem exitOk_iff_of_reports {arguments : List Text} (h : Asks env arguments tree config true)
    {main : Project.Report} {further : List Project.Report}
    (hreports : Project.reports tree env config = .ok (main, further)) :
    (runOn env arguments tree).1 = .ok exitOk ↔
      ArePrintable (Project.transcript true main further) := by
  constructor
  · intro hexit
    obtain ⟨main', further', after, hgoes, hprintable, -⟩ := exists_goesThrough h hexit
    cases hreports.symm.trans (Project.reports_of_dry hgoes)
    exact hprintable
  · intro hprintable
    rw [runOn_of_goesThrough h (Project.goesThrough_still hreports fun _ _ => .inl rfl) hprintable]

/-! ### Agreement -/

/-- Nothing is in the way of a generation that a diagnosis does not look at: the configuration file
can be looked up as it is named, each output is absent or a file with text, and no catalog needs
more room than a generation has. -/
structure IsClear (tree : FileTree) (env : Environment) (file : Path) (base : Config) : Prop where
  lookup : ∃ found, tree.pathExists env.place file = .ok found
  outputs : ∀ output ∈ Project.outputs base, Project.IsAvailable tree env.place output
  inputs : ∀ path ∈ Project.inputs base, Project.IsShallow tree env path

/-- Diagnosis and generation agree on every project, whatever its configuration says of strictness,
stale keys and further catalogs, in an environment that names no unknown access level. If the
diagnosis goes well and the way is clear, there are reports for all targets, and a dry run goes well
exactly if the paths of the outputs and the keys that are warned of can be printed. If there are no
further catalogs and a strict dry run goes well, the main catalog is read, and the diagnosis goes
well exactly if the name of the configuration file, the path of the catalog and its language can be
printed. -/
theorem doctor_agrees_with_generate {named : Option Swift.AccessLevel}
    (hlevel : Swift.AccessLevel.read env.accessLevel = .ok named)
    (root settingsFile : Option Text) :
    ((runOn env ("doctor" :: placing root settingsFile) tree).1 = .ok exitOk → ∃ file base,
      configOf tree env root settingsFile = .ok (file, base) ∧
      (IsClear tree env file base → ∃ level main further,
        Asks env ("generate" :: "--dry-run" :: placing root settingsFile) tree
          (withLevel base level false) true ∧
        Project.reports tree env (withLevel base level false) = .ok (main, further) ∧
        ((runOn env ("generate" :: "--dry-run" :: placing root settingsFile) tree).1 = .ok exitOk ↔
          (∀ output ∈ Project.outputs base, output.display.isEncodable = true) ∧
            ∀ d ∈ Project.warnings further, d.1.isEncodable = true))) ∧
    ∀ file base, configOf tree env root settingsFile = .ok (file, base) → base.diffs = [] →
      (runOn env ("generate" :: "--strict" :: "--dry-run" :: placing root settingsFile) tree).1 =
        .ok exitOk → ∃ catalog,
          tree.readCatalog (env.nesting Project.callsAroundDiagnosis) env.place base.main.input =
            .ok catalog ∧
          ((runOn env ("doctor" :: placing root settingsFile) tree).1 = .ok exitOk ↔
            file.name.isEncodable = true ∧ base.main.input.display.isEncodable = true ∧
              catalog.sourceLanguage.isEncodable = true) := by
  constructor
  · intro hdoctor
    obtain ⟨file, base, hconfig, -, hinputs⟩ := exitOk_diagnosis_iff.mp hdoctor
    refine ⟨file, base, hconfig, fun hclear => ?_⟩
    obtain ⟨level, hasks⟩ := exists_asks_dryRun hlevel hconfig hclear.lookup
      (ofArguments_dryRun root settingsFile)
    obtain ⟨main, further, hreports, hnotes⟩ : ∃ main further,
        Project.reports tree env (withLevel base level false) = .ok (main, further) ∧
          ∀ r ∈ main :: further, ArePrintable r.notes :=
      Project.exists_reports_of_isDiagnosed hinputs hclear.inputs hclear.outputs
    have htranscript : ArePrintable (Project.transcript true main further) ↔ _ :=
      Project.arePrintable_transcript_iff_outputs hreports hnotes
    exact ⟨level, main, further, hasks, hreports,
      (exitOk_iff_of_reports hasks hreports).trans htranscript⟩
  · intro file base hconfig hdiffs hexit
    obtain ⟨level, hasks⟩ :=
      asks_of_exitOk_dryRun hconfig (ofArguments_strictDryRun root settingsFile) hexit
    obtain ⟨main, further, after, hgoes, hprintable, -⟩ := exists_goesThrough hasks hexit
    have hstrict : (withLevel base level true).options.strict = true := Bool.or_true _
    obtain ⟨catalog, x, hdiagnosed, hissues, houtput⟩ :=
      Project.isDiagnosed_of_reports hstrict (Project.reports_of_dry hgoes) hprintable
    exact ⟨catalog, hdiagnosed.read,
      exitOk_diagnosis_iff_of_isDiagnosed hconfig hdiffs hdiagnosed hissues houtput⟩

theorem isShallow_of_keys {path : Path} {keys : List Text}
    (hread : (tree.readCatalog (env.nesting Project.callsAroundReading) env.place path).map
      Catalog.keys = .ok keys)
    (hkeys : ∀ key ∈ keys,
      (Resource.keyComponents key).length ≤ env.components Project.callsAroundSource) :
    Project.IsShallow tree env path := by
  obtain ⟨catalog, hcatalog, rfl⟩ := Sequence.map_eq_ok_iff.mp hread
  refine ⟨by rw [hcatalog]; nofun, fun catalog' hcatalog' => ?_⟩
  cases hcatalog.symm.trans hcatalog'
  exact hkeys

/-- One project has a second catalog and is diagnosed first, and one has none and is generated
strictly first. The configuration file is given. -/
theorem doctor_agrees_with_generate_menu :
    let env := userEnvironment (some "public")
    let settingsFile : Option Text := some "xcstrings_gen.yaml"
    let further := menuProject "diffs: [\x7binput: B.json, output: B.swift\x7d]\n"
    let single := menuProject ""
    (∃ file base level main rest, (runOn env ("doctor" :: placing none settingsFile) further).1 =
          .ok exitOk ∧
        configOf further env none settingsFile = .ok (file, base) ∧
        IsClear further env file base ∧
        Project.reports further env (withLevel base level false) = .ok (main, rest) ∧
        (runOn env ("generate" :: "--dry-run" :: placing none settingsFile) further).1 =
          .ok exitOk ∧
        ∀ d ∈ Project.warnings rest, d.1.isEncodable = true) ∧
      (runOn env ("generate" :: "--strict" :: "--dry-run" :: placing none settingsFile) single).1 =
        .ok exitOk ∧
      (runOn env ("doctor" :: placing none settingsFile) single).1 = .ok exitOk := by
  intro env settingsFile further single
  have hlevel : Swift.AccessLevel.read env.accessLevel = .ok (some .public) := by decide
  constructor
  · have hdoctor : (runOn env ("doctor" :: placing none settingsFile) further).1 = .ok exitOk := by
      decide +kernel
    have hdry : (runOn env ("generate" :: "--dry-run" :: placing none settingsFile) further).1 =
        .ok exitOk := by decide +kernel
    have hparts : (configOf further env none settingsFile).map (fun c =>
        (c.1, Project.inputs c.2, Project.outputs c.2)) =
          .ok (⟨"/", ["p", "xcstrings_gen.yaml"]⟩,
            [⟨"/", ["p", "A.json"]⟩, ⟨"/", ["p", "B.json"]⟩],
            [⟨"/", ["p", "A.swift"]⟩, ⟨"/", ["p", "B.swift"]⟩]) := by decide +kernel
    have hlookup : further.pathExists env.place ⟨"/", ["p", "xcstrings_gen.yaml"]⟩ = .ok true := by
      decide +kernel
    have hkeys : ∀ path ∈ [(⟨"/", ["p", "A.json"]⟩ : Path), ⟨"/", ["p", "B.json"]⟩],
        (further.readCatalog (env.nesting Project.callsAroundReading) env.place path).map
          Catalog.keys = .ok ["menu"] := by decide +kernel
    have habsent : ∀ output ∈ [(⟨"/", ["p", "A.swift"]⟩ : Path), ⟨"/", ["p", "B.swift"]⟩],
        further.pathExists env.place output = .ok false := by decide +kernel
    obtain ⟨file, base, hconfig, hagree⟩ :=
      (doctor_agrees_with_generate hlevel none settingsFile).1 hdoctor
    rw [hconfig] at hparts
    simp only [Except.map, Except.ok.injEq, Prod.mk.injEq] at hparts
    obtain ⟨hfile, hinputs, houtputs⟩ := hparts
    have hclear : IsClear further env file base := by
      refine ⟨⟨true, hfile ▸ hlookup⟩, fun output houtput => .inl ?_, fun path hpath => ?_⟩
      · rw [houtputs] at houtput
        exact habsent output houtput
      · rw [hinputs] at hpath
        exact isShallow_of_keys (hkeys path hpath) (by decide +kernel)
    obtain ⟨level, main, rest, -, hreports, hiff⟩ := hagree hclear
    exact ⟨file, base, level, main, rest, hdoctor, hconfig, hclear, hreports, hdry,
      (hiff.mp hdry).2⟩
  · have hstrict : (runOn env ("generate" :: "--strict" :: "--dry-run" :: placing none settingsFile)
        single).1 = .ok exitOk := by decide +kernel
    have hparts : (configOf single env none settingsFile).map (fun c =>
        (c.1, c.2.main.input, c.2.diffs)) = .ok (⟨"/", ["p", "xcstrings_gen.yaml"]⟩,
          ⟨"/", ["p", "A.json"]⟩, []) := by decide +kernel
    have hlanguage : (single.readCatalog (env.nesting Project.callsAroundDiagnosis) env.place
        ⟨"/", ["p", "A.json"]⟩).map Catalog.sourceLanguage = .ok "en" := by decide +kernel
    obtain ⟨⟨file, base⟩, hconfig, hparts⟩ := Sequence.map_eq_ok_iff.mp hparts
    simp only [Prod.mk.injEq] at hparts
    obtain ⟨rfl, hinput, hdiffs⟩ := hparts
    obtain ⟨catalog, hread, hiff⟩ := (doctor_agrees_with_generate hlevel none settingsFile).2
      _ base hconfig hdiffs hstrict
    rw [hinput] at hread hiff
    rw [hread] at hlanguage
    have hsource : catalog.sourceLanguage = "en" := Except.ok.inj hlanguage
    rw [hsource] at hiff
    exact ⟨hstrict, hiff.mpr (by decide +kernel)⟩

/-- A project whose main catalog is in some language, with two more catalogs that have half of a
pair as their key. -/
def halvesProject (language lines : String) : FileTree :=
  let main := String.toUTF8 ("\x7b\"sourceLanguage\": \"" ++ language ++
    "\", \"version\": \"1.0\", \"strings\": \x7b\"menu\": \x7b\x7d\x7d\x7d")
  ⟨[(["p"], .directory), (["p", "A.json"], .file main), (["p", "B.json"], catalogOf "\\ud800"),
    (["p", "C.json"], catalogOf "\\ud800"),
    (["p", "xcstrings_gen.yaml"], .file (String.toUTF8 ("input: A.json\n" ++ lines)))]⟩

/-- A name of 256 bytes, in 64 characters. -/
def longName : List Char := List.replicate 64 '😀'

/-- There is nothing at the outputs of a project. -/
def isUngenerated (tree : FileTree) (env : Environment) (settingsFile : Option Text) :
    Except Failure Bool :=
  (configOf tree env none settingsFile).map fun c =>
    (Project.outputs c.2).all fun output => (tree.find? env.place output).isNone

theorem disagreement_of_longOutput :
    let env := userEnvironment none
    let tree := halvesProject "en" ("output: " ++ String.ofList longName ++ "\n")
    isUngenerated tree env none = .ok true ∧ (runOn env ["doctor"] tree).1 = .ok exitOk ∧
      (runOn env ["generate", "--dry-run"] tree).1 = .ok exitFailed := by
  decide +kernel

theorem disagreement_of_longWay :
    let env := userEnvironment none
    let tree := halvesProject "en" "output: A.swift\n"
    let settingsFile : Option Text :=
      some ("/p/" ++ Text.ofChars longName ++ "/../xcstrings_gen.yaml")
    isUngenerated tree env settingsFile = .ok true ∧
      (runOn env ("doctor" :: placing none settingsFile) tree).1 = .ok exitOk ∧
      (runOn env ("generate" :: "--dry-run" :: placing none settingsFile) tree).1 = .error (.file
        ⟨.nameTooLong, ⟨"/", ["p", Text.ofChars longName, "..", "xcstrings_gen.yaml"]⟩⟩) := by
  decide +kernel

theorem disagreement_of_key :
    let env := userEnvironment none
    let tree := halvesProject "en" ("output: A.swift\n" ++
      "diffs: [\x7binput: B.json, output: B\x7d, \x7binput: C.json, output: C\x7d]\n")
    isUngenerated tree env none = .ok true ∧ (runOn env ["doctor"] tree).1 = .ok exitOk ∧
      (runOn env ["generate", "--dry-run"] tree).1 =
        .error (.unprintable (Project.duplicateLine [.half 0] ["B.json", "C.json"])) := by
  decide +kernel

theorem disagreement_of_nesting :
    let env := { userEnvironment none with calls := 9 }
    let tree := halvesProject "en" "output: A.swift\n"
    isUngenerated tree env none = .ok true ∧ (runOn env ["doctor"] tree).1 = .ok exitOk ∧
      (runOn env ["generate", "--dry-run"] tree).1 = .error .tooDeep := by
  decide +kernel

theorem disagreement_of_language :
    let env := userEnvironment none
    let tree := halvesProject "\\ud800" "output: A.swift\n"
    let line := Text.ofString "✅ A.json OK（1 keys，sourceLanguage=" ++ [.half 0] ++ Text.ofString "）"
    isUngenerated tree env none = .ok true ∧
      (configOf tree env none none).map (fun c => c.2.diffs) = .ok [] ∧
      (runOn env ["generate", "--strict", "--dry-run"] tree).1 = .ok exitOk ∧
      (runOn env ["doctor"] tree).1 = .error (.unprintable line) := by
  decide +kernel

/-- Without an access level in the environment and with nothing at the outputs, a diagnosis may go
well where a dry run does not: the name of an output is too long to be looked up, or one on the way
to the configuration file that the path leaves again; a key that is warned of cannot be printed; or
a catalog is nested as deeply as only a diagnosis can read it. A strict dry run may go well where
the diagnosis cannot print the language of the only catalog. -/
theorem doctor_disagrees_with_generate :
    let env := userEnvironment none
    (∃ tree, isUngenerated tree env none = .ok true ∧ (runOn env ["doctor"] tree).1 = .ok exitOk ∧
      (runOn env ["generate", "--dry-run"] tree).1 = .ok exitFailed) ∧
    (∃ tree settingsFile fault, isUngenerated tree env settingsFile = .ok true ∧
      (runOn env ("doctor" :: placing none settingsFile) tree).1 = .ok exitOk ∧
      (runOn env ("generate" :: "--dry-run" :: placing none settingsFile) tree).1 =
        .error (.file fault)) ∧
    (∃ tree line, isUngenerated tree env none = .ok true ∧
      (runOn env ["doctor"] tree).1 = .ok exitOk ∧
      (runOn env ["generate", "--dry-run"] tree).1 = .error (.unprintable line)) ∧
    (∃ tree calls, isUngenerated tree { env with calls := calls } none = .ok true ∧
      (runOn { env with calls := calls } ["doctor"] tree).1 = .ok exitOk ∧
      (runOn { env with calls := calls } ["generate", "--dry-run"] tree).1 = .error .tooDeep) ∧
    ∃ tree line, isUngenerated tree env none = .ok true ∧
      (configOf tree env none none).map (fun c => c.2.diffs) = .ok [] ∧
      (runOn env ["generate", "--strict", "--dry-run"] tree).1 = .ok exitOk ∧
      (runOn env ["doctor"] tree).1 = .error (.unprintable line) :=
  ⟨⟨_, disagreement_of_longOutput⟩, ⟨_, _, _, disagreement_of_longWay⟩,
    ⟨_, _, disagreement_of_key⟩, ⟨_, _, disagreement_of_nesting⟩, _, _, disagreement_of_language⟩

end StringCatalog.CommandLine
