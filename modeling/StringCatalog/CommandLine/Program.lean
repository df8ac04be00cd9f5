import StringCatalog.CommandLine.Invocation
import StringCatalog.Project.Diagnosis
import StringCatalog.Project.Setup

/-! The command: what a run prints, which files it changes, and how it ends. -/

namespace StringCatalog.CommandLine

open Session

/-- The exit code of a run that went well. -/
def exitOk : Nat := 0

/-- The exit code of a generation that failed. -/
def exitFailed : Nat := 1

/-- The exit code where something that a run needs is not in order. -/
def exitBad : Nat := 2

/-- The version that the command tells. -/
def versionLine : Text := "xcstrings_gen 0.1.0"

/-- The line of the menu for an action, with its word filled up to ten characters. -/
def menuLine (a : Action) : Text :=
  "  - " ++ a.word ++ Text.copies (10 - a.word.length) ' ' ++ " " ++ a.description

/-- Prints the menu of actions. -/
def menu : Session Nat := do
  say "❌ 请指定 action。可选："
  Action.all.forM fun a => say (menuLine a)
  return exitBad

/-- Prints an error of the configuration or of a catalog. -/
def refuse (message : Text) : Session Nat := do
  say ("❌ " ++ message)
  return exitBad

/-- A text of the command line that is not empty; an empty one counts as not given. -/
def given (t : Option Text) : Option Text := t.filter (!·.isEmpty)

/-- A path of the command line, made absolute from the root of the project. -/
def argumentPath (root : Path) (t : Text) : Except Failure Path :=
  Environment.resolve root (Path.ofText t)

/-- The configuration of the file, or the one of a catalog and a source file that the command line
names where there is no file. -/
def baseConfig (tree : FileTree) (env : Environment) (inv : Invocation) (root file : Path) :
    Except Failure Config := do
  if ← tree.pathExists env.place file then tree.readConfig env file (some root)
  else match given inv.input, given inv.output with
    | some input, some output => do
      let input ← argumentPath root input
      let output ← argumentPath root output
      .ok (Config.ofTarget root ⟨input, output⟩)
    | some _, none => .error (.config .noOutput)
    | none, _ => tree.readConfig env file (some root)

/-- The path that the command line gives, or else the one of the configuration. -/
def override (root : Path) (t : Option Text) (configured : Path) : Except Failure Path :=
  match given t with
  | some text => argumentPath root text
  | none => .ok configured

/-- The further targets that the command line gives, or else those of the configuration. -/
def overrideDiffs (root : Path) (diffs : List (Text × Text)) (configured : List Target) :
    Except Failure (List Target) :=
  if diffs.isEmpty then .ok configured
  else diffs.mapM fun d => do
    let input ← argumentPath root d.1
    let output ← argumentPath root d.2
    .ok ⟨input, output⟩

/-- The configuration of a run: the command line comes before the environment, and the environment
before the file. -/
def settings (tree : FileTree) (env : Environment) (inv : Invocation) (root file : Path) :
    Except Failure Config := do
  let base ← baseConfig tree env inv root file
  let input ← override root inv.input base.main.input
  let output ← override root inv.output base.main.output
  let diffs ← overrideDiffs root inv.diffs base.diffs
  let level ← (Swift.AccessLevel.resolve [inv.accessLevel.map Swift.AccessLevel.modifier,
    env.accessLevel, base.accessLevel.map Swift.AccessLevel.modifier]).mapError
      fun e => .config (.accessLevel e)
  let options := { base.options with
    strict := base.options.strict || inv.strict
    includeDefaultValue := base.options.includeDefaultValue || inv.includeDefaultValue }
  .ok { base with
    main := ⟨input, output⟩
    accessLevel := some level
    diffs := diffs
    options := options }

/-- Prints the failure of a generation that has a sentence; others go on. -/
def explain : Failure → Session Nat
  | .catalog e => refuse e.message
  | .generation e => do
    say ("❌ generate 失败：" ++ e.message)
    return exitFailed
  | .file e => do
    say ("❌ generate 失败：" ++ e.message)
    return exitFailed
  | e => throw e

/-- Generates the source files of the project. -/
def generate (env : Environment) (inv : Invocation) (root file : Path) : Session Nat := do
  match settings (← files) env inv root file with
  | .error (.config e) => refuse e.message
  | .error e => throw e
  | .ok config =>
    tryCatch (do Project.generate env config inv.dryRun; return exitOk) explain

/-- Diagnoses the project. -/
def doctor (env : Environment) (root file : Path) : Session Nat := do
  if ← Project.diagnose env file root then return exitOk else return exitBad

/-- Sets the project up. -/
def setUp (env : Environment) (file : Path) : Session Nat :=
  tryCatch
    (do
      if ← Project.setUp env file then say ("✅ 已生成配置：" ++ file.display)
      else say ("✅ 配置已存在且校验通过：" ++ file.display)
      return exitOk)
    fun
      | .config e => refuse e.message
      | e => throw e

/-- The configuration file of a run: relative to the root of the project, and only then without
double dots. -/
def configFile (env : Environment) (inv : Invocation) (root : Path) : Except Failure Path :=
  match inv.config with
  | none => .error .noPath
  | some text => do
    let file ← ((Path.ofText text).expandHome env.homeOf).mapError .path
    if file.isAbsolute then .ok file else Environment.resolve root file

/-- The root of the project of a run. -/
def projectRoot (env : Environment) (inv : Invocation) : Except Failure Path :=
  match inv.projectRoot with
  | none => .error .noPath
  | some text => do
    let root ← ((Path.ofText text).expandHome env.homeOf).mapError .path
    Environment.resolve env.directory root

/-- Does what the arguments ask for. -/
def perform (env : Environment) (inv : Invocation) : Session Nat := do
  let root ← ofExcept (projectRoot env inv)
  let file ← ofExcept (configFile env inv root)
  match inv.action with
  | none => menu
  | some .init => setUp env file
  | some .doctor => doctor env root file
  | some .generate => generate env inv root file

/-- The command with its arguments; the result is the exit code. -/
def run (env : Environment) (arguments : List Text) : Session Nat :=
  match Invocation.ofArguments arguments with
  | .ok inv => perform env inv
  | .error .badUsage => return exitBad
  | .error .help => return exitOk
  | .error .version => do
    say versionLine
    return exitOk

/-- A run of the command on some files: the exit code or the failure that no step foresees, and the
world that it leaves. -/
def runOn (env : Environment) (arguments : List Text) (tree : FileTree) :
    Except Failure Nat × World :=
  (run env arguments).run.run ⟨tree, []⟩

end StringCatalog.CommandLine
