import StringCatalog.Project.Generation

/-! Diagnosis of a project: whether its configuration and its catalogs are in order. -/

namespace StringCatalog.Project

open Session

/-- The number of calls that are open where a catalog is read or its tree built. It is smaller than
in a generation. -/
def callsAroundDiagnosis : Nat := 2

/-- The line that tells of a configuration that is read from a file. -/
def configLine (file : Path) (config : Config) : Text :=
  "✅ " ++ file.name ++ " OK (input=" ++ config.main.input.display ++ " output=" ++
    config.main.output.display ++ " diffs=" ++ Text.ofNat config.diffs.length ++ ")"

/-- The line that tells of a catalog without faults. -/
def catalogLine (path : Path) (catalog : Catalog) (x : Extraction) : Text :=
  "✅ " ++ path.name ++ " OK（" ++ Text.ofNat x.resources.length ++ " keys，sourceLanguage=" ++
    catalog.sourceLanguage ++ "）"

/-- Says what is wrong with the keys of resources; the result is whether they are valid. -/
def diagnoseKeys (path : Path) (rs : List Resource) : Session Bool :=
  match Resource.validate rs (some path) with
  | .ok _ => return true
  | .error e => do
    say ("❌ " ++ e.message)
    return false

/-- Says what is wrong with the resources of a catalog; the result is whether it is in order. -/
def diagnoseResources (path : Path) (catalog : Catalog) (x : Extraction) : Session Bool := do
  let collisions := (NamespaceTree.ofResources x.resources).collisions []
  collisions.forM fun c => say ("❌ " ++ path.name ++ ": " ++ c.message)
  let valid ← diagnoseKeys path x.resources
  if collisions.isEmpty && x.isOk then
    say (catalogLine path catalog x)
    return valid
  else return false

/-- Looks at one catalog and says what is wrong with it; the result is whether it is in order. -/
def diagnoseCatalog (env : Environment) (options : Options) (path : Path) : Session Bool := do
  match (← files).readCatalog (env.nesting callsAroundDiagnosis) env.place path with
  | .error (.catalog e) =>
    say ("❌ " ++ e.message)
    return false
  | .error e => throw e
  | .ok catalog =>
    let x ← ofExcept ((catalog.extract false options.skipStale).mapError .ofGeneration)
    sayIssues x
    if NamespaceTree.isTooDeep (env.components callsAroundDiagnosis) x.resources [] then
      throw .tooDeep
    else diagnoseResources path catalog x

/-- Looks at the configuration in a file and at the catalogs that it names; the result is whether
all is in order. -/
def diagnose (env : Environment) (file root : Path) : Session Bool := do
  say "✅ PyYAML OK"
  match (← files).readConfig env file (some root) with
  | .error (.config e) =>
    say ("❌ " ++ e.message)
    return false
  | .error e => throw e
  | .ok config =>
    say (configLine file config)
    let inputs := config.main.input :: config.diffs.map (·.input)
    let found ← inputs.mapM (diagnoseCatalog env config.options)
    if found.all id then
      say "✅ doctor 完成"
      return true
    else return false

end StringCatalog.Project
