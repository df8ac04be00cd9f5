import StringCatalog.Catalog.Extraction
import StringCatalog.Project.Session
import StringCatalog.Swift.Source
import StringCatalog.Validation

/-! Generating the source files of a project: one for its main catalog, and one for each further
catalog with the keys that the main catalog does not have. -/

namespace StringCatalog.Project

open Session

/-- The mark in front of an issue. -/
def issueMark : IssueLevel → Text
  | .error => "❌"
  | .warn => "⚠️"
  | .info => "ℹ️"

/-- The line that tells of an issue. -/
def issueLine (i : Issue) : Text :=
  let file := match i.path with
    | some path => path.name ++ ": "
    | none => []
  issueMark i.level ++ " " ++ file ++ i.message

/-- Prints the issues of an extraction. -/
def sayIssues (x : Extraction) : Session Unit := x.issues.forM fun i => say (issueLine i)

/-- The number of calls that are open where a catalog is read. -/
def callsAroundReading : Nat := 3

/-- The number of calls that are open where a source is made. -/
def callsAroundSource : Nat := 4

/-- The resources of a catalog file, with all keys of the catalog. -/
def extractFile (env : Environment) (options : Options) (path : Path) :
    Session (List Text × List Resource) := do
  let catalog ← ofExcept
    ((← files).readCatalog (env.nesting callsAroundReading) env.place path)
  let x ← ofExcept ((catalog.extract options.strict options.skipStale).mapError .ofGeneration)
  sayIssues x
  let skipped := x.count .error
  if 0 < skipped then
    say ("⚠️ " ++ path.name ++ ": " ++ Text.ofNat skipped ++
      " 个 key 无法生成，已跳过（--strict 可改为直接失败）")
  return (catalog.keys, x.resources)

/-- The style of the sources of a project. -/
def style (config : Config) : Swift.Style :=
  ⟨config.accessLevel.getD .internal, config.typeName, config.options.includeDefaultValue,
    Text.copies config.options.indent ' '⟩

/-- Writes the source file of resources and says what was done. -/
def emit (env : Environment) (config : Config) (dryRun : Bool) (output : Path)
    (resources : List Resource) : Session Unit := do
  let source ← ofExcept ((Swift.source (env.components callsAroundSource) (style config)
    config.main.input.stem resources).mapError .ofGeneration)
  let changed ← onFiles (FileJob.write env.place output source dryRun)
  let place := output.display ++ "（" ++ Text.ofNat resources.length ++ " keys）"
  if !changed then say ("✅ 无变化：" ++ place)
  else if dryRun then say ("（dry-run：未写入）" ++ place)
  else say ("✅ 已生成：" ++ place)

/-- Refuses resources with faulty or equal keys. -/
def validate (resources : List Resource) (source : Path) : Session Unit :=
  ofExcept ((Resource.validate resources (some source)).mapError .generation)

/-- Generates the source file of a further catalog; the result is the name of the catalog file with
the resources that were kept. -/
def generateDiff (env : Environment) (config : Config) (dryRun : Bool) (known : List Text)
    (target : Target) : Session (Text × List Resource) := do
  let (_, resources) ← extractFile env config.options target.input
  let kept := resources.filter fun r => !known.contains r.key
  if kept.length ≠ resources.length then
    say ("ℹ️ " ++ target.input.name ++ ": " ++ Text.ofNat (resources.length - kept.length) ++
      " 个 key 已在 " ++ config.main.input.name ++ " 中，跳过")
  validate kept target.input
  emit env config dryRun target.output kept
  return (target.input.name, kept)

/-- The line that tells of a key in several further catalogs. -/
def duplicateLine (key : Text) (names : List Text) : Text :=
  "⚠️ key '" ++ key ++ "' 同时出现在多个差异 catalog：" ++ Text.quotedList names

/-- Generates all source files of a project, that of the main catalog first. -/
def generate (env : Environment) (config : Config) (dryRun : Bool) : Session Unit := do
  let (known, resources) ← extractFile env config.options config.main.input
  validate resources config.main.input
  emit env config dryRun config.main.output resources
  let kept ← config.diffs.mapM (generateDiff env config dryRun known)
  (Resource.duplicateKeys (OrderedMap.ofPairs kept)).forM fun d => say (duplicateLine d.1 d.2)

end StringCatalog.Project
