import StringCatalog.CommandLine.Program

/-! The files that a run of the command may look at. Which catalogs and source files there are is
told by the configuration file, so the files known so far tell of further ones. -/

namespace StringCatalog.CommandLine

/-- The files of a configuration: catalogs, source files, and the temporary files beside these. -/
def configReach (config : Config) : List Path :=
  (config.main :: config.diffs).flatMap fun target =>
    [target.input, target.output, FileJob.temporary target.output]

/-- The files that a run may look at, as far as the files known so far tell. -/
def invocationReach (env : Environment) (inv : Invocation) (tree : FileTree) :
    Except Failure (List Path) := do
  let root ← projectRoot env inv
  let file ← configFile env inv root
  let configs := [settings tree env inv root file, tree.readConfig env file (some root)]
  .ok (env.directory :: file :: configs.flatMap fun config =>
    match config with
    | .ok config => configReach config
    | .error _ => [])

/-- The places that a run may look at: those of its files, and of the directories around them. -/
def reach (env : Environment) (arguments : List Text) (tree : FileTree) : List Location :=
  match Invocation.ofArguments arguments with
  | .error _ => []
  | .ok inv => match invocationReach env inv tree with
    | .error _ => []
    | .ok paths => (paths.flatMap Path.steps).eraseDups

end StringCatalog.CommandLine
