import StringCatalog.Catalog.Reader
import StringCatalog.Config.Basic
import StringCatalog.GenerationError
import StringCatalog.Workspace.FileTree

/-! The failures that end a step of a run. -/

namespace StringCatalog

/-- An operation on a path that could not be done. -/
structure FileError where
  fault : FileFault
  path : Path
  deriving DecidableEq

namespace FileError

/-- The fault, and the path in quotation marks. -/
def message (e : FileError) : Text := e.fault.text ++ ": " ++ e.path.display.quoted

end FileError

/-- Why a step of a run ends without a result. Some failures have a sentence that the run reports;
the others are of a kind that no step foresees. -/
inductive Failure where
  | catalog (e : CatalogError)
  | config (e : ConfigError)
  | generation (e : GenerationError)
  | file (e : FileError)
  /-- A file that must hold text is not in UTF-8. -/
  | undecodable
  /-- A text that is to be written to a file holds half of a pair. -/
  | unencodable
  /-- A numeral is too long to have a value. -/
  | numeralTooLong
  /-- The reader of the configuration fails in a way of its own. -/
  | unforeseen (kind : Text)
  /-- A line that is to be printed holds half of a pair. -/
  | unprintable (line : Text)
  /-- Lists and objects, namespaces or missing directories are nested too deeply. -/
  | tooDeep
  /-- A text is no path, or there is no home directory for one. -/
  | path (fault : PathFault)
  /-- A path that a run needs is given without a value. -/
  | noPath
  deriving DecidableEq

namespace Failure

/-- The failure of a step of a generation. -/
def ofGeneration : GenerationFailure → Failure
  | .generation e => generation e
  | .numeralTooLong => numeralTooLong
  | .tooDeep => tooDeep

end Failure

end StringCatalog
