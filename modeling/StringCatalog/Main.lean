import StringCatalog.CommandLine.Reach
import StringCatalog.Workspace.Changes
import StringCatalog.Yaml.Document

/-! The command on the files of the machine: it reads the files that a run may look at, runs the
command on them, prints what it prints and makes the changes that it makes. -/

namespace StringCatalog.Machine

/-- The string of a text, with a replacement character for half of a pair. -/
def stringOf (text : Text) : String := String.ofList (text.map (·.char?.getD '\uFFFD'))

/-- The name of a place on the machine. -/
def nameOf (place : Location) : String := stringOf (Path.display ⟨"/", place⟩)

/-- Adds to a tree what is at a place of the machine. -/
def look (tree : FileTree) (place : Location) : IO FileTree := do
  let path := (← IO.currentDir) / nameOf place
  if ← path.isDir then return tree.put place .directory
  else if ← path.pathExists then return tree.put place (.file (← IO.FS.readBinFile path))
  else return tree

/-- Makes a change on the machine. -/
def make (change : FileChange) : IO Unit :=
  match change.node with
  | some .directory => IO.FS.createDirAll (nameOf change.place)
  | some (.file bytes) => IO.FS.writeBinFile (nameOf change.place) bytes
  | none => IO.FS.removeFile (nameOf change.place)

/-- The number of calls that may be open below the command. -/
def calls : Nat := 997

/-- What a run finds around it on the machine. Of home directories only the user's own is known, and
documents are read without anchors, aliases, tags and block scalars. -/
def environment : IO Environment := do
  let directory := Path.ofText (← IO.currentDir).toString
  let home := (← IO.getEnv "HOME").map fun name => Path.ofText name
  let level ← IO.getEnv (stringOf Config.accessVariable)
  return ⟨directory, fun user => if user = [] then home else none, level.map Text.ofString,
    Yaml.readDocument, calls⟩

/-- The sentence for a failure that no step of a run foresees. -/
def report : Failure → Text
  | .catalog e => e.message
  | .config e => e.message
  | .generation e => e.message
  | .file e => e.message
  | .undecodable => "a file is not in UTF-8"
  | .unencodable => "a text has no form in UTF-8"
  | .numeralTooLong => "a numeral is too long"
  | .unforeseen kind => "the configuration is not read: " ++ kind
  | .unprintable _ => "a line has no form in UTF-8"
  | .tooDeep => "something is nested too deeply"
  | .path .unencodable => "a path has no form in UTF-8"
  | .path .holdsNull => "a path holds a null character"
  | .path .noHome => "there is no home directory"
  | .noPath => "a path is given without a value"

/-- Runs the command with its arguments; the result is the exit code. -/
def run (arguments : List Text) : IO UInt32 := do
  let env ← environment
  let known ← (CommandLine.reach env arguments ⟨[]⟩).foldlM look ⟨[]⟩
  let tree ← (CommandLine.reach env arguments known).foldlM look known
  let (result, world) := CommandLine.runOn env arguments tree
  IO.print (stringOf world.printed)
  (tree.changes world.files).forM make
  match result with
  | .ok code => return code.toUInt32
  | .error e =>
    IO.eprintln (stringOf (report e))
    return 1

end StringCatalog.Machine

/-- The command. -/
def main (arguments : List String) : IO UInt32 :=
  StringCatalog.Machine.run (arguments.map StringCatalog.Text.ofString)
