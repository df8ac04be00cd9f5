import StringCatalog.Json.Reader
import StringCatalog.Workspace.Failure
import StringCatalog.Config.Reader

/-! Reading texts, catalogs and configurations from the files of a tree. -/

namespace StringCatalog

/-- What a run finds around it: the directory that it is started in, the home directories of users,
of which that without a name is the one who runs it, the access level that the environment sets, the
reader of configuration documents, and the number of calls that may be open at once. -/
structure Environment where
  directory : Path
  homeOf : Text → Option Path
  accessLevel : Option Text
  readDocument : Text → Except DocumentFault Value
  calls : Nat

namespace Environment

/-- The number of lists and objects that may be nested in a catalog where so many calls are open
around its reading. Four more calls lead to the outermost value, and one to each value inside it. -/
def nesting (env : Environment) (around : Nat) : Nat := env.calls - (around + 4)

/-- The number of components that a key may have where so many calls are open around the building of
the tree. Every namespace takes two calls, and the innermost one two more. -/
def components (env : Environment) (around : Nat) : Nat := (env.calls - (around + 2)) / 2

/-- The place of the directory. -/
def place (env : Environment) : Location := env.directory.parts

/-- A path made absolute from a directory. -/
def resolve (directory p : Path) : Except Failure Path := (directory.resolve p).mapError .path

end Environment

namespace FileTree

/-- The text of bytes in UTF-8. -/
def decode? (bytes : ByteArray) : Option Text := (String.fromUTF8? bytes).map Text.ofString

/-- The bytes of a text in UTF-8, which has none for halves of pairs. -/
def encode? (text : Text) : Option ByteArray := text.toString?.map String.toUTF8

/-- A path leads to something. This is not known of a path that is too long to be looked up. -/
def pathExists (tree : FileTree) (directory : Location) (p : Path) : Except Failure Bool :=
  if p.fault?.isSome then .ok false
  else match tree.locate directory p with
    | .ok place => .ok (tree.at? place).isSome
    | .error .nameTooLong => .error (.file ⟨.nameTooLong, p⟩)
    | .error _ => .ok false

/-- The text of a file; all its line ends are line feeds. -/
def readText (tree : FileTree) (directory : Location) (p : Path) : Except Failure Text :=
  match tree.locate directory p with
  | .error fault => .error (.file ⟨fault, p⟩)
  | .ok place => match tree.at? place with
    | none => .error (.file ⟨.notFound, p⟩)
    | some .directory => .error (.file ⟨.isDirectory, p⟩)
    | some (.file bytes) => match decode? bytes with
      | some text => .ok text.unifyNewlines
      | none => .error .undecodable

/-- The JSON value of a file, in which so many lists and objects may be nested. What keeps the file
from being read as JSON is an error of the catalog. -/
def readJson (tree : FileTree) (deepest : Nat) (directory : Location) (p : Path) :
    Except Failure Json :=
  match tree.readText directory p with
  | .error (.file e) => .error (.catalog (.unreadable p e.message))
  | .error .undecodable => .error (.catalog (.unreadable p "not in UTF-8"))
  | .error e => .error e
  | .ok text => match Json.ofText deepest text with
    | .ok value => .ok value
    | .error .malformed => .error (.catalog (.unreadable p "not in JSON"))
    | .error .numeralTooLong => .error .numeralTooLong
    | .error .tooDeep => .error .tooDeep

/-- The catalog in a file. -/
def readCatalog (tree : FileTree) (deepest : Nat) (directory : Location) (p : Path) :
    Except Failure Catalog := do
  if ← tree.pathExists directory p then
    let value ← tree.readJson deepest directory p
    (Catalog.ofJson value (some p)).mapError .catalog
  else .error (.catalog (.missing p))

/-- The members of the document in a configuration file; an empty document has none. -/
def readMembers (tree : FileTree) (env : Environment) (p : Path) :
    Except Failure (List (Value × Value)) := do
  if ← tree.pathExists env.place p then
    let text ← tree.readText env.place p
    match env.readDocument text with
    | .ok .null => .ok []
    | .ok (.mapping members) => .ok members
    | .ok _ => .error (.config .notMapping)
    | .error (.malformed reason) => .error (.config (.malformed p reason))
    | .error (.unforeseen kind) => .error (.unforeseen kind)
  else .error (.config (.missing p))

/-- The configuration in a file, for the project at `root`, or else in the directory of the file. -/
def readConfig (tree : FileTree) (env : Environment) (p : Path) (root : Option Path) :
    Except Failure Config := do
  let p ← Environment.resolve env.directory p
  let root ← Environment.resolve env.directory (root.getD p.parent)
  let members ← tree.readMembers env p
  match Config.ofMembers env.homeOf root members with
  | .ok config => .ok config
  | .error (.fault fault) => .error (.config (.invalid p fault))
  | .error .numeralTooLong => .error .numeralTooLong
  | .error (.path fault) => .error (.path fault)

end FileTree

end StringCatalog
