import StringCatalog.Path

/-! Trees of files and directories, and what a path leads to in them. -/

namespace StringCatalog

/-- The place of a file or directory: the names from the root to it. -/
abbrev Location := List Text

/-- What is at a place. -/
inductive FileNode where
  | file (bytes : ByteArray)
  | directory

/-- Files are equal if their bytes are. -/
instance : DecidableEq FileNode
  | .file a, .file b => decidable_of_iff (a.data = b.data)
    ⟨fun h => congrArg FileNode.file (ByteArray.ext h), fun h => by injection h with h; rw [h]⟩
  | .directory, .directory => isTrue rfl
  | .file _, .directory => isFalse nofun
  | .directory, .file _ => isFalse nofun

/-- What keeps an operation on files from being done. -/
inductive FileFault where
  | notFound
  | busy
  | alreadyExists
  | notDirectory
  | isDirectory
  | nameTooLong
  deriving DecidableEq, Repr

namespace FileFault

/-- The number of a fault and its words. -/
def text : FileFault → Text
  | notFound => "[Errno 2] No such file or directory"
  | busy => "[Errno 16] Device or resource busy"
  | alreadyExists => "[Errno 17] File exists"
  | notDirectory => "[Errno 20] Not a directory"
  | isDirectory => "[Errno 21] Is a directory"
  | nameTooLong => "[Errno 36] File name too long"

end FileFault

/-- The files and directories below the root, each at its place. -/
structure FileTree where
  nodes : List (Location × FileNode)

namespace FileTree

/-- What is at a place; the root is a directory. -/
def at? (tree : FileTree) (place : Location) : Option FileNode :=
  if place = [] then some .directory else tree.nodes.lookup place

/-- The tree with nothing at a place. -/
def remove (tree : FileTree) (place : Location) : FileTree :=
  ⟨tree.nodes.filter (·.1 != place)⟩

/-- The tree with a file or directory at a place. -/
def put (tree : FileTree) (place : Location) (node : FileNode) : FileTree :=
  ⟨(place, node) :: (tree.remove place).nodes⟩

/-- The number of bytes of a text in UTF-8. -/
def byteCount (t : Text) : Nat := t.foldl (fun n c => n + c.byteCount) 0

/-- The greatest number of bytes in a name. -/
def longestName : Nat := 255

/-- The greatest number of bytes in a path. -/
def longestPath : Nat := 4095

/-- Follows names from a place. Each step starts from a directory, and a double dot leads out of
it; the last name need not be there. -/
def enter (tree : FileTree) : Location → List Text → Except FileFault Location
  | here, [] => .ok here
  | here, name :: rest =>
    match tree.at? here with
    | none => .error .notFound
    | some (.file _) => .error .notDirectory
    | some .directory =>
      if name = ".." then tree.enter here.dropLast rest
      else if longestName < byteCount name then .error .nameTooLong
      else tree.enter (here ++ [name]) rest

/-- The place that a path leads to from a directory. -/
def locate (tree : FileTree) (directory : Location) (p : Path) : Except FileFault Location :=
  if longestPath < byteCount p.display then .error .nameTooLong
  else tree.enter (if p.isAbsolute then [] else directory) p.parts

/-- What a path leads to. -/
def find? (tree : FileTree) (directory : Location) (p : Path) : Option FileNode :=
  match tree.locate directory p with
  | .ok place => tree.at? place
  | .error _ => none

end FileTree

end StringCatalog
