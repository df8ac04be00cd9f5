import StringCatalog.Workspace.Files

/-! Writing files: a file is replaced as a whole, by way of a temporary file beside it. -/

namespace StringCatalog

/-- An operation that changes a tree of files, also where it fails. -/
abbrev FileJob := ExceptT Failure (StateM FileTree)

namespace FileJob

/-- Makes a directory at the place that a path leads to, unless it is there. -/
def makeDirectory (place : Location) (p : Path) : FileJob Location := do
  let tree ← get
  match tree.at? place with
  | some .directory => return place
  | some (.file _) => throw (.file ⟨.alreadyExists, p⟩)
  | none => do
    set (tree.put place .directory)
    return place

/-- The number of missing directories, one in another, that are made at once. -/
def deepest : Nat := 988

/-- Makes a directory, and those around it that are missing, and tells its place; the first argument
bounds their number. -/
def makeDirectories (directory : Location) : Nat → Path → FileJob Location
  | 0, _ => throw .tooDeep
  | around + 1, p => do
    match (← get).locate directory p with
    | .ok place => makeDirectory place p
    | .error .notFound => do
      let parent ← makeDirectories directory around p.parent
      match (← get).enter parent [p.name] with
      | .ok place => makeDirectory place p
      | .error fault => throw (.file ⟨fault, p⟩)
    | .error fault => throw (.file ⟨fault, p⟩)

/-- Writes a text to a file at a path where no directory is. -/
def create (directory : Location) (p : Path) (text : Text) : FileJob Unit := do
  let tree ← get
  match tree.locate directory p with
  | .error fault => throw (.file ⟨fault, p⟩)
  | .ok place =>
    if tree.at? place = some .directory then throw (.file ⟨.isDirectory, p⟩)
    else match FileTree.encode? text with
      | some bytes => set (tree.put place (.file bytes))
      | none =>
        set (tree.put place (.file ByteArray.empty))
        throw .unencodable

/-- The temporary file beside a file. -/
def temporary (p : Path) : Path := p.withEnding ".tmp"

/-- Puts a file in the place of the one at a path. A directory cannot be replaced, nor anything by
the name of a double dot. -/
def moveTo (directory : Location) (p : Path) (bytes : ByteArray) : FileJob Unit := do
  let tree ← get
  match tree.locate directory p with
  | .error fault => throw (.file ⟨fault, p⟩)
  | .ok place =>
    if p.name = ".." then throw (.file ⟨.busy, p⟩)
    else if tree.at? place = some .directory then throw (.file ⟨.isDirectory, p⟩)
    else set (tree.put place (.file bytes))

/-- Writes a text to a temporary file and puts that in the place of the file at a path. Also if this
fails, the temporary file is there no longer. -/
def replaceFile (directory : Location) (p : Path) (text : Text) : FileJob Unit := do
  let temporary := temporary p
  let tree ← get
  match tree.locate directory temporary with
  | .error fault => throw (.file ⟨fault, temporary⟩)
  | .ok aside =>
    if tree.at? aside = some .directory then throw (.file ⟨.isDirectory, temporary⟩)
    else
      set (tree.remove aside)
      match FileTree.encode? text with
      | none => throw .unencodable
      | some bytes => moveTo directory p bytes

/-- Refuses what is no path. -/
def refuseFault (p : Path) : FileJob Unit :=
  match p.fault? with
  | some fault => throw (.path fault)
  | none => return ()

/-- The file at a path holds the text already. -/
def holdsText (tree : FileTree) (directory : Location) (p : Path) (text : Text) :
    Except Failure Bool := do
  if ← tree.pathExists directory p then (tree.readText directory p).map (· == text)
  else .ok false

/-- Writes a text to a file unless the file holds it already, and tells whether there was something
to write. A dry run only tells. -/
def write (directory : Location) (p : Path) (text : Text) (dryRun : Bool) : FileJob Bool := do
  let tree ← get
  if ← holdsText tree directory p text then return false
  else if dryRun then return true
  else
    refuseFault p.parent
    let _ ← makeDirectories directory deepest p.parent
    refuseFault p
    replaceFile directory p text
    return true

end FileJob

end StringCatalog
