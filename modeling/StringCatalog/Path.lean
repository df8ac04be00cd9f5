import StringCatalog.Text.Basic

/-! Paths as written: a root of no, one or two slashes, and the names between slashes. -/

namespace StringCatalog

/-- What keeps a text from being a path: half of a pair that stands for no byte, a null character,
or a tilde for a user without a home directory. -/
inductive PathFault where
  | unencodable
  | holdsNull
  | noHome
  deriving DecidableEq, Repr

/-- The fault of a text as a path in any file system, of which halves come first. -/
def PathFault.of? (t : Text) : Option PathFault :=
  if t.any fun c => c.char?.isNone && !c.isByte then some unencodable
  else if t.contains '\x00' then some holdsNull
  else none

/-- A path. Empty names and single dots are left out of its parts. -/
structure Path where
  root : Text
  parts : List Text
  deriving DecidableEq

namespace Path

/-- The root of a path: exactly two slashes at the beginning are kept, more count as one. -/
def rootOf : Text → Text
  | .char '/' :: .char '/' :: .char '/' :: _ => "/"
  | .char '/' :: .char '/' :: _ => "//"
  | .char '/' :: _ => "/"
  | _ => []

/-- The path that a text denotes. -/
def ofText (s : Text) : Path :=
  ⟨rootOf s, (Text.splitAt '/' s).filter fun p => !p.isEmpty && p != "."⟩

/-- The path as text; the path without a part is a dot. -/
def display (p : Path) : Text :=
  match p.root ++ Text.join "/" p.parts with
  | [] => "."
  | s => s

/-- The path begins at a root. -/
def isAbsolute (p : Path) : Bool := !p.root.isEmpty

/-- The second path as seen from the first. -/
def append (base p : Path) : Path :=
  if p.isAbsolute then p else ⟨base.root, base.parts ++ p.parts⟩

/-- The path without its last part. -/
def parent (p : Path) : Path := ⟨p.root, p.parts.dropLast⟩

/-- The last part. -/
def name (p : Path) : Text := p.parts.getLastD []

/-- The path beside this one whose last part has more text at its end. -/
def withEnding (p : Path) (ending : Text) : Path :=
  ⟨p.root, p.parts.dropLast ++ [p.name ++ ending]⟩

/-- A name without its extension: the last dot and what follows it, unless the dot comes first or
last. -/
def stemOf (name : Text) : Text :=
  let extension := Text.afterLast '.' name
  let stem := name.take (name.length - extension.length - 1)
  if extension = [] ∨ stem = [] then name else stem

/-- The last part without its extension. -/
def stem (p : Path) : Text := stemOf p.name

/-- The path with a home directory in place of its first part, if that begins with a tilde. Behind
the tilde is the name of the user, and no name where the user is the one who asks. -/
def expandHome (homeOf : Text → Option Path) (p : Path) : Except PathFault Path :=
  match p.parts with
  | (.char '~' :: user) :: rest =>
    if p.isAbsolute then .ok p
    else match PathFault.of? user with
      | some fault => .error fault
      | none => match homeOf user with
        | some home => .ok ⟨home.root, home.parts ++ rest⟩
        | none => .error .noHome
  | _ => .ok p

/-- The parts with every double dot and the part before it taken away. -/
def collapse (parts : List Text) : List Text :=
  parts.foldl (fun done (p : Text) => if p = ".." then done.dropLast else done ++ [p]) []

/-- The places on the way along an absolute path, and the one that it leads to. -/
def steps (p : Path) : List (List Text) :=
  (List.range p.parts.length).map fun n => collapse (p.parts.take (n + 1))

/-- What keeps the path from leading anywhere. -/
def fault? (p : Path) : Option PathFault := PathFault.of? p.display

/-- The absolute path from a directory, without double dots and with a single slash as its root. Of
several faults that of the first part counts. -/
def resolve (directory p : Path) : Except PathFault Path :=
  let whole := directory.append p
  match whole.parts.findSome? PathFault.of? with
  | some fault => .error fault
  | none => .ok ⟨"/", collapse whole.parts⟩

end Path

end StringCatalog
