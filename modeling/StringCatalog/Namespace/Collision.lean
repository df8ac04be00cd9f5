import StringCatalog.GenerationError
import StringCatalog.Namespace.Tree

/-! Collisions: members of one namespace that get the same name in the generated code. -/

namespace StringCatalog

namespace NamespaceTree

/-- The names of the members of a namespace, without backticks, each with what it comes from: the
name of an inner namespace or the key of a resource. -/
def memberNames (cs : List NamespaceTree) (rs : List Resource) : List (Text × Text) :=
  cs.map (fun c => (Swift.bare (Swift.typeIdentifier c.name), c.name)) ++
    rs.map fun r => (Swift.bare r.identifier, r.key)

/-- The collisions among the members of one namespace, by name in ascending order. -/
def collisionsAmong (path : List Text) (members : List (Text × Text)) : List GenerationError :=
  (Text.sortedDistinct (members.map (·.1))).filterMap fun n =>
    let sources := (members.filter (·.1 == n)).map (·.2)
    if 2 ≤ sources.length then some (.namespaceCollision (path ++ [n]) sources) else none

mutual

/-- The collisions in a tree, those of an outer namespace before those of its inner ones. -/
def collisions (path : List Text) : NamespaceTree → List GenerationError
  | node _ cs rs => collisionsAmong path (memberNames cs rs) ++ childCollisions path cs
termination_by structural tree => tree

/-- The collisions in several namespaces inside the one at a path. -/
def childCollisions (path : List Text) : List NamespaceTree → List GenerationError
  | [] => []
  | c :: rest => c.collisions (path ++ [c.name]) ++ childCollisions path rest
termination_by structural cs => cs

end

/-- Refuses a tree with a collision, reporting the first. -/
def check (tree : NamespaceTree) : Except GenerationError Unit :=
  match tree.collisions [] with
  | [] => .ok ()
  | e :: _ => .error e

end NamespaceTree

end StringCatalog
