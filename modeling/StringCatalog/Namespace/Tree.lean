import StringCatalog.Resource

/-! The tree of namespaces that the keys of resources span. -/

namespace StringCatalog

/-- A namespace with the namespaces in it, by name in ascending order, and its resources, by key in
ascending order whatever the case. -/
inductive NamespaceTree where
  | node (name : Text) (children : List NamespaceTree) (strings : List Resource)

namespace NamespaceTree

/-- The name of the namespace; the root has none. -/
def name : NamespaceTree → Text
  | node n _ _ => n

/-- The namespaces in it. -/
def children : NamespaceTree → List NamespaceTree
  | node _ cs _ => cs

/-- The resources in it. -/
def strings : NamespaceTree → List Resource
  | node _ _ rs => rs

/-- The namespace of a name in it. -/
def child? (tree : NamespaceTree) (n : Text) : Option NamespaceTree :=
  tree.children.find? (·.name == n)

/-- A resource with the components of its key below some namespace. -/
abbrev Item := List Text × Resource

/-- The resource belongs to the namespace itself. -/
def leaf? : Item → Option Resource
  | ([_], r) => some r
  | _ => none

/-- The name of the namespace that the resource is in, inside this one. -/
def group? : Item → Option Text
  | (n :: _ :: _, _) => some n
  | _ => none

/-- The resource seen from the namespace `n`, if it is in it. -/
def under? (n : Text) : Item → Option Item
  | (m :: next :: rest, r) => if m = n then some (next :: rest, r) else none
  | _ => none

/-- Resources in ascending order of their keys in lower case; equal ones keep their order. -/
def sortByKey (rs : List Resource) : List Resource :=
  rs.mergeSort fun a b => Text.le a.key.lower b.key.lower

/-- The namespace of a list of resources, down to the given depth. -/
def grow : Nat → Text → List Item → NamespaceTree
  | 0, n, items => node n [] (sortByKey (items.filterMap leaf?))
  | depth + 1, n, items =>
    node n
      ((Text.sortedDistinct (items.filterMap group?)).map fun m =>
        grow depth m (items.filterMap (under? m)))
      (sortByKey (items.filterMap leaf?))

/-- The tree below the namespace at `path`: resources whose keys have no components beyond the path
are not in it. No component of a key lies deeper than their greatest number. -/
def build (rs : List Resource) (path : List Text) : NamespaceTree :=
  let items := rs.map fun r => (r.components.drop path.length, r)
  grow ((items.map (·.1.length)).foldl max 0) (path.getLastD []) items

/-- Some key has more than so many components below a path, too many for a tree to be built. -/
def isTooDeep (deepest : Nat) (rs : List Resource) (path : List Text) : Bool :=
  rs.any fun r => Nat.blt deepest (r.components.length - path.length)

/-- The tree of all resources. -/
def ofResources (rs : List Resource) : NamespaceTree := build rs []

mutual

/-- The resources with the paths of their namespaces, those of inner namespaces first: the order in
which they are written. -/
def entries (path : List Text) : NamespaceTree → List (List Text × Resource)
  | node _ cs rs => childEntries path cs ++ rs.map (path, ·)
termination_by structural tree => tree

/-- The resources of several namespaces inside the one at a path. -/
def childEntries (path : List Text) : List NamespaceTree → List (List Text × Resource)
  | [] => []
  | c :: rest => c.entries (path ++ [c.name]) ++ childEntries path rest
termination_by structural cs => cs

end

end NamespaceTree

end StringCatalog
