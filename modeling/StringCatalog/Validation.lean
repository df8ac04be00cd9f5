import StringCatalog.GenerationError
import StringCatalog.OrderedMap
import StringCatalog.Path
import StringCatalog.Resource

/-! Checks on the keys of resources before anything is generated from them. -/

namespace StringCatalog

namespace Resource

/-- The keys that occur more than once among the resources of some catalogs, in ascending order,
each with the catalogs in which it occurs, once for each occurrence. -/
def duplicateKeys (catalogs : OrderedMap Text (List Resource)) : List (Text × List Text) :=
  let uses := catalogs.flatMap fun c => c.2.map fun r => (r.key, c.1)
  (Text.sortedDistinct (uses.map (·.1))).filterMap fun key =>
    let names := (uses.filter (·.1 == key)).map (·.2)
    if 2 ≤ names.length then some (key, names) else none

/-- What is wrong with the key of a resource. -/
def keyFault? (r : Resource) : Option GenerationError :=
  if r.key = [] then some (.invalidKey r.key "key is empty")
  else if r.components.any (·.isEmpty) then
    some (.invalidKey r.key "key has an empty component (leading, trailing or double '.')")
  else none

/-- Refuses resources with a key that has an empty component, or with two equal keys. -/
def validate (rs : List Resource) (source : Option Path) : Except GenerationError Unit :=
  match rs.findSome? keyFault? with
  | some e => .error e
  | none =>
    let name := match source with
      | some path => path.display
      | none => "<resources>"
    match duplicateKeys [(name, rs)] with
    | [] => .ok ()
    | found => .error (.duplicateKeys (found.map (·.1)) [name])

end Resource

end StringCatalog
