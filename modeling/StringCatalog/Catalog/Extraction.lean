import StringCatalog.Catalog.Basic
import StringCatalog.Resource

/-! Extraction: from the entries of a catalog to resources, with what is to be said about those that
give none. -/

namespace StringCatalog

/-- How serious an issue is. -/
inductive IssueLevel where
  | info
  | warn
  | error
  deriving DecidableEq, Repr

/-- What an issue is about. -/
inductive IssueCode where
  | typeConflict
  | positionGap
  | substitutionOverlap
  | staleKey
  deriving DecidableEq, Repr

/-- Something to be said about a key of a catalog. -/
structure Issue where
  level : IssueLevel
  code : IssueCode
  message : Text
  key : Text
  path : Option Path
  deriving DecidableEq

/-- The resources of a catalog, and the issues with the entries that gave none. -/
structure Extraction where
  resources : List Resource
  issues : List Issue
  deriving DecidableEq

namespace Extraction

/-- No issue is an error. -/
def isOk (x : Extraction) : Bool := x.issues.all (·.level != .error)

/-- The keys of the resources. -/
def keys (x : Extraction) : List Text := x.resources.map (·.key)

/-- The number of issues of a level. -/
def count (x : Extraction) (level : IssueLevel) : Nat := (x.issues.filter (·.level == level)).length

end Extraction

namespace CatalogEntry

/-- Some specifier of the texts has a position. Specifiers are looked at from left to right up to
the first that has one, which must have a value. -/
def usesPositions (texts : List Text) : Except GenerationFailure Bool :=
  match (texts.flatMap fun t => Piece.specifiers (Piece.split t)).find? (·.numeral.isSome) with
  | none => .ok false
  | some s => if s.isOverlong then .error .numeralTooLong else .ok true

/-- The map that gives each substitution its primary text. -/
def primaryMap (e : CatalogEntry) (positional : Bool) : SubstitutionMap :=
  e.substitutions.foldl (fun map s =>
    match s.primary? positional with
    | some text => OrderedMap.put map s.name text
    | none => map) []

/-- A text of a substitution is tried in a map of its own. Where arguments are numbered by place, a
text without `%arg` takes none, and alone it would shift the others. -/
def isEligible (positional : Bool) (raw : Text) : Bool :=
  positional || Text.hasInfix Substitution.argToken raw

/-- The maps with one substitution on another text than its primary one. -/
def alternatives (e : CatalogEntry) (positional : Bool) (primary : SubstitutionMap) :
    List SubstitutionMap :=
  e.substitutions.flatMap fun s =>
    (s.variations.filter (isEligible positional ·.2)).filterMap fun v =>
      let text := s.resolve positional v.2
      if OrderedMap.get? primary s.name = some text then none
      else some (OrderedMap.put primary s.name text)

/-- The substitution maps with which the texts of an entry are scanned: the primary one first, then
each that differs from it in one substitution. -/
def substitutionMaps (e : CatalogEntry) : Except GenerationFailure (List SubstitutionMap) := do
  let positional ← usesPositions e.baseTexts
  let primary := e.primaryMap positional
  .ok (primary :: (e.alternatives positional primary)).eraseDups

/-- The templates of an entry: every text with every substitution map, each pair once. -/
def variants (e : CatalogEntry) : Except GenerationFailure (List Template) := do
  let maps ← e.substitutionMaps
  let pairs := (e.baseTexts.flatMap fun text => maps.map fun subs => (text, subs)).eraseDups
  pairs.mapM fun pair => Template.scan pair.1 pair.2

/-- The resource of an entry. -/
def toResource (e : CatalogEntry) : Except GenerationFailure Resource := do
  let maps ← e.substitutionMaps
  let variants ← e.variants
  let arguments ← (Argument.reconcile variants e.key).mapError .generation
  let defaultValue ← Template.scan e.defaultText (maps.headD [])
  let components := Resource.keyComponents e.key
  .ok ⟨e.key, Resource.identifierOf components, components, defaultValue, arguments, e.comment⟩

end CatalogEntry

namespace Issue

/-- The code of a generation error. -/
def codeOf : GenerationError → IssueCode
  | .typeConflict .. | .positionCollision .. => .typeConflict
  | .gap .. => .positionGap
  | _ => .substitutionOverlap

/-- The message of a generation error, with the key in front where the error does not name it. -/
def messageOf (key : Text) : GenerationError → Text
  | e@(.substitutionOverlap ..) => "'" ++ key ++ "': " ++ e.message
  | e => e.message

/-- The issue of an entry that has no resource. -/
def ofError (path : Option Path) (key : Text) (e : GenerationError) : Issue :=
  ⟨.error, codeOf e, messageOf key e, key, path⟩

/-- The issue of an entry that is left out because it is stale. -/
def ofStale (path : Option Path) (key : Text) : Issue :=
  ⟨.info, .staleKey, "'" ++ key ++ "': stale，已跳过", key, path⟩

end Issue

namespace Catalog

/-- What an entry comes to: an issue or a resource. A generation error is an issue, unless the
extraction is strict. -/
def extractEntry (path : Option Path) (strict skipStale : Bool) (e : CatalogEntry) :
    Except GenerationFailure (Issue ⊕ Resource) :=
  if skipStale && e.isStale then .ok (.inl (.ofStale path e.key))
  else match e.toResource with
    | .ok r => .ok (.inr r)
    | .error (.generation error) =>
      if strict then .error (.generation error) else .ok (.inl (.ofError path e.key error))
    | .error failure => .error failure

/-- The resources and issues of all entries, in the order of the catalog. -/
def extract (c : Catalog) (strict skipStale : Bool) : Except GenerationFailure Extraction := do
  let found ← c.entries.mapM (extractEntry c.path strict skipStale)
  .ok ⟨found.filterMap Sum.getRight?, found.filterMap Sum.getLeft?⟩

end Catalog

end StringCatalog
