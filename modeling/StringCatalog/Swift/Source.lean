import StringCatalog.Namespace.Collision
import StringCatalog.Swift.Declaration

/-! Swift source files: an extension of a type, with nested enumerations for namespaces and static
members for resources. -/

namespace StringCatalog.Swift

/-- A line one level deeper; an empty line stays empty. -/
def indented (indent line : Text) : Text := if line = [] then [] else indent ++ line

/-- The lines of blocks, with an empty line between neighbours. -/
def separated : List (List Text) → List Text
  | [] => []
  | [block] => block
  | block :: rest => block ++ [] :: separated rest

/-- The line that opens the enumeration of a namespace. -/
def enumHeader (style : Style) (name : Text) : Text :=
  style.accessLevel.modifier ++ " enum " ++ typeIdentifier name ++ " \x7b"

mutual

/-- The lines of the members of a namespace: its inner namespaces first, then its resources. -/
def memberLines (style : Style) : NamespaceTree → Except GenerationError (List Text)
  | .node _ cs rs => do
    let enums ← enumBlocks style cs
    let members ← rs.mapM (declaration style)
    .ok (separated (enums ++ members))
termination_by structural tree => tree

/-- The enumerations of several namespaces, each as its lines. -/
def enumBlocks (style : Style) : List NamespaceTree → Except GenerationError (List (List Text))
  | [] => .ok []
  | c :: rest => do
    let body ← memberLines style c
    let later ← enumBlocks style rest
    .ok ((enumHeader style c.name :: (body.map (indented style.indent) ++ [closingLine])) :: later)
termination_by structural cs => cs

end

/-- The lines of a file before and after the members, for a table of the given name. -/
def fileLines (style : Style) (table : Text) (body : List Text) : List Text :=
  let opening : List Text := ["// swiftlint:disable all", [],
    "// Generated using xcstrings_gen from " ++ table ++ ".xcstrings", [], "import Foundation", [],
    "extension " ++ style.typeName ++ " \x7b"]
  let closing : List Text := [closingLine, [], "// swiftlint:enable all", []]
  opening ++ body.map (indented style.indent) ++ closing

/-- The source file for the resources of a tree. Nothing is written if names collide. -/
def sourceOfTree (style : Style) (table : Text) (tree : NamespaceTree) :
    Except GenerationError Text := do
  tree.check
  let body ← memberLines style tree
  .ok (Text.join "\n" (fileLines style table body))

/-- The source file for resources, of which no key may have more than so many components. -/
def source (deepest : Nat) (style : Style) (table : Text) (rs : List Resource) :
    Except GenerationFailure Text :=
  if NamespaceTree.isTooDeep deepest rs [] then .error .tooDeep
  else (sourceOfTree style table (.ofResources rs)).mapError .generation

end StringCatalog.Swift
