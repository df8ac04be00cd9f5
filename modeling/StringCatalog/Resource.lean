import StringCatalog.Format.Argument
import StringCatalog.Swift.Identifier

/-! Resources: keys with all that their generated members need. -/

namespace StringCatalog

/-- A key with the name of its member, the namespaces it is in, its text and its arguments. -/
structure Resource where
  key : Text
  identifier : Text
  components : List Text
  defaultValue : Template
  arguments : List Argument
  comment : Option Text
  deriving DecidableEq

namespace Resource

/-- The parts of a key between its dots. -/
def keyComponents (key : Text) : List Text := Text.splitAt '.' key

/-- The name of the member for a key with the given components. -/
def identifierOf (components : List Text) : Text :=
  Swift.variableIdentifier (components.getLastD [])

/-- The member takes arguments. -/
def hasArguments (r : Resource) : Bool := !r.arguments.isEmpty

end Resource

end StringCatalog
