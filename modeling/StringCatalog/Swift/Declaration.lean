import StringCatalog.Resource
import StringCatalog.Swift.AccessLevel
import StringCatalog.Swift.Literal
import StringCatalog.Text.Lines

/-! Swift declarations of the members that give access to resources. -/

namespace StringCatalog.Swift

/-- The choices that shape generated declarations. -/
structure Style where
  accessLevel : AccessLevel
  typeName : Text
  includeDefaultValue : Bool
  indent : Text

/-- The line that closes a member or an enumeration. -/
def closingLine : Text := "\x7d"

/-- The name of the extended type where none is chosen. -/
def defaultTypeName : Text := "LocalizationKey"

/-- The type of a parameter. -/
def typeOf : ArgumentKind → Text
  | .object => "String"
  | .int => "Int"
  | .uint => "UInt"
  | .double => "Double"
  | .char => "CChar"
  | .cstring => "UnsafePointer<CChar>"
  | .pointer => "UnsafeRawPointer"

/-- The documentation of a member: the lines of its text. An empty text has one empty line. -/
def docLines (r : Resource) : List Text :=
  let lines := match Text.lines r.defaultValue.text with
    | [] => [[]]
    | lines => lines
  lines.map fun line => Text.trimEnd ("/// " ++ line)

/-- The arguments of the call that makes the member's value. -/
def callArguments (style : Style) (r : Resource) : Except GenerationError (List Text) := do
  let key := stringLiteral r.key []
  let arguments := if r.hasArguments then
      ["arguments: " ++ Text.bracketed (r.arguments.map (·.name))]
    else []
  if style.includeDefaultValue then
    let literal ← defaultValueLiteral r.defaultValue defaultDelimiter
    .ok (key :: (arguments ++ ["defaultValue: " ++ literal]))
  else .ok (key :: arguments)

/-- The call that makes the member's value. -/
def constructorCall (style : Style) (r : Resource) : Except GenerationError Text := do
  let arguments ← callArguments style r
  .ok (style.typeName ++ "(" ++ Text.join ", " arguments ++ ")")

/-- The line that opens the member: a variable, or a function if there are arguments. -/
def header (style : Style) (r : Resource) : Text :=
  if r.hasArguments then
    style.accessLevel.modifier ++ " static func " ++ r.identifier ++ "(" ++
      Text.join ", " (r.arguments.map fun a => "_ " ++ a.name ++ ": " ++ typeOf a.kind) ++
      ") -> " ++ style.typeName ++ " \x7b"
  else
    style.accessLevel.modifier ++ " static var " ++ r.identifier ++ ": " ++ style.typeName ++
      " \x7b"

/-- The lines of the member. -/
def declaration (style : Style) (r : Resource) : Except GenerationError (List Text) := do
  let call ← constructorCall style r
  .ok (docLines r ++ [header style r, style.indent ++ call, closingLine])

end StringCatalog.Swift
