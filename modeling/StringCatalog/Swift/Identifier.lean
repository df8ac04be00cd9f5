import StringCatalog.Text.Alphanumeric
import StringCatalog.Text.Digit
import StringCatalog.Text.LetterCase

/-! Swift identifiers made from the components of a key. -/

namespace StringCatalog.Swift

/-- Reserved words, which need backticks where an identifier is wanted. -/
def keywords : List Text :=
  (["associatedtype", "class", "deinit", "enum", "extension", "fileprivate", "func",
    "import", "init", "inout", "internal", "let", "open", "operator", "private",
    "precedencegroup", "protocol", "public", "rethrows", "static", "struct", "subscript",
    "typealias", "var", "break", "case", "catch", "continue", "default", "defer", "do",
    "else", "fallthrough", "for", "guard", "if", "in", "repeat", "return", "throw",
    "switch", "where", "while", "Any", "as", "await", "false", "is", "nil", "self",
    "Self", "super", "throws", "true", "try", "package"] : List String).map Text.ofString

/-- The backtick, which encloses a keyword that serves as an identifier. -/
def backtick : CodePoint := '\x60'

/-- The words of a component: its runs of letters and numerals. -/
def words (component : Text) : List Text :=
  (Text.splitWhere (!isAlphanumeric ·) component).filter (!·.isEmpty)

/-- Makes an identifier of joined words: an underscore stands for nothing and comes before a digit,
and a keyword is enclosed in backticks. -/
def quoteIfNeeded : Text → Text
  | [] => "_"
  | c :: rest =>
    if isAnyDigit c then '_' :: c :: rest
    else if keywords.contains (c :: rest) then backtick :: c :: (rest ++ [backtick])
    else c :: rest

/-- The name of a member: the words joined, the first one with a small and the others with a capital
first letter. -/
def variableIdentifier (component : Text) : Text :=
  match words component with
  | [] => quoteIfNeeded []
  | first :: rest => quoteIfNeeded (first.lowerFirst ++ rest.flatMap Text.upperFirst)

/-- The name of a nested type: the words joined, all but the first one with a capital first
letter. -/
def typeIdentifier (component : Text) : Text :=
  match words component with
  | [] => quoteIfNeeded []
  | first :: rest => quoteIfNeeded (first ++ rest.flatMap Text.upperFirst)

/-- An identifier without enclosing backticks, as names are compared. -/
def bare (identifier : Text) : Text := Text.trimBy (· == backtick) identifier

end StringCatalog.Swift
