import StringCatalog.Format.Argument

/-! Swift string literals, plain and raw, and literals with interpolated arguments. -/

namespace StringCatalog.Swift

/-- The characters that Swift takes for a line break, which no literal of one line may hold. -/
def isLiteralBreak (c : CodePoint) : Bool :=
  let n := c.toNat
  (0x0A ≤ n && n ≤ 0x0D) || n == 0x85 || n == 0x2028 || n == 0x2029

/-- The character is written as an escape: line breaks and ASCII controls are, but a tab stands for
itself in a literal of several lines. -/
def needsEscaping (c : CodePoint) (multiline : Bool) : Bool :=
  isLiteralBreak c ||
    (if c.toNat < 0x20 ∨ c.toNat = 0x7F then !(c == '\t' && multiline) else false)

/-- What follows the backslash and the delimiter in the escape of a character. -/
def escapeCode (c : CodePoint) : Text :=
  if c = '\r' then "r"
  else if c = '\n' then "n"
  else if c = '\t' then "t"
  else if c = '\x00' then "0"
  else "u\x7b" ++ Text.hexOfNat 1 c.toNat ++ "\x7d"

/-- A character inside a literal. -/
def escapeChar (delimiter : Text) (multiline : Bool) (c : CodePoint) : Text :=
  if needsEscaping c multiline then '\\' :: (delimiter ++ escapeCode c) else [c]

/-- The text with line breaks and controls escaped, and all else unchanged. -/
def escape (text delimiter : Text) (multiline : Bool) : Text :=
  text.flatMap (escapeChar delimiter multiline)

/-- The text would end or escape a raw literal with this delimiter. -/
def breaksDelimiter (text delimiter : Text) : Bool :=
  Text.hasInfix ('"' :: delimiter) text || Text.hasInfix ('\\' :: delimiter) text

/-- Lengthens a delimiter by number signs until the text cannot end or escape a literal with it, or
the count of tries is used up. -/
def lengthen (text : Text) : Nat → Text → Text
  | 0, delimiter => delimiter
  | tries + 1, delimiter =>
    if breaksDelimiter text delimiter then lengthen text tries (delimiter ++ "#") else delimiter

/-- The shortest delimiter for a raw literal of the text that begins with `minimum`. A delimiter as
long as the text is never in it behind another character, so the tries suffice. -/
def rawDelimiter (text minimum : Text) : Text := lengthen text text.length minimum

/-- A literal of the text: raw with the given delimiter or a longer one, or plain, with backslashes
and quotation marks escaped, if the delimiter is empty. -/
def stringLiteral (text : Text) : Text → Text
  | [] =>
    let body := Text.replace "\"" "\\\"" (Text.replace "\\" "\\\\" text)
    "\"" ++ escape body [] false ++ "\""
  | minimum =>
    let delimiter := rawDelimiter text minimum
    delimiter ++ "\"" ++ escape text delimiter false ++ "\"" ++ delimiter

/-- The delimiter of default values, unless the text asks for a longer one. -/
def defaultDelimiter : Text := "###"

/-- The inside of a literal that shows a template: literals escaped, and for each placeholder the
interpolation of the argument in its slot. -/
def interpolate (delimiter : Text) : Template → List Slotted → Text
  | [], _ => []
  | .literal text :: rest, slots =>
    escape (rendered text) delimiter false ++ interpolate delimiter rest slots
  | .placeholder _ :: rest, (_, slot) :: slots =>
    "\\" ++ delimiter ++ "(" ++ Argument.nameAt slot ++ ")" ++ interpolate delimiter rest slots
  | .placeholder _ :: rest, [] => interpolate delimiter rest []

/-- A raw literal that shows a template with its arguments interpolated. -/
def defaultValueLiteral (t : Template) (minimum : Text) : Except GenerationError Text := do
  let delimiter := rawDelimiter t.renderedLiterals.flatten minimum
  let slots ← t.slots []
  .ok (delimiter ++ "\"" ++ interpolate delimiter t slots ++ "\"" ++ delimiter)

end StringCatalog.Swift
