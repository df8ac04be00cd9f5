import StringCatalog.Text.Printable

/-! Quoted texts, in which every character is visible: the form in which messages show a text. -/

namespace StringCatalog

/-- The quotation mark that a text is put in: the double one only if the text holds a single one and
no double one. -/
def quotationMark (text : Text) : CodePoint :=
  if text.contains '\'' && !text.contains '"' then '"' else '\''

/-- The form of a character between two marks `quote`: the mark and the backslash take a backslash,
the layout controls their letters, and what is not printable its code point in two, four or eight
hexadecimal digits. -/
def quotedChar (quote c : CodePoint) : Text :=
  if c = quote ∨ c = '\\' then ['\\', c]
  else if c = '\n' then "\\n"
  else if c = '\r' then "\\r"
  else if c = '\t' then "\\t"
  else if isPrintable c then [c]
  else if c.toNat < 0x100 then '\\' :: 'x' :: Text.hexOfNat 2 c.toNat
  else if c.toNat < 0x10000 then '\\' :: 'u' :: Text.hexOfNat 4 c.toNat
  else '\\' :: 'U' :: Text.hexOfNat 8 c.toNat

namespace Text

/-- The text between quotation marks. -/
def quoted (text : Text) : Text :=
  let mark := quotationMark text
  mark :: (text.flatMap (quotedChar mark) ++ [mark])

/-- A list of shown items, in brackets. -/
def bracketed (items : List Text) : Text := "[" ++ join ", " items ++ "]"

/-- A list of texts, each quoted. -/
def quotedList (texts : List Text) : Text := bracketed (texts.map quoted)

end Text

end StringCatalog
