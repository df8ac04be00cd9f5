import StringCatalog.Text.Basic

/-! Blank characters, and the texts without them at either end. -/

namespace StringCatalog

/-- White space: the controls of layout and separation, the space, and the spaces and separators
beyond ASCII. -/
def isBlank (c : CodePoint) : Bool :=
  let n := c.toNat
  (0x09 ≤ n && n ≤ 0x0D) || (0x1C ≤ n && n ≤ 0x20) || n == 0x85 || n == 0xA0 || n == 0x1680 ||
    (0x2000 ≤ n && n ≤ 0x200A) || n == 0x2028 || n == 0x2029 || n == 0x202F || n == 0x205F ||
    n == 0x3000

namespace Text

/-- The text without blanks at its ends. -/
def trim (text : Text) : Text := trimBy isBlank text

/-- The text without blanks at its end. -/
def trimEnd (text : Text) : Text := trimEndBy isBlank text

/-- A text of blanks only, such as the empty one. -/
def isBlankText (text : Text) : Bool := text.all isBlank

end Text

end StringCatalog
