import StringCatalog.Text.Basic

/-! The lines of a text. -/

namespace StringCatalog

/-- Characters that end a line; a carriage return with a line feed after it ends one line, not
two. -/
def isLineBreak (c : CodePoint) : Bool :=
  let n := c.toNat
  (0x0A ≤ n && n ≤ 0x0D) || (0x1C ≤ n && n ≤ 0x1E) || n == 0x85 || n == 0x2028 || n == 0x2029

namespace Text

/-- The lines of a text, without their breaks. A break at the end starts no further line. -/
def lines : Text → List Text
  | [] => []
  | .char '\r' :: .char '\n' :: s => [] :: lines s
  | c :: s =>
    if isLineBreak c then [] :: lines s
    else match lines s with
      | [] => [[c]]
      | line :: rest => (c :: line) :: rest

/-- The text with every carriage return, alone or before a line feed, turned into a line feed. -/
def unifyNewlines : Text → Text
  | [] => []
  | .char '\r' :: .char '\n' :: s => '\n' :: unifyNewlines s
  | c :: s => (if c = '\r' then '\n' else c) :: unifyNewlines s

end Text

end StringCatalog
