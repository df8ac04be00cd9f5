import StringCatalog.Text.Lines

/-! The characters of a YAML text with their places, the blanks and line breaks between tokens, and
the reasons why a text gives no value. -/

namespace StringCatalog.Yaml

/-- Why a text gives no value: it is not in the language, or it holds a scalar of a kind that has no
such value, as a number that is too long or a day that no calendar has, or a number beyond the range
of its kind, or collections nested too deeply. -/
inductive ReadError where
  | malformed
  | noValue
  | outOfRange
  | tooDeep
  deriving DecidableEq, Repr

/-- A character at its place. -/
structure Located where
  char : CodePoint
  index : Nat
  line : Nat
  column : Nat

/-- Line breaks: a carriage return with a line feed behind it counts once. -/
def isBreak (c : CodePoint) : Bool :=
  let n := c.toNat
  n == 0x0A || n == 0x0D || n == 0x85 || n == 0x2028 || n == 0x2029

/-- A blank that does not end a line. -/
def isSpaceOrTab (c : CodePoint) : Bool := c == ' ' || c == '\t'

/-- The byte order mark, which takes no column. -/
def byteOrderMark : CodePoint := '\uFEFF'

/-- The characters of a text with their places, from the given one on. -/
def locate (index line column : Nat) : Text → List Located
  | [] => []
  | c :: s =>
    ⟨c, index, line, column⟩ ::
      (if isBreak c && !(c == '\r' && s.head? == some '\n') then locate (index + 1) (line + 1) 0 s
      else if c = byteOrderMark then locate (index + 1) line column s
      else locate (index + 1) line (column + 1) s)

/-- Characters that may occur in a document. -/
def isAllowed (c : CodePoint) : Bool :=
  let n := c.toNat
  n == 0x09 || n == 0x0A || n == 0x0D || (0x20 ≤ n && n ≤ 0x7E) || n == 0x85 ||
    (0xA0 ≤ n && n ≤ 0xD7FF) || (0xE000 ≤ n && n ≤ 0xFFFD) || 0x10000 ≤ n

/-- Nothing follows, or a blank or a line break does. -/
def endsWord : List Located → Bool
  | [] => true
  | l :: _ => isSpaceOrTab l.char || isBreak l.char

/-- The first character is the given one. -/
def startsWith (c : CodePoint) : List Located → Bool
  | [] => false
  | l :: _ => l.char == c

/-- Three times the given character, as a word. -/
def isTriple (c : CodePoint) (s : List Located) : Bool :=
  (s.take 3).map (·.char) == [c, c, c] && endsWord (s.drop 3)

/-- A mark between documents: three hyphens or three dots. -/
def isDocumentMark (s : List Located) : Bool := isTriple '-' s || isTriple '.' s

/-- Skips spaces, comments and line breaks, and tells whether there was a line break. -/
def skipBlanks (inComment : Bool) : List Located → Bool × List Located
  | [] => (false, [])
  | l :: s =>
    if isBreak l.char then (true, (skipBlanks false s).2)
    else if inComment then skipBlanks true s
    else if l.char = ' ' then skipBlanks false s
    else if l.char = '#' then skipBlanks true s
    else (false, l :: s)

/-- The line break at the beginning, as the character that stands for it. -/
def lineBreak? : List Located → Option (CodePoint × List Located)
  | [] => none
  | l :: s =>
    if l.char = '\r' ∧ startsWith '\n' s then some ('\n', s.tail)
    else if isBreak l.char then
      some (if l.char.toNat < 0x100 then '\n' else l.char, s)
    else none

/-- The line breaks among blanks of a class, behind a first one, and whether a mark between
documents ends them; `fresh` says that a line begins here. -/
def breaks (isSkipped : CodePoint → Bool) (fresh : Bool) : List Located → Text × Bool × List Located
  | [] => ([], false, [])
  | l :: s =>
    if fresh && isDocumentMark (l :: s) then ([], true, l :: s)
    else if isBreak l.char then
      if l.char = '\r' ∧ startsWith '\n' s then breaks isSkipped false s
      else
        let (more, marked, rest) := breaks isSkipped true s
        ((if l.char.toNat < 0x100 then '\n' else l.char) :: more, marked, rest)
    else if isSkipped l.char then breaks isSkipped false s
    else ([], false, l :: s)

/-- What line breaks inside a scalar stand for: a single line feed is a space, and of several the
first is dropped. -/
def folded (first : CodePoint) (more : Text) : Text :=
  if first ≠ '\n' then first :: more else if more = [] then " " else more

end StringCatalog.Yaml
