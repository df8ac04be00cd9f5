import StringCatalog.Format.Kind
import StringCatalog.Text.Digit

/-! Format specifiers: a percent sign, then optionally the position of an argument, a flag, a width
and a precision of one digit each, and then a conversion with a length modifier where it is an
integer. No specifier extends another one, so reading from left to right needs no look-back. -/

namespace StringCatalog

/-- A conversion: a letter that stands for a kind, and the modifier before it. -/
structure Conversion where
  modifier : Text
  letter : CodePoint
  classified : (ArgumentKind.ofLetter? letter).isSome
  deriving DecidableEq

namespace Conversion

/-- The kind of argument that the conversion takes. -/
def kind (c : Conversion) : ArgumentKind := (ArgumentKind.ofLetter? c.letter).get c.classified

/-- The conversion as written. -/
def text (c : Conversion) : Text := c.modifier ++ [c.letter]

/-- The length modifiers, each before those it extends. -/
def modifiers : List Text := ["hh", "h", "ll", "l", "q", "z", "t", "j", ""]

/-- The letters that take a length modifier. -/
def isIntegerLetter (c : CodePoint) : Bool :=
  c == 'd' || c == 'i' || c == 'o' || c == 'u' || c == 'x'

/-- The conversion of one letter, behind a modifier. -/
def ofLetter? (modifier : Text) (letter : CodePoint) : Option Conversion :=
  if h : (ArgumentKind.ofLetter? letter).isSome then some ⟨modifier, letter, h⟩ else none

/-- Reads an integer conversion behind one of the modifiers. -/
def readInteger? (modifier s : Text) : Option (Conversion × Text) :=
  if modifier.isPrefixOf s then
    match s.drop modifier.length with
    | c :: rest => if isIntegerLetter c then (ofLetter? modifier c).map (·, rest) else none
    | [] => none
  else none

/-- Reads a conversion: an integer one, or one of the letters that take no modifier. -/
def read? (s : Text) : Option (Conversion × Text) :=
  match modifiers.findSome? (readInteger? · s) with
  | some found => some found
  | none => match s with
    | c :: rest => (ofLetter? [] c).map (·, rest)
    | [] => none

end Conversion

/-- A format specifier, part by part. The position is kept as its numeral. -/
structure Specifier where
  numeral : Option Text
  flag : Option CodePoint
  width : Option CodePoint
  precision : Option CodePoint
  conversion : Conversion
  deriving DecidableEq

namespace Specifier

/-- The characters that may stand as a flag. -/
def isFlag (c : CodePoint) : Bool := c == '-' || c == '+' || c == '#' || c == ' ' || c == '0'

/-- The specifier as written. -/
def text (s : Specifier) : Text :=
  '%' :: ((match s.numeral with
    | some digits => digits ++ "$"
    | none => []) ++ s.flag.toList ++ s.width.toList ++
    (match s.precision with
    | some digit => ['.', digit]
    | none => []) ++ s.conversion.text)

/-- The kind of argument that the specifier takes. -/
def kind (s : Specifier) : ArgumentKind := s.conversion.kind

/-- The position, if one is given. -/
def position (s : Specifier) : Option Nat := s.numeral.map Text.toNat

/-- The position is given by a numeral that is too long to have a value. -/
def isOverlong (s : Specifier) : Bool :=
  match s.numeral with
  | some digits => Nat.blt longestNumeral digits.length
  | none => false

/-- Reads a position: digits, not all of them zeros, and a dollar sign. -/
def readPosition (s : Text) : Option Text × Text :=
  let digits := s.takeWhile isAsciiDigit
  match s.dropWhile isAsciiDigit with
  | .char '$' :: rest => if digits.any (· != '0') then (some digits, rest) else (none, s)
  | _ => (none, s)

/-- Reads one character of a class, if there is one. -/
def readOne (p : CodePoint → Bool) : Text → Option CodePoint × Text
  | c :: rest => if p c then (some c, rest) else (none, c :: rest)
  | [] => (none, [])

/-- Reads a precision: a point and a digit. -/
def readPrecision : Text → Option CodePoint × Text
  | .char '.' :: d :: rest => if isAsciiDigit d then (some d, rest) else (none, '.' :: d :: rest)
  | s => (none, s)

/-- Reads the specifier that the text begins with. -/
def read? : Text → Option (Specifier × Text)
  | .char '%' :: s =>
    let (numeral, s₁) := readPosition s
    let (flag, s₂) := readOne isFlag s₁
    let (width, s₃) := readOne isAsciiDigit s₂
    let (precision, s₄) := readPrecision s₃
    (Conversion.read? s₄).map fun found =>
      (⟨numeral, flag, width, precision, found.1⟩, found.2)
  | _ => none

/-- The specifier that a whole text is. -/
def ofText? (s : Text) : Option Specifier :=
  match read? s with
  | some (whole, []) => some whole
  | _ => none

/-- The kind of the specifier that a whole text is. -/
def kindOf? (s : Text) : Option ArgumentKind := (ofText? s).map kind

end Specifier

/-- A piece of a text: a specifier, or a character outside of every specifier. -/
inductive Piece where
  | char (c : CodePoint)
  | specifier (s : Specifier)

namespace Piece

/-- Splits a text at its specifiers, from left to right and without overlap; the first argument is
the number of characters that the last specifier still covers. -/
def splitFrom : Nat → Text → List Piece
  | _, [] => []
  | covered + 1, _ :: s => splitFrom covered s
  | 0, c :: s =>
    match Specifier.read? (c :: s) with
    | some (found, _) => .specifier found :: splitFrom (found.text.length - 1) s
    | none => .char c :: splitFrom 0 s

/-- The pieces of a text. -/
def split (s : Text) : List Piece := splitFrom 0 s

/-- The specifiers among the pieces. -/
def specifiers (pieces : List Piece) : List Specifier :=
  pieces.filterMap fun
    | .specifier s => some s
    | .char _ => none

end Piece

/-- A specifier at its place in a text. -/
structure SpecifierMatch where
  specifier : Specifier
  start : Nat

namespace SpecifierMatch

/-- The index behind the specifier. -/
def stop (m : SpecifierMatch) : Nat := m.start + m.specifier.text.length

/-- The specifiers of a list of pieces that begins at an index. -/
def ofPieces : Nat → List Piece → List SpecifierMatch
  | _, [] => []
  | index, .char _ :: rest => ofPieces (index + 1) rest
  | index, .specifier s :: rest => ⟨s, index⟩ :: ofPieces (index + s.text.length) rest

/-- All specifiers of a text, from left to right. -/
def all (text : Text) : List SpecifierMatch := ofPieces 0 (Piece.split text)

/-- The specifier that begins exactly at an index. An index before the text means its beginning. -/
def at? (text : Text) (index : Int) : Option SpecifierMatch :=
  (Specifier.read? (text.drop index.toNat)).map fun found => ⟨found.1, index.toNat⟩

end SpecifierMatch

end StringCatalog
