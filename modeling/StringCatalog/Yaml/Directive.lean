import StringCatalog.Text.Digit
import StringCatalog.Yaml.Basic

/-! Directives: lines before a document that begin with a percent sign. One gives the version of the
language, others declare handles for tags, and those of any other name are without effect. -/

namespace StringCatalog.Yaml

/-- A directive. The address that a handle stands for is not kept, since tags are refused. -/
inductive Directive where
  | version (major minor : Nat)
  | handle (name : Text)
  | reserved (name : Text)
  deriving DecidableEq, Repr

namespace Directive

/-- A letter or digit of ASCII. -/
def isLetterOrDigit (c : CodePoint) : Bool :=
  let n := c.toNat
  isAsciiDigit c || (65 ≤ n && n ≤ 90) || (97 ≤ n && n ≤ 122)

/-- A character of a name. -/
def isNameCharacter (c : CodePoint) : Bool := isLetterOrDigit c || c == '-' || c == '_'

/-- A character of an address, the sign of its escapes included. -/
def isAddressCharacter (c : CodePoint) : Bool :=
  isLetterOrDigit c || ("-;/?:@&=+$,_.!~*'()[]%" : Text).contains c

/-- The characters of a class at the beginning, and the rest. -/
def run (p : CodePoint → Bool) (s : List Located) : Text × List Located :=
  ((s.takeWhile (p ·.char)).map (·.char), s.dropWhile (p ·.char))

/-- The rest behind spaces. -/
def skipSpaces (s : List Located) : List Located := (run (· == ' ') s).2

/-- Nothing follows, or a line break does. -/
def endsLine : List Located → Bool
  | [] => true
  | l :: _ => isBreak l.char

/-- Nothing follows, or a space or a line break does. -/
def endsPart (s : List Located) : Bool := startsWith ' ' s || endsLine s

/-- Reads a name. -/
def readName (s : List Located) : Except ReadError (Text × List Located) :=
  let (name, rest) := run isNameCharacter s
  if name.isEmpty || !endsPart rest then .error .malformed else .ok (name, rest)

/-- Reads a number. -/
def readNumber (s : List Located) : Except ReadError (Nat × List Located) :=
  let (digits, rest) := run isAsciiDigit s
  if digits.isEmpty then .error .malformed
  else if longestNumeral < digits.length then .error .noValue
  else .ok (Text.toNat digits, rest)

/-- Reads a version: two numbers with a point between them. -/
def readVersion (s : List Located) : Except ReadError (Directive × List Located) := do
  let (major, rest) ← readNumber (skipSpaces s)
  if startsWith '.' rest then do
    let (minor, rest') ← readNumber rest.tail
    if endsPart rest' then .ok (version major minor, rest') else .error .malformed
  else .error .malformed

/-- The escapes of an address are percent signs with two hexadecimal digits, and bytes that stand
together are UTF-8; the first argument has the bytes under way, the last one first. -/
def isAddress (bytes : List UInt8) : Text → Bool
  | .char '%' :: first :: second :: s =>
    match Text.hexNat? [first, second] with
    | some n => isAddress (n.toUInt8 :: bytes) s
    | none => false
  | .char '%' :: _ => false
  | _ :: s => isUtf8 && isAddress [] s
  | [] => isUtf8
where
  /-- The bytes under way are UTF-8. -/
  isUtf8 : Bool := (String.fromUTF8? ⟨bytes.reverse.toArray⟩).isSome

/-- Reads a handle: an exclamation mark that stands alone, or two with a name between them, which
may be empty. -/
def readHandle (s : List Located) : Except ReadError (Text × List Located) :=
  if !startsWith '!' s then .error .malformed
  else if startsWith ' ' s.tail then .ok ("!", s.tail)
  else
    let (name, rest) := run isNameCharacter s.tail
    if startsWith '!' rest && startsWith ' ' rest.tail then .ok ('!' :: (name ++ "!"), rest.tail)
    else .error .malformed

/-- Reads a handle and the address it stands for. -/
def readDeclaration (s : List Located) : Except ReadError (Directive × List Located) := do
  let (name, rest) ← readHandle (skipSpaces s)
  let (address, rest') := run isAddressCharacter (skipSpaces rest)
  if !address.isEmpty && isAddress [] address && endsPart rest' then .ok (handle name, rest')
  else .error .malformed

/-- Reads a directive behind its percent sign, with the rest of its line, where a comment may
stand. -/
def read (s : List Located) : Except ReadError (Directive × List Located) := do
  let (name, rest) ← readName s
  let (directive, rest') ←
    if name = "YAML" then readVersion rest
    else if name = "TAG" then readDeclaration rest
    else .ok (reserved name, (run (!isBreak ·) rest).2)
  let behind := skipSpaces rest'
  let behind := if startsWith '#' behind then (run (!isBreak ·) behind).2 else behind
  if endsLine behind then
    .ok (directive, match lineBreak? behind with
      | some (_, next) => next
      | none => behind)
  else .error .malformed

/-- The major number of the version that a directive gives. -/
def major? : Directive → Option Nat
  | version major _ => some major
  | _ => none

/-- The handle that a directive declares. -/
def handle? : Directive → Option Text
  | handle name => some name
  | _ => none

/-- Directives may stand before one document: at most one gives the version, whose major number is
one, and no handle is declared twice. -/
def mayMeet (directives : List Directive) : Bool :=
  let versions := directives.filterMap major?
  versions.length ≤ 1 && versions.all (· == 1) && decide (directives.filterMap handle?).Nodup

end Directive

end StringCatalog.Yaml
