import StringCatalog.Text.Digit
import StringCatalog.Yaml.Basic

/-! Quoted scalars: texts in single or double marks, in which line breaks are folded and escapes
stand for characters. -/

namespace StringCatalog.Yaml

/-- The character that an escape of one letter stands for. -/
def escaped? : CodePoint → Option CodePoint
  | .char '0' => some '\x00'
  | .char 'a' => some '\x07'
  | .char 'b' => some '\x08'
  | .char 't' | .char '\t' => some '\t'
  | .char 'n' => some '\n'
  | .char 'v' => some '\x0b'
  | .char 'f' => some '\x0c'
  | .char 'r' => some '\r'
  | .char 'e' => some '\x1b'
  | .char ' ' => some ' '
  | .char '"' => some '"'
  | .char '\\' => some '\\'
  | .char '/' => some '/'
  | .char 'N' => some '\u0085'
  | .char '_' => some '\u00a0'
  | .char 'L' => some '\u2028'
  | .char 'P' => some '\u2029'
  | _ => none

/-- The number of hexadecimal digits behind the letter of an escape. -/
def escapeWidth? : CodePoint → Option Nat
  | .char 'x' => some 2
  | .char 'u' => some 4
  | .char 'U' => some 8
  | _ => none

/-- The code point of a number in hexadecimal digits. There is none from `110000` on, and from
`80000000` on the number is beyond the range of such numbers. -/
def codePoint (width : Nat) (s : List Located) : Except ReadError (CodePoint × List Located) :=
  let digits := (s.take width).map (·.char)
  if digits.length < width then .error .malformed
  else match Text.hexNat? digits with
    | none => .error .malformed
    | some n =>
      if 0x7FFFFFFF < n then .error .outOfRange
      else if 0x10FFFF < n then .error .noValue
      else .ok (CodePoint.ofNat n, s.drop width)

/-- Reads what follows a backslash: the characters it stands for, and the rest. An escaped line
break stands for none, but those behind it are kept. -/
def escapeSequence : List Located → Except ReadError (Text × List Located)
  | [] => .error .malformed
  | l :: s =>
    match escaped? l.char, escapeWidth? l.char with
    | some c, _ => .ok ([c], s)
    | none, some width => do
      let (c, rest) ← codePoint width s
      .ok ([c], rest)
    | none, none =>
      match lineBreak? (l :: s) with
      | none => .error .malformed
      | some (_, rest) =>
        match breaks isSpaceOrTab true rest with
        | (_, true, _) => .error .malformed
        | (more, false, rest') => .ok (more, rest')

/-- Reads blanks inside a quoted scalar: those of one line are kept, those around line breaks are
not. -/
def quotedSpaces (s : List Located) : Except ReadError (Text × List Located) :=
  let spaces := (s.takeWhile (isSpaceOrTab ·.char)).map (·.char)
  match s.dropWhile (isSpaceOrTab ·.char) with
  | [] => .error .malformed
  | behind => match lineBreak? behind with
    | none => .ok (spaces, behind)
    | some (first, rest) =>
      match breaks isSpaceOrTab true rest with
      | (_, true, _) => .error .malformed
      | (more, false, rest') => .ok (folded first more, rest')

/-- Reads a quoted scalar up to its closing mark. In single marks only the mark itself is escaped,
by doubling it. The first argument bounds the number of steps. -/
def quotedScalar (double : Bool) : Nat → List Located → Except ReadError (Text × List Located)
  | 0, _ => .error .malformed
  | _ + 1, [] => .error .malformed
  | bound + 1, l :: s =>
    if l.char = (if double then '"' else '\'') then
      if !double && startsWith '\'' s then do
        let (more, rest) ← quotedScalar double bound s.tail
        .ok ('\'' :: more, rest)
      else .ok ([], s)
    else if double && l.char == '\\' then do
      let (here, rest) ← escapeSequence s
      let (more, rest') ← quotedScalar double bound rest
      .ok (here ++ more, rest')
    else if isSpaceOrTab l.char || isBreak l.char then do
      let (here, rest) ← quotedSpaces (l :: s)
      let (more, rest') ← quotedScalar double bound rest
      .ok (here ++ more, rest')
    else do
      let (more, rest) ← quotedScalar double bound s
      .ok (l.char :: more, rest)

end StringCatalog.Yaml
