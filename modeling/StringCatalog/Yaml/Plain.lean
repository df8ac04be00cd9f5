import StringCatalog.Yaml.Basic

/-! Plain scalars: texts without marks around them, which end where something else may begin. -/

namespace StringCatalog.Yaml

/-- The characters that end a plain scalar inside brackets. -/
def isFlowMark (c : CodePoint) : Bool :=
  c == ',' || c == '?' || c == '[' || c == ']' || c == '\x7b' || c == '\x7d'

/-- A colon ends a plain scalar if it ends a word, and inside brackets also before a bracket or a
comma. -/
def colonEnds (inFlow : Bool) (behind : List Located) : Bool :=
  endsWord behind || (inFlow && match behind with
    | l :: _ => isFlowMark l.char && l.char != '?'
    | [] => false)

/-- The characters of a plain scalar up to a blank or its end. -/
def plainChunk (inFlow : Bool) : List Located → Text × List Located
  | [] => ([], [])
  | l :: s =>
    if isSpaceOrTab l.char || isBreak l.char || (l.char == ':' && colonEnds inFlow s) ||
        (inFlow && isFlowMark l.char) then ([], l :: s)
    else
      let (chunk, rest) := plainChunk inFlow s
      (l.char :: chunk, rest)

/-- The blanks behind a chunk of a plain scalar, as they count if another chunk follows, whether a
line ended, and the rest. -/
def plainSpaces (s : List Located) : Text × Bool × List Located :=
  let spaces := (s.takeWhile (·.char == .char ' ')).map (·.char)
  let behind := s.dropWhile (·.char == .char ' ')
  match lineBreak? behind with
  | none => (spaces, false, behind)
  | some (first, rest) =>
    match breaks (· == .char ' ') true rest with
    | (_, true, rest') => ([], true, rest')
    | (more, false, rest') => (folded first more, true, rest')

/-- The column of the first character. -/
def columnOf : List Located → Nat
  | [] => 0
  | l :: _ => l.column

/-- Reads a plain scalar behind `spaces`, chunk by chunk; outside of brackets its further lines
begin at column `indent` or later. The result has its text, whether a line ended behind it, and the
rest. The first argument bounds the number of chunks. -/
def plainScalar (inFlow : Bool) (indent : Int) :
    Nat → Text → Bool → List Located → Text × Bool × List Located
  | 0, _, crossed, s => ([], crossed, s)
  | bound + 1, spaces, crossed, s =>
    if startsWith '#' s then ([], crossed, s)
    else match plainChunk inFlow s with
      | ([], _) => ([], crossed, s)
      | (chunk, s₁) =>
        let (spaces', crossed', s₂) := plainSpaces s₁
        if spaces' = [] ∨ startsWith '#' s₂ ∨ (!inFlow ∧ (columnOf s₂ : Int) < indent) then
          (spaces ++ chunk, crossed', s₂)
        else
          let (more, ended, s₃) := plainScalar inFlow indent bound spaces' crossed' s₂
          (spaces ++ chunk ++ more, ended, s₃)

end StringCatalog.Yaml
