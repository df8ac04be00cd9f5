import StringCatalog.Json.Basic
import StringCatalog.Text.Digit

/-! Reading JSON texts: the standard grammar, and the three numbers `NaN`, `Infinity` and
`-Infinity`. Of members with one name the last value counts, in the place of the first. -/

namespace StringCatalog

namespace Json

/-- Why a text gives no JSON value: it is not in the grammar, or it holds an integer whose numeral
is too long to have a value, or lists and objects nested too deeply. -/
inductive ReadError where
  | malformed
  | numeralTooLong
  | tooDeep
  deriving DecidableEq, Repr

/-- The number of lists and objects that may be nested inside one of so many. -/
def inside : Nat → Except ReadError Nat
  | 0 => .error .tooDeep
  | depth + 1 => .ok depth

/-- The rest of a text after spaces, tabs and line ends. -/
def skipSpace (s : Text) : Text :=
  s.dropWhile fun c => c == ' ' || c == '\t' || c == '\n' || c == '\r'

/-- The character that an escape of one letter stands for. -/
def escaped? : CodePoint → Option CodePoint
  | .char '"' => some '"'
  | .char '\\' => some '\\'
  | .char '/' => some '/'
  | .char 'b' => some '\x08'
  | .char 'f' => some '\x0c'
  | .char 'n' => some '\n'
  | .char 'r' => some '\r'
  | .char 't' => some '\t'
  | _ => none

/-- The text with one character for every two halves of a pair. -/
def joinHalves : Text → Text
  | [] => []
  | [c] => [c]
  | c :: d :: rest =>
    if c.isFirstHalf && d.isSecondHalf then .ofHalves c d :: joinHalves rest
    else c :: joinHalves (d :: rest)

/-- Reads the inside of a string up to its closing mark. An escape may be half of a pair; controls
are refused. -/
def readUnits : Text → Option (Text × Text)
  | [] => none
  | .char '"' :: rest => some ([], rest)
  | .char '\\' :: .char 'u' :: a :: b :: c :: d :: rest => do
    let unit ← Text.hexNat? [a, b, c, d]
    let (units, rest') ← readUnits rest
    some (CodePoint.ofNat unit :: units, rest')
  | .char '\\' :: c :: rest => do
    let plain ← escaped? c
    let (units, rest') ← readUnits rest
    some (plain :: units, rest')
  | c :: rest =>
    if c.toNat < 0x20 then none
    else do
      let (units, rest') ← readUnits rest
      some (c :: units, rest')

/-- Reads the inside of a string up to its closing mark. -/
def readString (s : Text) : Option (Text × Text) :=
  (readUnits s).map fun found => (joinHalves found.1, found.2)

/-- The digits that a text begins with, and the rest. -/
def takeDigits (s : Text) : Text × Text := (s.takeWhile isAsciiDigit, s.dropWhile isAsciiDigit)

/-- A point with at least one digit after it, as those digits and the rest. -/
def takeFraction : Text → Text × Text
  | .char '.' :: s =>
    match takeDigits s with
    | ([], _) => ([], '.' :: s)
    | (digits, rest) => (digits, rest)
  | s => ([], s)

/-- An exponent: the letter, a sign that may be left out, and at least one digit. -/
def takeExponent (s : Text) : Option Int × Text :=
  match s with
  | e :: s' =>
    if e = 'e' ∨ e = 'E' then
      let (negative, unsigned) := match s' with
        | .char '-' :: r => (true, r)
        | .char '+' :: r => (false, r)
        | r => (false, r)
      match takeDigits unsigned with
      | ([], _) => (none, s)
      | (digits, rest) =>
        let n : Int := Text.toNat digits
        (some (if negative then -n else n), rest)
    else (none, s)
  | [] => (none, [])

/-- Reads the digits of a number after its sign. A leading zero is a whole part of its own. -/
def readUnsigned (negative : Bool) (s : Text) : Except ReadError (Json × Text) :=
  let (whole, rest) := match s with
    | .char '0' :: r => ("0", r)
    | _ => takeDigits s
  if whole = [] then .error .malformed
  else
    let (fraction, rest') := takeFraction rest
    let (exponent, rest'') := takeExponent rest'
    if fraction = [] ∧ exponent = none then
      if longestNumeral < whole.length then .error .numeralTooLong
      else
        let n : Int := Text.toNat whole
        .ok (.int (if negative then -n else n), rest)
    else
      .ok (.float (Binary64.ofDecimal negative (Text.toNat (whole ++ fraction))
        (exponent.getD 0 - fraction.length)), rest'')

/-- What follows `word` in the text, if it begins with it. -/
def afterWord? (word s : Text) : Option Text :=
  if word.isPrefixOf s then some (s.drop word.length) else none

/-- Reads a number, or one of the words that stand for a value. -/
def readAtom (s : Text) : Except ReadError (Json × Text) :=
  let words : List (Text × Json) := [("null", .null), ("true", .bool true), ("false", .bool false),
    ("NaN", .float .nan), ("Infinity", .float (.infinite false)),
    ("-Infinity", .float (.infinite true))]
  match words.findSome? fun w => (afterWord? w.1 s).map (w.2, ·) with
  | some found => .ok found
  | none => match s with
    | .char '-' :: rest => readUnsigned true rest
    | _ => readUnsigned false s

mutual

/-- Reads a value. The first number is that of the lists and objects that may be nested in it, and
the second one bounds the number of steps. -/
def readValue (depth : Nat) : Nat → Text → Except ReadError (Json × Text)
  | 0, _ => .error .malformed
  | bound + 1, s => match s with
    | .char '"' :: rest => match readString rest with
      | some (t, rest') => .ok (.text t, rest')
      | none => .error .malformed
    | .char '[' :: rest => do
      let depth ← inside depth
      match skipSpace rest with
      | .char ']' :: rest' => .ok (.list [], rest')
      | rest' =>
        let (items, rest'') ← readItems depth bound rest'
        .ok (.list items, rest'')
    | .char '\x7b' :: rest => do
      let depth ← inside depth
      match skipSpace rest with
      | .char '\x7d' :: rest' => .ok (.object [], rest')
      | rest' =>
        let (members, rest'') ← readMembers depth bound rest'
        .ok (.object (OrderedMap.ofPairs members), rest'')
    | _ => readAtom s
termination_by structural bound => bound

/-- Reads the items of a list from the first on, and its closing bracket. -/
def readItems (depth : Nat) : Nat → Text → Except ReadError (List Json × Text)
  | 0, _ => .error .malformed
  | bound + 1, s => do
    let (item, rest) ← readValue depth bound s
    match skipSpace rest with
    | .char ',' :: rest' =>
      let (items, rest'') ← readItems depth bound (skipSpace rest')
      .ok (item :: items, rest'')
    | .char ']' :: rest' => .ok ([item], rest')
    | _ => .error .malformed
termination_by structural bound => bound

/-- Reads the members of an object from the first on, and its closing bracket. -/
def readMembers (depth : Nat) : Nat → Text → Except ReadError (List (Text × Json) × Text)
  | 0, _ => .error .malformed
  | bound + 1, s => match s with
    | .char '"' :: rest => match readString rest with
      | none => .error .malformed
      | some (name, rest') => match skipSpace rest' with
        | .char ':' :: rest'' => do
          let (value, rest) ← readValue depth bound (skipSpace rest'')
          match skipSpace rest with
          | .char ',' :: rest' =>
            let (members, rest'') ← readMembers depth bound (skipSpace rest')
            .ok ((name, value) :: members, rest'')
          | .char '\x7d' :: rest' => .ok ([(name, value)], rest')
          | _ => .error .malformed
        | _ => .error .malformed
    | _ => .error .malformed
termination_by structural bound => bound

end

/-- The value of a JSON text in which so many lists and objects may be nested. Of any two nested
steps of the recursion one takes a character, so twice the length of the text bounds them. -/
def ofText (deepest : Nat) (s : Text) : Except ReadError Json := do
  let (value, rest) ← readValue deepest (2 * s.length + 2) (skipSpace s)
  if skipSpace rest = [] then .ok value else .error .malformed

end Json

end StringCatalog
