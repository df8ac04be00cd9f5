import StringCatalog.Yaml.Timestamp

/-! The values of plain scalars: null, booleans, integers in several bases, floating-point numbers,
dates, and texts for all else. -/

namespace StringCatalog.Yaml

/-- The text is one of some words. -/
def isOneOf (words : List String) (s : Text) : Bool := words.any fun word => Text.ofString word == s

/-- The words for nothing. -/
def isNull (s : Text) : Bool := isOneOf ["", "~", "null", "Null", "NULL"] s

/-- The words for the two truth values: small, capitalised, or in capitals. -/
def bool? (s : Text) : Option Bool :=
  if isOneOf ["yes", "Yes", "YES", "true", "True", "TRUE", "on", "On", "ON"] s then some true
  else if isOneOf ["no", "No", "NO", "false", "False", "FALSE", "off", "Off", "OFF"] s then
    some false
  else none

/-- A sign that may be left out, as whether the number is negative, and the rest. -/
def splitSign : Text → Bool × Text
  | .char '-' :: s => (true, s)
  | .char '+' :: s => (false, s)
  | s => (false, s)

/-- A text without underscores, which only group digits. -/
def ungrouped (s : Text) : Text := s.filter (· != '_')

/-- Digits and underscores. -/
def isGrouped (p : CodePoint → Bool) (s : Text) : Bool := s.all fun c => p c || c == '_'

/-- The natural number that a decimal numeral denotes. -/
def decimal (digits : Text) : Except ReadError Nat :=
  if longestNumeral < digits.length then .error .noValue else .ok (Text.toNat digits)

/-- The natural number that a numeral in a small base denotes; without digits there is none. -/
def inBase (base : Nat) (digits : Text) : Except ReadError Nat :=
  match ungrouped digits with
  | [] => .error .noValue
  | ds => .ok (ds.foldl (fun n c => base * n + (Text.hexDigit? c).getD 0) 0)

/-- One of the sixty values below a colon: one digit, or two of which the first is below six. -/
def isSixtieth : Text → Bool
  | [d] => isAsciiDigit d
  | [t, d] => isAsciiDigit t && t.toNat < 54 && isAsciiDigit d
  | _ => false

/-- A digit, and digits and underscores behind it. -/
def isGroupedNumeral : Text → Bool
  | c :: s => isAsciiDigit c && isGrouped isAsciiDigit s
  | [] => false

/-- The natural number that an unsigned integer scalar denotes, if the text is one: in base two, in
base sixteen, in base eight behind a zero, in base ten, or in base sixty between colons. -/
def unsigned? (s : Text) : Option (Except ReadError Nat) :=
  match s with
  | .char '0' :: .char 'b' :: ds =>
    if !ds.isEmpty && isGrouped (fun c => c == '0' || c == '1') ds then some (inBase 2 ds) else none
  | .char '0' :: .char 'x' :: ds =>
    if !ds.isEmpty && isGrouped (fun c => (Text.hexDigit? c).isSome) ds then some (inBase 16 ds)
    else none
  | [.char '0'] => some (.ok 0)
  | .char '0' :: ds =>
    if isGrouped (fun c => isAsciiDigit c && c.toNat < 56) ds then some (inBase 8 ('0' :: ds))
    else none
  | _ =>
    match Text.splitAt ':' s with
    | [] => none
    | first :: sixtieths =>
      if isGroupedNumeral first && sixtieths.all isSixtieth then
        some do
          let n ← decimal (ungrouped first)
          .ok (sixtieths.foldl (fun n d => 60 * n + Text.toNat d) n)
      else none

/-- The integer that a scalar denotes, if it is one. -/
def int? (s : Text) : Option (Except ReadError Int) :=
  let (negative, rest) := splitSign s
  (unsigned? rest).map fun found => found.map fun n => if negative then -(n : Int) else (n : Int)

/-- The exponent of a floating-point scalar: none, or the letter, a sign and digits. -/
def exponent? : Text → Option Int
  | [] => some 0
  | e :: sign :: digits =>
    if (e = 'e' ∨ e = 'E') ∧ (sign = '-' ∨ sign = '+') ∧ !digits.isEmpty ∧ digits.all isAsciiDigit
    then some (if sign = '-' then -(Text.toNat digits : Int) else (Text.toNat digits : Int))
    else none
  | _ => none

/-- The number with the given digits before and behind the point. -/
def pointed (whole fraction : Text) (exponent : Int) : Binary64 :=
  Binary64.ofDecimal false (Text.toNat (ungrouped whole ++ ungrouped fraction))
    (exponent - ((ungrouped fraction).length : Int))

/-- A power of sixty, rounded to a floating-point number; too high a power is beyond their range. -/
def powerOfSixty (n : Nat) : Except ReadError Nat :=
  match (Binary64.ofDecimal false (Nat.pow 60 n) 0).toInt? with
  | some power => .ok power.toNat
  | none => .error .outOfRange

/-- The value of digits in base sixty, of which the last ones have a fraction; every step is
rounded, from the last digits on. -/
def sixtieths (parts : List Text) (last : Binary64) : Except ReadError Binary64 := do
  let terms ← parts.reverse.zipIdx.mapM fun p => do
    let power ← powerOfSixty (p.2 + 1)
    .ok (Binary64.scale (pointed p.1 [] 0) power)
  .ok (terms.foldl Binary64.addMagnitudes last)

/-- The floating-point number that an unsigned scalar denotes, if it is one. A scalar without a
digit before its point has one behind it. -/
def unsignedFloat? (s : Text) : Option (Except ReadError Binary64) :=
  let whole := s.takeWhile (· != .char '.')
  match s.dropWhile (· != .char '.') with
  | [] => none
  | _ :: behind =>
    let isDigitOrGroup := fun c => isAsciiDigit c || c == '_'
    let fraction := behind.takeWhile isDigitOrGroup
    match exponent? (behind.dropWhile isDigitOrGroup) with
    | none => none
    | some exponent =>
      match Text.splitAt ':' whole with
      | [[]] =>
        if isGroupedNumeral fraction then some (.ok (pointed [] fraction exponent)) else none
      | [_] =>
        if isGroupedNumeral whole then some (.ok (pointed whole fraction exponent)) else none
      | first :: rest =>
        if isGroupedNumeral first && rest.all isSixtieth &&
            (behind.dropWhile isDigitOrGroup).isEmpty then
          let parts := first :: rest
          some (sixtieths parts.dropLast (pointed (parts.getLastD []) fraction 0))
        else none
      | [] => none

/-- The floating-point number that a scalar denotes, if it is one. A number that begins with its
point takes no sign. -/
def float? (s : Text) : Option (Except ReadError Binary64) :=
  let (negative, rest) := splitSign s
  if isOneOf [".inf", ".Inf", ".INF"] rest then some (.ok (.infinite negative))
  else if rest = s ∧ isOneOf [".nan", ".NaN", ".NAN"] rest then some (.ok .nan)
  else if rest.head? = some (.char '.') ∧ rest ≠ s then none
  else (unsignedFloat? rest).map fun found => found.map fun x => if negative then x.neg else x

/-- The value of a plain scalar. The sign of equality alone has none. -/
def plainValue (s : Text) : Except ReadError Value :=
  if isNull s then .ok .null
  else match bool? s with
    | some b => .ok (.bool b)
    | none => match float? s with
      | some found => found.map .float
      | none => match int? s with
        | some found => found.map .int
        | none => match timestamp? s with
          | some found => found
          | none => if s = "=" ∨ s = "<<" then .error .malformed else .ok (.text s)

end StringCatalog.Yaml
