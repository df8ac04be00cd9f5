import StringCatalog.Decimal.Binary64
import StringCatalog.Text.Basic

/-! The shortest decimal that reads back as a given floating-point number, and its layout. -/

namespace StringCatalog

/-- Significant digits and the place of the point: the value is `0.digits * 10 ^ point`. -/
structure Decimal where
  digits : Text
  point : Int

namespace Binary64

/-- The reals that round to `significand * 2 ^ exponent`, as fractions of one denominator: the lower
end, the value, the upper end. Below a power of two the spacing is halved. -/
structure Rounding where
  low : Nat
  value : Nat
  high : Nat
  den : Nat
  closed : Bool

/-- The interval of a positive magnitude; its ends belong to it if the significand is even. -/
def rounding (significand : Nat) (exponent : Int) : Rounding :=
  let below := if significand = Nat.pow 2 52 ∧ -1074 < exponent then 1 else 2
  let scale := if 0 ≤ exponent then Nat.pow 2 exponent.toNat else 1
  { low := (4 * significand - below) * scale
    value := 4 * significand * scale
    high := (4 * significand + 2) * scale
    den := 4 * (if 0 ≤ exponent then 1 else Nat.pow 2 (-exponent).toNat)
    closed := significand % 2 = 0 }

/-- The fraction `n / den` lies in the interval, where `den` is the interval's denominator times
`k`. -/
def Rounding.holds (r : Rounding) (n k : Nat) : Bool :=
  if r.closed then Nat.ble (r.low * k) n && Nat.ble n (r.high * k)
  else Nat.blt (r.low * k) n && Nat.blt n (r.high * k)

/-- The multiple of `10 ^ unit` that is in the interval and nearest to the value, if one is: it is
one of the value's two neighbours among those multiples. -/
def Rounding.onGrid? (r : Rounding) (unit : Int) : Option Nat :=
  let step := if 0 ≤ unit then Nat.pow 10 unit.toNat * r.den else r.den
  let k := if 0 ≤ unit then 1 else Nat.pow 10 (-unit).toNat
  let down := r.value * k / step
  let fits := fun n => r.holds (n * step) k
  let rest := r.value * k - down * step
  match fits down, fits (down + 1) with
  | true, true =>
    if 2 * rest < step then some down
    else if step < 2 * rest then some (down + 1)
    else some (if down % 2 = 0 then down else down + 1)
  | true, false => some down
  | false, true => some (down + 1)
  | false, false => none

/-- The place of the point of `num / den`: the least `p` with `num / den < 10 ^ p`, searched upward
from `-400`. -/
def pointOf (num den : Nat) : Int :=
  let above := fun (p : Int) =>
    if 0 ≤ p then Nat.blt num (den * Nat.pow 10 p.toNat)
    else Nat.blt (num * Nat.pow 10 (-p).toNat) den
  match (List.range 800).find? fun (i : Nat) => above ((i : Int) - 400) with
  | some i => (i : Int) - 400
  | none => 400

/-- The decimal of fewest digits in the interval of a positive magnitude, and the nearest of those:
grids of one digit, two digits and so on are tried, and seventeen digits always suffice. -/
def shortest (significand : Nat) (exponent : Int) : Decimal :=
  let r := rounding significand exponent
  let point := pointOf r.value r.den
  let found := (List.range 17).findSome? fun (i : Nat) =>
    (r.onGrid? (point - (i + 1))).map fun n => (n, i + 1)
  match found with
  | some (n, count) =>
    let digits := Text.ofNat n
    { digits := Text.trimEndBy (· == '0') digits
      point := point + (digits.length : Int) - (count : Int) }
  | none => { digits := Text.ofNat significand, point := 0 }

end Binary64

/-- How a decimal is laid out: the places of the point that are written positionally, and the words
for what is not a number. -/
structure DecimalLayout where
  leastPoint : Int
  greatestPoint : Int
  infinity : Text
  notANumber : Text

namespace DecimalLayout

/-- An exponent of ten: a sign and at least two digits. -/
def exponent (e : Int) : Text :=
  (if e < 0 then '-' else '+') :: Text.padStart 2 '0' (Text.ofNat e.natAbs)

/-- A decimal in the layout. Positional numbers have a digit on both sides of the point; others have
one digit before it and need none after it. -/
def write (layout : DecimalLayout) (d : Decimal) : Text :=
  if d.point < layout.leastPoint ∨ layout.greatestPoint < d.point then
    (match d.digits with
      | [] => []
      | [c] => [c]
      | c :: rest => c :: '.' :: rest) ++ "e" ++ exponent (d.point - 1)
  else if d.point ≤ 0 then
    "0." ++ Text.copies (-d.point).toNat '0' ++ d.digits
  else
    let whole := d.point.toNat
    if d.digits.length ≤ whole then
      d.digits ++ Text.copies (whole - d.digits.length) '0' ++ ".0"
    else d.digits.take whole ++ "." ++ d.digits.drop whole

/-- The text of a number in the layout. -/
def text (layout : DecimalLayout) : Binary64 → Text
  | .nan => layout.notANumber
  | .infinite negative => sign negative ++ layout.infinity
  | .finite negative 0 _ => sign negative ++ "0.0"
  | .finite negative m q => sign negative ++ layout.write (Binary64.shortest m q)
where
  /-- The minus sign of what is negative. -/
  sign (negative : Bool) : Text := if negative then "-" else ""

end DecimalLayout

end StringCatalog
