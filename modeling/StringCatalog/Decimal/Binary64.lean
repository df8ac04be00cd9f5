/-! Floating-point numbers of 64 bits, as exact values: the nearest one to a fraction, and the
arithmetic that rounds once per step. -/

namespace StringCatalog

/-- A floating-point number: a sign with a magnitude of `significand * 2 ^ exponent`, an infinity,
or the value of no number. -/
inductive Binary64 where
  | finite (negative : Bool) (significand : Nat) (exponent : Int)
  | infinite (negative : Bool)
  | nan
  deriving DecidableEq, Repr

namespace Binary64

/-- Zeros of both signs. -/
def isZero : Binary64 → Bool
  | finite _ 0 _ => true
  | _ => false

/-- The quotient rounded to the nearest integer, and to the even one of two equally near. -/
def divNearestEven (num den : Nat) : Nat :=
  let q := num / den
  let r := num % den
  if 2 * r < den then q else if den < 2 * r then q + 1 else if q % 2 = 0 then q else q + 1

/-- The fraction `num / den` in units of `2 ^ q`. -/
def inUnits (num den : Nat) (q : Int) : Nat × Nat :=
  if 0 ≤ q then (num, den * Nat.pow 2 q.toNat) else (num * Nat.pow 2 (-q).toNat, den)

/-- The exponent that gives `num / den` a significand of 53 bits, but not below the least one. -/
def exponentFor (num den : Nat) : Int :=
  let e : Int := num.log2 - den.log2
  let (n, d) := inUnits num den e
  max ((if d ≤ n then e else e - 1) - 52) (-1074)

/-- The number nearest to `num / den`, for a positive `den`; magnitudes from `2 ^ 1024` on round to
infinity. -/
def ofFraction (negative : Bool) (num den : Nat) : Binary64 :=
  if num = 0 then finite negative 0 0
  else
    let q := exponentFor num den
    let (n, d) := inUnits num den q
    let m := divNearestEven n d
    let (m, q) := if m = Nat.pow 2 53 then (Nat.pow 2 52, q + 1) else (m, q)
    if 971 < q then infinite negative else finite negative m q

/-- The number nearest to `digits * 10 ^ exponent`. Exponents far outside the range of the type are
settled by the count of digits. -/
def ofDecimal (negative : Bool) (digits : Nat) (exponent : Int) : Binary64 :=
  let size : Int := (Nat.toDigits 10 digits).length + exponent
  if digits = 0 ∨ size < -400 then finite negative 0 0
  else if 400 < size then infinite negative
  else if 0 ≤ exponent then ofFraction negative (digits * Nat.pow 10 exponent.toNat) 1
  else ofFraction negative digits (Nat.pow 10 (-exponent).toNat)

/-- The number with the opposite sign. -/
def neg : Binary64 → Binary64
  | finite s m q => finite (!s) m q
  | infinite s => infinite (!s)
  | nan => nan

/-- A magnitude as a fraction. -/
def fraction (significand : Nat) (exponent : Int) : Nat × Nat :=
  if 0 ≤ exponent then (significand * Nat.pow 2 exponent.toNat, 1)
  else (significand, Nat.pow 2 (-exponent).toNat)

/-- The rounded sum of two numbers without a sign. -/
def addMagnitudes : Binary64 → Binary64 → Binary64
  | finite _ m q, finite _ m' q' =>
    let (n, d) := fraction m q
    let (n', d') := fraction m' q'
    ofFraction false (n * d' + n' * d) (d * d')
  | nan, _ | _, nan => nan
  | _, _ => infinite false

/-- The rounded product of a number without a sign and a natural number. -/
def scale (x : Binary64) (k : Nat) : Binary64 :=
  match x with
  | finite _ m q => let (n, d) := fraction m q; ofFraction false (n * k) d
  | infinite _ => infinite false
  | nan => nan

/-- The integer that the number is, if it is one. -/
def toInt? : Binary64 → Option Int
  | finite s m q =>
    let (n, d) := fraction m q
    if n % d = 0 then some (if s then -(n / d : Nat) else (n / d : Nat)) else none
  | _ => none

end Binary64

end StringCatalog
