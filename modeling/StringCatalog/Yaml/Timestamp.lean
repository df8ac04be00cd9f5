import StringCatalog.Text.Digit
import StringCatalog.Value
import StringCatalog.Yaml.Basic

/-! Scalars that denote dates, or dates with times of day and offsets from universal time. -/

namespace StringCatalog.Yaml

/-- Takes the digits at the beginning, at most so many. -/
def takeDigits (most : Nat) (s : Text) : Text × Text :=
  let digits := (s.take most).takeWhile isAsciiDigit
  (digits, s.drop digits.length)

/-- Takes a number of one or two digits, or of exactly two. -/
def takePair (least : Nat) (s : Text) : Option (Nat × Text) :=
  let (digits, rest) := takeDigits 2 s
  if digits.length < least then none else some (Text.toNat digits, rest)

/-- Takes a given character. -/
def takeChar (c : CodePoint) : Text → Option Text
  | d :: s => if d = c then some s else none
  | [] => none

/-- The number of days of a month. -/
def daysIn (year month : Nat) : Nat :=
  if month = 2 then
    (if year % 4 = 0 ∧ (year % 100 ≠ 0 ∨ year % 400 = 0) then 29 else 28)
  else if month = 4 ∨ month = 6 ∨ month = 9 ∨ month = 11 then 30 else 31

/-- The calendar has the day. -/
def isDate (d : Date) : Bool :=
  1 ≤ d.year && 1 ≤ d.month && d.month ≤ 12 && 1 ≤ d.day && d.day ≤ daysIn d.year d.month

/-- The clock has the time, and the offset is less than a day. -/
def isTime (t : DateTime) : Bool :=
  t.hour < 24 && t.minute < 60 && t.second < 60 && (t.offset.getD 0).natAbs < 1440

/-- The fraction of a second in microseconds: further digits are dropped. -/
def microseconds (digits : Text) : Nat :=
  let six := digits.take 6
  Text.toNat (six ++ Text.copies (6 - six.length) '0')

/-- The offset from universal time at the end of a scalar, in minutes; nothing leaves it open. -/
def offset? (s : Text) : Option (Option Int) :=
  match s.dropWhile isSpaceOrTab with
  | [] => if s.isEmpty then some none else none
  | [.char 'Z'] => some (some 0)
  | sign :: rest =>
    if sign = '-' ∨ sign = '+' then do
      let (hours, rest) ← takePair 1 rest
      let minutes ← match rest with
        | [] => some 0
        | .char ':' :: rest => match takePair 2 rest with
          | some (n, []) => some n
          | _ => none
        | _ => none
      let total : Int := 60 * hours + minutes
      some (some (if sign = '-' then -total else total))
    else none

/-- The time of day behind a date. -/
def time? (date : Date) (s : Text) : Option DateTime := do
  let s ← match s with
    | .char 'T' :: s | .char 't' :: s => some s
    | c :: _ =>
      if isSpaceOrTab c then some (s.dropWhile isSpaceOrTab) else none
    | [] => none
  let (hour, s) ← takePair 1 s
  let s ← takeChar ':' s
  let (minute, s) ← takePair 2 s
  let s ← takeChar ':' s
  let (second, s) ← takePair 2 s
  let (fraction, s) := match s with
    | .char '.' :: s => (s.takeWhile isAsciiDigit, s.dropWhile isAsciiDigit)
    | s => ([], s)
  let offset ← offset? s
  some ⟨date, hour, minute, second, microseconds fraction, offset⟩

/-- The date, or date and time, that a scalar denotes, if it is one. A date alone has two digits for
its month and its day. -/
def timestamp? (s : Text) : Option (Except ReadError Value) := do
  let (year, s₁) := takeDigits 4 s
  if year.length < 4 then none
  else
    let s₂ ← takeChar '-' s₁
    let (month, s₃) ← takePair 1 s₂
    let s₄ ← takeChar '-' s₃
    let (day, s₅) ← takePair 1 s₄
    let date : Date := ⟨Text.toNat year, month, day⟩
    if s₅ = [] then
      if s.length = 10 then some (if isDate date then .ok (.date date) else .error .noValue)
      else none
    else
      let t ← time? date s₅
      some (if isDate date && isTime t then .ok (.dateTime t) else .error .noValue)

/-- The number of days from the beginning of the calendar to a day. -/
def dayNumber (d : Date) : Nat :=
  let years := d.year - 1
  let inYear := (List.range (d.month - 1)).foldl (fun n m => n + daysIn d.year (m + 1)) d.day
  365 * years + years / 4 - years / 100 + years / 400 + inYear

/-- The microseconds from the beginning of the calendar to a time with a given offset, by universal
time. -/
def moment (t : DateTime) (offset : Int) : Int :=
  let minutes : Int := 1440 * dayNumber t.date + 60 * t.hour + t.minute
  (60 * (minutes - offset) + t.second) * 1000000 + t.microsecond

/-- Two times are one key: if both have an offset they are compared by universal time. -/
def sameTime (t u : DateTime) : Bool :=
  match t.offset, u.offset with
  | some o, some p => moment t o == moment u p
  | _, _ => t == u

end StringCatalog.Yaml
