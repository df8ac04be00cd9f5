import StringCatalog.Decimal.Shortest
import StringCatalog.Text.Quoted

/-! Decoded values of a document, and the text that stands for a value where a text is wanted. -/

namespace StringCatalog

/-- A day of the calendar. -/
structure Date where
  year : Nat
  month : Nat
  day : Nat
  deriving DecidableEq, Repr

/-- A time of day on a date, in microseconds, with the offset from universal time in minutes if one
is known. -/
structure DateTime where
  date : Date
  hour : Nat
  minute : Nat
  second : Nat
  microsecond : Nat
  offset : Option Int
  deriving DecidableEq, Repr

/-- A decoded value. The keys of a mapping may be values of any kind, in the order of the document.
Of a value of some other kind there is the text that it is written as, if it can be written, and
whether it counts as nothing. -/
inductive Value where
  | null
  | bool (b : Bool)
  | int (i : Int)
  | float (x : Binary64)
  | text (t : Text)
  | date (d : Date)
  | dateTime (d : DateTime)
  | list (items : List Value)
  | mapping (members : List (Value × Value))
  | other (written : Option Text) (falsy : Bool)

/-- Why a text is no document: its reader refuses it for a reason, or fails in a way that no caller
foresees. -/
inductive DocumentFault where
  | malformed (reason : Text)
  | unforeseen (kind : Text)
  deriving DecidableEq

/-- Numbers from a tenth of a thousandth up to sixteen digits are written positionally. -/
def Value.numbers : DecimalLayout := ⟨-3, 16, "inf", "nan"⟩

/-- A numeral filled with zeros up to a width. -/
def Text.padded (width n : Nat) : Text :=
  padStart width '0' (ofNat n)

/-- A date as year, month and day. -/
def Date.iso (d : Date) : Text :=
  Text.padded 4 d.year ++ "-" ++ Text.padded 2 d.month ++ "-" ++ Text.padded 2 d.day

namespace DateTime

/-- A date and time with a space between them, the fraction only if there is one, and the offset. -/
def iso (d : DateTime) : Text :=
  d.date.iso ++ " " ++ Text.padded 2 d.hour ++ ":" ++ Text.padded 2 d.minute ++ ":" ++
    Text.padded 2 d.second ++
    fraction ++ offset
where
  /-- The fraction of a second. -/
  fraction : Text := if d.microsecond = 0 then "" else "." ++ Text.padded 6 d.microsecond
  /-- The offset in hours and minutes. -/
  offset : Text :=
    match d.offset with
    | none => ""
    | some o =>
      (if o < 0 then '-' else '+') :: (Text.padded 2 (o.natAbs / 60) ++ ":" ++
        Text.padded 2 (o.natAbs % 60))

/-- The offset as whole days and the seconds of the day that remain. -/
def offsetTerm (o : Int) : Text :=
  if o = 0 then "datetime.timezone.utc"
  else
    let days := o.fdiv 1440
    let seconds := o.fmod 1440 * 60
    "datetime.timezone(datetime.timedelta(" ++
      Text.join ", " ((if days = 0 then [] else ["days=" ++ Text.ofInt days]) ++
        (if seconds = 0 then [] else ["seconds=" ++ Text.ofInt seconds])) ++ "))"

/-- A date and time as a term: the seconds only if they or the fraction are not zero. -/
def term (d : DateTime) : Text :=
  let parts := [d.date.year, d.date.month, d.date.day, d.hour, d.minute] ++
    (if d.second = 0 ∧ d.microsecond = 0 then [] else [d.second]) ++
    (if d.microsecond = 0 then [] else [d.microsecond])
  "datetime.datetime(" ++ Text.join ", " (parts.map Text.ofNat ++
    match d.offset with
    | none => []
    | some o => ["tzinfo=" ++ offsetTerm o]) ++ ")"

end DateTime

namespace Value

mutual

/-- A value inside another one: texts are quoted, and lists and mappings are in brackets. -/
def term : Value → Text
  | null => "None"
  | bool true => "True"
  | bool false => "False"
  | int i => Text.ofInt i
  | float x => numbers.text x
  | text t => Text.quoted t
  | date d => "datetime.date(" ++ Text.join ", " ([d.year, d.month, d.day].map Text.ofNat) ++ ")"
  | dateTime d => d.term
  | list items => Text.bracketed (terms items)
  | mapping members => "\x7b" ++ Text.join ", " (memberTerms members) ++ "\x7d"
  | other written _ => written.getD []
termination_by structural v => v

/-- The terms of the items of a list. -/
def terms : List Value → List Text
  | [] => []
  | v :: rest => v.term :: terms rest
termination_by structural vs => vs

/-- The terms of the members of a mapping. -/
def memberTerms : List (Value × Value) → List Text
  | [] => []
  | (k, v) :: rest => (k.term ++ ": " ++ v.term) :: memberTerms rest
termination_by structural ms => ms

end

mutual

/-- The value can be written: the numerals of all its integers are short enough. -/
def isWritable : Value → Bool
  | int i => Nat.blt i.natAbs (Nat.pow 10 longestNumeral)
  | list items => areWritable items
  | mapping members => membersWritable members
  | other written _ => written.isSome
  | _ => true
termination_by structural v => v

/-- All items of a list can be written. -/
def areWritable : List Value → Bool
  | [] => true
  | v :: rest => v.isWritable && areWritable rest
termination_by structural vs => vs

/-- All keys and values of a mapping can be written. -/
def membersWritable : List (Value × Value) → Bool
  | [] => true
  | (k, v) :: rest => k.isWritable && v.isWritable && membersWritable rest
termination_by structural ms => ms

end

/-- The text of a value: a text is its own, dates have their usual form, and all else is written as
a term. -/
def display : Value → Text
  | text t => t
  | date d => d.iso
  | dateTime d => d.iso
  | v => v.term

/-- Null, false, zero, and what is empty. -/
def isFalsy : Value → Bool
  | null | bool false | text [] | list [] | mapping [] => true
  | int i => i == 0
  | float x => x.isZero
  | other _ falsy => falsy
  | _ => false

/-- The value of the last member with a text as its key. -/
def member? (name : Text) : List (Value × Value) → Option Value
  | [] => none
  | (k, v) :: rest =>
    match member? name rest with
    | some found => some found
    | none => match k with
      | text t => if t = name then some v else none
      | _ => none

end Value

end StringCatalog
