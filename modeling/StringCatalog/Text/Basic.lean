import StringCatalog.Text.CodePoint

/-! Texts as lists of code points, and the operations on them that the rest of the library is
written in: order by code point, substring tests, replacement, splitting, trimming and decimal
numerals. -/

namespace StringCatalog

/-- A text is the list of its code points, so indices and lengths count these. -/
abbrev Text := List CodePoint

namespace Text

/-- The text of characters. -/
def ofChars (chars : List Char) : Text := chars.map .char

/-- The text of a string. -/
def ofString (s : String) : Text := ofChars s.toList

/-- The text has a form in UTF-8: no character is half of a pair. -/
def isEncodable (text : Text) : Bool := text.all fun c => c.char?.isSome

/-- The string of a text without halves of pairs. -/
def toString? (text : Text) : Option String := (text.mapM CodePoint.char?).map String.ofList

end Text

instance : Coe String Text := ⟨Text.ofString⟩

namespace Text

/-- Order by code point: the first difference decides, and a text comes after those it extends. -/
def le : Text → Text → Bool
  | [], _ => true
  | _ :: _, [] => false
  | a :: s, b :: t => decide (a.toNat < b.toNat) || (a == b && le s t)

/-- The texts without repetitions, in ascending order. -/
def sortedDistinct (ts : List Text) : List Text := ts.eraseDups.mergeSort le

/-- The text has `part` as a run of consecutive characters. -/
def hasInfix (part : Text) : Text → Bool
  | [] => part.isEmpty
  | c :: s => part.isPrefixOf (c :: s) || hasInfix part s

/-- Replaces the occurrences of `part`, from left to right and without overlap; the first argument
is the number of characters that the last occurrence still covers. -/
def replaceFrom (part new : Text) : Nat → Text → Text
  | _, [] => []
  | covered + 1, _ :: s => replaceFrom part new covered s
  | 0, c :: s =>
    if part.isPrefixOf (c :: s) then new ++ replaceFrom part new (part.length - 1) s
    else c :: replaceFrom part new 0 s

/-- The text with every occurrence of the non-empty `part` replaced by `new`. -/
def replace (part new text : Text) : Text := replaceFrom part new 0 text

/-- The parts between the characters of a class; a text without one is its own only part. -/
def splitWhere (p : CodePoint → Bool) : Text → List Text
  | [] => [[]]
  | c :: s =>
    if p c then [] :: splitWhere p s
    else match splitWhere p s with
      | [] => [[c]]
      | part :: parts => (c :: part) :: parts

/-- The parts between separators. -/
def splitAt (separator : CodePoint) (text : Text) : List Text := splitWhere (· == separator) text

/-- What follows the last separator; the whole text if there is none. -/
def afterLast (separator : CodePoint) (text : Text) : Text :=
  (text.reverse.takeWhile (· != separator)).reverse

/-- The parts with a separator between neighbours. -/
def join (separator : Text) : List Text → Text
  | [] => []
  | [part] => part
  | part :: parts => part ++ separator ++ join separator parts

/-- Drops the trailing characters of a class. -/
def trimEndBy (p : CodePoint → Bool) (text : Text) : Text := (text.reverse.dropWhile p).reverse

/-- Drops the leading and the trailing characters of a class. -/
def trimBy (p : CodePoint → Bool) (text : Text) : Text := trimEndBy p (text.dropWhile p)

/-- The lines, each ended by a line feed. -/
def unlines (lines : List Text) : Text := lines.flatMap (· ++ "\n")

/-- A character a number of times. -/
def copies (n : Nat) (c : CodePoint) : Text := List.replicate n c

/-- The text with copies of a character before it, up to a width. -/
def padStart (width : Nat) (c : CodePoint) (text : Text) : Text :=
  copies (width - text.length) c ++ text

/-- The decimal numeral of a natural number. -/
def ofNat (n : Nat) : Text := ofChars (Nat.toDigits 10 n)

/-- The decimal numeral of an integer, with a leading minus sign below zero. -/
def ofInt : Int → Text
  | .ofNat n => ofNat n
  | .negSucc n => '-' :: ofNat (n + 1)

/-- The number that a run of decimal digits denotes. -/
def toNat (digits : Text) : Nat := digits.foldl (fun n c => 10 * n + (c.toNat - 48)) 0

/-- The value of a hexadecimal digit. -/
def hexDigit? (c : CodePoint) : Option Nat :=
  let n := c.toNat
  if 48 ≤ n ∧ n ≤ 57 then some (n - 48)
  else if 97 ≤ n ∧ n ≤ 102 then some (n - 87)
  else if 65 ≤ n ∧ n ≤ 70 then some (n - 55)
  else none

/-- The number that a run of hexadecimal digits denotes, if there are no other characters. -/
def hexNat? (digits : Text) : Option Nat :=
  digits.foldlM (fun n c => (16 * n + ·) <$> hexDigit? c) 0

/-- The hexadecimal numeral of a natural number, filled with zeros up to a width. -/
def hexOfNat (width n : Nat) : Text :=
  padStart width '0' (ofChars (Nat.toDigits 16 n))

end Text

/-- The longest numeral that has a value: numerals with more digits, leading zeros included, are
refused wherever a text is read as a decimal number. -/
def longestNumeral : Nat := 4300

end StringCatalog
