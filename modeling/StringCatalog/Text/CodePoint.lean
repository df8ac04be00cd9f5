/-! Code points, the units of texts: characters, and halves of pairs that stand alone. -/

namespace StringCatalog

/-- A character, or half of a surrogate pair that stands alone. An escape can name such a half, but
no file of text holds one. -/
inductive CodePoint where
  | char (c : Char)
  | half (index : Fin 0x800)
  deriving DecidableEq, Repr

instance : Coe Char CodePoint := ⟨.char⟩

namespace CodePoint

/-- The number of a code point. The halves have those between the two ranges of characters. -/
def toNat : CodePoint → Nat
  | char c => c.toNat
  | half i => 0xD800 + i.val

/-- The code point of a number. -/
def ofNat (n : Nat) : CodePoint :=
  if h : 0xD800 ≤ n ∧ n < 0xE000 then half ⟨n - 0xD800, by omega⟩ else char (Char.ofNat n)

/-- The character that a code point is. -/
def char? : CodePoint → Option Char
  | char c => some c
  | half _ => none

/-- The code point is the first half of a pair. -/
def isFirstHalf (c : CodePoint) : Bool := Nat.ble 0xD800 c.toNat && Nat.blt c.toNat 0xDC00

/-- The code point is the second half of a pair. -/
def isSecondHalf (c : CodePoint) : Bool := Nat.ble 0xDC00 c.toNat && Nat.blt c.toNat 0xE000

/-- The code point is a half that stands for a byte, where the bytes of a name are no text. -/
def isByte (c : CodePoint) : Bool := Nat.ble 0xDC80 c.toNat && Nat.ble c.toNat 0xDCFF

/-- The number of bytes of a code point in UTF-8; a half stands for one. -/
def byteCount : CodePoint → Nat
  | char c => c.utf8Size
  | half _ => 1

/-- The character that two halves make up. -/
def ofHalves (first second : CodePoint) : CodePoint :=
  ofNat (0x10000 + (first.toNat - 0xD800) * 0x400 + (second.toNat - 0xDC00))

end CodePoint

end StringCatalog
