import StringCatalog.Text.Basic

/-! The kinds of arguments that format specifiers ask for. -/

namespace StringCatalog

/-- What a format specifier takes as its argument. -/
inductive ArgumentKind where
  | object
  | int
  | uint
  | double
  | char
  | cstring
  | pointer
  deriving DecidableEq, Repr

namespace ArgumentKind

/-- The word for a kind in messages. -/
def name : ArgumentKind → Text
  | object => "object"
  | int => "int"
  | uint => "uint"
  | double => "double"
  | char => "char"
  | cstring => "cstring"
  | pointer => "pointer"

/-- The coarser class of a kind. -/
def family : ArgumentKind → Text
  | object => "object"
  | int | uint => "integer"
  | double => "float"
  | char | cstring | pointer => "string"

/-- All kinds, in the order of their names. -/
def all : List ArgumentKind := [char, cstring, double, int, object, pointer, uint]

/-- The kinds of a list, each once, in the order of their names. -/
def distinct (kinds : List ArgumentKind) : List ArgumentKind := all.filter (kinds.contains ·)

/-- The kind that a conversion letter stands for. -/
def ofLetter? : CodePoint → Option ArgumentKind
  | .char '@' => some object
  | .char 'd' | .char 'i' => some int
  | .char 'o' | .char 'u' | .char 'x' => some uint
  | .char 'a' | .char 'e' | .char 'f' | .char 'g' => some double
  | .char 'c' => some char
  | .char 's' => some cstring
  | .char 'p' => some pointer
  | _ => none

/-- The kind of a conversion: its last letter decides, and length modifiers do not matter. -/
def ofConversion? (conversion : Text) : Option ArgumentKind :=
  conversion.getLast?.bind ofLetter?

end ArgumentKind

end StringCatalog
