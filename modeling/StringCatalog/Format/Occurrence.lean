import StringCatalog.Format.Specifier
import StringCatalog.GenerationError

/-! Specifiers as they are told of: what they look like, what they take, and where they stand in a
text. There is nothing to tell of a text in which a position has no value. -/

namespace StringCatalog

/-- What is told of a specifier in a text. -/
structure Occurrence where
  text : Text
  position : Option Nat
  kind : ArgumentKind
  start : Nat
  stop : Nat
  deriving DecidableEq

namespace Occurrence

/-- What a match shows. -/
def ofMatch (m : SpecifierMatch) : Occurrence :=
  ⟨m.specifier.text, m.specifier.position, m.specifier.kind, m.start, m.stop⟩

/-- What is told of a match, whose position must have a value. -/
def tell (m : SpecifierMatch) : Except GenerationFailure Occurrence :=
  if m.specifier.isOverlong then .error .numeralTooLong else .ok (ofMatch m)

/-- The specifier that begins exactly at an index. -/
def at? (text : Text) (index : Int) : Except GenerationFailure (Option Occurrence) :=
  match SpecifierMatch.at? text index with
  | some m => (tell m).map some
  | none => .ok none

/-- All specifiers of a text, from left to right. -/
def all (text : Text) : Except GenerationFailure (List Occurrence) :=
  (SpecifierMatch.all text).mapM tell

end Occurrence

end StringCatalog
