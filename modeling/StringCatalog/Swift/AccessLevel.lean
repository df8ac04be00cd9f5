import StringCatalog.Text.Blank
import StringCatalog.Text.LetterCase

/-! Access levels of generated code. -/

namespace StringCatalog.Swift

/-- Who may use a declaration. -/
inductive AccessLevel where
  | internal
  | «public»
  | package
  deriving DecidableEq, Repr

/-- The text that names no access level. -/
structure UnknownAccessLevel where
  value : Text
  deriving DecidableEq

namespace AccessLevel

/-- The modifier of a declaration. -/
def modifier : AccessLevel → Text
  | internal => "internal"
  | «public» => "public"
  | package => "package"

/-- All levels, the default first. -/
def all : List AccessLevel := [internal, «public», package]

/-- The level that a text names, whatever the case and the blanks around it. Nothing, or blanks
only, name none. -/
def read (value : Option Text) : Except UnknownAccessLevel (Option AccessLevel) :=
  let text := value.getD []
  let word := text.trim.lower
  if word = [] then .ok none
  else match all.find? (·.modifier == word) with
    | some level => .ok (some level)
    | none => .error ⟨text⟩

/-- The level named by the first of several texts that names one. Texts after it are not looked
at. -/
def resolve : List (Option Text) → Except UnknownAccessLevel AccessLevel
  | [] => .ok internal
  | value :: rest =>
    match read value with
    | .error e => .error e
    | .ok (some level) => .ok level
    | .ok none => resolve rest

end AccessLevel

namespace UnknownAccessLevel

/-- The sentence that tells of an unknown level and lists the known ones. -/
def message (e : UnknownAccessLevel) : Text :=
  "未知 access level：" ++ e.value ++ "（可选：" ++
    Text.join ", " (AccessLevel.all.map AccessLevel.modifier) ++ "）"

end UnknownAccessLevel

end StringCatalog.Swift
