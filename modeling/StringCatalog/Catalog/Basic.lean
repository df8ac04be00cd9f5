import StringCatalog.Json.Basic
import StringCatalog.Path

/-! String catalogs, reduced to their source language. -/

namespace StringCatalog

/-- The texts of a localization that varies, each with the path of names that leads to it. -/
abbrev Variations := List (Text × Text)

namespace Variations

/-- The label is that of the general case: its last name is `other`. -/
def isOther (label : Text) : Bool := Text.afterLast '.' label == "other"

/-- The text of the first general case. -/
def other? (vs : Variations) : Option Text := (vs.find? (isOther ·.1)).map (·.2)

end Variations

/-- A named part of a text that varies with an argument of its own. In its texts, `%arg` stands for
that argument. -/
structure Substitution where
  name : Text
  format : Text
  argNum : Option Int
  variations : Variations
  deriving DecidableEq

namespace Substitution

/-- What stands for the argument in the texts of a substitution. -/
def argToken : Text := "%arg"

/-- The specifier of the argument, with its number if positions are wanted and there is one. -/
def specifier (s : Substitution) (positional : Bool) : Text :=
  match positional, s.argNum with
  | true, some n => if n = 0 then "%" ++ s.format else "%" ++ Text.ofInt n ++ "$" ++ s.format
  | _, _ => "%" ++ s.format

/-- A text with the specifier in place of `%arg`. -/
def resolve (s : Substitution) (positional : Bool) (text : Text) : Text :=
  Text.replace argToken (s.specifier positional) text

/-- All texts of the substitution. -/
def texts (s : Substitution) (positional : Bool) : List Text :=
  s.variations.map fun v => s.resolve positional v.2

/-- The text of the general case; without one, the last text. -/
def primary? (s : Substitution) (positional : Bool) : Option Text :=
  match s.variations.other? with
  | some text => some (s.resolve positional text)
  | none => (s.variations.getLast?).map fun v => s.resolve positional v.2

end Substitution

/-- A key with what the catalog says of it in the source language. -/
structure CatalogEntry where
  key : Text
  value : Option Text
  variations : Variations
  substitutions : List Substitution
  comment : Option Text
  extractionState : Json

namespace CatalogEntry

/-- The key is no longer used in the sources. -/
def isStale (e : CatalogEntry) : Bool :=
  match e.extractionState with
  | .text t => t == "stale"
  | _ => false

/-- The text that stands for the entry: its value, the general or else the first of its variations,
or the key itself. -/
def defaultText (e : CatalogEntry) : Text :=
  match e.value with
  | some text => text
  | none => match e.variations.other? with
    | some text => text
    | none => match e.variations with
      | v :: _ => v.2
      | [] => e.key

/-- The texts of the entry: its value, or each of its variations, or the key itself. -/
def baseTexts (e : CatalogEntry) : List Text :=
  match e.value with
  | some text => [text]
  | none => match e.variations with
    | [] => [e.key]
    | vs => vs.map (·.2)

end CatalogEntry

/-- A string catalog. -/
structure Catalog where
  sourceLanguage : Text
  entries : List CatalogEntry
  version : Text
  path : Option Path

namespace Catalog

/-- The name of the table: that of the file, without its extension. -/
def tableName (c : Catalog) : Text :=
  match c.path with
  | some path => path.stem
  | none => "Localizable"

/-- The keys, in the order of the catalog. -/
def keys (c : Catalog) : List Text := c.entries.map (·.key)

end Catalog

end StringCatalog
