import StringCatalog.Catalog.Basic
import StringCatalog.Text.Blank
import StringCatalog.Text.Quoted

/-! Reading a catalog from its JSON value. Null stands for what is absent, and only the localization
of the source language is looked at. Every reader is told the file that the value comes from, for
its errors to name. -/

namespace StringCatalog

/-- What keeps a JSON value from being a catalog; `place` says where in the value. -/
inductive CatalogFault where
  | notObject (place kind : Text)
  | valueNotText (place : Text)
  | argNumNotPositive (place : Text)
  | formatNotText (place : Text)
  | noSourceLanguage
  deriving DecidableEq

namespace CatalogFault

/-- The sentence that tells of a fault. -/
def message : CatalogFault → Text
  | notObject place kind => place ++ " 必须是 object，实际是 " ++ kind
  | valueNotText place => place ++ ".stringUnit.value 必须是字符串"
  | argNumNotPositive place => place ++ ".argNum 必须是正整数"
  | formatNotText place => place ++ ".formatSpecifier 必须是字符串"
  | noSourceLanguage => "缺少 sourceLanguage"

end CatalogFault

/-- Why there is no catalog: no file, a file that is not read as JSON, or a fault in the value. -/
inductive CatalogError where
  | missing (path : Path)
  | unreadable (path : Path) (detail : Text)
  | invalid (source : Option Path) (fault : CatalogFault)
  deriving DecidableEq

namespace CatalogError

/-- The sentence that tells of an error. It names the file, if there is one. -/
def message : CatalogError → Text
  | missing path => "未找到 String Catalog：" ++ path.display
  | unreadable path detail => path.display ++ ": 解析失败：" ++ detail
  | invalid (some path) fault => path.display ++ ": " ++ fault.message
  | invalid none fault => fault.message

end CatalogError

namespace Catalog

/-- The members of an object. -/
abbrev Members := OrderedMap Text Json

/-- The value of a member; null if there is none. -/
def member (name : Text) (members : Members) : Json :=
  (OrderedMap.get? members name).getD .null

/-- The members of an object, or of null, which has none. -/
def asObject (source : Option Path) (place : Text) : Json → Except CatalogError Members
  | .null => .ok []
  | .object members => .ok members
  | other => .error (.invalid source (.notObject place other.kindWord))

/-- The text of a node, if its string unit has one. -/
def stringUnit (source : Option Path) (place : Text) (node : Members) :
    Except CatalogError (Option Text) := do
  match ← asObject source (place ++ ".stringUnit") (member "stringUnit" node) with
  | [] => .ok none
  | unit => match member "value" unit with
    | .text value => .ok (some value)
    | _ => .error (.invalid source (.valueNotText place))

mutual

/-- The texts below a list of axes, such as `plural` and `device`; the labels begin with `label`. -/
def flattenAxes (source : Option Path) (place label : Text) :
    List (Text × Json) → Except CatalogError Variations
  | [] => .ok []
  | (axis, cases) :: rest => do
    let here ← flattenAxis source place label axis cases
    let later ← flattenAxes source place label rest
    .ok (here ++ later)
termination_by structural axes => axes

/-- The texts below one axis. -/
def flattenAxis (source : Option Path) (place label axis : Text) :
    Json → Except CatalogError Variations
  | .null => .ok []
  | .object cases => flattenCases source place (label ++ axis ++ ".") cases
  | other =>
    .error (.invalid source (.notObject (place ++ ".variations." ++ axis) other.kindWord))
termination_by structural cases => cases

/-- The texts below the cases of an axis. -/
def flattenCases (source : Option Path) (place label : Text) :
    List (Text × Json) → Except CatalogError Variations
  | [] => .ok []
  | (case, node) :: rest => do
    let here ← flattenCase source place (label ++ case) node
    let later ← flattenCases source place label rest
    .ok (here ++ later)
termination_by structural cases => cases

/-- The text of a case, and then those of the axes nested in it. -/
def flattenCase (source : Option Path) (place label : Text) :
    Json → Except CatalogError Variations
  | .null => .ok []
  | .object node => do
    let value ← stringUnit source (place ++ "." ++ label) node
    let nested ← flattenNested source place label node
    .ok ((value.map (label, ·)).toList ++ nested)
  | other => .error (.invalid source (.notObject (place ++ "." ++ label) other.kindWord))
termination_by structural node => node

/-- The texts below the member `variations` of a node. -/
def flattenNested (source : Option Path) (place label : Text) :
    List (Text × Json) → Except CatalogError Variations
  | [] => .ok []
  | (name, axes) :: rest =>
    if name = "variations" then flattenBelow source place label axes
    else flattenNested source place label rest
termination_by structural node => node

/-- The texts below the axes nested in a case. -/
def flattenBelow (source : Option Path) (place label : Text) :
    Json → Except CatalogError Variations
  | .null => .ok []
  | .object axes => flattenAxes source place (label ++ ".") axes
  | other =>
    .error (.invalid source
      (.notObject (place ++ "." ++ label ++ ".variations") other.kindWord))
termination_by structural axes => axes

end

/-- The variations of a localization or of a substitution. -/
def variationsOf (source : Option Path) (place : Text) (owner : Members) :
    Except CatalogError Variations := do
  let axes ← asObject source (place ++ ".variations") (member "variations" owner)
  flattenAxes source place [] axes

/-- The number of an argument: absent, or a positive integer. -/
def argNumOf (source : Option Path) (place : Text) : Json → Except CatalogError (Option Int)
  | .null => .ok none
  | .int n =>
    if n < 1 then .error (.invalid source (.argNumNotPositive place)) else .ok (some n)
  | _ => .error (.invalid source (.argNumNotPositive place))

/-- The format of an argument: a text, or `@` for what is absent or empty. -/
def formatOf (source : Option Path) (place : Text) (format : Json) : Except CatalogError Text :=
  if format.isFalsy then .ok "@"
  else match format with
    | .text t => .ok t
    | _ => .error (.invalid source (.formatNotText place))

/-- A substitution of a localization. -/
def substitutionOf (source : Option Path) (place : Text) (named : Text × Json) :
    Except CatalogError Substitution := do
  let here := place ++ ".substitutions." ++ named.1
  let members ← asObject source here named.2
  let argNum ← argNumOf source here (member "argNum" members)
  let format ← formatOf source here (member "formatSpecifier" members)
  let variations ← variationsOf source here members
  .ok ⟨named.1, format, argNum, variations⟩

/-- The comment of an entry as text. -/
def commentOf : Json → Option Text
  | .null => none
  | comment => some comment.display

/-- An entry of a catalog with the given source language. Without a localization in that language
the key is the text. -/
def entryOf (source : Option Path) (language : Text) (named : Text × Json) :
    Except CatalogError CatalogEntry := do
  let place := "strings[" ++ named.1.quoted ++ "]"
  let members ← asObject source place named.2
  let comment := commentOf (member "comment" members)
  let state := member "extractionState" members
  let localizations ← asObject source (place ++ ".localizations") (member "localizations" members)
  let here := place ++ ".localizations." ++ language
  match ← asObject source here (member language localizations) with
  | [] => .ok ⟨named.1, none, [], [], comment, state⟩
  | localization =>
    let value ← stringUnit source here localization
    let variations ← variationsOf source here localization
    let subs ← asObject source (here ++ ".substitutions") (member "substitutions" localization)
    let substitutions ← subs.mapM (substitutionOf source here)
    .ok ⟨named.1, value, variations, substitutions, comment, state⟩

/-- The source language: a text that is not blank. -/
def languageOf (source : Option Path) (members : Members) : Except CatalogError Text :=
  match member "sourceLanguage" members with
  | .text t => if t.isBlankText then .error (.invalid source .noSourceLanguage) else .ok t
  | _ => .error (.invalid source .noSourceLanguage)

/-- The version as text; `1.0` for what is absent or empty. -/
def versionOf (members : Members) : Text :=
  let version := member "version" members
  if version.isFalsy then "1.0" else version.display

/-- The catalog that a JSON value is, read from a file at the given path. -/
def ofJson (value : Json) (source : Option Path) : Except CatalogError Catalog := do
  let members ← asObject source "catalog" value
  let language ← languageOf source members
  let strings ← asObject source "strings" (member "strings" members)
  let entries ← strings.mapM (entryOf source language)
  .ok ⟨language, entries, versionOf members, source⟩

end Catalog

end StringCatalog
