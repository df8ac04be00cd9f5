import StringCatalog.Config.Basic
import StringCatalog.Value

/-! Reading a configuration from the members of a decoded document. -/

namespace StringCatalog

/-- Why the members give no configuration: a fault in a field, an integer whose numeral is too long
to be written where a text is wanted, or a text that is no path. -/
inductive ConfigFailure where
  | fault (f : ConfigFault)
  | numeralTooLong
  | path (f : PathFault)
  deriving DecidableEq

namespace Config

/-- The members of a mapping. -/
abbrev Members := List (Value × Value)

/-- The value of a field; null if there is none. -/
def field (name : Text) (members : Members) : Value := (Value.member? name members).getD .null

/-- A value as text without blanks around it, or `other` if that is empty or the value is null. -/
def textOr (other : Text) (v : Value) : Except ConfigFailure Text :=
  match v with
  | .null => .ok other
  | _ =>
    if v.isWritable then
      match v.display.trim with
      | [] => .ok other
      | t => .ok t
    else .error .numeralTooLong

/-- A path of the project: a text that is not blank. -/
def pathText (name : Text) (members : Members) : Except ConfigFailure Text :=
  match field name members with
  | .text t => if t.isBlankText then .error (.fault (.blankPath name)) else .ok t
  | _ => .error (.fault (.blankPath name))

/-- A path as seen from the project, made absolute. -/
def resolvePath (homeOf : Text → Option Path) (root : Path) (text : Text) :
    Except ConfigFailure Path := do
  let path ← ((Path.ofText text).expandHome homeOf).mapError .path
  (Path.resolve root path).mapError .path

/-- A character that may begin a type name. -/
def isNameStart (c : CodePoint) : Bool :=
  let n := c.toNat
  (65 ≤ n && n ≤ 90) || (97 ≤ n && n ≤ 122) || n == 95

/-- A character that may be in a type name. -/
def isNamePart (c : CodePoint) : Bool := isNameStart c || isAsciiDigit c || c == '.'

/-- A type name: letters, digits, underscores and dots, and first a letter or an underscore. -/
def isTypeName : Text → Bool
  | [] => false
  | c :: rest => isNameStart c && rest.all isNamePart

/-- The access level of the document, if it names one. -/
def accessLevelOf (members : Members) : Except ConfigFailure (Option Swift.AccessLevel) :=
  match textOr [] (field "access_level" members) with
  | .error _ => .error (.fault .accessNumeralTooLong)
  | .ok text => (Swift.AccessLevel.read (some text)).mapError fun e => .fault (.accessLevel e)

/-- The type name of the document. -/
def typeNameOf (members : Members) : Except ConfigFailure Text := do
  let name ← textOr Swift.defaultTypeName (field "type_name" members)
  if isTypeName name then .ok name else .error (.fault (.typeName name))

/-- A switch, off where it is not given. -/
def switch (name : Text) (members : Members) : Except ConfigFailure Bool :=
  match Value.member? name members with
  | none => .ok false
  | some (.bool b) => .ok b
  | some _ => .error (.fault (.optionNotBool name))

/-- The width of an indentation, from one to eight. -/
def indentOf (members : Members) : Except ConfigFailure Nat :=
  match Value.member? "indent" members with
  | none => .ok Options.default.indent
  | some (.int i) =>
    if 1 ≤ i ∧ i ≤ 8 then .ok i.toNat else .error (.fault .indentOutOfRange)
  | some _ => .error (.fault .indentOutOfRange)

/-- The options of the document. -/
def optionsOf (members : Members) : Except ConfigFailure Options := do
  let value := field "options" members
  let given ← if value.isFalsy then .ok [] else match value with
    | .mapping ms => .ok ms
    | _ => .error (.fault .optionsNotObject)
  let indent ← indentOf given
  let includeDefaultValue ← switch "include_default_value" given
  let strict ← switch "strict" given
  let skipStale ← switch "skip_stale" given
  .ok ⟨includeDefaultValue, strict, skipStale, indent⟩

/-- An item of the list of further targets. -/
def diffOf (homeOf : Text → Option Path) (root : Path) (index : Nat) :
    Value → Except ConfigFailure Target
  | .mapping item => do
    let input ← textOr [] (field "input" item)
    let output ← textOr [] (field "output" item)
    if input = [] ∨ output = [] then .error (.fault (.diffIncomplete index))
    else
      let input ← resolvePath homeOf root input
      let output ← resolvePath homeOf root output
      .ok ⟨input, output⟩
  | _ => .error (.fault (.diffNotObject index))

/-- The further targets of the document. -/
def diffsOf (homeOf : Text → Option Path) (root : Path) (members : Members) :
    Except ConfigFailure (List Target) :=
  let value := field "diffs" members
  if value.isFalsy then .ok []
  else match value with
    | .list items => items.zipIdx.mapM fun item => diffOf homeOf root item.2 item.1
    | _ => .error (.fault .diffsNotList)

/-- The configuration that the members of a document give for the project at `root`. -/
def ofMembers (homeOf : Text → Option Path) (root : Path) (members : Members) :
    Except ConfigFailure Config := do
  let input ← pathText "input" members
  let output ← pathText "output" members
  let accessLevel ← accessLevelOf members
  let typeName ← typeNameOf members
  let options ← optionsOf members
  let diffs ← diffsOf homeOf root members
  let input ← resolvePath homeOf root input
  let output ← resolvePath homeOf root output
  .ok ⟨root, ⟨input, output⟩, accessLevel, typeName, options, diffs⟩

end Config

end StringCatalog
