import StringCatalog.Config.Basic
import StringCatalog.Text.Digit

/-! The arguments of the command: an action, and options that may be shortened, take their values
behind an equality sign or as the next arguments, and come in any order. -/

namespace StringCatalog.CommandLine

/-- What the command is to do. -/
inductive Action where
  | generate
  | doctor
  | init
  deriving DecidableEq, Repr

namespace Action

/-- The word for an action. -/
def word : Action → Text
  | generate => "generate"
  | doctor => "doctor"
  | init => "init"

/-- What an action does. -/
def description : Action → Text
  | generate => "从 .xcstrings 生成 Swift LocalizationKey 访问代码"
  | doctor => "环境/配置/catalog 诊断（不写文件）"
  | init => "生成/校验配置 xcstrings_gen.yaml"

/-- All actions, in the order of the menu. -/
def all : List Action := [generate, doctor, init]

/-- The action of a word. -/
def ofWord? (w : Text) : Option Action := all.find? (·.word == w)

end Action

/-- The arguments of a run. Its root and its configuration file have names of their own where none
is given, but may be given without a value. -/
structure Invocation where
  action : Option Action
  projectRoot : Option Text
  config : Option Text
  input : Option Text
  output : Option Text
  diffs : List (Text × Text)
  accessLevel : Option Swift.AccessLevel
  strict : Bool
  includeDefaultValue : Bool
  dryRun : Bool

namespace Invocation

/-- The run without any argument. -/
def empty : Invocation :=
  ⟨none, some ".", some Config.fileName, none, none, [], none, false, false, false⟩

end Invocation

/-- Why there is no run: the arguments are wrong, or they ask for the version or for help. -/
inductive Halt where
  | badUsage
  | version
  | help
  deriving DecidableEq, Repr

/-- The options. -/
inductive Flag where
  | help
  | version
  | projectRoot
  | config
  | input
  | output
  | diff
  | accessLevel
  | strict
  | includeDefaultValue
  | dryRun
  deriving DecidableEq, Repr

namespace Flag

/-- The options with their names, the short one for help included. -/
def names : List (Text × Flag) :=
  [("-h", help), ("--help", help), ("--version", version), ("--project-root", projectRoot),
    ("--config", config), ("--input", input), ("--output", output), ("--diff", diff),
    ("--access-level", accessLevel), ("--strict", strict),
    ("--include-default-value", includeDefaultValue), ("--dry-run", dryRun)]

/-- The option of a full name. -/
def ofName? (name : Text) : Option Flag := (names.find? (·.1 == name)).map (·.2)

/-- The number of values that an option takes. -/
def arity : Flag → Nat
  | help | version | strict | includeDefaultValue | dryRun => 0
  | projectRoot | config | input | output | accessLevel => 1
  | diff => 2

/-- Enters an option with its values. -/
def apply (flag : Flag) (values : List Text) (inv : Invocation) : Except Halt Invocation :=
  match flag, values with
  | help, [] => .error .help
  | version, [] => .error .version
  | projectRoot, [v] => .ok { inv with projectRoot := some v }
  | config, [v] => .ok { inv with config := some v }
  | input, [v] => .ok { inv with input := some v }
  | output, [v] => .ok { inv with output := some v }
  | diff, [a, b] => .ok { inv with diffs := inv.diffs ++ [(a, b)] }
  | accessLevel, [v] =>
    match Swift.AccessLevel.all.find? (·.modifier == v) with
    | some level => .ok { inv with accessLevel := some level }
    | none => .error .badUsage
  | strict, [] => .ok { inv with strict := true }
  | includeDefaultValue, [] => .ok { inv with includeDefaultValue := true }
  | dryRun, [] => .ok { inv with dryRun := true }
  | _, _ => .error .badUsage

/-- Enters an option without a value in place of the value that it may have. -/
def withdraw (flag : Flag) (inv : Invocation) : Invocation :=
  match flag with
  | projectRoot => { inv with projectRoot := none }
  | config => { inv with config := none }
  | input => { inv with input := none }
  | output => { inv with output := none }
  | accessLevel => { inv with accessLevel := none }
  | help | version | diff | strict | includeDefaultValue | dryRun => inv

end Flag

/-- What an argument is taken for: a value, the mark behind which all are values, or an option,
known or not, perhaps with a value of its own behind an equality sign. -/
inductive Item where
  | value (v : Text)
  | separator
  | option (flag : Option Flag) (inner : Option Text)

namespace Item

/-- The argument begins as options do. -/
def isOption : Item → Bool
  | option _ _ => true
  | _ => false

/-- The part before the first equality sign, and the part behind it if there is one. -/
def splitEquals (s : Text) : Text × Option Text :=
  match s.dropWhile (· != .char '=') with
  | [] => (s, none)
  | _ :: rest => (s.takeWhile (· != .char '='), some rest)

/-- The short name for help with text right behind it, which must be further short names: any other
text counts as a value, which help does not take. -/
def shortHelp (behind : Text) : Flag × Option Text :=
  (.help, if !behind.isEmpty && behind.all (· == 'h') then none else some behind)

/-- The options that an argument may stand for: by the beginning of a long name, or by the short
name with text right behind it. -/
def matching (s : Text) : List (Flag × Option Text) :=
  match s with
  | .char '-' :: .char '-' :: _ =>
    let (start, inner) := splitEquals s
    (Flag.names.filter fun n => start.isPrefixOf n.1).map fun n => (n.2, inner)
  | _ =>
    if s.take 2 = "-h" then [shortHelp (s.drop 2)] else []

/-- A negative number, which is a value: a minus sign and digits, perhaps with a point before the
last of them; a line feed may follow. -/
def isNegativeNumber (s : Text) : Bool :=
  match s with
  | .char '-' :: rest =>
    let body := if rest.getLast? = some '\n' then rest.dropLast else rest
    let whole := body.takeWhile isDecimalDigit
    match body.dropWhile isDecimalDigit with
    | [] => !whole.isEmpty
    | .char '.' :: fraction => !fraction.isEmpty && fraction.all isDecimalDigit
    | _ => false
  | _ => false

/-- What an argument before the separator is taken for. -/
def ofArgument (s : Text) : Except Halt Item :=
  match s with
  | [] | [.char '-'] => .ok (value s)
  | .char '-' :: _ =>
    match Flag.ofName? s with
    | some flag => .ok (option (some flag) none)
    | none =>
      let (name, inner) := splitEquals s
      match inner, Flag.ofName? name with
      | some v, some flag =>
        let (flag, inner) := if name = "-h" then shortHelp v else (flag, some v)
        .ok (option (some flag) inner)
      | _, _ => match matching s with
        | [] =>
          if isNegativeNumber s || s.contains ' ' then .ok (value s) else .ok (option none none)
        | [(flag, v)] => .ok (option (some flag) v)
        | _ => .error .badUsage
  | _ => .ok (value s)

/-- What the arguments are taken for; all are looked at before any is entered. -/
def ofArguments : List Text → Except Halt (List Item)
  | [] => .ok []
  | s :: rest =>
    if s = "--" then .ok (separator :: rest.map value)
    else do
      let item ← ofArgument s
      let items ← ofArguments rest
      .ok (item :: items)

/-- The values at the beginning, if there are so many. -/
def takeValues : Nat → List Item → Option (List Text × List Item)
  | 0, items => some ([], items)
  | n + 1, value v :: rest => (takeValues n rest).map fun found => (v :: found.1, found.2)
  | _ + 1, _ => none

end Item

namespace Invocation

/-- Enters the word of an action. -/
def withAction (inv : Invocation) (w : Text) : Except Halt Invocation :=
  match Action.ofWord? w with
  | some action => .ok { inv with action := some action }
  | none => .error .badUsage

/-- Enters an option that holds its value, and so must take exactly one. Two hyphens are no value.
-/
def applyInner (flag : Flag) (inner : Text) (inv : Invocation) : Except Halt Invocation :=
  if flag.arity ≠ 1 then .error .badUsage
  else if inner = "--" then .ok (flag.withdraw inv)
  else flag.apply [inner] inv

/-- Enters the last arguments, none of which is an option: a word for the action, if none has been
entered, with the separator before or behind it. -/
def finish (inv : Invocation) (hasAction : Bool) (items : List Item) : Except Halt Invocation :=
  match hasAction, items with
  | _, [] | false, [.separator] => .ok inv
  | false, [.value w] | false, [.separator, .value w] | false, [.value w, .separator] =>
    inv.withAction w
  | _, _ => .error .badUsage

/-- Enters arguments one after another. Superfluous values and unknown options are wrong, but only
after the options behind them have been entered; the first argument bounds the number of steps. -/
def enter : Nat → Invocation → (hasAction superfluous : Bool) → List Item →
    Except Halt Invocation
  | 0, _, _, _, _ => .error .badUsage
  | bound + 1, inv, hasAction, superfluous, items =>
    if items.any Item.isOption then
      match items with
      | .option none _ :: rest => enter bound inv hasAction true rest
      | .option (some flag) (some inner) :: rest => do
        let inv ← inv.applyInner flag inner
        enter bound inv hasAction superfluous rest
      | .option (some flag) none :: rest =>
        match Item.takeValues flag.arity rest with
        | none => .error .badUsage
        | some (values, rest') => do
          let inv ← flag.apply values inv
          enter bound inv hasAction superfluous rest'
      | .value w :: rest =>
        if hasAction then enter bound inv hasAction true rest
        else do
          let inv ← inv.withAction w
          enter bound inv true superfluous rest
      | _ => .error .badUsage
    else do
      let inv ← inv.finish hasAction items
      if superfluous then .error .badUsage else .ok inv

/-- The run that the arguments ask for. -/
def ofArguments (arguments : List Text) : Except Halt Invocation := do
  let items ← Item.ofArguments arguments
  enter (items.length + 1) empty false false items

end Invocation

end StringCatalog.CommandLine
