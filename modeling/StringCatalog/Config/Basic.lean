import StringCatalog.Path
import StringCatalog.Swift.Declaration

/-! The configuration of a project. -/

namespace StringCatalog

/-- Switches of a run, and the width of an indentation. -/
structure Options where
  includeDefaultValue : Bool
  strict : Bool
  skipStale : Bool
  indent : Nat
  deriving DecidableEq

namespace Options

/-- The options where none are given. -/
def default : Options := ⟨false, false, false, 2⟩

end Options

/-- A catalog and the source file to write for it. -/
structure Target where
  input : Path
  output : Path
  deriving DecidableEq

/-- What is generated from what, and how. All paths are absolute. -/
structure Config where
  projectRoot : Path
  main : Target
  accessLevel : Option Swift.AccessLevel
  typeName : Text
  options : Options
  diffs : List Target

namespace Config

/-- The name of the configuration file. -/
def fileName : Text := "xcstrings_gen.yaml"

/-- The name of the environment variable that sets the access level. -/
def accessVariable : Text := "XCSTRINGS_GEN_ACCESS_LEVEL"

/-- The configuration with nothing but a catalog and a source file given. -/
def ofTarget (root : Path) (target : Target) : Config :=
  ⟨root, target, none, Swift.defaultTypeName, .default, []⟩

end Config

/-- What is wrong with a field of a configuration. -/
inductive ConfigFault where
  | blankPath (field : Text)
  | accessLevel (e : Swift.UnknownAccessLevel)
  | accessNumeralTooLong
  | typeName (name : Text)
  | optionsNotObject
  | indentOutOfRange
  | optionNotBool (field : Text)
  | diffsNotList
  | diffNotObject (index : Nat)
  | diffIncomplete (index : Nat)
  deriving DecidableEq

namespace ConfigFault

/-- The sentence that tells of a fault. -/
def message : ConfigFault → Text
  | blankPath field => field ++ " 必须是非空字符串"
  | accessLevel e => e.message
  | accessNumeralTooLong =>
    "Exceeds the limit (" ++ Text.ofNat longestNumeral ++
      " digits) for integer string conversion; use sys.set_int_max_str_digits()" ++
      " to increase the limit"
  | typeName name => "type_name 不是合法的 Swift 类型名：" ++ name
  | optionsNotObject => "options 必须是 object"
  | indentOutOfRange => "options.indent 必须是 1~8 的整数"
  | optionNotBool field => "options." ++ field ++ " 必须是 true/false"
  | diffsNotList => "diffs 必须是数组 list"
  | diffNotObject index => "diffs[" ++ Text.ofNat index ++ "] 必须是 object"
  | diffIncomplete index => "diffs[" ++ Text.ofNat index ++ "] 需要同时提供 input 和 output"

end ConfigFault

/-- Why there is no configuration. -/
inductive ConfigError where
  /-- There is no file. -/
  | missing (path : Path)
  /-- The file is not in the language, for a reason that its reader gives. -/
  | malformed (path : Path) (reason : Text)
  /-- The document is not a mapping. -/
  | notMapping
  /-- A field of the document has a fault. -/
  | invalid (path : Path) (fault : ConfigFault)
  /-- The command line names a catalog and no source file, and there is no configuration file. -/
  | noOutput
  /-- The command line or the environment names an unknown access level. -/
  | accessLevel (e : Swift.UnknownAccessLevel)
  deriving DecidableEq

namespace ConfigError

/-- The sentences that tell of an error and of a remedy. -/
def message : ConfigError → Text
  | missing path =>
    "配置文件不存在：" ++ path.display ++
      "\n解决方法：运行 `xcstrings_gen init` 生成默认配置，或直接用 --input/--output。"
  | malformed path reason =>
    "配置文件无法解析为 YAML：" ++ path.display ++ "\n原因：" ++ reason ++
      "\n解决方法：修复 YAML 格式或运行 `xcstrings_gen init` 重新生成。"
  | notMapping => "配置文件格式错误：顶层必须是 mapping/object"
  | invalid path fault =>
    "配置文件校验失败：" ++ path.display ++ "\n原因：" ++ fault.message ++
      "\n解决方法：修复配置字段/类型，或运行 `xcstrings_gen init` 重新生成。"
  | noOutput => "使用 --input 且没有配置文件时，必须同时提供 --output"
  | accessLevel e =>
    e.message ++ "\n解决方法：检查 --access-level 或环境变量 " ++ Config.accessVariable ++ "。"

end ConfigError

end StringCatalog
