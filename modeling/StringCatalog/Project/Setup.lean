import StringCatalog.Project.Session

/-! Setting up a project: its first configuration file. -/

namespace StringCatalog.Project

open Session

/-- The lines of a first configuration file, with comments for its reader. -/
def templateLines : List String :=
  ["# xcstrings_gen.yaml",
    "# ---------------------------------------------",
    "# String Catalog(.xcstrings) -> Swift 强类型 LocalizationKey 生成配置",
    "# 路径均相对 project-root（默认当前目录）",
    "# ---------------------------------------------",
    "",
    "# 主 String Catalog",
    "input: Resources/Localizable.xcstrings",
    "",
    "# 生成的 Swift 文件",
    "output: Sources/Generated/Localizable.swift",
    "",
    "# 访问控制：internal / public / package",
    "# 优先级：--access-level > 环境变量 XCSTRINGS_GEN_ACCESS_LEVEL > 这里 > internal",
    "access_level: internal",
    "",
    "# 生成代码所扩展的类型名（需在工程中自行定义）",
    "type_name: LocalizationKey",
    "",
    "# 工具行为开关",
    "options:",
    "  # 同时生成 defaultValue 参数（用 raw string 还原带插值的原文）",
    "  include_default_value: false",
    "  # 任一 key 无法生成（参数类型冲突/位置不连续等）即失败；默认跳过该 key 并提示",
    "  strict: false",
    "  # 跳过 extractionState 为 stale 的 key",
    "  skip_stale: false",
    "  # Swift 缩进空格数",
    "  indent: 2",
    "",
    "# 差异 catalog：只为主 catalog 中不存在的 key 生成代码",
    "diffs: []",
    "#  - input: Resources/Feature.xcstrings",
    "#    output: Sources/Generated/Feature.swift"]

/-- The text of a first configuration file. -/
def template : Text := Text.unlines (templateLines.map Text.ofString)

/-- Writes a first configuration file where there is none, and otherwise checks the one that is
there; the result is whether one was written. -/
def setUp (env : Environment) (file : Path) : Session Bool := do
  let file ← ofExcept (Environment.resolve env.directory file)
  if ← ofExcept ((← files).pathExists env.place file) then
    let _ ← ofExcept ((← files).readConfig env file none)
    return false
  else
    onFiles do
      let _ ← FileJob.makeDirectories env.place FileJob.deepest file.parent
      FileJob.create env.place file template
    return true

end StringCatalog.Project
