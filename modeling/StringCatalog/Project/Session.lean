import StringCatalog.Workspace.Output

/-! Sessions: runs that change files and print lines, and may end in a failure. -/

namespace StringCatalog

/-- What a session changes: the files, and the text printed so far. -/
structure World where
  files : FileTree
  printed : Text

/-- A run that changes files and prints lines. What it did before a failure stays done. -/
abbrev Session := ExceptT Failure (StateM World)

namespace Session

/-- Prints a line. Of one that has no form in UTF-8 nothing is printed. -/
def say (line : Text) : Session Unit := do
  if line.isEncodable then modify fun w => { w with printed := w.printed ++ line ++ "\n" }
  else throw (.unprintable line)

/-- The files as they are. -/
def files : Session FileTree := do
  let w ← get
  return w.files

/-- Works on the files. -/
def onFiles {α : Type} (job : FileJob α) : Session α := do
  let w ← get
  let (result, tree) := job.run.run w.files
  set { w with files := tree }
  ofExcept result

end Session

end StringCatalog
