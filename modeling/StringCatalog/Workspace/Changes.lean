import StringCatalog.Workspace.FileTree

/-! The difference between two trees of files. -/

namespace StringCatalog

/-- What is at a place after a run, where it is not what was there before. -/
structure FileChange where
  place : Location
  node : Option FileNode
  deriving DecidableEq

namespace FileTree

/-- What a tree has at a place that another tree does not have there, in the order of its making. -/
def additions (before after : FileTree) : List FileChange :=
  (after.nodes.reverse.filter fun n => before.at? n.1 != some n.2).map fun n => ⟨n.1, some n.2⟩

/-- The places where a tree has nothing and another tree has something. -/
def removals (before after : FileTree) : List FileChange :=
  (before.nodes.filter fun n => (after.at? n.1).isNone).map fun n => ⟨n.1, none⟩

/-- All differences between two trees. -/
def changes (before after : FileTree) : List FileChange :=
  removals before after ++ additions before after

end FileTree

end StringCatalog
