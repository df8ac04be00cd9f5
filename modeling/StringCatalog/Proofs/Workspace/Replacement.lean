import StringCatalog.Proofs.Workspace.Output

/-! A write as a whole. It replaces its file or leaves it alone, and of all other files it touches
none but one that stands in the place of its temporary file. -/

namespace StringCatalog.FileJob

variable {directory : Location} {p : Path} {text : Text} {tree before after : FileTree} {dry : Bool}

/-! ### What is elsewhere -/

theorem place_notMem_aside (directory : Location) (p : Path) :
    p.place directory ∉ [aside directory p] := fun hmem =>
  aside_ne_place directory p (List.mem_singleton.mp hmem).symm

/-- A write that fails leaves what its path leads to as it was. Only a path that leads through a
directory that is missing, and out of it again, may lead somewhere afterwards. -/
theorem find?_eq_of_frame
    (h : FileTree.Frame (p.parent.way directory) [aside directory p] tree after)
    (hrooted : tree.IsRooted) (hdirectory : tree.at? directory = some .directory)
    (hp : tree.find? directory p.parent = some .directory ∨ Text.ofString ".." ∉ p.parts) :
    after.find? directory p = tree.find? directory p := by
  rcases hp with hparent | hdots
  · exact h.find?_eq_of_parent hparent (place_notMem_aside directory p)
  · rcases h.find?_eq_of_notMem hrooted hdots (place_notMem_aside directory p) with
      hsame | ⟨hnone, hfound, hmade⟩
    · exact hsame
    · by_cases hparts : p.parts = []
      · -- the path leads to the directory that it is seen from, or to the root
        have hbase : tree.at? (p.place directory) = some .directory := by
          rw [Path.place, hparts, Path.follow_nil]
          split
          · rfl
          · exact hdirectory
        have hlocate : after.locate directory p = tree.locate directory p :=
          FileTree.locate_eq_of_nil hparts directory
        have hplace := hlocate ▸ (FileTree.find?_eq_some_iff.mp hfound).1
        rw [FileTree.find?_eq_some_iff.mpr ⟨hplace, hbase⟩] at hnone
        contradiction
      · exact absurd hmade (Path.place_notMem_way_parent hdots hparts directory)

/-- What a write has done when it ends with `r`. -/
structure IsAtomic (directory : Location) (p : Path) (text : Text) (dry : Bool) (before : FileTree)
    (r : Except Failure Bool) (after : FileTree) : Prop where
  /-- A dry run changes nothing. -/
  rehearsed : dry = true → after = before
  /-- Where it fails, the path leads to what it led to, be that nothing. -/
  failed : ∀ f, r = .error f →
    before.find? directory p.parent = some .directory ∨ Text.ofString ".." ∉ p.parts →
      after.find? directory p = before.find? directory p
  /-- Where it fails, a file at the place of the path is left with its bytes, and none has come. -/
  kept : ∀ f, r = .error f → ∀ bytes, after.at? (p.place directory) = some (.file bytes) ↔
    before.at? (p.place directory) = some (.file bytes)
  /-- Where there was nothing to write, the file had the text, be it with other line ends. -/
  held : r = .ok false → after = before ∧ ∃ bytes old,
    before.find? directory p = some (.file bytes) ∧ FileTree.decode? bytes = some old ∧
      old.unifyNewlines = text
  /-- Where it has written, the file has the bytes of the text. -/
  written : r = .ok true → dry = false → after.HasBytes directory p text
  /-- Behind a write of a text without carriage returns there is nothing to write. -/
  again : ∀ changed, r = .ok changed → (changed = true → dry = false) →
    CodePoint.char '\r' ∉ text → ∀ dry', Completes (write directory p text dry') after false after

theorem IsAtomic.error (hrooted : before.IsRooted)
    (hdirectory : before.at? directory = some .directory)
    (h : FileTree.Frame (p.parent.way directory) [aside directory p] before after) (f : Failure) :
    IsAtomic directory p text false before (.error f) after := by
  refine ⟨nofun, fun _ _ => find?_eq_of_frame h hrooted hdirectory, fun _ _ bytes => ?_, nofun,
    nofun, nofun⟩
  rcases h.elsewhere _ (place_notMem_aside directory p) with hsame | ⟨hnone, hmade, -⟩
  · rw [hsame]
  · simp [hnone, hmade]

end StringCatalog.FileJob
