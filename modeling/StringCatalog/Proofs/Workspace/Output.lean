import StringCatalog.Proofs.Outcome
import StringCatalog.Proofs.Text.Lines
import StringCatalog.Proofs.Workspace.Files
import StringCatalog.Workspace.Output

/-! What writing a file does to the files. It is done as a whole or not at all: where it fails,
nothing is replaced but the temporary file, and where it goes through, the file has the bytes of the
text. Either way there may be directories on the way where nothing was. -/

namespace StringCatalog

variable {directory : Location} {p : Path} {text : Text} {tree : FileTree}

namespace FileTree

/-- The file at a path has the bytes of a text. -/
def HasBytes (tree : FileTree) (directory : Location) (p : Path) (text : Text) : Prop :=
  ∃ bytes, encode? text = some bytes ∧ tree.find? directory p = some (.file bytes)

/-- A text without carriage returns is read back from its bytes. -/
theorem readText_of_hasBytes (h : tree.HasBytes directory p text)
    (hreturn : CodePoint.char '\r' ∉ text) : tree.readText directory p = .ok text := by
  obtain ⟨bytes, hencode, hfind⟩ := h
  exact readText_eq_ok_iff.mpr ⟨bytes, text, hfind, decode?_of_encode? hencode,
    Text.unifyNewlines_of_notMem hreturn⟩

/-- A path without names leads to where it begins. -/
theorem parts_ne_nil_of_locate (h : tree.locate directory p = .error .notFound) :
    p.parts ≠ [] := by
  intro hnil
  unfold locate at h
  rw [hnil] at h
  split at h <;> contradiction

end FileTree

namespace FileJob

/-- The place of the temporary file beside a file. -/
def aside (directory : Location) (p : Path) : Location := (temporary p).place directory

theorem append_tmp_ne_dots (name : Text) : name ++ Text.ofString ".tmp" ≠ Text.ofString ".." := by
  intro h
  have hlength := congrArg List.length h
  have htwo : (Text.ofString "..").length = 2 := rfl
  have hfour : (Text.ofString ".tmp").length = 4 := rfl
  rw [List.length_append, htwo, hfour] at hlength
  omega

/-- The temporary file is in the directory that the file is to be in. -/
theorem aside_eq (directory : Location) (p : Path) :
    aside directory p = p.parent.place directory ++ [p.name ++ Text.ofString ".tmp"] := by
  have hparts : (temporary p).parts = p.parent.parts ++ [p.name ++ Text.ofString ".tmp"] := rfl
  have hroot : (temporary p).isAbsolute = p.parent.isAbsolute := rfl
  rw [aside, Path.place, hparts, hroot, Path.follow_append, Path.follow_cons, Path.follow_nil,
    if_neg (append_tmp_ne_dots _), Path.place]

theorem aside_ne_place (directory : Location) (p : Path) : aside directory p ≠ p.place directory := by
  intro h
  have hlength : p.name ++ Text.ofString ".tmp" ≠ p.name := fun heq => by
    simpa [Text.ofString, Text.ofChars] using congrArg List.length heq
  rw [aside_eq] at h
  by_cases hparts : p.parts = []
  · have hparent : p.parent.place directory = p.place directory := by
      simp [Path.place, Path.parent, Path.isAbsolute, hparts]
    simpa [hparent] using congrArg List.length h
  · rw [Path.place_eq_follow_parent hparts, Path.follow_cons, Path.follow_nil] at h
    split at h
    · have := congrArg List.length h
      simp only [List.length_append, List.length_dropLast, List.length_singleton] at this
      omega
    · exact hlength (List.singleton_inj.mp (List.append_cancel_left h))

theorem isResolved_temporary (h : p.IsResolved) : (temporary p).IsResolved := by
  refine ⟨h.root, fun hdots => ?_, fun name hname => ?_⟩
  · rcases List.mem_append.mp hdots with hbefore | hlast
    · exact h.dots (List.dropLast_subset _ hbefore)
    · exact append_tmp_ne_dots _ (List.mem_singleton.mp hlast).symm
  · rcases List.mem_append.mp hname with hbefore | hlast
    · exact h.faultless name (List.dropLast_subset _ hbefore)
    · rw [List.mem_singleton.mp hlast]
      exact PathFault.of?_append h.faultless_name (by decide)

theorem ends_makeDirectory (place : Location) (p : Path) (tree : FileTree) :
    Ends (makeDirectory place p) tree fun r after =>
      FileTree.Frame [place] [] tree after ∧ ∀ made, r = .ok made → made = place := by
  unfold makeDirectory
  refine .get_bind ?_
  cases hat : tree.at? place with
  | none =>
    exact .bind (.set (.pure ⟨.put_directory hat, fun made h => (Except.ok.inj h).symm⟩))
  | some node =>
    cases node with
    | file bytes => exact .throw ⟨.refl _ _ _, nofun⟩
    | directory => exact .pure ⟨.refl _ _ _, fun made h => (Except.ok.inj h).symm⟩

theorem ends_makeDirectories (directory : Location) (around : Nat) (p : Path) (tree : FileTree) :
    Ends (makeDirectories directory around p) tree fun r after =>
      FileTree.Frame (p.way directory) [] tree after ∧
        ∀ made, r = .ok made → made = p.place directory := by
  induction around generalizing p with
  | zero => exact .throw ⟨.refl _ _ _, nofun⟩
  | succ around ih =>
    -- the last directory, be those around it found or made
    have hmake : ∀ place tree', place = p.place directory →
        FileTree.Frame (p.way directory) [] tree tree' →
        Ends (makeDirectory place p) tree' fun r after =>
          FileTree.Frame (p.way directory) [] tree after ∧
            ∀ made, r = .ok made → made = p.place directory := by
      rintro place tree' rfl hframe
      refine (ends_makeDirectory _ p tree').mono fun r after h => ⟨hframe.trans ?_, h.2⟩
      exact h.1.mono (by simpa using p.place_mem_way directory) (List.Subset.refl _)
    unfold makeDirectories
    refine .get_bind ?_
    cases hlocate : tree.locate directory p with
    | ok place => exact hmake place tree (FileTree.place_of_locate hlocate) (.refl _ _ _)
    | error fault =>
      cases fault with
      | notFound =>
        refine .bind ((ih p.parent).mono fun r between h => ?_)
        obtain ⟨hframe, hparent⟩ := h
        replace hframe := hframe.mono (p.way_parent_subset directory) (List.Subset.refl _)
        cases r with
        | error e => exact ⟨hframe, nofun⟩
        | ok parent =>
          obtain rfl := hparent parent rfl
          refine .get_bind ?_
          cases henter : between.enter (p.parent.place directory) [p.name] with
          | error fault => exact .throw ⟨hframe, nofun⟩
          | ok place =>
            have hparts := FileTree.parts_ne_nil_of_locate hlocate
            refine hmake place between ?_ hframe
            rw [FileTree.follow_of_enter henter, Path.place_eq_follow_parent hparts]
      | _ => exact .throw ⟨.refl _ _ _, nofun⟩

/-- A file that is put in the place of another has its bytes. -/
theorem ends_moveTo (directory : Location) (p : Path) (bytes : ByteArray) (tree : FileTree) :
    Ends (moveTo directory p bytes) tree (either
      (fun _ after => FileTree.Frame [] [p.place directory] tree after ∧
        after.find? directory p = some (.file bytes))
      fun _ after => after = tree) := by
  unfold moveTo
  refine .get_bind ?_
  cases hlocate : tree.locate directory p with
  | error fault => exact .throw rfl
  | ok place =>
    obtain rfl := FileTree.place_of_locate hlocate
    dsimp only
    split
    · exact .throw rfl
    · split
      · exact .throw rfl
      · rename_i hat
        have hframe := FileTree.Frame.put_file hat (.file bytes)
        refine .set ⟨hframe, FileTree.find?_eq_some_iff.mpr ⟨?_, ?_⟩⟩
        · exact FileTree.locate_mono hframe.directories hlocate
        · exact FileTree.at?_put_self (FileTree.ne_nil_of_at? hat)

/-- A file is replaced as a whole. Where that fails, only the temporary file is. -/
theorem ends_replaceFile (directory : Location) (p : Path) (text : Text) (tree : FileTree) :
    Ends (replaceFile directory p text) tree (either
      (fun _ after => FileTree.Frame [] [p.place directory, aside directory p] tree after ∧
        after.HasBytes directory p text)
      fun _ => FileTree.Frame [] [aside directory p] tree) := by
  unfold replaceFile
  refine .get_bind ?_
  cases hlocate : tree.locate directory (temporary p) with
  | error fault => exact .throw (.refl _ _ _)
  | ok place =>
    obtain rfl := FileTree.place_of_locate hlocate
    dsimp only
    split
    · exact .throw (.refl _ _ _)
    · rename_i hat
      have hremoved := FileTree.Frame.remove_file hat
      refine .bind (.set ?_)
      cases hencode : FileTree.encode? text with
      | none => exact .throw hremoved
      | some bytes =>
        refine (ends_moveTo directory p bytes _).mono fun r after h => ?_
        cases r with
        | error e => exact h ▸ hremoved
        | ok =>
          obtain ⟨hmoved, hfind⟩ := h
          refine ⟨.trans (hremoved.mono ?_ ?_) (hmoved.mono ?_ ?_), bytes, hencode, hfind⟩ <;>
            simp [aside]

theorem ends_refuseFault (p : Path) (tree : FileTree) :
    Ends (refuseFault p) tree fun r after => after = tree ∧ (r = .ok () → p.fault? = none) := by
  unfold refuseFault
  cases p.fault? with
  | none => exact .pure ⟨rfl, fun _ => rfl⟩
  | some fault => exact .throw ⟨rfl, nofun⟩

theorem holdsText_eq_ok_iff {held : Bool} : holdsText tree directory p text = .ok held ↔
    tree.pathExists directory p = .ok false ∧ held = false ∨ tree.pathExists directory p = .ok true ∧
      ∃ old, tree.readText directory p = .ok old ∧ held = (old == text) := by
  unfold holdsText
  cases tree.pathExists directory p with
  | error e => simp [bind, Except.bind]
  | ok found =>
    cases found with
    | false => simp [bind, Except.bind, eq_comm]
    | true =>
      cases tree.readText directory p with
      | error e => simp [bind, Except.bind, Except.map]
      | ok old => simp [bind, Except.bind, Except.map, eq_comm]

/-- A file that was not replaced holds a text if it did so before. -/
theorem holdsText_of_frame {made replaced : List Location} {after : FileTree}
    (h : FileTree.Frame made replaced tree after) (hrooted : tree.IsRooted) (hp : p.IsResolved)
    (hplace : p.parts ∉ replaced) {held : Bool}
    (hheld : holdsText after directory p text = .ok held) :
    holdsText tree directory p text = .ok held := by
  rw [holdsText_eq_ok_iff] at hheld ⊢
  rcases hheld with ⟨hexists, rfl⟩ | ⟨hexists, old, hread, rfl⟩
  · exact .inl ⟨h.pathExists_eq_false hp hplace hexists, rfl⟩
  · have hfile : ∀ bytes, after.find? directory p = some (.file bytes) →
        tree.find? directory p = some (.file bytes) := fun _ =>
      (h.find?_eq_file_iff hrooted hp hplace).mp
    obtain ⟨bytes, _, hfind, -⟩ := FileTree.readText_eq_ok_iff.mp hread
    refine .inr ⟨FileTree.pathExists_eq_true_iff.mpr ⟨?_, _, hfile bytes hfind⟩, old,
      FileTree.readText_congr hfile hread, rfl⟩
    exact (FileTree.pathExists_eq_true_iff.mp hexists).1

theorem holdsText_eq_true_iff : holdsText tree directory p text = .ok true ↔
    tree.pathExists directory p = .ok true ∧ tree.readText directory p = .ok text := by
  rw [holdsText_eq_ok_iff]
  constructor
  · rintro (⟨-, h⟩ | ⟨hexists, old, hread, h⟩)
    · contradiction
    · rw [← eq_of_beq h.symm]
      exact ⟨hexists, hread⟩
  · rintro ⟨hexists, hread⟩
    exact .inr ⟨hexists, text, hread, by simp⟩

/-- A write finds the text there, or it is dry, or it makes directories and then replaces the file. -/
theorem ends_write_of {dry : Bool} {claim : Except Failure Bool → FileTree → Prop}
    (hheld : holdsText tree directory p text = .ok true → claim (.ok false) tree)
    (hdry : dry = true → claim (.ok true) tree) (herror : ∀ f, claim (.error f) tree)
    (hmade : dry = false → ∀ between, FileTree.Frame (p.parent.way directory) [] tree between →
      (∀ f, claim (.error f) between) ∧ (p.fault? = none → Ends (replaceFile directory p text) between
        (either (fun _ => claim (.ok true)) fun f => claim (.error f)))) :
    Ends (write directory p text dry) tree claim := by
  unfold write
  refine .get_bind (.bind (.lift ?_))
  cases hfound : holdsText tree directory p text with
  | error f => exact herror f
  | ok held =>
    cases held with
    | true => exact .pure (hheld hfound)
    | false =>
      dsimp only [either]
      rw [if_neg Bool.false_ne_true]
      cases dry with
      | true => exact .pure (hdry rfl)
      | false =>
        rw [if_neg Bool.false_ne_true]
        refine .bind ((ends_refuseFault p.parent tree).mono fun r after h => ?_)
        obtain ⟨rfl, -⟩ := h
        cases r with
        | error f => exact herror f
        | ok =>
          refine .bind ((ends_makeDirectories directory deepest p.parent _).mono
            fun r between h => ?_)
          obtain ⟨hfailed, hreplaced⟩ := hmade rfl between h.1
          cases r with
          | error f => exact hfailed f
          | ok place =>
            refine .bind ((ends_refuseFault p between).mono fun r after h => ?_)
            obtain ⟨rfl, hfault⟩ := h
            cases r with
            | error f => exact hfailed f
            | ok =>
              refine .bind ((hreplaced (hfault rfl)).mono fun r after h => ?_)
              cases r with
              | error f => exact h
              | ok => exact .pure h

/-- A file that is written has the bytes of the text, and one that is found to hold the text already
is left alone. Where writing fails, only the temporary file is replaced. -/
theorem ends_write (directory : Location) (p : Path) (text : Text) (tree : FileTree) :
    Ends (write directory p text false) tree (either
      (fun changed after =>
        if changed then after.HasBytes directory p text ∧ FileTree.Frame (p.parent.way directory)
          [p.place directory, aside directory p] tree after
        else after = tree ∧ tree.readText directory p = .ok text)
      fun _ => FileTree.Frame (p.parent.way directory) [aside directory p] tree) := by
  refine ends_write_of (fun hheld => ⟨rfl, (holdsText_eq_true_iff.mp hheld).2⟩) nofun
    (fun _ => .refl _ _ _) fun _ between hframe => ?_
  -- from here on a failure leaves at most the directories
  have hmade : ∀ replaced, FileTree.Frame (p.parent.way directory) replaced tree between :=
    fun replaced => hframe.mono (List.Subset.refl _) (List.nil_subset _)
  refine ⟨fun _ => hmade _, fun _ => (ends_replaceFile directory p text between).mono
    fun r after h => ?_⟩
  cases r with
  | error e => exact (hmade _).trans (h.mono (List.nil_subset _) (List.Subset.refl _))
  | ok => exact ⟨h.2, (hmade _).trans (h.1.mono (List.nil_subset _) (List.Subset.refl _))⟩

/-! ### Writes that go through -/

variable {after : FileTree} {changed dry : Bool}

theorem completes_refuseFault_iff {u : Unit} :
    Completes (refuseFault p) tree u after ↔ p.fault? = none ∧ after = tree := by
  unfold refuseFault
  cases hfault : p.fault? with
  | none => simp [completes_pure_iff]
  | some fault =>
    constructor
    · intro h
      cases h
    · rintro ⟨h, -⟩
      contradiction

/-- A write that goes through has found out whether the file holds the text already. It changes the
files only if the text is not there and the run is not dry. -/
theorem completes_write_iff : Completes (write directory p text dry) tree changed after ↔
    holdsText tree directory p text = .ok (!changed) ∧
      if changed && !dry then ∃ place between, p.parent.fault? = none ∧
        Completes (makeDirectories directory deepest p.parent) tree place between ∧
          p.fault? = none ∧ Completes (replaceFile directory p text) between () after
      else after = tree := by
  unfold write
  rw [completes_get_bind_iff, completes_bind_iff]
  simp only [completes_lift_iff]
  constructor
  · rintro ⟨held, _, ⟨hheld, rfl⟩, h⟩
    cases held with
    | true =>
      obtain ⟨rfl, rfl⟩ := completes_pure_iff.mp h
      exact ⟨hheld, rfl⟩
    | false =>
      cases dry with
      | true =>
        obtain ⟨rfl, rfl⟩ := completes_pure_iff.mp h
        exact ⟨hheld, rfl⟩
      | false =>
        simp only [if_neg Bool.false_ne_true, completes_bind_iff, completes_refuseFault_iff,
          completes_pure_iff] at h
        obtain ⟨_, _, ⟨hparent, rfl⟩, place, between, hmake, _, _, ⟨hpath, rfl⟩, _, _, hreplace, rfl,
          rfl⟩ := h
        exact ⟨hheld, place, _, hparent, hmake, hpath, hreplace⟩
  · rintro ⟨hheld, h⟩
    refine ⟨!changed, tree, ⟨hheld, rfl⟩, ?_⟩
    cases changed with
    | false => exact completes_pure_iff.mpr ⟨rfl, h⟩
    | true =>
      cases dry with
      | true => exact completes_pure_iff.mpr ⟨rfl, h⟩
      | false =>
        obtain ⟨place, between, hparent, hmake, hpath, hreplace⟩ := h
        simp only [Bool.not_true, if_neg Bool.false_ne_true, completes_bind_iff,
          completes_refuseFault_iff, completes_pure_iff]
        exact ⟨(), tree, ⟨hparent, rfl⟩, place, between, hmake, (), between, ⟨hpath, rfl⟩, (), after,
          hreplace, trivial, rfl⟩

end FileJob

end StringCatalog
