import Mathlib.Data.List.Infix
import StringCatalog.Proofs.Path
import StringCatalog.Proofs.Sequence
import StringCatalog.Workspace.FileTree

/-! Where paths lead to in a tree of files, and what remains of a tree that is changed at a few
places only: the directories, and everything that is elsewhere. -/

namespace StringCatalog

namespace Path

/-- The place that names lead to, if they lead anywhere. -/
def follow (here : Location) (names : List Text) : Location :=
  names.foldl (fun here (name : Text) => if name = ".." then here.dropLast else here ++ [name]) here

@[simp]
theorem follow_nil (here : Location) : follow here [] = here := rfl

@[simp]
theorem follow_cons (here : Location) (name : Text) (names : List Text) :
    follow here (name :: names) =
      follow (if name = ".." then here.dropLast else here ++ [name]) names := rfl

theorem follow_append (here : Location) (before after : List Text) :
    follow here (before ++ after) = follow (follow here before) after := List.foldl_append

/-- The place that a path leads to from a directory, if it leads anywhere. -/
def place (directory : Location) (p : Path) : Location :=
  follow (if p.isAbsolute then [] else directory) p.parts

/-- The places on the way of a path, and its own. -/
def way (directory : Location) (p : Path) : List Location :=
  p.parts.inits.map (follow (if p.isAbsolute then [] else directory))

theorem place_mem_way (directory : Location) (p : Path) : p.place directory ∈ p.way directory :=
  List.mem_map_of_mem ((List.mem_inits _ _).mpr List.prefix_rfl)

theorem way_parent_subset (directory : Location) (p : Path) :
    p.parent.way directory ⊆ p.way directory :=
  List.map_subset _ fun _ h => (List.mem_inits _ _).mpr
    (((List.mem_inits _ _).mp h).trans (List.dropLast_prefix _))

theorem parts_eq_parent_append {p : Path} (h : p.parts ≠ []) :
    p.parts = p.parent.parts ++ [p.name] := by
  rw [parent, name, List.getLastD_eq_getLast?, List.getLast?_eq_some_getLast h]
  exact (List.dropLast_append_getLast h).symm

/-- The last name of a path leads on from where the other names lead to. -/
theorem place_eq_follow_parent {p : Path} (h : p.parts ≠ []) (directory : Location) :
    p.place directory = follow (p.parent.place directory) [p.name] := by
  have hparent : p.parent.place directory =
      follow (if p.isAbsolute then [] else directory) p.parent.parts := rfl
  rw [hparent, ← follow_append, ← parts_eq_parent_append h, place]

theorem follow_of_notMem {here : Location} {names : List Text}
    (h : Text.ofString ".." ∉ names) : follow here names = here ++ names := by
  induction names generalizing here with
  | nil => simp
  | cons name names ih =>
    obtain ⟨hname, hnames⟩ := not_or.mp (mt List.mem_cons.mpr h)
    rw [follow_cons, if_neg (Ne.symm hname), ih hnames, List.append_assoc]
    rfl

theorem place_of_notMem {p : Path} (h : Text.ofString ".." ∉ p.parts) (directory : Location) :
    p.place directory = (if p.isAbsolute then [] else directory) ++ p.parts :=
  follow_of_notMem h

/-- A path without double dots does not come back to its own place on its way. -/
theorem place_notMem_way_parent {p : Path} (h : Text.ofString ".." ∉ p.parts) (hparts : p.parts ≠ [])
    (directory : Location) : p.place directory ∉ p.parent.way directory := by
  intro hmem
  obtain ⟨names, hnames, hfollow⟩ := List.mem_map.mp hmem
  have hbelow : names <+: p.parts.dropLast := (List.mem_inits _ _).mp hnames
  have hdots : Text.ofString ".." ∉ names := fun hdots =>
    h (List.dropLast_subset _ (hbelow.subset hdots))
  have hroot : p.parent.isAbsolute = p.isAbsolute := rfl
  rw [follow_of_notMem hdots, place_of_notMem h, hroot] at hfollow
  obtain rfl := List.append_cancel_left hfollow
  have hlength := hbelow.length_le
  have hpos := List.length_pos_of_ne_nil hparts
  rw [List.length_dropLast] at hlength
  omega

namespace IsResolved

variable {p : Path}

/-- A resolved path leads to the place with its names. -/
theorem place (h : p.IsResolved) (directory : Location) : p.place directory = p.parts := by
  rw [place_of_notMem h.dots, h.isAbsolute, if_pos rfl, List.nil_append]

theorem prefix_of_mem_way (h : p.IsResolved) {directory onWay : Location}
    (hway : onWay ∈ p.way directory) : onWay <+: p.parts := by
  obtain ⟨names, hnames, rfl⟩ := List.mem_map.mp hway
  have hbelow : names <+: p.parts := (List.mem_inits _ _).mp hnames
  rw [h.isAbsolute, if_pos rfl, follow_of_notMem fun hdots => h.dots (hbelow.subset hdots),
    List.nil_append]
  exact hbelow

end IsResolved

end Path

namespace FileTree

variable {tree before after : FileTree} {place : Location} {node : FileNode} {p : Path}

/-! ### What is at a place -/

theorem ne_nil_of_at? (h : tree.at? place ≠ some .directory) : place ≠ [] := by
  rintro rfl
  exact h rfl

theorem at?_remove_of_ne {other : Location} (h : other ≠ place) :
    (tree.remove place).at? other = tree.at? other := by
  unfold at? remove
  refine congrArg _ ?_
  induction tree.nodes with
  | nil => rfl
  | cons n nodes ih => grind

theorem at?_remove_self (h : place ≠ []) : (tree.remove place).at? place = none := by
  rw [at?, if_neg h, Option.eq_none_iff_forall_ne_some]
  intro node hnode
  obtain ⟨_, _, hnodes, -⟩ := List.lookup_eq_some_iff.mp hnode
  have hkept : (place, node) ∈ tree.nodes.filter (·.1 != place) := by
    have hnodes : tree.nodes.filter (·.1 != place) = _ := hnodes
    simp [hnodes]
  simpa using (List.mem_filter.mp hkept).2

theorem at?_put_self (h : place ≠ []) : (tree.put place node).at? place = some node := by
  simp [at?, put, h]

theorem at?_put_of_ne {other : Location} (h : other ≠ place) :
    (tree.put place node).at? other = tree.at? other := by
  have hbeq : (other == place) = false := beq_false_of_ne h
  refine Eq.trans ?_ (at?_remove_of_ne h)
  simp only [at?, put, List.lookup_cons, hbeq]

/-! ### Where names lead to -/

/-- A name leads on from a directory, out of it or to something in it. -/
theorem enter_cons_eq_ok_iff {here : Location} {name : Text} {names : List Text} :
    tree.enter here (name :: names) = .ok place ↔ tree.at? here = some .directory ∧
      (name = ".." ∧ tree.enter here.dropLast names = .ok place ∨
        name ≠ ".." ∧ byteCount name ≤ longestName ∧
          tree.enter (here ++ [name]) names = .ok place) := by
  rw [enter]
  cases tree.at? here with
  | none => simp
  | some node =>
    cases node with
    | file bytes => simp
    | directory =>
      by_cases hname : name = ".."
      · simp [hname]
      · by_cases hlong : longestName < byteCount name
        · simp [hname, hlong, Nat.not_le.mpr hlong]
        · simp [hname, hlong, Nat.not_lt.mp hlong]

theorem follow_of_enter {here : Location} {names : List Text}
    (h : tree.enter here names = .ok place) : place = Path.follow here names := by
  induction names generalizing here with
  | nil => exact (Except.ok.inj h).symm
  | cons name names ih =>
    rw [Path.follow_cons]
    rcases (enter_cons_eq_ok_iff.mp h).2 with ⟨hname, hnext⟩ | ⟨hname, -, hnext⟩
    · rw [if_pos hname]
      exact ih hnext
    · rw [if_neg hname]
      exact ih hnext

/-- Names lead on from where the names before them lead to. -/
theorem enter_append (here : Location) (names more : List Text) :
    tree.enter here (names ++ more) =
      (tree.enter here names).bind fun place => tree.enter place more := by
  induction names generalizing here with
  | nil => rfl
  | cons name names ih =>
    rw [List.cons_append, enter, enter]
    cases tree.at? here with
    | none => rfl
    | some node =>
      cases node with
      | file bytes => rfl
      | directory =>
        dsimp only
        rw [ih, ih]
        split
        · rfl
        · split <;> rfl

/-- Names that lead to a directory lead through directories only. -/
theorem at?_follow_of_enter {here : Location} {names : List Text}
    (h : tree.enter here names = .ok place) (hat : tree.at? place = some .directory)
    {onWay : List Text} (hway : onWay <+: names) :
    tree.at? (Path.follow here onWay) = some .directory := by
  induction names generalizing here onWay with
  | nil =>
    obtain rfl := List.prefix_nil.mp hway
    rw [Path.follow_nil, Except.ok.inj h]
    exact hat
  | cons name names ih =>
    obtain ⟨hhere, hnext⟩ := enter_cons_eq_ok_iff.mp h
    cases onWay with
    | nil => exact hhere
    | cons first onWay =>
      obtain ⟨rfl, hrest⟩ := List.cons_prefix_cons.mp hway
      rw [Path.follow_cons]
      rcases hnext with ⟨hname, hnext⟩ | ⟨hname, -, hnext⟩
      · rw [if_pos hname]
        exact ih hnext hrest
      · rw [if_neg hname]
        exact ih hnext hrest

/-- Names lead on through the directories of a tree also where there are more of these. -/
theorem enter_mono {here : Location} {names : List Text}
    (hdirectories : ∀ place, before.at? place = some .directory → after.at? place = some .directory)
    (h : before.enter here names = .ok place) : after.enter here names = .ok place := by
  induction names generalizing here with
  | nil => exact h
  | cons name names ih =>
    obtain ⟨hhere, hnext⟩ := enter_cons_eq_ok_iff.mp h
    exact enter_cons_eq_ok_iff.mpr ⟨hdirectories here hhere,
      hnext.imp (.imp_right ih) (.imp_right (.imp_right ih))⟩

theorem locate_mono {directory : Location}
    (hdirectories : ∀ place, before.at? place = some .directory → after.at? place = some .directory)
    (h : before.locate directory p = .ok place) : after.locate directory p = .ok place := by
  unfold locate at h ⊢
  split at h
  · contradiction
  · rename_i hlong
    rw [if_neg hlong]
    exact enter_mono hdirectories h

/-- A name that is too long is found where there are more directories too. -/
theorem enter_nameTooLong_mono {here : Location} {names : List Text}
    (hdirectories : ∀ place, before.at? place = some .directory → after.at? place = some .directory)
    (h : before.enter here names = .error .nameTooLong) :
    after.enter here names = .error .nameTooLong := by
  induction names generalizing here with
  | nil => contradiction
  | cons name names ih =>
    rw [enter] at h ⊢
    cases hhere : before.at? here with
    | none => simp [hhere] at h
    | some node =>
      cases node with
      | file bytes => simp [hhere] at h
      | directory =>
        simp only [hhere, hdirectories here hhere] at h ⊢
        split at h
        · rename_i hname
          rw [if_pos hname]
          exact ih h
        · rename_i hname
          rw [if_neg hname]
          split at h
          · rename_i hlong
            rw [if_pos hlong]
          · rename_i hshort
            rw [if_neg hshort]
            exact ih h

theorem locate_nameTooLong_mono {directory : Location}
    (hdirectories : ∀ place, before.at? place = some .directory → after.at? place = some .directory)
    (h : before.locate directory p = .error .nameTooLong) :
    after.locate directory p = .error .nameTooLong := by
  unfold locate at h ⊢
  split at h
  · rename_i hlong
    rw [if_pos hlong]
  · rename_i hshort
    rw [if_neg hshort]
    exact enter_nameTooLong_mono hdirectories h

/-- Names without double dots lead on through directories, unless one of them is too long. -/
theorem enter_of_enter {here : Location} {names : List Text}
    (h : after.enter here names = .ok place) (hdots : Text.ofString ".." ∉ names)
    (hdirectories : ∀ onWay, onWay <+: names → onWay ≠ names →
      before.at? (here ++ onWay) = some .directory) : before.enter here names = .ok place := by
  induction names generalizing here with
  | nil => exact h
  | cons name names ih =>
    obtain ⟨hname, hdots⟩ := not_or.mp (mt List.mem_cons.mpr hdots)
    have hhere : before.at? here = some .directory := by
      simpa using hdirectories [] List.nil_prefix (List.cons_ne_nil _ _).symm
    rcases (enter_cons_eq_ok_iff.mp h).2 with ⟨heq, -⟩ | ⟨hne, hshort, hnext⟩
    · exact absurd heq.symm hname
    · refine enter_cons_eq_ok_iff.mpr
        ⟨hhere, .inr ⟨hne, hshort, ih hnext hdots fun onWay hp hw => ?_⟩⟩
      rw [List.append_assoc]
      exact hdirectories (name :: onWay) (List.cons_prefix_cons.mpr ⟨rfl, hp⟩)
        fun heq => hw (List.cons.inj heq).2

theorem enter_of_locate {directory : Location} (h : tree.locate directory p = .ok place) :
    tree.enter (if p.isAbsolute then [] else directory) p.parts = .ok place := by
  unfold locate at h
  split at h
  · contradiction
  · exact h

theorem place_of_locate {directory : Location} (h : tree.locate directory p = .ok place) :
    place = p.place directory :=
  follow_of_enter (enter_of_locate h)

theorem find?_eq_some_iff {directory : Location} : tree.find? directory p = some node ↔
    tree.locate directory p = .ok (p.place directory) ∧
      tree.at? (p.place directory) = some node := by
  unfold find?
  constructor
  · intro h
    split at h
    · rename_i place hlocate
      obtain rfl := place_of_locate hlocate
      exact ⟨hlocate, h⟩
    · contradiction
  · rintro ⟨hlocate, hat⟩
    rw [hlocate]
    exact hat

theorem at?_of_mem_way {directory onWay : Location}
    (h : tree.find? directory p = some .directory) (hway : onWay ∈ p.way directory) :
    tree.at? onWay = some .directory := by
  obtain ⟨hlocate, hat⟩ := find?_eq_some_iff.mp h
  obtain ⟨names, hnames, rfl⟩ := List.mem_map.mp hway
  exact at?_follow_of_enter (enter_of_locate hlocate) hat ((List.mem_inits _ _).mp hnames)

theorem locate_eq_of_nil (h : p.parts = []) (directory : Location) :
    after.locate directory p = before.locate directory p := by
  rw [locate, locate, h, enter, enter]

/-- Where the directory of a path is known, so is where its name leads to. -/
theorem locate_eq_of_parent {directory : Location}
    (hbefore : before.find? directory p.parent = some .directory)
    (hafter : after.find? directory p.parent = some .directory) :
    after.locate directory p = before.locate directory p := by
  by_cases hparts : p.parts = []
  · exact locate_eq_of_nil hparts directory
  · unfold locate
    obtain ⟨hbefore, hbeforeAt⟩ := find?_eq_some_iff.mp hbefore
    obtain ⟨hafter, hafterAt⟩ := find?_eq_some_iff.mp hafter
    have hroot : p.parent.isAbsolute = p.isAbsolute := rfl
    replace hbefore := hroot ▸ enter_of_locate hbefore
    replace hafter := hroot ▸ enter_of_locate hafter
    rw [Path.parts_eq_parent_append hparts, enter_append, enter_append, hbefore, hafter]
    simp only [Except.bind, enter, hbeforeAt, hafterAt]

/-! ### Trees in which everything is in a directory -/

/-- Everything in the tree is in a directory of the tree. -/
def IsRooted (tree : FileTree) : Prop :=
  ∀ n ∈ tree.nodes, tree.at? n.1.dropLast = some .directory

instance (tree : FileTree) : Decidable tree.IsRooted :=
  inferInstanceAs (Decidable (∀ n ∈ tree.nodes, tree.at? n.1.dropLast = some .directory))

namespace IsRooted

theorem at?_dropLast (h : tree.IsRooted) (hat : tree.at? place = some node) :
    tree.at? place.dropLast = some .directory := by
  by_cases hplace : place = []
  · rw [hplace]
    rfl
  · rw [at?, if_neg hplace] at hat
    obtain ⟨before, after, hnodes, -⟩ := List.lookup_eq_some_iff.mp hat
    exact h (place, node) (by simp [hnodes])

/-- Whatever leads to a place is a directory. -/
theorem at?_of_prefix (h : tree.IsRooted) (hat : tree.at? place = some node) {onWay : Location}
    (hbelow : onWay <+: place) (hne : onWay ≠ place) : tree.at? onWay = some .directory := by
  -- from the place upwards, one name at a time
  induction hn : place.length generalizing place node with
  | zero =>
    obtain rfl := List.length_eq_zero_iff.mp hn
    exact absurd (List.prefix_nil.mp hbelow) hne
  | succ n ih =>
    have hlast := h.at?_dropLast hat
    by_cases hdrop : onWay = place.dropLast
    · rw [hdrop, hlast]
    · have hlength : place.dropLast.length = n := by
        rw [List.length_dropLast, hn, Nat.add_sub_cancel]
      exact ih hlast (Sequence.prefix_dropLast hbelow hne) hdrop hlength

end IsRooted

/-! ### Trees that are changed at a few places -/

/-- A tree that is changed: where nothing was, there may be directories at places that are `made`,
and there may be anything at places that are `replaced`. Directories remain. -/
structure Frame (made replaced : List Location) (before after : FileTree) : Prop where
  elsewhere : ∀ place ∉ replaced, after.at? place = before.at? place ∨
    before.at? place = none ∧ after.at? place = some .directory ∧ place ∈ made
  directories : ∀ place, before.at? place = some .directory → after.at? place = some .directory

namespace Frame

variable {made made' replaced replaced' : List Location} {between : FileTree}

theorem refl (made replaced : List Location) (tree : FileTree) : Frame made replaced tree tree :=
  ⟨fun _ _ => .inl rfl, fun _ h => h⟩

theorem trans (h₁ : Frame made replaced before between) (h₂ : Frame made replaced between after) :
    Frame made replaced before after := by
  refine ⟨fun place hplace => ?_, fun place h => h₂.directories place (h₁.directories place h)⟩
  rcases h₂.elsewhere place hplace with hsame | ⟨hnone, hmade⟩
  · rw [hsame]
    exact h₁.elsewhere place hplace
  · rcases h₁.elsewhere place hplace with hsame | ⟨-, hdirectory, -⟩
    · exact .inr ⟨hsame ▸ hnone, hmade⟩
    · rw [hdirectory] at hnone
      contradiction

theorem mono (h : Frame made replaced before after) (hmade : made ⊆ made')
    (hreplaced : replaced ⊆ replaced') : Frame made' replaced' before after :=
  ⟨fun place hplace => (h.elsewhere place fun hmem => hplace (hreplaced hmem)).imp id
    fun ⟨hnone, hdirectory, hmem⟩ => ⟨hnone, hdirectory, hmade hmem⟩, h.directories⟩

theorem put_directory (h : tree.at? place = none) :
    Frame [place] [] tree (tree.put place .directory) := by
  have hnot : tree.at? place ≠ some .directory := by
    rw [h]
    nofun
  have hplace : place ≠ [] := ne_nil_of_at? hnot
  refine ⟨fun other _ => ?_, fun other hother => ?_⟩
  · by_cases hne : other = place
    · rw [hne]
      exact .inr ⟨h, at?_put_self hplace, List.mem_singleton_self _⟩
    · exact .inl (at?_put_of_ne hne)
  · by_cases hne : other = place
    · rw [hne]
      exact at?_put_self hplace
    · rwa [at?_put_of_ne hne]

theorem put_file (h : tree.at? place ≠ some .directory) (node : FileNode) :
    Frame [] [place] tree (tree.put place node) := by
  refine ⟨fun other hne => .inl (at?_put_of_ne (by simpa using hne)), fun other hother => ?_⟩
  have hne : other ≠ place := fun heq => h (by rwa [← heq])
  rwa [at?_put_of_ne hne]

theorem remove_file (h : tree.at? place ≠ some .directory) :
    Frame [] [place] tree (tree.remove place) := by
  refine ⟨fun other hne => .inl (at?_remove_of_ne (by simpa using hne)), fun other hother => ?_⟩
  have hne : other ≠ place := fun heq => h (by rwa [← heq])
  rwa [at?_remove_of_ne hne]

/-- A path to something that was there already leads there before if it does so after. -/
theorem locate_iff (h : Frame made replaced before after) (hrooted : before.IsRooted)
    (hdots : Text.ofString ".." ∉ p.parts) {directory : Location}
    (hat : before.at? (p.place directory) = some node) :
    after.locate directory p = .ok place ↔ before.locate directory p = .ok place := by
  refine ⟨fun hlocate => ?_, locate_mono h.directories⟩
  unfold locate at hlocate ⊢
  split at hlocate
  · contradiction
  · rename_i hlong
    rw [if_neg hlong]
    rw [Path.place_of_notMem hdots] at hat
    refine enter_of_enter hlocate hdots fun onWay hbelow hne => ?_
    exact hrooted.at?_of_prefix hat ((List.prefix_append_right_inj _).mpr hbelow)
      fun heq => hne (List.append_cancel_left heq)

/-- What a path without double dots leads to remains, unless that is replaced. Where it led to
nothing there may be a directory. -/
theorem find?_eq_of_notMem (h : Frame made replaced before after) (hrooted : before.IsRooted)
    (hdots : Text.ofString ".." ∉ p.parts) {directory : Location}
    (hplace : p.place directory ∉ replaced) :
    after.find? directory p = before.find? directory p ∨ before.find? directory p = none ∧
      after.find? directory p = some .directory ∧ p.place directory ∈ made := by
  cases hat : before.at? (p.place directory) with
  | none =>
    have hnone : before.find? directory p = none := by
      rw [Option.eq_none_iff_forall_ne_some]
      intro node hnode
      have := (find?_eq_some_iff.mp hnode).2
      rw [hat] at this
      contradiction
    cases hlater : after.find? directory p with
    | none => exact .inl hnone.symm
    | some node =>
      obtain ⟨-, hnode⟩ := find?_eq_some_iff.mp hlater
      rcases h.elsewhere _ hplace with hsame | ⟨-, hdirectory, hmade⟩
      · rw [hsame, hat] at hnode
        contradiction
      · rw [hdirectory] at hnode
        exact .inr ⟨hnone, hnode.symm, hmade⟩
  | some node =>
    refine .inl (Option.ext fun other => ?_)
    have hsame : after.at? (p.place directory) = before.at? (p.place directory) := by
      rcases h.elsewhere _ hplace with hsame | ⟨hnone, -⟩
      · exact hsame
      · rw [hat] at hnone
        contradiction
    rw [find?_eq_some_iff, find?_eq_some_iff, h.locate_iff hrooted hdots hat, hsame]

/-- What a resolved path leads to remains, unless that is replaced. Where it led to nothing there may
be a directory. -/
theorem find?_eq (h : Frame made replaced before after) (hrooted : before.IsRooted)
    (hp : p.IsResolved) (hplace : p.parts ∉ replaced) (directory : Location) :
    after.find? directory p = before.find? directory p ∨ before.find? directory p = none ∧
      after.find? directory p = some .directory ∧ p.parts ∈ made := by
  rw [← hp.place directory] at hplace ⊢
  exact h.find?_eq_of_notMem hrooted hp.dots hplace

/-- What a path leads to remains where its directory was there already, unless that is replaced. -/
theorem find?_eq_of_parent {directory : Location}
    (h : Frame (p.parent.way directory) replaced before after)
    (hparent : before.find? directory p.parent = some .directory)
    (hplace : p.place directory ∉ replaced) :
    after.find? directory p = before.find? directory p := by
  obtain ⟨hlocate, hat⟩ := find?_eq_some_iff.mp hparent
  have hafter : after.find? directory p.parent = some .directory :=
    find?_eq_some_iff.mpr ⟨locate_mono h.directories hlocate, h.directories _ hat⟩
  have hsame : after.at? (p.place directory) = before.at? (p.place directory) := by
    rcases h.elsewhere _ hplace with hsame | ⟨hnone, -, hmade⟩
    · exact hsame
    · rw [at?_of_mem_way hparent hmade] at hnone
      contradiction
  refine Option.ext fun node => ?_
  rw [find?_eq_some_iff, find?_eq_some_iff, locate_eq_of_parent hparent hafter, hsame]

theorem find?_eq_file_iff (h : Frame made replaced before after) (hrooted : before.IsRooted)
    (hp : p.IsResolved) (hplace : p.parts ∉ replaced) {directory : Location} {bytes : ByteArray} :
    after.find? directory p = some (.file bytes) ↔
      before.find? directory p = some (.file bytes) := by
  rcases h.find?_eq hrooted hp hplace directory with hsame | ⟨hnone, hdirectory, -⟩
  · rw [hsame]
  · simp [hnone, hdirectory]

/-- A file that is not replaced remains, also where a path to it goes in and out of directories. -/
theorem find?_eq_file (h : Frame made replaced before after) {directory : Location}
    (hplace : p.place directory ∉ replaced) {bytes : ByteArray}
    (hfind : before.find? directory p = some (.file bytes)) :
    after.find? directory p = some (.file bytes) := by
  obtain ⟨hlocate, hat⟩ := find?_eq_some_iff.mp hfind
  refine find?_eq_some_iff.mpr ⟨locate_mono h.directories hlocate, ?_⟩
  rcases h.elsewhere _ hplace with hsame | ⟨hnone, -⟩
  · rw [hsame, hat]
  · rw [hat] at hnone
    contradiction

end Frame

end FileTree

end StringCatalog
