import StringCatalog.Proofs.Config
import StringCatalog.Proofs.Project.Report

/-! What a generation leaves behind, however it ends. The source files are written one after
another, each as a whole: those before the first failure hold all of their sources, and those from
there on are as they were. -/

namespace StringCatalog.Project

open Session

variable {env : Environment} {tree : FileTree} {config : Config}

/-- A source file that is to be written, and what is to be in it if nothing fails before. -/
structure Planned where
  path : Path
  source : Except Failure Text

/-- The file for the main catalog has the source of its resources. -/
def mainFile (tree : FileTree) (env : Environment) (config : Config) : Planned where
  path := config.main.output
  source := do
    let found ← reading tree env config.options config.main.input
    sourceOf env config found.resources

/-- The file for a further catalog has the source of those of its resources whose keys the main
catalog does not have, be it for resources or not. -/
def diffFile (tree : FileTree) (env : Environment) (config : Config) (target : Target) :
    Planned where
  path := target.output
  source := do
    let main ← reading tree env config.options config.main.input
    let found ← reading tree env config.options target.input
    sourceOf env config (found.resources.filter fun r => !main.keys.contains r.key)

/-- The source files in the order in which they are written. -/
def plan (tree : FileTree) (env : Environment) (config : Config) : List Planned :=
  mainFile tree env config :: config.diffs.map (diffFile tree env config)

/-- The files of the main catalog and of the first of the further ones. -/
def written (initial : FileTree) (env : Environment) (config : Config) (targets : List Target) :
    List Planned :=
  mainFile initial env config :: targets.map (diffFile initial env config)

theorem map_path_plan (tree : FileTree) (env : Environment) (config : Config) :
    (plan tree env config).map (·.path) = outputs config := by
  simp [plan, outputs, mainFile, diffFile]

/-- The outputs differ from one another, and no output or temporary file beside one is an input or
another output. -/
structure Apart (config : Config) : Prop where
  distinct : (outputs config).Nodup
  inputs : ∀ output ∈ outputs config, ∀ input ∈ inputs config,
    output ≠ input ∧ FileJob.temporary output ≠ input
  temporary : ∀ output ∈ outputs config, ∀ other ∈ outputs config,
    FileJob.temporary output ≠ other

instance (config : Config) : Decidable (Apart config) :=
  decidable_of_iff ((outputs config).Nodup ∧ (∀ output ∈ outputs config, ∀ input ∈ inputs config,
      output ≠ input ∧ FileJob.temporary output ≠ input) ∧
        ∀ output ∈ outputs config, ∀ other ∈ outputs config, FileJob.temporary output ≠ other)
    ⟨fun ⟨distinct, inputs, temporary⟩ => ⟨distinct, inputs, temporary⟩,
      fun h => ⟨h.distinct, h.inputs, h.temporary⟩⟩

/-- A text is in a file, be it written there or found there with other line ends perhaps. -/
def Holds (before after : FileTree) (place : Location) (p : Path) (text : Text) : Prop :=
  after.HasBytes place p text ∨ ∃ bytes old, before.find? place p = some (.file bytes) ∧
    after.find? place p = some (.file bytes) ∧ FileTree.decode? bytes = some old ∧
      old.unifyNewlines = text

theorem Holds.exists_file {before after : FileTree} {place : Location} {p : Path} {text : Text}
    (h : Holds before after place p text) : ∃ bytes, after.find? place p = some (.file bytes) := by
  rcases h with ⟨bytes, -, hfind⟩ | ⟨bytes, old, -, hfind, -⟩
  · exact ⟨bytes, hfind⟩
  · exact ⟨bytes, hfind⟩

/-- The file at a path is as before. Where there was nothing there may be a directory, as one above
one of the files that a generation has come to. -/
def IsLeft (before after : FileTree) (place : Location) (others : List Planned) (p : Path) : Prop :=
  after.find? place p = before.find? place p ∨ before.find? place p = none ∧
    after.find? place p = some .directory ∧
      ∃ other ∈ others, p.parts <+: other.path.parent.parts

/-! ### Progress -/

/-- The files that a generation has come to: what is done, and the next one. -/
def begun (env : Environment) (config : Config) (initial : FileTree) (done : List Planned) :
    List Planned :=
  (plan initial env config).take (done.length + 1)

/-- The places where there may be directories where nothing was before. -/
def made (env : Environment) (config : Config) (initial : FileTree) (done : List Planned) :
    List Location :=
  (begun env config initial done).flatMap fun o => o.path.parent.way env.place

/-- The places of what has been written, and of all temporary files. -/
def replaced (env : Environment) (config : Config) (done : List Planned) : List Location :=
  done.map (·.path.place env.place) ++ (outputs config).map (FileJob.aside env.place)

/-- A generation has come so far: what is done holds its source, and elsewhere nothing is replaced.
-/
structure Progress (env : Environment) (config : Config) (initial : FileTree)
    (done : List Planned) (current : FileTree) : Prop where
  reached : done <+: plan initial env config
  frame : FileTree.Frame (made env config initial done) (replaced env config done) initial current
  complete : ∀ o ∈ done, ∃ text, o.source = .ok text ∧
    Holds initial current env.place o.path text

/-- A run has stopped: some of the files are done, and all of them if it went through. -/
def Stopped {α : Type} (env : Environment) (config : Config) (initial : FileTree)
    (r : Except Failure α) (after : FileTree) : Prop :=
  ∃ done rest, plan initial env config = done ++ rest ∧ Progress env config initial done after ∧
    ∀ a, r = .ok a → rest = []

/-- How the file of a further catalog is generated: what the main catalog has is left out, which
makes a difference to the lines alone, and the rest is emitted if it is valid. -/
theorem ends_generateDiff_of {w : World} {dryRun : Bool} {known : List Text} {target : Target}
    {claim : Except Failure (Text × List Resource) → World → Prop}
    (hfailed : ∀ f, reading w.files env config.options target.input = .error f →
      claim (.error f) w)
    (hline : ∀ line printed, line.isEncodable = false →
      claim (.error (.unprintable line)) ⟨w.files, printed⟩)
    (hvalidate : ∀ e printed, claim (.error (.generation e)) ⟨w.files, printed⟩)
    (hemit : ∀ found printed, reading w.files env config.options target.input = .ok found →
      Ends (emit env config dryRun target.output
        (found.resources.filter fun r => !known.contains r.key)) ⟨w.files, printed⟩
        (either (fun _ w' => ∀ kept, claim (.ok kept) w') fun f => claim (.error f))) :
    Ends (generateDiff env config dryRun known target) w claim := by
  unfold generateDiff
  refine .bind (ends_extractFile hfailed hline fun found printed hfound => ?_)
  have hemit := fun printed => hemit found printed hfound
  dsimp only [either]
  obtain ⟨kept, hkept⟩ : ∃ kept, kept = found.resources.filter fun r => !known.contains r.key :=
    ⟨_, rfl⟩
  rw [← hkept] at hemit ⊢
  have hrest : ∀ printed, Ends (do
      validate kept target.input
      emit env config dryRun target.output kept
      return (target.input.name, kept)) ⟨w.files, printed⟩ claim := by
    intro printed
    refine .bind (.ofExcept ?_)
    cases hvalid : Resource.validate kept (some target.input) with
    | error e => exact hvalidate e printed
    | ok =>
      refine .bind ((hemit printed).mono fun r after h => ?_)
      cases r with
      | error f => exact h
      | ok => exact .pure (h _)
  split
  · exact .bind (ends_say hrest fun h => hline _ printed h)
  · exact hrest printed

theorem begun_eq {initial : FileTree} {done rest : List Planned}
    (h : plan initial env config = done ++ rest) :
    begun env config initial done = done ++ rest.take 1 := by
  rw [begun, h, List.take_length_add_append]

theorem made_subset (initial : FileTree) (done : List Planned) (o : Planned) :
    made env config initial done ⊆ made env config initial (done ++ [o]) := by
  have hbegun : begun env config initial done ⊆ begun env config initial (done ++ [o]) := by
    refine (List.take_prefix_take_left ?_).subset
    rw [List.length_append]
    omega
  intro place hplace
  obtain ⟨o', ho', hway⟩ := List.mem_flatMap.mp hplace
  exact List.mem_flatMap.mpr ⟨o', hbegun ho', hway⟩

theorem way_subset_made {initial : FileTree} {done : List Planned} {o : Planned}
    (hnext : done ++ [o] <+: plan initial env config) :
    o.path.parent.way env.place ⊆ made env config initial done := by
  obtain ⟨rest, hrest⟩ := hnext
  rw [List.append_assoc] at hrest
  intro place hplace
  refine List.mem_flatMap.mpr ⟨o, ?_, hplace⟩
  rw [begun_eq hrest.symm]
  simp

theorem aside_mem_replaced {output : Path} (h : output ∈ outputs config) (done : List Planned) :
    FileJob.aside env.place output ∈ replaced env config done :=
  List.mem_append_right _ (List.mem_map_of_mem h)

theorem replaced_subset (done : List Planned) (o : Planned) :
    replaced env config done ⊆ replaced env config (done ++ [o]) := by
  unfold replaced
  rw [List.map_append]
  exact List.append_subset.mpr ⟨fun _ h => by simp [h], List.subset_append_right _ _⟩

theorem Progress.start {initial : FileTree} : Progress env config initial [] initial :=
  ⟨List.nil_prefix, .refl _ _ _, nofun⟩

theorem Holds.of_frame {initial before after : FileTree} {made replaced : List Location}
    {place : Location} {p : Path} {text : Text} (h : Holds initial before place p text)
    (hframe : FileTree.Frame made replaced before after) (hplace : p.place place ∉ replaced) :
    Holds initial after place p text := by
  rcases h with ⟨bytes, hbytes, hfind⟩ | ⟨bytes, old, hinitial, hfind, hold⟩
  · exact .inl ⟨bytes, hbytes, hframe.find?_eq_file hplace hfind⟩
  · exact .inr ⟨bytes, old, hinitial, hframe.find?_eq_file hplace hfind, hold⟩

theorem isResolved_input (h : config.IsResolved) {path : Path} (hpath : path ∈ inputs config) :
    path.IsResolved := by
  rcases List.mem_cons.mp hpath with rfl | hdiff
  · exact h.main.input
  · obtain ⟨target, htarget, rfl⟩ := List.mem_map.mp hdiff
    exact (h.diffs target htarget).input

theorem isResolved_output (h : config.IsResolved) {path : Path} (hpath : path ∈ outputs config) :
    path.IsResolved := by
  rcases List.mem_cons.mp hpath with rfl | hdiff
  · exact h.main.output
  · obtain ⟨target, htarget, rfl⟩ := List.mem_map.mp hdiff
    exact (h.diffs target htarget).output

section

variable {initial current after : FileTree} {done rest : List Planned} {o : Planned} {path : Path}

theorem mem_outputs_of_reached (h : done <+: plan initial env config) (ho : o ∈ done) :
    o.path ∈ outputs config := by
  rw [← map_path_plan initial env config]
  exact List.mem_map_of_mem (h.subset ho)

/-- The paths of what is done are not among those that remain. -/
theorem path_ne_of_plan (hapart : Apart config) (h : plan initial env config = done ++ rest)
    (ho : o ∈ rest) : ∀ o' ∈ done, o'.path ≠ o.path := by
  have hnodup : ((done ++ rest).map (·.path)).Nodup := by
    rw [← h, map_path_plan]
    exact hapart.distinct
  rw [List.map_append, List.nodup_append] at hnodup
  exact fun o' ho' => hnodup.2.2 _ (List.mem_map_of_mem ho') _ (List.mem_map_of_mem ho)

theorem path_ne_of_next (hapart : Apart config) (h : done ++ [o] <+: plan initial env config) :
    ∀ o' ∈ done, o'.path ≠ o.path := by
  obtain ⟨rest, hrest⟩ := h
  rw [List.append_assoc] at hrest
  exact path_ne_of_plan hapart hrest.symm List.mem_cons_self

variable (hresolved : config.IsResolved)

include hresolved

theorem aside_eq {output : Path} (h : output ∈ outputs config) :
    FileJob.aside env.place output = (FileJob.temporary output).parts :=
  (FileJob.isResolved_temporary (isResolved_output hresolved h)).place env.place

/-- A path that is not written to leads to a place where nothing is replaced. -/
theorem parts_notMem_replaced (h : done <+: plan initial env config) (hpath : path.IsResolved)
    (hdone : ∀ o ∈ done, o.path ≠ path)
    (htemporary : ∀ output ∈ outputs config, FileJob.temporary output ≠ path) :
    path.parts ∉ replaced env config done := by
  intro hmem
  rcases List.mem_append.mp hmem with hplace | haside
  · obtain ⟨o, ho, heq⟩ := List.mem_map.mp hplace
    have houtput := isResolved_output hresolved (mem_outputs_of_reached h ho)
    rw [houtput.place] at heq
    exact houtput.parts_ne hpath (hdone o ho) heq
  · obtain ⟨output, houtput, heq⟩ := List.mem_map.mp haside
    rw [aside_eq hresolved houtput] at heq
    exact (FileJob.isResolved_temporary (isResolved_output hresolved houtput)).parts_ne hpath
      (htemporary output houtput) heq

variable (hapart : Apart config)

include hapart

theorem input_notMem_replaced (h : done <+: plan initial env config) (hpath : path ∈ inputs config) :
    path.parts ∉ replaced env config done :=
  parts_notMem_replaced hresolved h (isResolved_input hresolved hpath)
    (fun _ ho => (hapart.inputs _ (mem_outputs_of_reached h ho) _ hpath).1)
    fun _ houtput => (hapart.inputs _ houtput _ hpath).2

/-- Before its turn an output is not written to. -/
theorem next_notMem_replaced (hnext : done ++ [o] <+: plan initial env config) :
    o.path.parts ∉ replaced env config done := by
  have houtput := mem_outputs_of_reached hnext (o := o) (by simp)
  exact parts_notMem_replaced hresolved ((List.prefix_append done [o]).trans hnext)
    (isResolved_output hresolved houtput) (path_ne_of_next hapart hnext) fun output hmem =>
      hapart.temporary _ hmem _ houtput

/-- Writing an output touches no other one. -/
theorem place_notMem_written {output other : Path} (houtput : output ∈ outputs config)
    (hother : other ∈ outputs config) (hne : other ≠ output) :
    other.place env.place ∉ [output.place env.place, FileJob.aside env.place output] := by
  have hresolved' := isResolved_output hresolved hother
  rw [aside_eq hresolved houtput, (isResolved_output hresolved houtput).place, hresolved'.place,
    List.mem_cons, List.mem_singleton, not_or]
  exact ⟨hresolved'.parts_ne (isResolved_output hresolved houtput) hne,
    hresolved'.parts_ne (FileJob.isResolved_temporary (isResolved_output hresolved houtput))
      (hapart.temporary _ houtput _ hother).symm⟩

namespace Progress

/-- What is written later leaves what is done as it is. -/
theorem complete_of_frame (h : Progress env config initial done current)
    (hnext : done ++ [o] <+: plan initial env config) {made : List Location}
    (hframe : FileTree.Frame made [o.path.place env.place, FileJob.aside env.place o.path] current
      after) : ∀ o' ∈ done, ∃ text, o'.source = .ok text ∧
        Holds initial after env.place o'.path text := by
  intro o' ho'
  obtain ⟨text, hsource, hholds⟩ := h.complete o' ho'
  have houtput := mem_outputs_of_reached hnext (o := o) (by simp)
  have houtput' := mem_outputs_of_reached h.reached ho'
  exact ⟨text, hsource, hholds.of_frame hframe
    (place_notMem_written hresolved hapart houtput houtput' (path_ne_of_next hapart hnext o' ho'))⟩

variable (hrooted : initial.IsRooted)

include hrooted

/-- What is not done yet is as it was at the beginning. -/
theorem isLeft (h : Progress env config initial done current)
    (hplan : plan initial env config = done ++ rest) (ho : o ∈ rest) :
    IsLeft initial current env.place (done ++ rest.take 1) o.path := by
  have houtput : o.path ∈ outputs config := by
    rw [← map_path_plan initial env config, hplan]
    exact List.mem_map_of_mem (List.mem_append_right _ ho)
  have hkept := parts_notMem_replaced hresolved h.reached (isResolved_output hresolved houtput)
    (path_ne_of_plan hapart hplan ho) fun output hmem => hapart.temporary _ hmem _ houtput
  refine (h.frame.find?_eq hrooted (isResolved_output hresolved houtput) hkept env.place).imp id ?_
  rintro ⟨hnone, hdirectory, hmade⟩
  obtain ⟨other, hother, hway⟩ := List.mem_flatMap.mp hmade
  have houtput' : other.path ∈ outputs config := by
    rw [← map_path_plan initial env config]
    exact List.mem_map_of_mem (List.mem_of_mem_take hother)
  rw [begun_eq hplan] at hother
  exact ⟨hnone, hdirectory, other, hother,
    (isResolved_output hresolved houtput').parent.prefix_of_mem_way hway⟩

/-- A file that holds its source already held it at the beginning. -/
theorem next_of_readText (h : Progress env config initial done current)
    (hnext : done ++ [o] <+: plan initial env config) {text : Text} (hsource : o.source = .ok text)
    (hread : current.readText env.place o.path = .ok text) :
    Progress env config initial (done ++ [o]) current := by
  refine ⟨hnext, h.frame.mono (made_subset initial done o) (replaced_subset done o),
    fun o' ho' => ?_⟩
  rcases List.mem_append.mp ho' with hdone | hlast
  · exact h.complete o' hdone
  · obtain rfl := List.mem_singleton.mp hlast
    have houtput := mem_outputs_of_reached hnext (o := o') (by simp)
    obtain ⟨bytes, old, hfind, hdecode, hold⟩ := FileTree.readText_eq_ok_iff.mp hread
    have hinitial : initial.find? env.place o'.path = some (.file bytes) :=
      (h.frame.find?_eq_file_iff hrooted (isResolved_output hresolved houtput)
        (next_notMem_replaced hresolved hapart hnext)).mp hfind
    exact ⟨text, hsource, .inr ⟨bytes, old, hinitial, hfind, hdecode, hold⟩⟩

/-- Writing a source goes one step on, or fails and goes back no step. -/
theorem ends_write (h : Progress env config initial done current)
    (hnext : done ++ [o] <+: plan initial env config) {text : Text}
    (hsource : o.source = .ok text) :
    Ends (FileJob.write env.place o.path text false) current (either
      (fun _ => Progress env config initial (done ++ [o]))
      fun _ => Progress env config initial done) := by
  have houtput := mem_outputs_of_reached hnext (o := o) (by simp)
  have haside : ∀ done, FileJob.aside env.place o.path ∈ replaced env config done :=
    aside_mem_replaced houtput
  refine (FileJob.ends_write env.place o.path text current).mono fun r after hwrite => ?_
  cases r with
  | error e =>
    -- the temporary file counts as replaced from the beginning, so nothing is lost
    have hframe : FileTree.Frame (made env config initial done) (replaced env config done) current
        after :=
      hwrite.mono (way_subset_made hnext) (List.cons_subset.mpr ⟨haside done, List.nil_subset _⟩)
    refine ⟨h.reached, h.frame.trans hframe, fun o' ho' => ?_⟩
    exact h.complete_of_frame hresolved hapart hnext
      (hwrite.mono (List.Subset.refl _) (by simp)) o' ho'
  | ok changed =>
    cases changed with
    | false =>
      obtain ⟨rfl, hread⟩ := hwrite
      exact h.next_of_readText hresolved hapart hrooted hnext hsource hread
    | true =>
      obtain ⟨hbytes, hwritten⟩ := hwrite
      have hplace : o.path.place env.place ∈ replaced env config (done ++ [o]) := by
        simp [replaced]
      have hmade : made env config initial done ⊆ made env config initial (done ++ [o]) :=
        made_subset initial done o
      have hframe : FileTree.Frame (made env config initial (done ++ [o]))
          (replaced env config (done ++ [o])) current after := by
        refine hwritten.mono (List.Subset.trans (way_subset_made hnext) hmade) ?_
        exact List.cons_subset.mpr ⟨hplace, List.cons_subset.mpr ⟨haside _, List.nil_subset _⟩⟩
      refine ⟨hnext, .trans (h.frame.mono hmade (replaced_subset done o)) hframe, fun o' ho' => ?_⟩
      rcases List.mem_append.mp ho' with hdone | hlast
      · exact h.complete_of_frame hresolved hapart hnext hwritten o' hdone
      · obtain rfl := List.mem_singleton.mp hlast
        exact ⟨text, hsource, .inl hbytes⟩

/-- A catalog is read as it was at the beginning. -/
theorem readCatalog_eq (h : Progress env config initial done current)
    (hpath : path ∈ inputs config) {nesting : Nat} {catalog : Catalog}
    (hread : current.readCatalog nesting env.place path = .ok catalog) :
    initial.readCatalog nesting env.place path = .ok catalog :=
  FileTree.readCatalog_congr (fun _ => (h.frame.find?_eq_file_iff hrooted
    (isResolved_input hresolved hpath)
    (input_notMem_replaced hresolved hapart h.reached hpath)).mp) hread

theorem reading_eq (h : Progress env config initial done current) (hpath : path ∈ inputs config)
    {options : Options} {found : Reading} (hfound : reading current env options path = .ok found) :
    reading initial env options path = .ok found :=
  reading_congr (fun _ _ => h.readCatalog_eq hresolved hapart hrooted hpath) hfound

/-- A source that is emitted goes one step on. Where that fails, it does so before the write or, in
telling of it, behind. -/
theorem ends_emit {w : World} (h : Progress env config initial done w.files)
    (hnext : done ++ [o] <+: plan initial env config) {rs : List Resource}
    (hsource : o.source = sourceOf env config rs) :
    Ends (emit env config false o.path rs) w (either
      (fun _ after => Progress env config initial (done ++ [o]) after.files)
      fun _ after => Progress env config initial done after.files ∨
        Progress env config initial (done ++ [o]) after.files) := by
  unfold emit
  refine .bind (.ofExcept (r := sourceOf env config rs) ?_)
  cases htext : sourceOf env config rs with
  | error e => exact .inl h
  | ok text =>
    rw [htext] at hsource
    refine .bind (ends_onFiles ((h.ends_write hresolved hapart hrooted hnext hsource).mono
      fun r after hwrite => ?_))
    cases r with
    | error e => exact .inl hwrite
    | ok changed =>
      cases changed with
      | true => exact ends_say (fun _ => hwrite) fun _ => .inr hwrite
      | false => exact ends_say (fun _ => hwrite) fun _ => .inr hwrite

theorem ends_generateDiff {w : World} (h : Progress env config initial done w.files)
    {target : Target} (hnext : done ++ [diffFile initial env config target] <+:
      plan initial env config) (htarget : target ∈ config.diffs) {main : Reading}
    (hmain : reading initial env config.options config.main.input = .ok main) :
    Ends (generateDiff env config false main.keys target) w (either
      (fun _ after => Progress env config initial (done ++ [diffFile initial env config target])
        after.files)
      fun _ after => Progress env config initial done after.files ∨
        Progress env config initial (done ++ [diffFile initial env config target])
          after.files) := by
  have hinput : target.input ∈ inputs config := List.mem_cons_of_mem _ (List.mem_map_of_mem htarget)
  refine ends_generateDiff_of (fun _ _ => .inl h) (fun _ _ _ => .inl h) (fun _ _ => .inl h)
    fun found printed hfound => ?_
  have hinitial := h.reading_eq hresolved hapart hrooted hinput hfound
  have hsource : (diffFile initial env config target).source =
      sourceOf env config (found.resources.filter fun r => !main.keys.contains r.key) := by
    rw [diffFile, hmain, hinitial]
    rfl
  refine (Progress.ends_emit hresolved hapart hrooted (w := ⟨w.files, printed⟩) h hnext
    hsource).mono fun r after hemit => ?_
  cases r with
  | error e => exact hemit
  | ok => exact fun _ => hemit

end Progress

variable (hrooted : initial.IsRooted)

include hrooted

/-- The files of the further catalogs are written one after another, up to the first failure. -/
theorem ends_generateDiffs {w : World} {main : Reading}
    (h : Progress env config initial [mainFile initial env config] w.files)
    (hmain : reading initial env config.options config.main.input = .ok main) :
    Ends (config.diffs.mapM (generateDiff env config false main.keys)) w fun r after =>
      Stopped env config initial r after.files := by
  have hsnoc : ∀ before target, written initial env config (before ++ [target]) =
      written initial env config before ++ [diffFile initial env config target] := by
    intro before target
    simp [written]
  -- a target that is gone through adds its file to what is done
  have hstep : ∀ before target behind, config.diffs = before ++ target :: behind → ∀ w' : World,
      Progress env config initial (written initial env config before) w'.files →
        Ends (generateDiff env config false main.keys target) w' (either
          (fun _ after => Progress env config initial
            (written initial env config (before ++ [target])) after.files)
          fun _ after =>
            Progress env config initial (written initial env config before) after.files ∨
              Progress env config initial (written initial env config (before ++ [target]))
                after.files) := by
    intro before target behind hdiffs w' hw'
    have hnext : written initial env config before ++ [diffFile initial env config target] <+:
        plan initial env config := by simp [written, plan, hdiffs]
    rw [hsnoc]
    exact hw'.ends_generateDiff hresolved hapart hrooted hnext (by simp [hdiffs]) hmain
  have hrun := Ends.mapM (p := fun targets (after : World) =>
    Progress env config initial (written initial env config targets) after.files) h hstep
  refine hrun.mono fun r after h => ?_
  obtain ⟨before, behind, hdiffs, hdone, hall⟩ := h
  refine ⟨written initial env config before, behind.map (diffFile initial env config), ?_, hdone,
    fun kept hr => ?_⟩
  · simp [written, plan, hdiffs]
  · rw [hall kept hr, List.map_nil]

/-- However a generation ends, the first files are done and no others, and if it goes through all
are. -/
theorem ends_generate {w : World} (hw : w.files = initial) :
    Ends (generate env config false) w fun r after => Stopped env config initial r after.files := by
  subst hw
  have hstart : Progress env config w.files [] w.files := .start
  have hstop : ∀ {done rest : List Planned} {e : Failure} {after : World},
      plan w.files env config = done ++ rest → Progress env config w.files done after.files →
        Stopped env config w.files (.error e : Except Failure Unit) after.files :=
    fun hplan h => ⟨_, _, hplan, h, nofun⟩
  unfold generate
  refine .bind (ends_extractFile (fun _ _ => hstop rfl hstart) (fun _ _ _ => hstop rfl hstart)
    fun found printed hmain => ?_)
  have hsource : (mainFile w.files env config).source = sourceOf env config found.resources := by
    rw [mainFile, hmain]
    rfl
  have hfirst : [] ++ [mainFile w.files env config] <+: plan w.files env config :=
    List.prefix_append _ _
  have hemit := hstart.ends_emit (w := ⟨w.files, printed⟩) hresolved hapart hrooted hfirst hsource
  refine .bind (.ofExcept ?_)
  cases (Resource.validate found.resources (some config.main.input)).mapError
      Failure.generation with
  | error e => exact hstop rfl hstart
  | ok =>
    refine .bind (hemit.mono fun r between hbetween => ?_)
    cases r with
    | error e =>
      rcases hbetween with hbefore | hbehind
      · exact hstop rfl hbefore
      · exact hstop rfl hbehind
    | ok =>
      have hdiffs := ends_generateDiffs hresolved hapart hrooted hbetween hmain
      refine .bind (hdiffs.mono fun r after hstopped => ?_)
      obtain ⟨done, rest, hplan, hdone, hall⟩ := hstopped
      cases r with
      | error e => exact hstop hplan hdone
      | ok kept =>
        exact ends_forM_say (fun _ => ⟨done, rest, hplan, hdone, fun _ _ => hall kept rfl⟩)
          fun _ _ _ _ => hstop hplan hdone

end

end StringCatalog.Project
