import StringCatalog.Proofs.Project.Outputs
import StringCatalog.Proofs.Workspace.Obstacle

/-! The obstacles of diagnoses and generations. A generation changes files as it goes, but what it
writes is no catalog and can be read as text, so its obstacles too are in the files that it finds. -/

namespace StringCatalog

/-- The text begins with a slash, as sources do and JSON texts do not. -/
def Text.BeginsWithSlash (text : Text) : Prop := text.head? = some '/'

theorem Json.ofText_of_beginsWithSlash {text : Text} (h : text.BeginsWithSlash) (nesting : Nat) :
    ofText nesting text.unifyNewlines = .error .malformed := by
  obtain ⟨rest, rfl⟩ := List.head?_eq_some_iff.mp h
  obtain ⟨rest', hrest'⟩ : ∃ rest', Text.unifyNewlines (.char '/' :: rest) = .char '/' :: rest' :=
    ⟨_, by rw [Text.unifyNewlines, if_neg (by decide)]; simp⟩
  have hvalue : ∀ bound, readValue nesting (bound + 1) (.char '/' :: rest') =
      .error .malformed := by
    intro bound
    rw [readValue]
    · rfl
    all_goals simp
  rw [hrest']
  exact Sequence.bind_eq_error_iff.mpr (.inl (hvalue _))

theorem Swift.beginsWithSlash_source {deepest : Nat} {style : Style} {table : Text}
    {rs : List Resource} {text : Text} (h : source deepest style table rs = .ok text) :
    text.BeginsWithSlash := by
  unfold source at h
  split at h
  · contradiction
  · obtain ⟨_, -, h⟩ := Sequence.bind_eq_ok_iff.mp (Sequence.mapError_eq_ok_iff.mp h)
    obtain ⟨body, -, h⟩ := Sequence.bind_eq_ok_iff.mp h
    cases h
    rfl

/-- The failures that a generation explains. -/
def Failure.IsExplained : Failure → Prop
  | .catalog _ | .generation _ | .file _ => True
  | _ => False

namespace Project

open Session

variable {env : Environment} {tree current : FileTree} {config : Config} {options : Options}
  {dryRun : Bool} {input output path : Path} {rs : List Resource} {f : Failure}

/-- Resources of a catalog that a configuration names, as its file is at the beginning. -/
def AreExtracted (tree : FileTree) (env : Environment) (config : Config) (rs : List Resource) :
    Prop :=
  ∃ input bytes c x, input ∈ inputs config ∧
    tree.at? (input.place env.place) = some (.file bytes) ∧
    Catalog.IsReadFrom c (env.nesting callsAroundReading) bytes ∧
    c.extract config.options.strict config.options.skipStale = .ok x ∧ rs.Sublist x.resources

/-- What keeps a generation from going on without an error that it explains: an obstacle in the file
of a catalog, one in the way of the source of extracted resources, or a line that cannot be
printed. -/
inductive Obstacle (tree : FileTree) (env : Environment) (config : Config) (dryRun : Bool) :
    Failure → Prop
  | catalog {input : Path} {bytes : ByteArray} {f : Failure} (named : input ∈ inputs config)
      (found : tree.at? (input.place env.place) = some (.file bytes))
      (obstacle : Catalog.Obstacle (env.nesting callsAroundReading)
        (env.components callsAroundSource) bytes f) : Obstacle tree env config dryRun f
  | output {output : Path} {rs : List Resource} {source : Text} {f : Failure}
      (named : output ∈ outputs config) (extracted : AreExtracted tree env config rs)
      (made : sourceOf env config rs = .ok source)
      (obstacle : FileJob.Obstacle tree env.place output source dryRun f) :
      Obstacle tree env config dryRun f
  | line {line : Text} (unprintable : line.isEncodable = false) :
      Obstacle tree env config dryRun (.unprintable line)

theorem Obstacle.not_isForeseen (h : Obstacle tree env config dryRun f) : ¬f.IsForeseen := by
  cases h with
  | catalog _ _ obstacle => exact obstacle.not_isForeseen
  | output _ _ _ obstacle => exact obstacle.not_isForeseen
  | line => exact id

/-! ### Diagnoses -/

/-- What keeps a diagnosis from going on at a catalog: its path is too long to be looked up, its
file is an obstacle, or a line cannot be printed. -/
inductive DiagnosisObstacle (tree : FileTree) (env : Environment) (path : Path) : Failure → Prop
  | longPath (long : tree.locate env.place path = .error .nameTooLong) :
      DiagnosisObstacle tree env path (.file ⟨.nameTooLong, path⟩)
  | catalog {bytes : ByteArray} {f : Failure}
      (found : tree.at? (path.place env.place) = some (.file bytes))
      (obstacle : Catalog.Obstacle (env.nesting callsAroundDiagnosis)
        (env.components callsAroundDiagnosis) bytes f) : DiagnosisObstacle tree env path f
  | line {line : Text} (unprintable : line.isEncodable = false) :
      DiagnosisObstacle tree env path (.unprintable line)

theorem DiagnosisObstacle.not_isForeseen (h : DiagnosisObstacle tree env path f) :
    ¬f.IsForeseen := by
  cases h with
  | catalog _ obstacle => exact obstacle.not_isForeseen
  | longPath | line => exact id

/-- A file that is read as a catalog, or as far as one can be, has been there from the beginning. -/
theorem at?_of_descends (h : FileTree.Descends Text.BeginsWithSlash tree current)
    {bytes : ByteArray} (hfind : current.find? env.place path = some (.file bytes)) {nesting : Nat}
    (hread : ∀ text, FileTree.decode? bytes = some text →
      Json.ofText nesting text.unifyNewlines ≠ .error .malformed) :
    tree.at? (path.place env.place) = some (.file bytes) := by
  rcases h _ _ (FileTree.find?_eq_some_iff.mp hfind).2 with hbefore | ⟨text, hslash, hencode⟩
  · exact hbefore
  · exact absurd (Json.ofText_of_beginsWithSlash hslash nesting)
      (hread text (FileTree.decode?_of_encode? hencode))

theorem areExtracted_of_reading (h : FileTree.Descends Text.BeginsWithSlash tree current)
    (hinput : input ∈ inputs config) {found : Reading}
    (hfound : reading current env config.options input = .ok found)
    (hrs : rs.Sublist found.resources) : AreExtracted tree env config rs := by
  obtain ⟨c, hread, hfound⟩ := Sequence.bind_eq_ok_iff.mp hfound
  obtain ⟨x, hextract, hfound⟩ := Sequence.bind_eq_ok_iff.mp hfound
  cases hfound
  obtain ⟨bytes, hfind, hbytes⟩ := FileTree.exists_isReadFrom hread
  exact ⟨input, bytes, c, x, hinput, at?_of_descends h hfind fun _ => hbytes.ne_malformed, hbytes,
    Sequence.mapError_eq_ok_iff.mp hextract, hrs⟩

theorem reading_eq_error (h : FileTree.Descends Text.BeginsWithSlash tree current)
    (hinput : input ∈ inputs config)
    (herror : reading current env config.options input = .error f) :
    f.IsExplained ∨ Obstacle tree env config dryRun f := by
  rcases Sequence.bind_eq_error_iff.mp herror with herror | ⟨c, hread, herror⟩
  · rcases FileTree.readCatalog_eq_error (env.components callsAroundSource) herror with
      ⟨e, rfl⟩ | ⟨rfl, -⟩ | ⟨bytes, hfind, hbytes⟩
    · exact .inl trivial
    · exact .inl trivial
    · exact .inr (.catalog hinput (at?_of_descends h hfind fun _ => hbytes.ne_malformed) hbytes)
  rcases Sequence.bind_eq_error_iff.mp herror with herror | ⟨x, -, herror⟩
  · obtain ⟨failure, hfailure, rfl⟩ := Sequence.mapError_eq_error_iff.mp herror
    rcases Catalog.extract_eq_error hfailure with ⟨-, e, rfl⟩ | ⟨rfl, e, he, hlong⟩
    · exact .inl trivial
    · obtain ⟨bytes, hfind, hbytes⟩ := FileTree.exists_isReadFrom hread
      exact .inr (.catalog hinput (at?_of_descends h hfind fun _ => hbytes.ne_malformed)
        (.position hbytes he hlong))
  · contradiction

theorem ends_emit_obstacle {w : World}
    (h : FileTree.Descends Text.BeginsWithSlash tree w.files) (hresolved : config.IsResolved)
    (houtput : output ∈ outputs config) (hrs : AreExtracted tree env config rs) :
    Ends (emit env config dryRun output rs) w (either
      (fun _ after => FileTree.Descends Text.BeginsWithSlash tree after.files)
      fun f _ => f.IsExplained ∨ Obstacle tree env config dryRun f) := by
  unfold emit
  refine .bind (.ofExcept (r := sourceOf env config rs) ?_)
  cases hsource : sourceOf env config rs with
  | error f =>
    obtain ⟨failure, hfailure, rfl⟩ := Sequence.mapError_eq_error_iff.mp hsource
    unfold Swift.source at hfailure
    split at hfailure
    · rename_i hdeep
      cases hfailure
      obtain ⟨input, bytes, c, x, hinput, hat, hbytes, hextract, hsub⟩ := hrs
      obtain ⟨e, he, hlong⟩ := Catalog.exists_deep_entry hextract hsub.subset hdeep
      exact .inr (.catalog hinput hat (.components hbytes he hlong))
    · obtain ⟨e, -, rfl⟩ := Sequence.mapError_eq_error_iff.mp hfailure
      exact .inl trivial
  | ok source =>
    have hslash : source.BeginsWithSlash :=
      Swift.beginsWithSlash_source (Sequence.mapError_eq_ok_iff.mp hsource)
    refine .bind (ends_onFiles ((FileJob.ends_write_descends h hslash
      (isResolved_output hresolved houtput)).mono fun r after hwrite => ?_))
    cases r with
    | error f =>
      rcases hwrite with ⟨e, rfl⟩ | hobstacle
      · exact .inl trivial
      · exact .inr (.output houtput hrs hsource hobstacle)
    | ok changed =>
      have hsay : ∀ line, Ends (say line) ⟨after, w.printed⟩ (either
          (fun _ after => FileTree.Descends Text.BeginsWithSlash tree after.files)
          fun f _ => f.IsExplained ∨ Obstacle tree env config dryRun f) := fun line =>
        ends_say (fun _ => hwrite) fun h => .inr (.line h)
      dsimp only [either]
      split
      · exact hsay _
      · split
        · exact hsay _
        · exact hsay _

theorem ends_generateDiff_obstacle {w : World}
    (h : FileTree.Descends Text.BeginsWithSlash tree w.files) (hresolved : config.IsResolved)
    {target : Target} (htarget : target ∈ config.diffs) (known : List Text) :
    Ends (generateDiff env config dryRun known target) w (either
      (fun _ after => FileTree.Descends Text.BeginsWithSlash tree after.files)
      fun f _ => f.IsExplained ∨ Obstacle tree env config dryRun f) := by
  have hinput : target.input ∈ inputs config := List.mem_cons_of_mem _ (List.mem_map_of_mem htarget)
  have houtput : target.output ∈ outputs config :=
    List.mem_cons_of_mem _ (List.mem_map_of_mem htarget)
  refine ends_generateDiff_of (fun f => reading_eq_error h hinput)
    (fun _ _ hline => .inr (.line hline)) (fun _ _ => .inl trivial) fun found printed hfound => ?_
  have hextracted := areExtracted_of_reading h hinput hfound
    (List.filter_sublist (p := fun r => !known.contains r.key))
  refine (ends_emit_obstacle (w := ⟨w.files, printed⟩) h hresolved houtput hextracted).mono
    fun r after hemit => ?_
  cases r with
  | error f => exact hemit
  | ok => exact fun _ => hemit

/-- A generation fails with what it explains, or for an obstacle in the files that it finds. -/
theorem ends_generate_obstacle {w : World} (hresolved : config.IsResolved) :
    Ends (generate env config dryRun) w (either (fun _ _ => True)
      fun f _ => f.IsExplained ∨ Obstacle w.files env config dryRun f) := by
  have hstart : FileTree.Descends Text.BeginsWithSlash w.files w.files := .refl _ _
  have hinput : config.main.input ∈ inputs config := List.mem_cons_self
  have houtput : config.main.output ∈ outputs config := List.mem_cons_self
  unfold generate
  refine .bind (ends_extractFile (fun f => reading_eq_error hstart hinput)
    (fun _ _ hline => .inr (.line hline)) fun found printed hfound => ?_)
  refine .bind (.ofExcept ?_)
  cases hvalid : (Resource.validate found.resources (some config.main.input)).mapError
      Failure.generation with
  | error f =>
    obtain ⟨e, -, rfl⟩ := Sequence.mapError_eq_error_iff.mp hvalid
    exact .inl trivial
  | ok =>
    have hextracted := areExtracted_of_reading hstart hinput hfound (.refl _)
    refine .bind ((ends_emit_obstacle (w := ⟨w.files, printed⟩) hstart hresolved houtput
      hextracted).mono fun r between hbetween => ?_)
    cases r with
    | error f => exact hbetween
    | ok =>
      refine .bind ((Ends.mapM_keeps hbetween fun target htarget w' h =>
        ends_generateDiff_obstacle h hresolved htarget found.keys).mono fun r after h => ?_)
      cases r with
      | error f => exact h
      | ok kept => exact ends_forM_say (fun _ => trivial) fun _ _ hline _ => .inr (.line hline)

end Project

end StringCatalog
