import StringCatalog.Proofs.Catalog.Strictness
import StringCatalog.Proofs.Path
import StringCatalog.Proofs.Project.Report
import StringCatalog.Proofs.Swift.Totality
import StringCatalog.Proofs.Validation
import StringCatalog.Proofs.Workspace.Files

/-! Reports and catalogs that are in order. There are reports for all targets if the catalogs are in
order and no output is in the way, and those of a strict generation show that the main catalog is in
order. A generation reads catalogs and builds trees inside more calls than a diagnosis, so it may
run out of room first. -/

namespace StringCatalog.Project

open Session

variable {env : Environment} {tree : FileTree} {config : Config} {options : Options}
  {output path : Path} {place : Location} {nesting components : Nat} {skipStale : Bool}
  {catalog : Catalog} {x : Extraction}

/-- Nothing is at the path of an output, or a file with text is. -/
def IsAvailable (tree : FileTree) (place : Location) (output : Path) : Prop :=
  tree.pathExists place output = .ok false ∨ ∃ text, tree.readText place output = .ok text

/-- What is at the path of a catalog is not nested too deeply for a generation, and no key of the
catalog has too many components for it. -/
def IsShallow (tree : FileTree) (env : Environment) (path : Path) : Prop :=
  tree.readCatalog (env.nesting callsAroundReading) env.place path ≠ .error .tooDeep ∧
    ∀ catalog, tree.readCatalog (env.nesting callsAroundReading) env.place path = .ok catalog →
      ∀ key ∈ catalog.keys, (Resource.keyComponents key).length ≤ env.components callsAroundSource

/-! ### Room -/

theorem nesting_le (env : Environment) :
    env.nesting callsAroundReading ≤ env.nesting callsAroundDiagnosis := by
  unfold Environment.nesting callsAroundReading callsAroundDiagnosis
  omega

theorem components_le (env : Environment) :
    env.components callsAroundSource ≤ env.components callsAroundDiagnosis := by
  unfold Environment.components callsAroundSource callsAroundDiagnosis
  omega

theorem isTooDeep_eq_false_iff {deepest : Nat} {rs : List Resource} :
    NamespaceTree.isTooDeep deepest rs [] = false ↔ ∀ r ∈ rs, r.components.length ≤ deepest := by
  simp [NamespaceTree.isTooDeep]

namespace CatalogInOrder

/-- A catalog that is in order is so where there is more room. -/
theorem mono {nesting' components' : Nat}
    (h : CatalogInOrder tree place nesting components skipStale path catalog x)
    (hnesting : nesting ≤ nesting') (hcomponents : components ≤ components') :
    CatalogInOrder tree place nesting' components' skipStale path catalog x := by
  have hread : tree.readCatalog nesting' place path = .ok catalog := by
    rcases FileTree.readCatalog_of_le hnesting tree place path with hdeep | hsame
    · cases hdeep.symm.trans h.read
    · rw [← hsame]
      exact h.read
  have hdepth := isTooDeep_eq_false_iff.mp h.depth
  exact ⟨hread, h.extract, h.isOk,
    isTooDeep_eq_false_iff.mpr fun r hr => (hdepth r hr).trans hcomponents, h.check, h.valid⟩

/-- A catalog that is in order for a diagnosis is so for a generation if it is shallow. -/
theorem of_isDiagnosed (h : IsDiagnosed tree env options path catalog x)
    (hshallow : IsShallow tree env path) :
    CatalogInOrder tree env.place (env.nesting callsAroundReading)
      (env.components callsAroundSource) options.skipStale path catalog x := by
  obtain ⟨hroom, hkeys⟩ := hshallow
  have hread : tree.readCatalog (env.nesting callsAroundReading) env.place path = .ok catalog := by
    rcases FileTree.readCatalog_of_le (nesting_le env) tree env.place path with hdeep | hsame
    · exact absurd hdeep hroom
    · rw [hsame]
      exact h.read
  refine ⟨hread, h.extract, h.isOk, isTooDeep_eq_false_iff.mpr fun r hr => ?_, h.check, h.valid⟩
  obtain ⟨e, he⟩ := Catalog.exists_entry_of_mem_resources h.extract hr
  rw [(Swift.keyed_of_toResource he).components]
  exact hkeys catalog hread _ (Catalog.key_mem_of_mem_resources h.extract hr)

end CatalogInOrder

/-! ### Reports on catalogs that are in order -/

/-- Some of the resources of a catalog that is in order have a source. -/
theorem exists_sourceOf
    (h : CatalogInOrder tree place nesting (env.components callsAroundSource) skipStale path catalog
      x) (config : Config) {kept : List Resource} (hsub : kept.Sublist x.resources) :
    ∃ text, sourceOf env config kept = .ok text := by
  have hresources : ∀ r ∈ kept, ∃ e : CatalogEntry, e.toResource = .ok r := fun r hr =>
    Catalog.exists_entry_of_mem_resources h.extract (hsub.subset hr)
  have hdepth : NamespaceTree.isTooDeep (env.components callsAroundSource) kept [] = false :=
    isTooDeep_eq_false_iff.mpr fun r hr => isTooDeep_eq_false_iff.mp h.depth r (hsub.subset hr)
  obtain ⟨text, htext⟩ := Swift.exists_source hresources hdepth
    (NamespaceTree.check_sublist hsub h.check) (style config) config.main.input.stem
  exact ⟨text, Sequence.mapError_eq_ok_iff.mpr htext⟩

theorem exists_holdsText (h : IsAvailable tree env.place output) (text : Text) :
    ∃ held, FileJob.holdsText tree env.place output text = .ok held := by
  rcases h with habsent | ⟨old, hread⟩
  · exact ⟨false, by rw [FileJob.holdsText, habsent]; rfl⟩
  · -- what can be read can be looked up
    have hlookup : ∃ found, tree.pathExists env.place output = .ok found := by
      unfold FileTree.pathExists
      split
      · exact ⟨false, rfl⟩
      · unfold FileTree.readText at hread
        split at hread
        · contradiction
        · rename_i hlocate
          rw [hlocate]
          exact ⟨_, rfl⟩
    obtain ⟨found, hfound⟩ := hlookup
    rw [FileJob.holdsText, hfound]
    cases found with
    | true => exact ⟨old == text, by rw [hread]; rfl⟩
    | false => exact ⟨false, rfl⟩

/-- What is read of a catalog that is in order. Nothing is left out of it. -/
theorem reading_of_inOrder
    (h : CatalogInOrder tree env.place (env.nesting callsAroundReading) components options.skipStale
      path catalog x) :
    reading tree env options path = .ok ⟨x.issues.map issueLine, catalog.keys, x.resources⟩ := by
  have hextract := Catalog.extract_of_isOk h.extract h.isOk options.strict
  have hcount : x.count .error = 0 := by
    have hok := h.isOk
    rw [Extraction.isOk, List.all_eq_true] at hok
    rw [Extraction.count, List.length_eq_zero_iff, List.filter_eq_nil_iff]
    exact fun i hi => by simpa using hok i hi
  have hnotes : notesOf path x = x.issues.map issueLine := by
    simp [notesOf, hcount]
  rw [← hnotes]
  exact Sequence.bind_eq_ok_iff.mpr ⟨catalog, h.read, Sequence.bind_eq_ok_iff.mpr
    ⟨x, Sequence.mapError_eq_ok_iff.mpr hextract, rfl⟩⟩

theorem exists_report {target : Target} (notes : List Text)
    (h : CatalogInOrder tree place nesting (env.components callsAroundSource) skipStale path catalog
      x) (havailable : IsAvailable tree env.place target.output) (config : Config)
    {kept : List Resource} (hsub : kept.Sublist x.resources) :
    ∃ r, report tree env config target notes kept = .ok r := by
  obtain ⟨text, htext⟩ := exists_sourceOf h config hsub
  obtain ⟨held, hheld⟩ := exists_holdsText havailable text
  have hvalid := Resource.validate_sublist hsub h.valid (some target.input)
  refine ⟨⟨target, notes, kept, text, !held⟩, report_eq_ok_iff.mpr
    ⟨hvalid, htext, ?_, rfl, rfl, rfl⟩⟩
  rw [Bool.not_not]
  exact hheld

/-- There are reports for all targets if the catalogs are in order and no output is in the way. -/
theorem exists_reports_of_inOrder
    (hinputs : ∀ path ∈ inputs config, ∃ catalog x, CatalogInOrder tree env.place
      (env.nesting callsAroundReading) (env.components callsAroundSource) config.options.skipStale
        path catalog x)
    (houtputs : ∀ output ∈ outputs config, IsAvailable tree env.place output) :
    ∃ main further, reports tree env config = .ok (main, further) := by
  obtain ⟨catalog, x, hx⟩ := hinputs config.main.input List.mem_cons_self
  obtain ⟨main, hmain⟩ := exists_report (x.issues.map issueLine) hx
    (houtputs config.main.output List.mem_cons_self) config (List.Sublist.refl x.resources)
  have hdiffs : ∀ target ∈ config.diffs, ∃ r,
      diffReport tree env config catalog.keys target = .ok r := by
    intro target htarget
    have hinput : target.input ∈ inputs config :=
      List.mem_cons_of_mem _ (List.mem_map_of_mem htarget)
    have houtput : target.output ∈ outputs config :=
      List.mem_cons_of_mem _ (List.mem_map_of_mem htarget)
    obtain ⟨_, y, hy⟩ := hinputs target.input hinput
    -- the resources whose keys the main catalog does not have
    obtain ⟨kept, hkept⟩ : ∃ kept,
      kept = y.resources.filter fun r => !catalog.keys.contains r.key := ⟨_, rfl⟩
    have hsub : kept.Sublist y.resources := hkept ▸ List.filter_sublist
    obtain ⟨r, hr⟩ := exists_report
      (y.issues.map issueLine ++ leftOut config target y.resources kept) hy
        (houtputs target.output houtput) config hsub
    exact ⟨r, diffReport_eq_ok_iff.mpr ⟨_, kept, reading_of_inOrder hy, hkept, hr⟩⟩
  obtain ⟨further, hfurther⟩ := Sequence.exists_mapM_eq_ok hdiffs
  exact ⟨main, further, reports_eq_ok_iff.mpr ⟨_, reading_of_inOrder hx, hmain, hfurther⟩⟩

/-- What is noted in reports can be printed if what is noted of the catalogs and the names of their
files can. -/
theorem arePrintable_notes {main : Report} {further : List Report}
    (hreports : reports tree env config = .ok (main, further))
    (hinputs : ∀ path ∈ inputs config, path.name.isEncodable = true ∧
      ∀ found, reading tree env config.options path = .ok found → ArePrintable found.notes) :
    ∀ r ∈ main :: further, ArePrintable r.notes := by
  obtain ⟨found, hfound, hmain, hfurther⟩ := reports_eq_ok_iff.mp hreports
  obtain ⟨hname, hnotes⟩ := hinputs config.main.input List.mem_cons_self
  intro r hr
  rcases List.mem_cons.mp hr with rfl | hr
  · obtain ⟨-, -, -, -, heq, -⟩ := report_eq_ok_iff.mp hmain
    rw [heq]
    exact hnotes found hfound
  · obtain ⟨target, htarget, hr⟩ := (Sequence.mem_of_mapM_eq_ok hfurther r).mp hr
    obtain ⟨found', kept, hfound', -, hreport⟩ := diffReport_eq_ok_iff.mp hr
    obtain ⟨-, -, -, -, heq, -⟩ := report_eq_ok_iff.mp hreport
    obtain ⟨hname', hnotes'⟩ := hinputs target.input
      (List.mem_cons_of_mem _ (List.mem_map_of_mem htarget))
    rw [heq, arePrintable_append]
    refine ⟨hnotes' found' hfound', ?_⟩
    unfold leftOut
    split
    · simp [hname, hname']
    · exact arePrintable_nil

/-- A transcript can be printed if what is noted in the reports can, and the paths of the outputs
and the keys that are warned of. -/
theorem arePrintable_transcript_iff_outputs {main : Report} {further : List Report} {dry : Bool}
    (hreports : reports tree env config = .ok (main, further))
    (hnotes : ∀ r ∈ main :: further, ArePrintable r.notes) :
    ArePrintable (transcript dry main further) ↔
      (∀ output ∈ outputs config, output.display.isEncodable = true) ∧
        ∀ d ∈ warnings further, d.1.isEncodable = true := by
  have houtputs : outputs config = (main :: further).map (·.target.output) := by
    calc outputs config = (config.main :: config.diffs).map (·.output) := rfl
      _ = ((main :: further).map (·.target)).map (·.output) := by rw [targets_of_reports hreports]
      _ = (main :: further).map (·.target.output) := List.map_map
  rw [arePrintable_transcript_iff, houtputs, List.forall_mem_map]
  refine and_congr_left fun _ => ⟨fun h r hr => (h r hr).2, fun h r hr => ⟨hnotes r hr, h r hr⟩⟩

/-- A strict generation with reports has found the main catalog in order, and what is noted of it is
noted in the first report. -/
theorem inOrder_of_reports {main : Report} {further : List Report}
    (hstrict : config.options.strict = true)
    (hreports : reports tree env config = .ok (main, further)) : ∃ catalog x,
      CatalogInOrder tree env.place (env.nesting callsAroundReading)
        (env.components callsAroundSource) config.options.skipStale config.main.input catalog x ∧
          main.notes = x.issues.map issueLine := by
  obtain ⟨found, hfound, hmain, -⟩ := reports_eq_ok_iff.mp hreports
  obtain ⟨hvalid, hsource, -, -, hnotes, -⟩ := report_eq_ok_iff.mp hmain
  have hreading := hfound
  obtain ⟨catalog, hread, hfound⟩ := Sequence.bind_eq_ok_iff.mp hfound
  obtain ⟨x, hextract, hfound⟩ := Sequence.bind_eq_ok_iff.mp hfound
  cases hfound
  obtain ⟨hdepth, hcheck⟩ := Swift.check_of_source (Sequence.mapError_eq_ok_iff.mp hsource)
  rw [hstrict] at hextract
  obtain ⟨hloose, hok⟩ := Catalog.extract_true_iff.mp (Sequence.mapError_eq_ok_iff.mp hextract)
  have hx : CatalogInOrder tree env.place (env.nesting callsAroundReading)
      (env.components callsAroundSource) config.options.skipStale config.main.input catalog x :=
    ⟨hread, hloose, hok, hdepth, hcheck, hvalid⟩
  have hsame := hreading.symm.trans (reading_of_inOrder hx)
  refine ⟨catalog, x, hx, ?_⟩
  rw [hnotes]
  exact congrArg Reading.notes (Except.ok.inj hsame)

/-! ### Diagnoses and reports -/

/-- There are reports on a project that a diagnosis finds in order if nothing is in the way of its
outputs and its catalogs are shallow. What is noted in them has been printed by the diagnosis. -/
theorem exists_reports_of_isDiagnosed
    (hinputs : ∀ path ∈ inputs config, ∃ catalog x,
      IsDiagnosed tree env config.options path catalog x ∧
        ArePrintable (catalogLines path catalog x))
    (hshallow : ∀ path ∈ inputs config, IsShallow tree env path)
    (houtputs : ∀ output ∈ outputs config, IsAvailable tree env.place output) :
    ∃ main further, reports tree env config = .ok (main, further) ∧
      ∀ r ∈ main :: further, ArePrintable r.notes := by
  have hinorder : ∀ path ∈ inputs config, ∃ catalog x,
      CatalogInOrder tree env.place (env.nesting callsAroundReading)
        (env.components callsAroundSource) config.options.skipStale path catalog x ∧
          ArePrintable (catalogLines path catalog x) := by
    intro path hpath
    obtain ⟨catalog, x, hx, hprintable⟩ := hinputs path hpath
    exact ⟨catalog, x, .of_isDiagnosed hx (hshallow path hpath), hprintable⟩
  obtain ⟨main, further, hreports⟩ := exists_reports_of_inOrder
    (fun path hpath => (hinorder path hpath).imp fun _ h => h.imp fun _ h => h.1) houtputs
  refine ⟨main, further, hreports, arePrintable_notes hreports fun path hpath => ?_⟩
  obtain ⟨catalog, x, hx, hprintable⟩ := hinorder path hpath
  obtain ⟨hissues, hline⟩ := arePrintable_append.mp hprintable
  refine ⟨(isEncodable_catalogLine_iff.mp (arePrintable_cons.mp hline).1).1, fun found hfound => ?_⟩
  cases hfound.symm.trans (reading_of_inOrder hx)
  exact hissues

/-- A strict generation with reports that can be printed shows that a diagnosis finds the main
catalog in order. Its issues and the path of its output have been printed. -/
theorem isDiagnosed_of_reports {main : Report} {further : List Report} {dry : Bool}
    (hstrict : config.options.strict = true)
    (hreports : reports tree env config = .ok (main, further))
    (hprintable : ArePrintable (transcript dry main further)) : ∃ catalog x,
      IsDiagnosed tree env config.options config.main.input catalog x ∧
        ArePrintable (x.issues.map issueLine) ∧
          config.main.output.display.isEncodable = true := by
  obtain ⟨catalog, x, hx, hnotes⟩ := inOrder_of_reports hstrict hreports
  obtain ⟨hfirst, -⟩ := List.forall_mem_cons.mp (arePrintable_transcript_iff.mp hprintable).1
  have htarget : main.target = config.main := (List.cons.inj (targets_of_reports hreports)).1
  rw [hnotes, htarget] at hfirst
  exact ⟨catalog, x, hx.mono (nesting_le env) (components_le env), hfirst⟩

end StringCatalog.Project
