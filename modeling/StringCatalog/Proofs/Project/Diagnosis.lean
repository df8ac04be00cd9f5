import StringCatalog.Project.Diagnosis
import StringCatalog.Proofs.Namespace.Collision
import StringCatalog.Proofs.Project.Session

/-! What a diagnosis finds: a project is in order exactly if its configuration is read, every
catalog that it names is in order, and what is to be said of them can be printed. -/

namespace StringCatalog.Project

open Session

variable {env : Environment} {tree : FileTree} {options : Options} {file root path : Path}
  {w w' : World}

/-- A catalog file that is in order: it is read, every entry that is not skipped has a resource,
no key has too many components, no names collide, and the keys are valid. -/
structure CatalogInOrder (tree : FileTree) (place : Location) (nesting components : Nat)
    (skipStale : Bool) (path : Path) (catalog : Catalog) (x : Extraction) : Prop where
  read : tree.readCatalog nesting place path = .ok catalog
  extract : catalog.extract false skipStale = .ok x
  isOk : x.isOk = true
  depth : NamespaceTree.isTooDeep components x.resources [] = false
  check : (NamespaceTree.ofResources x.resources).check = .ok ()
  valid : Resource.validate x.resources (some path) = .ok ()

/-- A catalog that is in order for a diagnosis. -/
def IsDiagnosed (tree : FileTree) (env : Environment) (options : Options) (path : Path)
    (catalog : Catalog) (x : Extraction) : Prop :=
  CatalogInOrder tree env.place (env.nesting callsAroundDiagnosis)
    (env.components callsAroundDiagnosis) options.skipStale path catalog x

/-- The lines about a catalog that is in order. -/
def catalogLines (path : Path) (catalog : Catalog) (x : Extraction) : List Text :=
  x.issues.map issueLine ++ [catalogLine path catalog x]

theorem isEncodable_configLine_iff {config : Config} :
    (configLine file config).isEncodable = true ↔ file.name.isEncodable = true ∧
      config.main.input.display.isEncodable = true ∧
        config.main.output.display.isEncodable = true := by
  simp [configLine]

theorem isEncodable_catalogLine_iff {catalog : Catalog} {x : Extraction} :
    (catalogLine path catalog x).isEncodable = true ↔
      path.name.isEncodable = true ∧ catalog.sourceLanguage.isEncodable = true := by
  simp [catalogLine]

/-- The catalogs that a configuration names. -/
def inputs (config : Config) : List Path := config.main.input :: config.diffs.map (·.input)

/-! ### A diagnosis only looks -/

theorem looks_sayIssues (x : Extraction) : Looks (sayIssues x) := .forM (fun _ => .say _) _

theorem looks_diagnoseResources (path : Path) (catalog : Catalog) (x : Extraction) :
    Looks (diagnoseResources path catalog x) := by
  have hkeys : Looks (diagnoseKeys path x.resources) := by
    unfold diagnoseKeys
    split
    · exact .pure true
    · exact .bind (.say _) fun _ => .pure false
  unfold diagnoseResources
  refine .bind (.forM (fun _ => .say _) _) fun _ => .bind hkeys fun valid => ?_
  split
  · exact .bind (.say _) fun _ => .pure valid
  · exact .pure false

theorem looks_diagnoseCatalog (env : Environment) (options : Options) (path : Path) :
    Looks (diagnoseCatalog env options path) := by
  unfold diagnoseCatalog
  refine .bind .files fun tree => ?_
  split
  · exact .bind (.say _) fun _ => .pure false
  · exact .throw _
  · rename_i catalog _
    refine .bind (.ofExcept _) fun x => .bind (looks_sayIssues x) fun _ => ?_
    split
    · exact .throw _
    · exact looks_diagnoseResources path catalog x

theorem looks_diagnose (env : Environment) (file root : Path) : Looks (diagnose env file root) := by
  unfold diagnose
  refine .bind (.say _) fun _ => .bind .files fun tree => ?_
  split
  · exact .bind (.say _) fun _ => .pure false
  · exact .throw _
  · rename_i config _
    refine .bind (.say _) fun _ => .bind (.mapM (looks_diagnoseCatalog env config.options) _)
      fun found => ?_
    split
    · exact .bind (.say _) fun _ => .pure true
    · exact .pure false

/-! ### What is found in order -/

theorem completes_diagnoseKeys_iff {rs : List Resource} :
    Completes (diagnoseKeys path rs) w true w' ↔
      Resource.validate rs (some path) = .ok () ∧ w' = w := by
  unfold diagnoseKeys
  cases Resource.validate rs (some path) with
  | ok _ => simp [completes_pure_iff]
  | error e =>
    constructor
    · intro h
      cases h.eq_of_bind_pure
    · exact fun ⟨h, _⟩ => nomatch h

theorem completes_diagnoseResources_iff {catalog : Catalog} {x : Extraction} :
    Completes (diagnoseResources path catalog x) w true w' ↔
      ((NamespaceTree.ofResources x.resources).check = .ok () ∧ x.isOk = true ∧
        Resource.validate x.resources (some path) = .ok ()) ∧
          ArePrintable [catalogLine path catalog x] ∧ w' = w.tell [catalogLine path catalog x] := by
  rw [NamespaceTree.check_eq_ok_iff]
  unfold diagnoseResources
  constructor
  · intro h
    obtain ⟨_, _, hcollisions, valid, _, hkeys, h⟩ := by
      simpa only [completes_bind_iff] using h
    split at h
    case isTrue hclean =>
      rw [Bool.and_eq_true, List.isEmpty_iff] at hclean
      obtain ⟨_, _, hline, hresult⟩ := completes_bind_iff.mp h
      obtain ⟨rfl, rfl⟩ := completes_pure_iff.mp hresult
      obtain ⟨hvalid, rfl⟩ := completes_diagnoseKeys_iff.mp hkeys
      -- without collisions nothing is said of them
      rw [hclean.1] at hcollisions
      obtain ⟨-, rfl⟩ := completes_forM_say_iff.mp hcollisions
      rw [List.map_nil, World.tell_nil] at hline
      obtain ⟨hprintable, rfl⟩ := completes_say_iff.mp hline
      exact ⟨⟨hclean.1, hclean.2, hvalid⟩, by simpa using hprintable, rfl⟩
    case isFalse => cases (completes_pure_iff.mp h).1
  · rintro ⟨⟨hcollisions, hok, hvalid⟩, hprintable, rfl⟩
    have hkeys : Completes (diagnoseKeys path x.resources) w true w :=
      completes_diagnoseKeys_iff.mpr ⟨hvalid, rfl⟩
    have hline := completes_say (arePrintable_cons.mp hprintable).1 w
    rw [hcollisions, hok]
    refine Completes.bind (completes_pure_iff.mpr ⟨rfl, rfl⟩) (hkeys.bind ?_)
    exact hline.bind (completes_pure_iff.mpr ⟨rfl, rfl⟩)

/-- A catalog is found in order exactly if it is, and its lines can be printed. -/
theorem completes_diagnoseCatalog_iff : Completes (diagnoseCatalog env options path) w true w' ↔
    ∃ catalog x, IsDiagnosed w.files env options path catalog x ∧
      ArePrintable (catalogLines path catalog x) ∧ w' = w.tell (catalogLines path catalog x) := by
  unfold diagnoseCatalog catalogLines
  rw [completes_files_bind_iff]
  constructor
  · intro h
    split at h
    · cases h.eq_of_bind_pure
    · cases h
    · rename_i catalog hread
      simp only [completes_bind_iff, completes_ofExcept_iff, sayIssues,
        completes_forM_say_iff] at h
      obtain ⟨x, _, ⟨hextract, rfl⟩, _, _, ⟨hissues, rfl⟩, h⟩ := h
      split at h
      · cases h
      · rename_i hdepth
        obtain ⟨⟨hcheck, hok, hvalid⟩, hline, rfl⟩ := completes_diagnoseResources_iff.mp h
        refine ⟨catalog, x, ⟨hread, Sequence.mapError_eq_ok_iff.mp hextract, hok,
          Bool.eq_false_iff.mpr hdepth, hcheck, hvalid⟩, ?_, World.tell_tell _ _ _⟩
        exact arePrintable_append.mpr ⟨hissues, hline⟩
  · rintro ⟨catalog, x, ⟨hread, hextract, hok, hdepth, hcheck, hvalid⟩, hprintable, rfl⟩
    obtain ⟨hissues, hline⟩ := arePrintable_append.mp hprintable
    have hextracted : (catalog.extract false options.skipStale).mapError Failure.ofGeneration =
        .ok x := Sequence.mapError_eq_ok_iff.mpr hextract
    rw [hread]
    refine Completes.bind (completes_ofExcept_iff.mpr ⟨hextracted, rfl⟩)
      ((completes_forM_say hissues w).bind ?_)
    rw [hdepth]
    exact completes_diagnoseResources_iff.mpr ⟨⟨hcheck, hok, hvalid⟩, hline,
      (World.tell_tell _ _ _).symm⟩

/-- Catalogs are all found in order exactly if each of them is. -/
theorem exists_completes_diagnoseCatalogs_iff {paths : List Path} :
    (∃ found w', Completes (paths.mapM (diagnoseCatalog env options)) w found w' ∧
      found.all id = true) ↔ ∀ path ∈ paths, ∃ catalog x,
        IsDiagnosed w.files env options path catalog x ∧
          ArePrintable (catalogLines path catalog x) := by
  induction paths generalizing w with
  | nil =>
    rw [List.mapM_nil]
    constructor
    · nofun
    · exact fun _ => ⟨[], w, completes_pure_iff.mpr ⟨rfl, rfl⟩, rfl⟩
  | cons path paths ih =>
    rw [List.mapM_cons, List.forall_mem_cons]
    constructor
    · rintro ⟨_, after, h, hall⟩
      obtain ⟨first, between, hfirst, h⟩ := completes_bind_iff.mp h
      obtain ⟨rest, _, hrest, h⟩ := completes_bind_iff.mp h
      obtain ⟨rfl, rfl⟩ := completes_pure_iff.mp h
      rw [List.all_cons, Bool.and_eq_true] at hall
      obtain rfl : first = true := hall.1
      obtain ⟨catalog, x, hx, hprintable, rfl⟩ := completes_diagnoseCatalog_iff.mp hfirst
      have hpaths := ih.mp ⟨rest, _, hrest, hall.2⟩
      exact ⟨⟨catalog, x, hx, hprintable⟩, hpaths⟩
    · rintro ⟨⟨catalog, x, hx, hprintable⟩, hpaths⟩
      have hfirst := completes_diagnoseCatalog_iff.mpr ⟨catalog, x, hx, hprintable, rfl⟩
      obtain ⟨rest, after, hrest, hall⟩ :=
        (ih (w := w.tell (catalogLines path catalog x))).mpr hpaths
      exact ⟨true :: rest, after,
        hfirst.bind (hrest.bind (completes_pure_iff.mpr ⟨rfl, rfl⟩)), hall⟩

/-- A project is found in order exactly if its configuration is read, each of its catalogs is in
order, and all lines can be printed. -/
theorem exists_completes_diagnose_iff :
    (∃ w', Completes (diagnose env file root) w true w') ↔ ∃ config,
      w.files.readConfig env file (some root) = .ok config ∧
        ArePrintable [configLine file config] ∧ ∀ path ∈ inputs config, ∃ catalog x,
          IsDiagnosed w.files env config.options path catalog x ∧
            ArePrintable (catalogLines path catalog x) := by
  unfold diagnose
  constructor
  · rintro ⟨w', h⟩
    obtain ⟨_, _, hfirst, h⟩ := completes_bind_iff.mp h
    obtain ⟨-, rfl⟩ := completes_say_iff.mp hfirst
    rw [completes_files_bind_iff] at h
    split at h
    · cases h.eq_of_bind_pure
    · cases h
    · rename_i config hread
      obtain ⟨_, _, hline, h⟩ := completes_bind_iff.mp h
      obtain ⟨hconfig, rfl⟩ := completes_say_iff.mp hline
      obtain ⟨found, after, hfound, h⟩ := completes_bind_iff.mp h
      split at h
      · rename_i hall
        have hinputs := exists_completes_diagnoseCatalogs_iff.mp ⟨found, after, hfound, hall⟩
        exact ⟨config, hread, by simpa using hconfig, hinputs⟩
      · cases (completes_pure_iff.mp h).1
  · rintro ⟨config, hread, hconfig, hinputs⟩
    have hfirst := completes_say (Text.isEncodable_ofString "✅ PyYAML OK") w
    have hline := completes_say (arePrintable_cons.mp hconfig).1 (w.tell ["✅ PyYAML OK"])
    obtain ⟨found, after, hfound, hall⟩ :=
      (exists_completes_diagnoseCatalogs_iff (w := (w.tell ["✅ PyYAML OK"]).tell
        [configLine file config])).mpr hinputs
    have hlast := completes_say (Text.isEncodable_ofString "✅ doctor 完成") after
    refine ⟨after.tell ["✅ doctor 完成"], hfirst.bind (completes_files_bind_iff.mpr ?_)⟩
    rw [World.files_tell, hread]
    refine hline.bind (hfound.bind ?_)
    rw [if_pos hall]
    exact hlast.bind (completes_pure_iff.mpr ⟨rfl, rfl⟩)

end StringCatalog.Project
