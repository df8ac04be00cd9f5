import StringCatalog.Proofs.Catalog.Account
import StringCatalog.Proofs.CommandLine.Rehearsal
import StringCatalog.Proofs.Namespace.Declared
import StringCatalog.Proofs.Swift.Source

/-! What the source files of a run declare in the one type that they extend. None of them declares a
name twice. The files of the main catalog and of another one may do so together: their keys are
different, but the names that these begin with need not be. -/

namespace StringCatalog

/-- The names that lead to a member that is read, as they are compared. -/
def Swift.Member.accessPath (m : Member) : List Text := (m.enums ++ [m.name]).map bare

namespace Project

variable {env : Environment} {config : Config} {dry : Bool} {before after : FileTree}
  {main r : Report} {further : List Report}

/-- The names that the source of a report declares, each with the names of the enumerations around
it. -/
def Report.declared (r : Report) : List (List Text × Text) :=
  (NamespaceTree.ofResources r.resources).declared []

/-- The name is declared, and the line is in the source. -/
def Report.Declares (r : Report) (d : List Text × Text) (line : Text) : Prop :=
  d ∈ r.declared ∧ line ∈ Text.lines r.source

instance (r : Report) (d : List Text × Text) (line : Text) : Decidable (r.Declares d line) :=
  inferInstanceAs (Decidable (_ ∧ _))

/-- The names are those on the way to the members that are read in the source. -/
def Report.DeclaredInSource (r : Report) (config : Config) : Prop :=
  ∃ body members, r.source = Text.unlines (Swift.openingLines (style config)
      config.main.input.stem) ++ body ++ Text.unlines Swift.closingLines ∧
    Swift.Listing.read (style config).accessLevel.modifier config.typeName config.options.indent
      body = some members ∧
    ∀ d, d ∈ r.declared ↔ ∃ m ∈ members, d.1 ++ [d.2] <+: m.accessPath

namespace Report.IsSound

theorem keyed (h : r.IsSound env config) : ∀ x ∈ r.resources, x.Keyed := by
  intro x hx
  obtain ⟨e, he⟩ := h.extracted x hx
  exact Swift.keyed_of_toResource he

theorem check (h : r.IsSound env config) : (NamespaceTree.ofResources r.resources).check = .ok () :=
  (Swift.check_of_source (Sequence.mapError_eq_ok_iff.mp h.source)).2

theorem declaredInSource (h : r.IsSound env config)
    (htype : Config.isTypeName config.typeName = true) : r.DeclaredInSource config := by
  have hsource : Swift.source (env.components callsAroundSource) (style config)
      config.main.input.stem r.resources = .ok r.source := Sequence.mapError_eq_ok_iff.mp h.source
  obtain ⟨⟨body, hbody, hread⟩, -, hperm⟩ := Swift.read_source h.extracted htype rfl hsource
  refine ⟨body, _, hbody, hread, fun d => ?_⟩
  rw [declared, NamespaceTree.mem_declared_iff h.keyed]
  simp only [List.mem_map, exists_exists_and_eq_and, hperm.mem_iff]
  simp only [Swift.Member.accessPath, List.map_append, List.map_map]
  rfl

theorem nodup_declared (h : r.IsSound env config) : r.declared.Nodup :=
  NamespaceTree.nodup_declared h.keyed h.check

/-- Two sources fit together exactly if no names of their members begin with the same one. -/
theorem nodup_declared_append_iff (hmain : main.IsSound env config) (h : r.IsSound env config) :
    (main.declared ++ r.declared).Nodup ↔
      ∀ a ∈ main.resources, ∀ b ∈ r.resources, a.accessPath.head? ≠ b.accessPath.head? :=
  NamespaceTree.nodup_declared_append_iff hmain.keyed h.keyed hmain.check h.check

end Report.IsSound

/-! ### Keys of the main catalog -/

theorem key_mem_of_reading {tree : FileTree} {options : Options} {path : Path} {found : Reading}
    (h : reading tree env options path = .ok found) : ∀ x ∈ found.resources, x.key ∈ found.keys := by
  unfold reading at h
  simp only [Sequence.bind_eq_ok_iff, Sequence.mapError_eq_ok_iff] at h
  obtain ⟨catalog, -, x, hx, h⟩ := h
  cases h
  exact fun _ => Catalog.key_mem_of_mem_resources hx

theorem key_notMem_of_deliveries {known : List Text} {targets : List Target} {rs : List Report}
    (h : Deliveries env config dry known before targets rs after) :
    ∀ r ∈ rs, ∀ x ∈ r.resources, x.key ∉ known := by
  induction h with
  | nil => nofun
  | cons hr hwrite hrest ih =>
    obtain ⟨found, kept, -, rfl, hreport⟩ := diffReport_eq_ok_iff.mp hr
    refine List.forall_mem_cons.mpr ⟨fun x hx => ?_, ih⟩
    obtain ⟨-, -, -, -, -, hresources⟩ := report_eq_ok_iff.mp hreport
    rw [hresources] at hx
    simpa using (List.mem_filter.mp hx).2

/-- No key of the main catalog is emitted again. -/
theorem key_ne_of_goesThrough (h : GoesThrough env config dry before main further after) :
    ∀ r ∈ further, ∀ a ∈ main.resources, ∀ b ∈ r.resources, a.key ≠ b.key := by
  obtain ⟨found, between, hfound, hmain, -, hfurther⟩ := h
  obtain ⟨-, -, -, -, -, hresources⟩ := report_eq_ok_iff.mp hmain
  intro r hr a ha b hb hsame
  rw [hresources] at ha
  refine key_notMem_of_deliveries hfurther r hr b hb ?_
  rw [← hsame]
  exact key_mem_of_reading hfound a ha

end Project

namespace CommandLine

open Session

variable {env : Environment} {arguments : List Text} {tree : FileTree} {config : Config}
  {dry : Bool}

/-- The source files of a run that generates and goes well. The names that each one declares, which
are those on the way to its members, are different. The keys of a further file are not those of the
main one; but together these two declare no name twice exactly if the names of their members begin
differently. -/
theorem sources_declare_once (h : Asks env arguments tree config dry)
    (hexit : (runOn env arguments tree).1 = .ok exitOk) : ∃ main further after,
      Project.GoesThrough env config dry tree main further after ∧
      (main :: further).map (·.target) = config.main :: config.diffs ∧
      runOn env arguments tree =
        (.ok exitOk, ⟨after, Text.unlines (Project.transcript dry main further)⟩) ∧
      (∀ r ∈ main :: further, r.DeclaredInSource config ∧ r.declared.Nodup) ∧
      ∀ r ∈ further, (∀ a ∈ main.resources, ∀ b ∈ r.resources, a.key ≠ b.key) ∧
        ((main.declared ++ r.declared).Nodup ↔
          ∀ a ∈ main.resources, ∀ b ∈ r.resources, a.accessPath.head? ≠ b.accessPath.head?) := by
  obtain ⟨main, further, after, hgoes, -, hrun⟩ := exists_goesThrough h hexit
  have hsound := Project.isSound_of_goesThrough hgoes
  refine ⟨main, further, after, hgoes, Project.targets_of_goesThrough hgoes, hrun, fun r hr => ?_,
    fun r hr => ⟨Project.key_ne_of_goesThrough hgoes r hr, ?_⟩⟩
  · exact ⟨(hsound r hr).declaredInSource h.isTypeName, (hsound r hr).nodup_declared⟩
  · exact (hsound main List.mem_cons_self).nodup_declared_append_iff
      (hsound r (List.mem_cons_of_mem _ hr))

/-- A project with two catalogs, each with one key. -/
def pairProject (first second : String) : FileTree :=
  ⟨[(["p"], .directory), (["p", "A.json"], catalogOf first), (["p", "B.json"], catalogOf second)]⟩

/-- The keys begin differently. -/
theorem sources_declare_once_pair :
    let env := userEnvironment none
    let tree := pairProject "menu.open" "quit"
    let arguments : List Text := ["generate", "--input", "A.json", "--output", "A.swift",
      "--diff", "B.json", "B.swift"]
    (runOn env arguments tree).1 = .ok exitOk ∧ ∃ config, Generates env arguments tree config ∧
      ∃ main further after, Project.GoesThrough env config false tree main further after ∧
        ∀ r ∈ further, (main.declared ++ r.declared).Nodup ↔
          ∀ a ∈ main.resources, ∀ b ∈ r.resources, a.accessPath.head? ≠ b.accessPath.head? := by
  intro env tree arguments
  have hexit : (runOn env arguments tree).1 = .ok exitOk := by decide +kernel
  obtain ⟨config, hrun, -, -⟩ : ∃ config, Asks env arguments tree config false ∧
      LooksFor env arguments ⟨"/", ["p", "xcstrings_gen.yaml"]⟩ ∧ config.diffs.length = 1 :=
    exists_asks (by decide +kernel)
  obtain ⟨main, further, after, hgoes, -, -, -, hfits⟩ := sources_declare_once hrun hexit
  exact ⟨hexit, config, hrun, main, further, after, hgoes, fun r hr => (hfits r hr).2⟩

/-- The keys are different, but both files declare an enumeration of the same name. -/
theorem exists_name_declared_twice : ∃ env arguments tree d line config main further after,
    Generates env arguments tree config ∧
      Project.GoesThrough env config false tree main further after ∧
      runOn env arguments tree =
        (.ok exitOk, ⟨after, Text.unlines (Project.transcript false main further)⟩) ∧
      main.Declares d line ∧ ∃ r ∈ further, r.Declares d line := by
  obtain ⟨env, henv⟩ : ∃ env, env = userEnvironment none := ⟨_, rfl⟩
  obtain ⟨arguments, harguments⟩ : ∃ arguments : List Text, arguments =
    (["generate", "--input", "A.json", "--output", "A.swift",
      "--diff", "B.json", "B.swift"] : List Text) := ⟨_, rfl⟩
  obtain ⟨tree, htree⟩ : ∃ tree, tree = pairProject "menu.open" "menu.quit" := ⟨_, rfl⟩
  refine ⟨env, arguments, tree, ([], "menu"), "  internal enum menu \x7b",
    exists_run_of_reports ⟨"/", ["p", "xcstrings_gen.yaml"]⟩ ?_ ?_ ?_⟩
  · subst henv harguments htree
    decide +kernel
  · subst htree
    decide +kernel
  · subst henv harguments htree
    decide +kernel

end CommandLine

end StringCatalog
