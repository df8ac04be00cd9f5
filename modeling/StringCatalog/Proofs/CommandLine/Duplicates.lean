import StringCatalog.Proofs.CommandLine.Rehearsal
import StringCatalog.Proofs.Validation

/-! The keys that a run warns of. They are keys of several further targets, and all such keys if no
two of the catalog files have the same name: a catalog file takes the place of an earlier one of
its name. -/

namespace StringCatalog

namespace Project

variable {config : Config} {further : List Report} {key : Text} {names : List Text}

/-- The reports of the targets for which a key is emitted. -/
def emitters (key : Text) (further : List Report) : List Report :=
  further.filter fun r => Resource.hasKey key r.resources

theorem catalogsWith_uses (key : Text) (further : List Report) :
    Resource.catalogsWith key (further.map Report.uses) =
      (emitters key further).map (·.target.input.name) := by
  rw [Resource.catalogsWith, List.filter_map, List.map_map]
  rfl

theorem Report.IsSound.nodup_keys {r : Report} (h : r.IsSound env config) :
    (r.resources.map (·.key)).Nodup :=
  (Resource.validate_eq_ok_iff.mp h.valid).2

variable (hsound : ∀ r ∈ further, r.IsSound env config)

include hsound

/-- A warning is about a catalog file of each name, the last one. -/
theorem mem_warnings_iff : (key, names) ∈ warnings further ↔
    names = Resource.catalogsWith key (OrderedMap.ofPairs (further.map Report.uses)) ∧
      2 ≤ names.length := by
  refine Resource.mem_duplicateKeys_iff fun c hc => ?_
  obtain ⟨r, hr, rfl⟩ := List.mem_map.mp ((OrderedMap.ofPairs_subperm _).subset hc)
  exact (hsound r hr).nodup_keys

/-- What is warned of is emitted at least twice. -/
theorem length_emitters_of_mem_warnings (h : (key, names) ∈ warnings further) :
    2 ≤ (emitters key further).length := by
  obtain ⟨rfl, hlength⟩ := (mem_warnings_iff hsound).mp h
  have hle := ((OrderedMap.ofPairs_subperm (further.map Report.uses)).filter fun c =>
    Resource.hasKey key c.2).length_le
  calc 2 ≤ (Resource.catalogsWith key (OrderedMap.ofPairs (further.map Report.uses))).length :=
        hlength
    _ ≤ (Resource.catalogsWith key (further.map Report.uses)).length := by
        simpa [Resource.catalogsWith] using hle
    _ = (emitters key further).length := by rw [catalogsWith_uses, List.length_map]

theorem mem_warnings_iff_of_nodup (hnames : (further.map (·.target.input.name)).Nodup) :
    (key, names) ∈ warnings further ↔
      names = (emitters key further).map (·.target.input.name) ∧
        2 ≤ (emitters key further).length := by
  have hnodup : ((further.map Report.uses).map (·.1)).Nodup := by
    rw [List.map_map]
    exact hnames
  rw [mem_warnings_iff hsound, OrderedMap.ofPairs_of_nodup hnodup, catalogsWith_uses]
  refine and_congr_right fun hname => ?_
  rw [hname, List.length_map]

end Project

namespace CommandLine

open Session

variable {env : Environment} {arguments : List Text} {tree : FileTree} {config : Config}
  {dry : Bool}

/-- A run that generates and goes well ends with its warnings, each of another key. Every key that
it warns of is emitted for at least two of the further targets. If no two of their catalog files
have the same name, it warns of all these keys, and tells for each one all the files. -/
theorem warns_of_duplicates (h : Asks env arguments tree config dry)
    (hexit : (runOn env arguments tree).1 = .ok exitOk) : ∃ main further after,
      Project.GoesThrough env config dry tree main further after ∧
      (main :: further).map (·.target) = config.main :: config.diffs ∧
      runOn env arguments tree = (.ok exitOk, ⟨after, Text.unlines
        ((main :: further).flatMap (·.lines dry) ++
          (Project.warnings further).map fun d => Project.duplicateLine d.1 d.2)⟩) ∧
      ((Project.warnings further).map (·.1)).Nodup ∧
      (∀ d ∈ Project.warnings further, 2 ≤ (Project.emitters d.1 further).length) ∧
      ((config.diffs.map (·.input.name)).Nodup → ∀ key names,
        (key, names) ∈ Project.warnings further ↔
          names = (Project.emitters key further).map (·.target.input.name) ∧
            2 ≤ (Project.emitters key further).length) := by
  obtain ⟨main, further, after, hgoes, -, hrun⟩ := exists_goesThrough h hexit
  have htargets := Project.targets_of_goesThrough hgoes
  have hsound : ∀ r ∈ further, r.IsSound env config := fun r hr =>
    Project.isSound_of_goesThrough hgoes r (List.mem_cons_of_mem _ hr)
  refine ⟨main, further, after, hgoes, htargets, hrun, Resource.nodup_duplicateKeys _,
    fun d hd => Project.length_emitters_of_mem_warnings hsound hd, fun hnames key names => ?_⟩
  refine Project.mem_warnings_iff_of_nodup hsound ?_
  rw [← (List.cons.inj htargets).2, List.map_map] at hnames
  exact hnames

/-- A main catalog, and further catalogs that have a key in common. Two of them have the same name,
in different directories. -/
def twinProject : FileTree :=
  ⟨[(["p"], .directory), (["p", "A.json"], catalogOf "menu"), (["p", "x"], .directory),
    (["p", "x", "F.json"], catalogOf "quit"), (["p", "x", "G.json"], catalogOf "quit"),
    (["p", "y"], .directory), (["p", "y", "F.json"], catalogOf "quit")]⟩

/-- Two catalog files of different names have the key. -/
theorem warns_of_duplicates_twins :
    let env := userEnvironment none
    let arguments : List Text := ["generate", "--input", "A.json", "--output", "A.swift",
      "--diff", "x/F.json", "X.swift", "--diff", "x/G.json", "Y.swift"]
    (runOn env arguments twinProject).1 = .ok exitOk ∧
      ∃ config, Generates env arguments twinProject config ∧
        config.diffs.map (·.input.name) = ["F.json", "G.json"] ∧
        ∃ main further after, Project.GoesThrough env config false twinProject main further after ∧
          ∀ key names, (key, names) ∈ Project.warnings further ↔
            names = (Project.emitters key further).map (·.target.input.name) ∧
              2 ≤ (Project.emitters key further).length := by
  intro env arguments
  have hexit : (runOn env arguments twinProject).1 = .ok exitOk := by decide +kernel
  obtain ⟨config, hrun, -, hnames⟩ : ∃ config, Asks env arguments twinProject config false ∧
      LooksFor env arguments ⟨"/", ["p", "xcstrings_gen.yaml"]⟩ ∧
      config.diffs.map (·.input.name) = ["F.json", "G.json"] :=
    exists_asks (by decide +kernel)
  obtain ⟨main, further, after, hgoes, -, -, -, -, hwarned⟩ := warns_of_duplicates hrun hexit
  have hnodup : (config.diffs.map (·.input.name)).Nodup := by
    rw [hnames]
    decide
  exact ⟨hexit, config, hrun, hnames, main, further, after, hgoes, hwarned hnodup⟩

/-- The second catalog file takes the place of the first one, which has the same name. -/
theorem exists_duplicate_not_warned : ∃ env arguments tree key config main further after,
    Generates env arguments tree config ∧
      Project.GoesThrough env config false tree main further after ∧
      runOn env arguments tree =
        (.ok exitOk, ⟨after, Text.unlines (Project.transcript false main further)⟩) ∧
      2 ≤ (Project.emitters key further).length ∧ Project.warnings further = [] := by
  obtain ⟨env, henv⟩ : ∃ env, env = userEnvironment none := ⟨_, rfl⟩
  obtain ⟨arguments, harguments⟩ : ∃ arguments : List Text, arguments =
    (["generate", "--input", "A.json", "--output", "A.swift", "--diff", "x/F.json", "X.swift",
      "--diff", "y/F.json", "Y.swift"] : List Text) := ⟨_, rfl⟩
  refine ⟨env, arguments, twinProject, "quit",
    exists_run_of_reports ⟨"/", ["p", "xcstrings_gen.yaml"]⟩ ?_ (by decide +kernel) ?_⟩
  · subst henv harguments
    decide +kernel
  · subst henv harguments
    decide +kernel

end CommandLine

end StringCatalog
