import StringCatalog.Proofs.CommandLine.Generation
import StringCatalog.Proofs.Project.Rehearsal

/-! What a dry run foretells. It changes no file, and where the run itself goes well it prints what
that prints, but for the lines of the source files that the run writes. -/

namespace StringCatalog.CommandLine

open Session

variable {env : Environment} {arguments : List Text} {tree : FileTree} {inv : Invocation}

/-! ### The arguments of a dry run -/

def Invocation.rehearsed (inv : Invocation) : Invocation := { inv with dryRun := true }

theorem apply_rehearsed (flag : Flag) (values : List Text) (inv : Invocation) :
    flag.apply values inv.rehearsed = (flag.apply values inv).map Invocation.rehearsed := by
  unfold Flag.apply
  split
  case h_8 =>
    -- an access level has to be one of those that there are
    split <;> rfl
  all_goals rfl

theorem withAction_rehearsed (inv : Invocation) (w : Text) :
    inv.rehearsed.withAction w = (inv.withAction w).map Invocation.rehearsed := by
  unfold Invocation.withAction
  split <;> rfl

theorem applyInner_rehearsed (flag : Flag) (inner : Text) (inv : Invocation) :
    Invocation.applyInner flag inner inv.rehearsed =
      (Invocation.applyInner flag inner inv).map Invocation.rehearsed := by
  unfold Invocation.applyInner
  split
  · rfl
  · split
    · cases flag <;> rfl
    · exact apply_rehearsed flag [inner] inv

theorem finish_rehearsed (inv : Invocation) (b : Bool) (items : List Item) :
    inv.rehearsed.finish b items = (inv.finish b items).map Invocation.rehearsed := by
  unfold Invocation.finish
  split
  case h_3 | h_4 | h_5 => exact withAction_rehearsed inv _
  all_goals rfl

theorem bind_rehearsed {step : Invocation → Except Halt Invocation}
    (h : ∀ inv, step (Invocation.rehearsed inv) = (step inv).map Invocation.rehearsed)
    (first : Except Halt Invocation) :
    (first.map Invocation.rehearsed >>= step) = (first >>= step).map Invocation.rehearsed := by
  cases first with
  | error e => rfl
  | ok inv => exact h inv

theorem enter_rehearsed (bound : Nat) (inv : Invocation) (hasAction superfluous : Bool)
    (items : List Item) : Invocation.enter bound inv.rehearsed hasAction superfluous items =
      (Invocation.enter bound inv hasAction superfluous items).map Invocation.rehearsed := by
  induction bound generalizing inv hasAction superfluous items with
  | zero => rfl
  | succ bound ih =>
    unfold Invocation.enter
    split
    · split
      · exact ih _ _ _ _
      · rw [applyInner_rehearsed]
        exact bind_rehearsed (fun inv' => ih inv' _ _ _) _
      · split
        · rfl
        · rw [apply_rehearsed]
          exact bind_rehearsed (fun inv' => ih inv' _ _ _) _
      · split
        · exact ih _ _ _ _
        · rw [withAction_rehearsed]
          exact bind_rehearsed (fun inv' => ih inv' _ _ _) _
      · rfl
    · rw [finish_rehearsed]
      exact bind_rehearsed (fun inv' => by cases superfluous <;> rfl) _

theorem ofArguments_cons_dryRun (arguments : List Text) :
    Invocation.ofArguments ("--dry-run" :: arguments) =
      (Invocation.ofArguments arguments).map Invocation.rehearsed := by
  have hitems : Item.ofArguments ("--dry-run" :: arguments) =
      (Item.ofArguments arguments).map (Item.option (some .dryRun) none :: ·) := by
    have hitem : Item.ofArgument "--dry-run" = .ok (.option (some .dryRun) none) := rfl
    have hne : Text.ofString "--dry-run" ≠ "--" := by decide
    rw [Item.ofArguments, if_neg hne, hitem]
    cases Item.ofArguments arguments <;> rfl
  unfold Invocation.ofArguments
  rw [hitems]
  cases Item.ofArguments arguments with
  | error e => rfl
  | ok items => exact enter_rehearsed (items.length + 1) .empty false false items

/-- The arguments ask for what other arguments do, but in a dry run. -/
def Rehearses (rehearsal arguments : List Text) : Prop :=
  Invocation.ofArguments rehearsal = (Invocation.ofArguments arguments).map Invocation.rehearsed

theorem rehearses_cons (arguments : List Text) : Rehearses ("--dry-run" :: arguments) arguments :=
  ofArguments_cons_dryRun arguments

theorem Rehearses.asks {rehearsal : List Text} {config : Config}
    (h : Rehearses rehearsal arguments) (hrun : Generates env arguments tree config) :
    Asks env rehearsal tree config true := by
  obtain ⟨inv, root, file, harguments, haction, -, hroot, hfile, hsettings⟩ := hrun
  rw [Rehearses, harguments] at h
  exact ⟨inv.rehearsed, root, file, h, haction, rfl, hroot, hfile, hsettings⟩

/-! ### Runs that look -/

theorem looks_doctor (env : Environment) (root file : Path) : Looks (doctor env root file) := by
  refine .bind (Project.looks_diagnose env file root) fun ok => ?_
  cases ok with
  | true => exact .pure _
  | false => exact .pure _

theorem looks_generate (hdry : inv.dryRun = true) (root file : Path) :
    Looks (generate env inv root file) := by
  have hrefuse : ∀ (message : Text) (code : Nat), Looks (do say message; return code) :=
    fun message code => .bind (.say message) fun _ => .pure code
  unfold generate
  refine .bind .files fun tree => ?_
  split
  · exact hrefuse _ _
  · exact .throw _
  · rw [hdry]
    refine .tryCatch (.bind (Project.looks_generate env _) fun _ => .pure _) fun e => ?_
    cases e with
    | catalog e | generation e | file e => exact hrefuse _ _
    | _ => exact .throw _

/-- A diagnosis leaves the files as they are, and so does a generation that is dry. -/
theorem files_of_looks (harguments : Invocation.ofArguments arguments = .ok inv)
    (haction : inv.action = some .doctor ∨ inv.action = some .generate ∧ inv.dryRun = true) :
    (runOn env arguments tree).2.files = tree := by
  have hperform : Looks (perform env inv) := by
    unfold perform
    refine .bind (.ofExcept _) fun root => .bind (.ofExcept _) fun file => ?_
    rcases haction with haction | ⟨haction, hdry⟩
    · rw [haction]
      exact looks_doctor env root file
    · rw [haction]
      exact looks_generate hdry root file
  rw [runOn_of_ofArguments harguments]
  exact hperform ⟨tree, []⟩

/-! ### What a dry run foretells -/

/-- A diagnosis and a dry run change no file. In a tree in which everything is in a directory, a run
that generates and goes well comes to reports that could be made before it. The same run, but dry,
goes well too and prints what the same reports say: the lines about the catalogs and about keys in
several of them are those of the run, and the lines of the targets tell which files it writes. -/
theorem dry_run_foretells (env : Environment) :
    (∀ {arguments : List Text} {inv : Invocation} (tree : FileTree),
      Invocation.ofArguments arguments = .ok inv →
      inv.action = some .doctor ∨ inv.action = some .generate ∧ inv.dryRun = true →
      (runOn env arguments tree).2.files = tree) ∧
    ∀ {arguments rehearsal : List Text} {tree : FileTree} {config : Config},
      Generates env arguments tree config → tree.IsRooted → Project.Apart config →
      (runOn env arguments tree).1 = .ok exitOk → Rehearses rehearsal arguments →
      ∃ main further after, Project.reports tree env config = .ok (main, further) ∧
        (main :: further).map (·.target) = config.main :: config.diffs ∧
        runOn env arguments tree =
          (.ok exitOk, ⟨after, Text.unlines (Project.transcript false main further)⟩) ∧
        runOn env rehearsal tree =
          (.ok exitOk, ⟨tree, Text.unlines (Project.transcript true main further)⟩) ∧
        ∀ r ∈ main :: further,
          (r.due = true → after.HasBytes env.place r.target.output r.source ∧
            tree.readText env.place r.target.output ≠ .ok r.source) ∧
          (r.due = false →
            after.find? env.place r.target.output = tree.find? env.place r.target.output ∧
              tree.readText env.place r.target.output = .ok r.source) := by
  constructor
  · exact fun tree => files_of_looks
  · intro arguments rehearsal tree config hrun hrooted hapart hexit hrehearsal
    obtain ⟨main, further, after, hgoes, hprintable, hprinted⟩ := exists_goesThrough hrun.asks hexit
    obtain ⟨hreports, hfollows⟩ :=
      Project.follows_of_goesThrough hrun.asks.isResolved hapart hrooted hgoes
    have hdry : Project.GoesThrough env config true tree main further tree :=
      Project.goesThrough_still hreports fun _ _ => .inl rfl
    -- the lines of a dry run differ in words that can always be printed
    have hrehearsed : ArePrintable (Project.transcript true main further) :=
      Project.arePrintable_transcript_iff.mpr (Project.arePrintable_transcript_iff.mp hprintable)
    refine ⟨main, further, after, hreports, Project.targets_of_reports hreports, hprinted,
      runOn_of_goesThrough (hrehearsal.asks hrun) hdry hrehearsed, fun r hr => ?_⟩
    have hheld := Project.holdsText_of_reports hreports r hr
    exact ⟨(hfollows.met r hr).hasBytes hheld, (hfollows.met r hr).find?_eq hheld⟩

/-- Both source files are to be written, and the key of the second catalog is left out. -/
theorem dry_run_foretells_menu :
    let env := userEnvironment none
    let tree := menuProject "diffs: [\x7binput: B.json, output: B.swift\x7d]\n"
    (runOn env ["doctor"] tree).2.files = tree ∧
    (runOn env ["generate", "--dry-run"] tree).2.files = tree ∧
    (runOn env ["generate"] tree).1 = .ok exitOk ∧
    ∃ config main further after, Generates env ["generate"] tree config ∧ tree.IsRooted ∧
      Project.Apart config ∧ Project.reports tree env config = .ok (main, further) ∧
      runOn env ["generate"] tree =
        (.ok exitOk, ⟨after, Text.unlines (Project.transcript false main further)⟩) ∧
      runOn env ["--dry-run", "generate"] tree =
        (.ok exitOk, ⟨tree, Text.unlines (Project.transcript true main further)⟩) := by
  intro env tree
  have hrooted : tree.IsRooted := by decide +kernel
  have hexit : (runOn env ["generate"] tree).1 = .ok exitOk := by decide +kernel
  obtain ⟨config, hrun, -, hpaths⟩ : ∃ config, Asks env ["generate"] tree config false ∧
      LooksFor env ["generate"] ⟨"/", ["p", "xcstrings_gen.yaml"]⟩ ∧
      (Project.inputs config, Project.outputs config) =
        ([⟨"/", ["p", "A.json"]⟩, ⟨"/", ["p", "B.json"]⟩],
          [⟨"/", ["p", "A.swift"]⟩, ⟨"/", ["p", "B.swift"]⟩]) :=
    exists_asks (by decide +kernel)
  obtain ⟨hinputs, houtputs⟩ := Prod.mk.inj hpaths
  have hapart : Project.Apart config := by
    constructor <;> simp only [hinputs, houtputs] <;> decide
  obtain ⟨main, further, after, hreports, -, hreal, hdry, -⟩ :=
    (dry_run_foretells env).2 hrun hrooted hapart hexit (rehearses_cons ["generate"])
  exact ⟨(dry_run_foretells env).1 tree rfl (.inl rfl),
    (dry_run_foretells env).1 tree rfl (.inr ⟨rfl, rfl⟩), hexit, config, main, further, after, hrun,
    hrooted, hapart, hreports, hreal, hdry⟩

/-- A run that goes well, of which something is known from the reports that can be made before
it. -/
theorem exists_run_of_reports (file : Path) {P : Project.Report → List Project.Report → Prop}
    [∀ main further, Decidable (P main further)]
    (hrequest : (request env arguments tree).map (fun q => (q.1.action, q.1.dryRun, q.2.1,
      decide (Project.Apart q.2.2), (Project.reports tree env q.2.2).toOption.map fun r =>
        decide (P r.1 r.2))) = some (some .generate, false, file, true, some true))
    (hrooted : tree.IsRooted) (hexit : (runOn env arguments tree).1 = .ok exitOk) :
    ∃ config main further after, Generates env arguments tree config ∧
      Project.GoesThrough env config false tree main further after ∧
      runOn env arguments tree =
        (.ok exitOk, ⟨after, Text.unlines (Project.transcript false main further)⟩) ∧
      P main further := by
  obtain ⟨config, hrun, -, hparts⟩ : ∃ config, Asks env arguments tree config false ∧
      LooksFor env arguments file ∧ (decide (Project.Apart config),
        (Project.reports tree env config).toOption.map fun r => decide (P r.1 r.2)) =
          (true, some true) := exists_asks hrequest
  obtain ⟨hapart, hreported⟩ := Prod.mk.inj hparts
  obtain ⟨main, further, after, hgoes, -, hends⟩ := exists_goesThrough hrun hexit
  obtain ⟨hreports, -⟩ :=
    Project.follows_of_goesThrough hrun.isResolved (of_decide_eq_true hapart) hrooted hgoes
  rw [hreports] at hreported
  exact ⟨config, main, further, after, hrun, hgoes, hends,
    of_decide_eq_true (Option.some.inj hreported)⟩

end StringCatalog.CommandLine
