import StringCatalog.Proofs.Catalog.Account
import StringCatalog.Proofs.Project.Diagnosis
import StringCatalog.Proofs.Workspace.Output

/-! What a generation that goes through says and writes. It comes to a report for each target: the
lines about its catalog, the source for its resources, and whether that is already in its file. The
reports give everything that is printed, and the writes between them are all that is done to the
files. -/

namespace StringCatalog.Project

open Session

variable {env : Environment} {config : Config} {dry : Bool}

/-! ### Reports -/

/-- The source files that a configuration names. -/
def outputs (config : Config) : List Path := config.main.output :: config.diffs.map (·.output)

/-- The lines about an extraction. -/
def notesOf (path : Path) (x : Extraction) : List Text :=
  x.issues.map issueLine ++
    if 0 < x.count .error then
      ["⚠️ " ++ path.name ++ ": " ++ Text.ofNat (x.count .error) ++
        " 个 key 无法生成，已跳过（--strict 可改为直接失败）"]
    else []

/-- What is found in a catalog file. -/
structure Reading where
  notes : List Text
  keys : List Text
  resources : List Resource

def reading (tree : FileTree) (env : Environment) (options : Options) (path : Path) :
    Except Failure Reading := do
  let catalog ← tree.readCatalog (env.nesting callsAroundReading) env.place path
  let x ← (catalog.extract options.strict options.skipStale).mapError .ofGeneration
  .ok ⟨notesOf path x, catalog.keys, x.resources⟩

/-- The source of resources, named for the main catalog. -/
def sourceOf (env : Environment) (config : Config) (rs : List Resource) : Except Failure Text :=
  (Swift.source (env.components callsAroundSource) (style config) config.main.input.stem
    rs).mapError .ofGeneration

/-- What a target comes to. It is due if its file does not hold the source. -/
structure Report where
  target : Target
  notes : List Text
  resources : List Resource
  source : Text
  due : Bool

/-- The line that says what was done. -/
def outcomeLine (dry changed : Bool) (place : Text) : Text :=
  if !changed then "✅ 无变化：" ++ place
  else if dry then "（dry-run：未写入）" ++ place
  else "✅ 已生成：" ++ place

def Report.outcome (r : Report) (dry : Bool) : Text :=
  outcomeLine dry r.due
    (r.target.output.display ++ "（" ++ Text.ofNat r.resources.length ++ " keys）")

def Report.lines (r : Report) (dry : Bool) : List Text := r.notes ++ [r.outcome dry]

def report (tree : FileTree) (env : Environment) (config : Config) (target : Target)
    (notes : List Text) (rs : List Resource) : Except Failure Report := do
  (Resource.validate rs (some target.input)).mapError .generation
  let source ← sourceOf env config rs
  let held ← FileJob.holdsText tree env.place target.output source
  .ok ⟨target, notes, rs, source, !held⟩

/-- The line about the resources that the main catalog has already. -/
def leftOut (config : Config) (target : Target) (all kept : List Resource) : List Text :=
  if kept.length ≠ all.length then
    ["ℹ️ " ++ target.input.name ++ ": " ++ Text.ofNat (all.length - kept.length) ++
      " 个 key 已在 " ++ config.main.input.name ++ " 中，跳过"]
  else []

def diffReport (tree : FileTree) (env : Environment) (config : Config) (known : List Text)
    (target : Target) : Except Failure Report := do
  let found ← reading tree env config.options target.input
  let kept := found.resources.filter fun r => !known.contains r.key
  report tree env config target (found.notes ++ leftOut config target found.resources kept) kept

/-- The reports of all targets, that of the main catalog first, made of files that stay as they
are. -/
def reports (tree : FileTree) (env : Environment) (config : Config) :
    Except Failure (Report × List Report) := do
  let found ← reading tree env config.options config.main.input
  let main ← report tree env config config.main found.notes found.resources
  let further ← config.diffs.mapM (diffReport tree env config found.keys)
  .ok (main, further)

/-- The name of the catalog file of a report, with its resources. -/
def Report.uses (r : Report) : Text × List Resource := (r.target.input.name, r.resources)

/-- The keys that are warned of, each with the names of catalog files. -/
def warnings (further : List Report) : List (Text × List Text) :=
  Resource.duplicateKeys (OrderedMap.ofPairs (further.map Report.uses))

/-- All that is printed. -/
def transcript (dry : Bool) (main : Report) (further : List Report) : List Text :=
  (main :: further).flatMap (·.lines dry) ++
    (warnings further).map fun d => duplicateLine d.1 d.2

/-- The write of a report goes through, and it was due or not as the report says. -/
def Delivers (env : Environment) (dry : Bool) (r : Report) (before after : FileTree) : Prop :=
  Completes (FileJob.write env.place r.target.output r.source dry) before r.due after

/-- The reports of further targets, each made of the files that the writes before it leave. -/
inductive Deliveries (env : Environment) (config : Config) (dry : Bool) (known : List Text) :
    FileTree → List Target → List Report → FileTree → Prop
  | nil (tree : FileTree) : Deliveries env config dry known tree [] [] tree
  | cons {before between after : FileTree} {target : Target} {targets : List Target} {r : Report}
      {rs : List Report} (hreport : diffReport before env config known target = .ok r)
      (hwrite : Delivers env dry r before between)
      (hrest : Deliveries env config dry known between targets rs after) :
      Deliveries env config dry known before (target :: targets) (r :: rs) after

/-- A generation goes through with these reports, and leaves this tree. -/
def GoesThrough (env : Environment) (config : Config) (dry : Bool) (before : FileTree)
    (main : Report) (further : List Report) (after : FileTree) : Prop :=
  ∃ found between, reading before env config.options config.main.input = .ok found ∧
    report before env config config.main found.notes found.resources = .ok main ∧
    Delivers env dry main before between ∧
    Deliveries env config dry found.keys between config.diffs further after

/-! ### The sessions come to these reports -/

variable {w w' : World}

/-- Extracting from a file fails as reading it does, or in telling of it. -/
theorem ends_extractFile {options : Options} {path : Path}
    {claim : Except Failure (List Text × List Resource) → World → Prop}
    (hfailed : ∀ f, reading w.files env options path = .error f → claim (.error f) w)
    (hline : ∀ line printed, line.isEncodable = false →
      claim (.error (.unprintable line)) ⟨w.files, printed⟩)
    (hfound : ∀ found printed, reading w.files env options path = .ok found →
      claim (.ok (found.keys, found.resources)) ⟨w.files, printed⟩) :
    Ends (extractFile env options path) w claim := by
  unfold reading at hfailed hfound
  unfold extractFile sayIssues
  refine ends_files_bind (.bind (.ofExcept ?_))
  cases hcatalog : w.files.readCatalog (env.nesting callsAroundReading) env.place path with
  | error f => exact hfailed f (Sequence.bind_eq_error_iff.mpr (.inl hcatalog))
  | ok catalog =>
    rw [hcatalog] at hfailed hfound
    refine .bind (.ofExcept ?_)
    cases hx : (catalog.extract options.strict options.skipStale).mapError Failure.ofGeneration with
    | error f => exact hfailed f (Sequence.bind_eq_error_iff.mpr (.inr ⟨catalog, rfl,
        Sequence.bind_eq_error_iff.mpr (.inl hx)⟩))
    | ok x =>
      have hclaim := fun printed => hfound ⟨notesOf path x, catalog.keys, x.resources⟩ printed
        (Sequence.bind_eq_ok_iff.mpr ⟨catalog, rfl, Sequence.bind_eq_ok_iff.mpr ⟨x, hx, rfl⟩⟩)
      refine .bind (ends_forM_say (fun printed => ?_) fun i _ h printed => hline _ printed h)
      dsimp only [either]
      split
      · exact .bind (ends_say (fun printed => .pure (hclaim printed)) fun h => hline _ printed h)
      · exact .pure (hclaim printed)

theorem completes_extractFile_iff {options : Options} {path : Path}
    {found : List Text × List Resource} : Completes (extractFile env options path) w found w' ↔
      ∃ x, reading w.files env options path = .ok x ∧ ArePrintable x.notes ∧
        found = (x.keys, x.resources) ∧ w' = w.tell x.notes := by
  unfold extractFile reading sayIssues
  rw [completes_files_bind_iff]
  simp only [completes_bind_iff, completes_ofExcept_iff, completes_forM_say_iff,
    completes_if_say_iff, completes_pure_iff, Sequence.bind_eq_ok_iff]
  constructor
  · rintro ⟨catalog, _, ⟨hcatalog, rfl⟩, x, _, ⟨hx, rfl⟩, -, _, ⟨hissues, rfl⟩, hskipped, rfl, rfl⟩
    exact ⟨_, ⟨catalog, hcatalog, x, hx, rfl⟩, arePrintable_append.mpr ⟨hissues, hskipped⟩, rfl,
      World.tell_tell _ _ _⟩
  · rintro ⟨_, ⟨catalog, hcatalog, x, hx, hfound⟩, hnotes, rfl, rfl⟩
    cases hfound
    obtain ⟨hissues, hskipped⟩ := arePrintable_append.mp hnotes
    exact ⟨catalog, w, ⟨hcatalog, rfl⟩, x, w, ⟨hx, rfl⟩, (), _, ⟨hissues, rfl⟩, hskipped, rfl,
      (World.tell_tell _ _ _).symm⟩

theorem completes_outcome_iff {changed : Bool} {place : Text} : Completes (
      if !changed then say ("✅ 无变化：" ++ place)
      else if dry then say ("（dry-run：未写入）" ++ place)
      else say ("✅ 已生成：" ++ place)) w () w' ↔
        ArePrintable [outcomeLine dry changed place] ∧
          w' = w.tell [outcomeLine dry changed place] := by
  have hline : ∀ line, Completes (say line) w () w' ↔ ArePrintable [line] ∧ w' = w.tell [line] := by
    intro line
    rw [completes_say_iff, arePrintable_cons, and_iff_left arePrintable_nil]
  unfold outcomeLine
  split
  · exact hline _
  · split
    · exact hline _
    · exact hline _

theorem report_eq_ok_iff {tree : FileTree} {target : Target} {notes : List Text}
    {rs : List Resource} {r : Report} : report tree env config target notes rs = .ok r ↔
      Resource.validate rs (some target.input) = .ok () ∧ sourceOf env config rs = .ok r.source ∧
        FileJob.holdsText tree env.place r.target.output r.source = .ok (!r.due) ∧
          r.target = target ∧ r.notes = notes ∧ r.resources = rs := by
  unfold report
  simp only [Sequence.bind_eq_ok_iff, Sequence.mapError_eq_ok_iff]
  constructor
  · rintro ⟨_, hvalid, source, hsource, held, hheld, hr⟩
    cases hr
    rw [Bool.not_not]
    exact ⟨hvalid, hsource, hheld, rfl, rfl, rfl⟩
  · rintro ⟨hvalid, hsource, hheld, rfl, rfl, rfl⟩
    exact ⟨(), hvalid, r.source, hsource, !r.due, hheld, by rw [Bool.not_not]⟩

/-- A source that is written for resources is that of a report, and its line comes behind the lines
about the catalog. -/
theorem completes_emit_bind_iff {target : Target} {notes : List Text} {rs : List Resource}
    {β : Type} {s : Session β} {b : β} (hnotes : ArePrintable notes) : Completes (do
      validate rs target.input
      emit env config dry target.output rs
      s) (w.tell notes) b w' ↔ ∃ r after, report w.files env config target notes rs = .ok r ∧
        ArePrintable (r.lines dry) ∧ Delivers env dry r w.files after ∧
          Completes s (World.tell ⟨after, w.printed⟩ (r.lines dry)) b w' := by
  have htell : ∀ (after : FileTree) (line : Text),
      World.tell ⟨after, (w.tell notes).printed⟩ [line] =
        World.tell ⟨after, w.printed⟩ (notes ++ [line]) := fun after line =>
    World.tell_tell ⟨after, w.printed⟩ notes [line]
  unfold validate emit
  simp only [completes_bind_iff, completes_ofExcept_iff, completes_onFiles_iff,
    Sequence.mapError_eq_ok_iff, report_eq_ok_iff]
  constructor
  · rintro ⟨_, _, ⟨hvalid, rfl⟩, _, _, ⟨source, _, ⟨hsource, rfl⟩, changed, _,
      ⟨after, hwrite, rfl⟩, hsay⟩, hs⟩
    have hheld := (FileJob.completes_write_iff.mp hwrite).1
    obtain ⟨houtcome, rfl⟩ := completes_outcome_iff.mp hsay
    refine ⟨⟨target, notes, rs, source, changed⟩, after,
      ⟨hvalid, Sequence.mapError_eq_ok_iff.mpr hsource, hheld, rfl, rfl, rfl⟩,
      arePrintable_append.mpr ⟨hnotes, houtcome⟩, hwrite, ?_⟩
    rw [htell] at hs
    exact hs
  · rintro ⟨r, after, ⟨hvalid, hsource, -, rfl, rfl, rfl⟩, hlines, hwrite, hs⟩
    refine ⟨(), _, ⟨hvalid, rfl⟩, (), _, ⟨r.source, _, ⟨Sequence.mapError_eq_ok_iff.mp hsource, rfl⟩,
      r.due, _, ⟨after, hwrite, rfl⟩,
      completes_outcome_iff.mpr ⟨(arePrintable_append.mp hlines).2, rfl⟩⟩, ?_⟩
    rw [htell]
    exact hs

theorem completes_generateDiff_iff {known : List Text} {target : Target}
    {kept : Text × List Resource} : Completes (generateDiff env config dry known target) w kept w' ↔
      ∃ r after, diffReport w.files env config known target = .ok r ∧
        ArePrintable (r.lines dry) ∧ Delivers env dry r w.files after ∧ kept = r.uses ∧
          w' = World.tell ⟨after, w.printed⟩ (r.lines dry) := by
  unfold generateDiff diffReport
  rw [completes_bind_iff]
  simp only [completes_extractFile_iff, completes_if_say_iff, Sequence.bind_eq_ok_iff]
  constructor
  · rintro ⟨_, _, ⟨found, hfound, hnotes, rfl, rfl⟩, hleft, h⟩
    rw [World.tell_tell, completes_emit_bind_iff (arePrintable_append.mpr ⟨hnotes, hleft⟩)] at h
    obtain ⟨r, after, hr, hlines, hwrite, h⟩ := h
    obtain ⟨rfl, rfl⟩ := completes_pure_iff.mp h
    obtain ⟨-, -, -, rfl, -, hkept⟩ := report_eq_ok_iff.mp hr
    refine ⟨r, after, ⟨found, hfound, hr⟩, hlines, hwrite, ?_, rfl⟩
    rw [Report.uses, hkept]
  · rintro ⟨r, after, ⟨found, hfound, hr⟩, hlines, hwrite, rfl, rfl⟩
    obtain ⟨-, -, -, rfl, hnotes, hkept⟩ := report_eq_ok_iff.mp hr
    have hprintable := (arePrintable_append.mp hlines).1
    rw [hnotes] at hprintable
    obtain ⟨hfirst, hleft⟩ := arePrintable_append.mp hprintable
    refine ⟨_, _, ⟨found, hfound, hfirst, rfl, rfl⟩, hleft, ?_⟩
    rw [World.tell_tell]
    refine (completes_emit_bind_iff hprintable).mpr
      ⟨r, after, hr, hlines, hwrite, completes_pure_iff.mpr ⟨?_, rfl⟩⟩
    rw [Report.uses, hkept]

theorem completes_generateDiffs_iff {known : List Text} {targets : List Target}
    {kept : List (Text × List Resource)} :
    Completes (targets.mapM (generateDiff env config dry known)) w kept w' ↔ ∃ rs after,
      Deliveries env config dry known w.files targets rs after ∧
        ArePrintable (rs.flatMap (·.lines dry)) ∧ kept = rs.map Report.uses ∧
          w' = World.tell ⟨after, w.printed⟩ (rs.flatMap (·.lines dry)) := by
  induction targets generalizing w w' kept with
  | nil =>
    rw [List.mapM_nil, completes_pure_iff]
    constructor
    · rintro ⟨rfl, rfl⟩
      exact ⟨[], _, .nil _, arePrintable_nil, rfl, by simp⟩
    · rintro ⟨rs, after, hrs, -, rfl, rfl⟩
      cases hrs
      exact ⟨rfl, by simp⟩
  | cons target targets ih =>
    rw [List.mapM_cons, completes_bind_iff]
    simp only [completes_generateDiff_iff]
    constructor
    · rintro ⟨_, _, ⟨r, between, hr, hlines, hwrite, rfl, rfl⟩, h⟩
      obtain ⟨_, _, hrest, h⟩ := completes_bind_iff.mp h
      obtain ⟨rs, after, hrs, hmore, rfl, rfl⟩ := ih.mp hrest
      obtain ⟨rfl, rfl⟩ := completes_pure_iff.mp h
      exact ⟨r :: rs, after, .cons hr hwrite hrs, arePrintable_append.mpr ⟨hlines, hmore⟩, rfl,
        World.tell_tell ⟨after, w.printed⟩ _ _⟩
    · rintro ⟨_, after, hrs, hprintable, rfl, rfl⟩
      cases hrs with
      | @cons _ between _ _ _ r rs hr hwrite hrest =>
        obtain ⟨hlines, hmore⟩ := arePrintable_append.mp hprintable
        refine ⟨_, _, ⟨r, between, hr, hlines, hwrite, rfl, rfl⟩, completes_bind_iff.mpr
          ⟨_, _, ih.mpr ⟨rs, after, hrest, hmore, rfl, rfl⟩, completes_pure_iff.mpr ⟨rfl, ?_⟩⟩⟩
        exact (World.tell_tell ⟨after, w.printed⟩ _ _).symm

/-- A generation goes through exactly if it has reports and what they say can be printed, and this
is what it prints. -/
theorem completes_generate_iff {u : Unit} : Completes (generate env config dry) w u w' ↔
    ∃ main further after, GoesThrough env config dry w.files main further after ∧
      ArePrintable (transcript dry main further) ∧
        w' = World.tell ⟨after, w.printed⟩ (transcript dry main further) := by
  have htell : ∀ (after : FileTree) (main : Report) (further : List Report),
      ((World.tell ⟨after, w.printed⟩ (main.lines dry)).tell
        (further.flatMap (·.lines dry))).tell ((warnings further).map fun d =>
          duplicateLine d.1 d.2) = World.tell ⟨after, w.printed⟩ (transcript dry main further) := by
    intro after main further
    simp [transcript]
  unfold generate GoesThrough
  rw [completes_bind_iff]
  simp only [completes_extractFile_iff]
  constructor
  · rintro ⟨_, _, ⟨found, hfound, hnotes, rfl, rfl⟩, h⟩
    obtain ⟨main, between, hmain, hlines, hwrite, h⟩ := (completes_emit_bind_iff hnotes).mp h
    obtain ⟨_, _, hdiffs, h⟩ := completes_bind_iff.mp h
    obtain ⟨further, after, hfurther, hmore, rfl, rfl⟩ := completes_generateDiffs_iff.mp hdiffs
    obtain ⟨hwarnings, rfl⟩ := completes_forM_say_iff.mp h
    refine ⟨main, further, after, ⟨found, between, hfound, hmain, hwrite, hfurther⟩, ?_,
      htell after main further⟩
    exact arePrintable_append.mpr ⟨arePrintable_append.mpr ⟨hlines, hmore⟩, hwarnings⟩
  · rintro ⟨main, further, after, ⟨found, between, hfound, hmain, hwrite, hfurther⟩, hprintable,
      rfl⟩
    obtain ⟨hall, hwarnings⟩ := arePrintable_append.mp hprintable
    obtain ⟨hlines, hmore⟩ := arePrintable_append.mp hall
    have hnotes : ArePrintable found.notes := by
      obtain ⟨-, -, -, -, hnotes, -⟩ := report_eq_ok_iff.mp hmain
      rw [← hnotes]
      exact (arePrintable_append.mp hlines).1
    refine ⟨_, _, ⟨found, hfound, hnotes, rfl, rfl⟩, (completes_emit_bind_iff hnotes).mpr
      ⟨main, between, hmain, hlines, hwrite, completes_bind_iff.mpr
        ⟨_, _, completes_generateDiffs_iff.mpr ⟨further, after, hfurther, hmore, rfl, rfl⟩,
          completes_forM_say_iff.mpr ⟨hwarnings, ?_⟩⟩⟩⟩
    exact (htell after main further).symm

variable {tree : FileTree} {main r : Report} {further : List Report}

theorem diffReport_eq_ok_iff {known : List Text} {target : Target} :
    diffReport tree env config known target = .ok r ↔ ∃ found kept,
      reading tree env config.options target.input = .ok found ∧
        kept = (found.resources.filter fun r => !known.contains r.key) ∧
          report tree env config target
            (found.notes ++ leftOut config target found.resources kept) kept = .ok r := by
  rw [diffReport, Sequence.bind_eq_ok_iff]
  simp only [exists_and_left, exists_eq_left]

theorem reports_eq_ok_iff : reports tree env config = .ok (main, further) ↔ ∃ found,
    reading tree env config.options config.main.input = .ok found ∧
      report tree env config config.main found.notes found.resources = .ok main ∧
        config.diffs.mapM (diffReport tree env config found.keys) = .ok further := by
  unfold reports
  simp only [Sequence.bind_eq_ok_iff]
  constructor
  · rintro ⟨found, hfound, _, hmain, _, hfurther, h⟩
    cases h
    exact ⟨found, hfound, hmain, hfurther⟩
  · rintro ⟨found, hfound, hmain, hfurther⟩
    exact ⟨found, hfound, main, hmain, further, hfurther, rfl⟩

/-! ### What can be printed -/

theorem arePrintable_lines_iff : ArePrintable (r.lines dry) ↔
    ArePrintable r.notes ∧ r.target.output.display.isEncodable = true := by
  have houtcome : (r.outcome dry).isEncodable = r.target.output.display.isEncodable := by
    unfold Report.outcome outcomeLine
    split
    · simp
    · split <;> simp
  rw [Report.lines, arePrintable_append, arePrintable_cons, houtcome]
  simp

theorem isEncodable_duplicateLine (key : Text) (names : List Text) :
    (duplicateLine key names).isEncodable = key.isEncodable := by
  simp [duplicateLine]

/-- Whether a transcript can be printed does not depend on what is written. -/
theorem arePrintable_transcript_iff : ArePrintable (transcript dry main further) ↔
    (∀ r ∈ main :: further, ArePrintable r.notes ∧ r.target.output.display.isEncodable = true) ∧
      ∀ d ∈ warnings further, d.1.isEncodable = true := by
  unfold transcript
  rw [arePrintable_append, arePrintable_flatMap, arePrintable_map]
  simp only [arePrintable_lines_iff, isEncodable_duplicateLine]

/-! ### What the reports say -/

theorem target_of_diffReport {known : List Text} {target : Target}
    (h : diffReport tree env config known target = .ok r) : r.target = target := by
  obtain ⟨_, _, -, -, hreport⟩ := diffReport_eq_ok_iff.mp h
  exact (report_eq_ok_iff.mp hreport).2.2.2.1

theorem targets_of_deliveries {before after : FileTree} {known : List Text} {targets : List Target}
    {rs : List Report} (h : Deliveries env config dry known before targets rs after) :
    rs.map (·.target) = targets := by
  induction h with
  | nil => rfl
  | cons hr _ _ ih => rw [List.map_cons, target_of_diffReport hr, ih]

/-- There is a report for each target, in their order. -/
theorem targets_of_goesThrough {before after : FileTree}
    (h : GoesThrough env config dry before main further after) :
    (main :: further).map (·.target) = config.main :: config.diffs := by
  obtain ⟨found, between, -, hmain, -, hfurther⟩ := h
  rw [List.map_cons, (report_eq_ok_iff.mp hmain).2.2.2.1, targets_of_deliveries hfurther]

/-- A report is due exactly if its file does not hold the source. -/
theorem holdsText_of_reports (h : reports tree env config = .ok (main, further)) :
    ∀ r ∈ main :: further,
      FileJob.holdsText tree env.place r.target.output r.source = .ok (!r.due) := by
  obtain ⟨found, -, hmain, hfurther⟩ := reports_eq_ok_iff.mp h
  intro r hr
  rcases List.mem_cons.mp hr with rfl | hr
  · exact (report_eq_ok_iff.mp hmain).2.2.1
  · obtain ⟨target, -, hr⟩ := (Sequence.mem_of_mapM_eq_ok hfurther r).mp hr
    obtain ⟨_, _, -, -, hreport⟩ := diffReport_eq_ok_iff.mp hr
    exact (report_eq_ok_iff.mp hreport).2.2.1

theorem reading_congr {tree' : FileTree} {options : Options} {path : Path} {found : Reading}
    (hread : ∀ nesting catalog, tree.readCatalog nesting env.place path = .ok catalog →
      tree'.readCatalog nesting env.place path = .ok catalog)
    (h : reading tree env options path = .ok found) :
    reading tree' env options path = .ok found := by
  obtain ⟨catalog, hcatalog, hrest⟩ := Sequence.bind_eq_ok_iff.mp h
  exact Sequence.bind_eq_ok_iff.mpr ⟨catalog, hread _ catalog hcatalog, hrest⟩

/-- The resources of a report are valid ones from a catalog, and its source is theirs. -/
structure Report.IsSound (r : Report) (env : Environment) (config : Config) : Prop where
  valid : Resource.validate r.resources (some r.target.input) = .ok ()
  source : sourceOf env config r.resources = .ok r.source
  extracted : ∀ x ∈ r.resources, ∃ e : CatalogEntry, e.toResource = .ok x

theorem exists_entry_of_reading {options : Options} {path : Path} {found : Reading}
    (h : reading tree env options path = .ok found) :
    ∀ x ∈ found.resources, ∃ e : CatalogEntry, e.toResource = .ok x := by
  unfold reading at h
  simp only [Sequence.bind_eq_ok_iff, Sequence.mapError_eq_ok_iff] at h
  obtain ⟨catalog, -, x, hx, h⟩ := h
  cases h
  exact fun _ => Catalog.exists_entry_of_mem_resources hx

theorem isSound_of_report {target : Target} {notes : List Text} {rs : List Resource}
    (h : report tree env config target notes rs = .ok r)
    (hrs : ∀ x ∈ rs, ∃ e : CatalogEntry, e.toResource = .ok x) : r.IsSound env config := by
  obtain ⟨hvalid, hsource, -, rfl, -, rfl⟩ := report_eq_ok_iff.mp h
  exact ⟨hvalid, hsource, hrs⟩

theorem isSound_of_deliveries {before after : FileTree} {known : List Text} {targets : List Target}
    {rs : List Report} (h : Deliveries env config dry known before targets rs after) :
    ∀ r ∈ rs, r.IsSound env config := by
  induction h with
  | nil => nofun
  | cons hr hwrite hrest ih =>
    obtain ⟨found, kept, hfound, rfl, hreport⟩ := diffReport_eq_ok_iff.mp hr
    refine List.forall_mem_cons.mpr ⟨isSound_of_report hreport fun x hx => ?_, ih⟩
    exact exists_entry_of_reading hfound x (List.mem_filter.mp hx).1

theorem isSound_of_goesThrough {before after : FileTree}
    (h : GoesThrough env config dry before main further after) :
    ∀ r ∈ main :: further, r.IsSound env config := by
  obtain ⟨found, between, hfound, hmain, -, hfurther⟩ := h
  exact List.forall_mem_cons.mpr
    ⟨isSound_of_report hmain (exists_entry_of_reading hfound), isSound_of_deliveries hfurther⟩

/-! ### Generations that leave the files as they are -/

theorem delivers_still
    (hheld : FileJob.holdsText tree env.place r.target.output r.source = .ok (!r.due))
    (hstill : dry = true ∨ r.due = false) : Delivers env dry r tree tree := by
  refine FileJob.completes_write_iff.mpr ⟨hheld, ?_⟩
  rcases hstill with hdry | hdue
  · simp [hdry]
  · simp [hdue]

theorem deliveries_still {known : List Text} {targets : List Target} {rs : List Report}
    (hreports : List.Forall₂ (fun target r => diffReport tree env config known target = .ok r)
      targets rs) (hstill : ∀ r ∈ rs, Delivers env dry r tree tree) :
    Deliveries env config dry known tree targets rs tree := by
  induction hreports with
  | nil => exact .nil tree
  | cons hr hrest ih =>
    obtain ⟨hfirst, hrest⟩ := List.forall_mem_cons.mp hstill
    exact .cons hr hfirst (ih hrest)

/-- A generation goes through on files that stay as they are if it is dry or nothing is due. -/
theorem goesThrough_still (hreports : reports tree env config = .ok (main, further))
    (hstill : ∀ r ∈ main :: further, dry = true ∨ r.due = false) :
    GoesThrough env config dry tree main further tree := by
  have hdelivers : ∀ r ∈ main :: further, Delivers env dry r tree tree := fun r hr =>
    delivers_still (holdsText_of_reports hreports r hr) (hstill r hr)
  obtain ⟨hfirst, hrest⟩ := List.forall_mem_cons.mp hdelivers
  obtain ⟨found, hfound, hmain, hfurther⟩ := reports_eq_ok_iff.mp hreports
  exact ⟨found, tree, hfound, hmain, hfirst,
    deliveries_still (Sequence.mapM_eq_ok_iff.mp hfurther) hrest⟩

theorem Delivers.eq_of_dry {before after : FileTree} (h : Delivers env true r before after) :
    after = before := by
  obtain ⟨-, hmade⟩ := FileJob.completes_write_iff.mp h
  simpa using hmade

theorem forall₂_of_deliveries_dry {before after : FileTree} {known : List Text}
    {targets : List Target} {rs : List Report}
    (h : Deliveries env config true known before targets rs after) :
    List.Forall₂ (fun target r => diffReport before env config known target = .ok r) targets
      rs := by
  induction h with
  | nil => exact .nil
  | cons hr hwrite _ ih =>
    rw [hwrite.eq_of_dry] at ih
    exact .cons hr ih

/-- A dry generation makes all of its reports of the same files. -/
theorem reports_of_dry {after : FileTree}
    (h : GoesThrough env config true tree main further after) :
    reports tree env config = .ok (main, further) := by
  obtain ⟨found, between, hfound, hmain, hwrite, hfurther⟩ := h
  rw [hwrite.eq_of_dry] at hfurther
  exact reports_eq_ok_iff.mpr ⟨found, hfound, hmain,
    Sequence.mapM_eq_ok_iff.mpr (forall₂_of_deliveries_dry hfurther)⟩

theorem targets_of_reports (hreports : reports tree env config = .ok (main, further)) :
    (main :: further).map (·.target) = config.main :: config.diffs := by
  have hgoes : GoesThrough env config true tree main further tree :=
    goesThrough_still hreports fun _ _ => .inl rfl
  exact targets_of_goesThrough hgoes

end StringCatalog.Project
