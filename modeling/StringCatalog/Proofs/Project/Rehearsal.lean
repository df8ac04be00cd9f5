import StringCatalog.Proofs.Project.Outputs

/-! A generation and the reports made before it. The reports that it makes on its way, each of files
that have been written to in between, are those that can be made of the files at the beginning, and
the file of each report is written if it was due and left alone otherwise. -/

namespace StringCatalog.Project

open Session

variable {env : Environment} {config : Config}

/-! ### A dry run only looks -/

theorem looks_extractFile (env : Environment) (options : Options) (path : Path) :
    Looks (extractFile env options path) := by
  unfold extractFile
  refine .bind .files fun tree => .bind (.ofExcept _) fun catalog => .bind (.ofExcept _) fun x =>
    .bind (looks_sayIssues x) fun _ => ?_
  dsimp only
  split
  · exact .bind (.say _) fun _ => .pure _
  · exact .pure _

theorem looks_emit (env : Environment) (config : Config) (output : Path) (rs : List Resource) :
    Looks (emit env config true output rs) := by
  unfold emit
  refine .bind (.ofExcept _) fun source => .bind (.onFiles fun tree => ?_) fun changed => ?_
  · exact FileJob.ends_write_of (fun _ => rfl) (fun _ => rfl) (fun _ => rfl) nofun
  · dsimp only
    split
    · exact .say _
    · exact .say _

theorem looks_generateDiff (env : Environment) (config : Config) (known : List Text)
    (target : Target) : Looks (generateDiff env config true known target) := by
  have hrest : ∀ kept, Looks (do
      validate kept target.input
      emit env config true target.output kept
      return (target.input.name, kept)) := fun kept =>
    .bind (.ofExcept _) fun _ => .bind (looks_emit env config target.output kept) fun _ => .pure _
  unfold generateDiff
  refine .bind (looks_extractFile env _ _) fun found => ?_
  dsimp only
  split
  · exact .bind (.say _) fun _ => hrest _
  · exact hrest _

theorem looks_generate (env : Environment) (config : Config) :
    Looks (generate env config true) := by
  unfold generate
  exact .bind (looks_extractFile env _ _) fun found => .bind (.ofExcept _) fun _ =>
    .bind (looks_emit env config _ _) fun _ => .bind (.mapM (looks_generateDiff env config _) _)
      fun kept => .forM (fun _ => .say _) _

/-! ### What a generation does to the files -/

/-- The file of a report has its source if that was due, and is as before otherwise. -/
structure Report.IsMet (r : Report) (env : Environment) (before after : FileTree) : Prop where
  path : r.target.output.fault? = none
  file : ∃ bytes, after.find? env.place r.target.output = some (.file bytes) ∧
    if r.due then FileTree.encode? r.source = some bytes
    else before.find? env.place r.target.output = some (.file bytes)

theorem Report.IsMet.of_frame {r : Report} {before between after : FileTree}
    {made replaced : List Location} (h : r.IsMet env before between)
    (hframe : FileTree.Frame made replaced between after)
    (hplace : r.target.output.place env.place ∉ replaced) : r.IsMet env before after := by
  obtain ⟨bytes, hfind, hbytes⟩ := h.file
  exact ⟨h.path, bytes, hframe.find?_eq_file hplace hfind, hbytes⟩

/-- A report that is met and was due has put its source where that was not. -/
theorem Report.IsMet.hasBytes {r : Report} {before after : FileTree} (h : r.IsMet env before after)
    (hheld : FileJob.holdsText before env.place r.target.output r.source = .ok (!r.due))
    (hdue : r.due = true) : after.HasBytes env.place r.target.output r.source ∧
      before.readText env.place r.target.output ≠ .ok r.source := by
  obtain ⟨bytes, hfind, hbytes⟩ := h.file
  rw [hdue] at hbytes hheld
  refine ⟨⟨bytes, hbytes, hfind⟩, fun hread => ?_⟩
  obtain ⟨bytes, _, hfind, -⟩ := FileTree.readText_eq_ok_iff.mp hread
  have hexists := FileTree.pathExists_eq_true_iff.mpr ⟨h.path, _, hfind⟩
  rw [FileJob.holdsText_eq_true_iff.mpr ⟨hexists, hread⟩] at hheld
  contradiction

theorem Report.IsMet.find?_eq {r : Report} {before after : FileTree} (h : r.IsMet env before after)
    (hheld : FileJob.holdsText before env.place r.target.output r.source = .ok (!r.due))
    (hdue : r.due = false) :
    after.find? env.place r.target.output = before.find? env.place r.target.output ∧
      before.readText env.place r.target.output = .ok r.source := by
  obtain ⟨bytes, hfind, hbytes⟩ := h.file
  rw [hdue] at hbytes hheld
  exact ⟨hfind.trans hbytes.symm, (FileJob.holdsText_eq_true_iff.mp hheld).2⟩

/-- A generation has come so far, and as the reports said. -/
structure Follows (env : Environment) (config : Config) (initial : FileTree) (done : List Planned)
    (rs : List Report) (current : FileTree) : Prop where
  progress : Progress env config initial done current
  outputs : rs.map (·.target.output) = done.map (·.path)
  met : ∀ r ∈ rs, r.IsMet env initial current

variable {initial current after : FileTree} {done : List Planned} {o : Planned} {r : Report}
  {rs : List Report} {target : Target} {notes : List Text} {resources : List Resource}
  {known : List Text} {found : Reading}

variable (hresolved : config.IsResolved) (hapart : Apart config)

include hresolved hapart

/-- Writing an output breaks no report that is met. -/
theorem Follows.met_of_write (h : Follows env config initial done rs current)
    (hnext : done ++ [o] <+: plan initial env config) {text : Text} {changed : Bool}
    (hwrite : Completes (FileJob.write env.place o.path text false) current changed after) :
    ∀ r ∈ rs, r.IsMet env initial after := by
  intro r hr
  have hends := (FileJob.ends_write env.place o.path text current).of_completes hwrite
  cases changed with
  | false =>
    obtain ⟨rfl, -⟩ := hends
    exact h.met r hr
  | true =>
    have hmem : r.target.output ∈ done.map (·.path) := by
      rw [← h.outputs]
      exact List.mem_map_of_mem hr
    obtain ⟨o', ho', hpath⟩ := List.mem_map.mp hmem
    refine (h.met r hr).of_frame hends.2 ?_
    rw [← hpath]
    exact place_notMem_written hresolved hapart (mem_outputs_of_reached hnext (by simp))
      (mem_outputs_of_reached h.progress.reached ho') (path_ne_of_next hapart hnext o' ho')

variable (hrooted : initial.IsRooted)

include hrooted

namespace Progress

/-- A report on an output whose turn has come could be made at the beginning. -/
theorem report_eq (h : Progress env config initial done current)
    (hnext : done ++ [o] <+: plan initial env config) (hpath : o.path = target.output)
    (hreport : report current env config target notes resources = .ok r) :
    report initial env config target notes resources = .ok r := by
  obtain ⟨hvalid, hsource, hheld, rfl, hrest⟩ := report_eq_ok_iff.mp hreport
  have houtput := mem_outputs_of_reached hnext (o := o) (by simp)
  have hkept := next_notMem_replaced hresolved hapart hnext
  rw [hpath] at houtput hkept
  exact report_eq_ok_iff.mpr ⟨hvalid, hsource, FileJob.holdsText_of_frame h.frame hrooted
    (isResolved_output hresolved houtput) hkept hheld, rfl, hrest⟩

theorem diffReport_eq (h : Progress env config initial done current)
    (hnext : done ++ [o] <+: plan initial env config) (hpath : o.path = target.output)
    (htarget : target ∈ config.diffs)
    (hreport : diffReport current env config known target = .ok r) :
    diffReport initial env config known target = .ok r := by
  obtain ⟨found, kept, hfound, hkept, hreport⟩ := diffReport_eq_ok_iff.mp hreport
  have hinput : target.input ∈ inputs config := List.mem_cons_of_mem _ (List.mem_map_of_mem htarget)
  exact diffReport_eq_ok_iff.mpr ⟨found, kept, h.reading_eq hresolved hapart hrooted hinput hfound,
    hkept, h.report_eq hresolved hapart hrooted hnext hpath hreport⟩

end Progress

namespace Follows

/-- The report of a write is met when that has gone through. -/
theorem isMet_of_write (h : Follows env config initial done rs current)
    (hnext : done ++ [o] <+: plan initial env config) (hpath : o.path = r.target.output)
    (hwrite : Delivers env false r current after) : r.IsMet env initial after := by
  have hends := (FileJob.ends_write env.place r.target.output r.source current).of_completes hwrite
  obtain ⟨hheld, hmade⟩ := FileJob.completes_write_iff.mp hwrite
  cases hdue : r.due with
  | false =>
    -- its turn comes now, so the writes before have left its file alone
    rw [hdue] at hends hheld
    obtain ⟨rfl, hread⟩ := hends
    obtain ⟨bytes, _, hfind, -⟩ := FileTree.readText_eq_ok_iff.mp hread
    have houtput := mem_outputs_of_reached hnext (o := o) (by simp)
    have hkept := next_notMem_replaced hresolved hapart hnext
    rw [hpath] at houtput hkept
    refine ⟨?_, bytes, hfind, ?_⟩
    · exact (FileTree.pathExists_eq_true_iff.mp (FileJob.holdsText_eq_true_iff.mp hheld).1).1
    · rw [hdue]
      exact (h.progress.frame.find?_eq_file_iff hrooted (isResolved_output hresolved houtput)
        hkept).mp hfind
  | true =>
    rw [hdue] at hends hmade
    obtain ⟨⟨bytes, hencode, hfind⟩, -⟩ := hends
    obtain ⟨-, -, -, -, hfault, -⟩ := hmade
    refine ⟨hfault, bytes, hfind, ?_⟩
    rw [hdue]
    exact hencode

/-- A write leads on as its report says. -/
theorem step (h : Follows env config initial done rs current)
    (hnext : done ++ [o] <+: plan initial env config) (hpath : o.path = r.target.output)
    (hsource : o.source = .ok r.source) (hwrite : Delivers env false r current after) :
    Follows env config initial (done ++ [o]) (rs ++ [r]) after := by
  have hmet := h.isMet_of_write hresolved hapart hrooted hnext hpath hwrite
  rw [Delivers, ← hpath] at hwrite
  refine ⟨?_, by simp [h.outputs, hpath], fun r' hr' => ?_⟩
  · exact (h.progress.ends_write hresolved hapart hrooted hnext hsource).of_completes hwrite
  · rcases List.mem_append.mp hr' with hbefore | hlast
    · exact h.met_of_write hresolved hapart hnext hwrite r' hbefore
    · rw [List.mem_singleton.mp hlast]
      exact hmet

/-- The reports of the further targets, and what they lead to. -/
theorem deliveries {before targets : List Target} {finished : List Report}
    (hrun : Deliveries env config false found.keys current targets rs after)
    (hdiffs : config.diffs = before ++ targets)
    (hmain : reading initial env config.options config.main.input = .ok found)
    (h : Follows env config initial (written initial env config before) finished current) :
    targets.mapM (diffReport initial env config found.keys) = .ok rs ∧
      Follows env config initial (written initial env config config.diffs) (finished ++ rs) after := by
  induction hrun generalizing before finished with
  | nil =>
    rw [List.append_nil] at hdiffs
    rw [List.append_nil, hdiffs]
    exact ⟨rfl, h⟩
  | @cons current between after target targets r rs hreport hwrite hrest ih =>
    -- the report is brought back to the beginning before the write is taken into account
    obtain ⟨o, ho⟩ : ∃ o, o = diffFile initial env config target := ⟨_, rfl⟩
    have hsnoc : written initial env config (before ++ [target]) =
        written initial env config before ++ [o] := by simp [written, ho]
    have hnext : written initial env config before ++ [o] <+: plan initial env config := by
      simp [written, plan, hdiffs, ho]
    have htarget : target ∈ config.diffs := by simp [hdiffs]
    have hreport' := h.progress.diffReport_eq hresolved hapart hrooted hnext (by rw [ho]; rfl)
      htarget hreport
    obtain ⟨found', kept, hfound', hkept, hmade⟩ := diffReport_eq_ok_iff.mp hreport'
    obtain ⟨-, hsource, -, rfl, -⟩ := report_eq_ok_iff.mp hmade
    have hplanned : o.source = .ok r.source := by
      rw [ho, diffFile, hmain, hfound']
      rw [hkept] at hsource
      exact hsource
    have hstep := h.step hresolved hapart hrooted hnext (by rw [ho]; rfl) hplanned hwrite
    rw [← hsnoc] at hstep
    obtain ⟨hreports, hfollows⟩ := ih (by simp [hdiffs]) hstep
    rw [List.append_assoc] at hfollows
    exact ⟨Sequence.mapM_eq_ok_iff.mpr (.cons hreport' (Sequence.mapM_eq_ok_iff.mp hreports)),
      hfollows⟩

end Follows

/-- A generation that goes through makes the reports that could be made before it, and all of them
are met. -/
theorem follows_of_goesThrough {main : Report} {further : List Report}
    (hrun : GoesThrough env config false initial main further after) :
    reports initial env config = .ok (main, further) ∧
      Follows env config initial (plan initial env config) (main :: further) after := by
  obtain ⟨found, between, hfound, hmain, hwrite, hfurther⟩ := hrun
  have hstart : Follows env config initial [] [] initial := ⟨.start, rfl, nofun⟩
  obtain ⟨-, hsource, -, htarget, -⟩ := report_eq_ok_iff.mp hmain
  have hfirst : [] ++ [mainFile initial env config] <+: plan initial env config :=
    List.prefix_append _ _
  have hplanned : (mainFile initial env config).source = .ok main.source := by
    rw [mainFile, hfound]
    exact hsource
  have hpath : (mainFile initial env config).path = main.target.output := by
    rw [htarget]
    rfl
  have hbetween := hstart.step hresolved hapart hrooted hfirst hpath hplanned hwrite
  obtain ⟨hreports, hfollows⟩ := hbetween.deliveries hresolved hapart hrooted hfurther
    (List.nil_append _).symm hfound
  exact ⟨reports_eq_ok_iff.mpr ⟨found, hfound, hmain, hreports⟩, hfollows⟩

end StringCatalog.Project
