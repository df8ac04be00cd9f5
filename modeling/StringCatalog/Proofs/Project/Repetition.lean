import StringCatalog.Proofs.Project.Rehearsal
import StringCatalog.Proofs.Swift.Source

/-! A generation that is repeated. On the files that the first one leaves, the same reports are made
again, and none of them is due any more. What is read back from a source is the source, since there
is no carriage return in it. -/

namespace StringCatalog.Project

variable {env : Environment} {config : Config}

/-- The report when its file holds the source. -/
def Report.still (r : Report) : Report := { r with due := false }

theorem warnings_still (further : List Report) :
    warnings (further.map Report.still) = warnings further := by
  unfold warnings
  rw [List.map_map]
  rfl

/-- What can be printed of reports can be printed when nothing is due. -/
theorem arePrintable_transcript_still {dry : Bool} {main : Report} {further : List Report}
    (h : Session.ArePrintable (transcript dry main further)) :
    Session.ArePrintable (transcript dry main.still (further.map Report.still)) := by
  obtain ⟨hreports, hwarnings⟩ := arePrintable_transcript_iff.mp h
  rw [arePrintable_transcript_iff, ← List.map_cons, List.forall_mem_map, warnings_still]
  exact ⟨hreports, hwarnings⟩

/-- The stem of a name has no other characters than the name. -/
theorem stem_subset (p : Path) : p.stem ⊆ p.name := by
  unfold Path.stem Path.stemOf
  dsimp only
  split
  · exact List.Subset.refl _
  · exact List.take_subset _ _

theorem Report.IsSound.carriageReturn_notMem {r : Report} (h : r.IsSound env config)
    (htype : Config.isTypeName config.typeName = true)
    (hname : CodePoint.char '\r' ∉ config.main.input.name) : CodePoint.char '\r' ∉ r.source :=
  Swift.carriageReturn_notMem_source h.extracted htype rfl
    (fun hmem => hname (stem_subset _ hmem)) (Sequence.mapError_eq_ok_iff.mp h.source)

/-- A report that is met is not due again. -/
theorem Report.IsMet.holdsText {r : Report} {before after : FileTree} (h : r.IsMet env before after)
    (hheld : FileJob.holdsText before env.place r.target.output r.source = .ok (!r.due))
    (hsource : CodePoint.char '\r' ∉ r.source) :
    FileJob.holdsText after env.place r.target.output r.source = .ok true := by
  obtain ⟨bytes, hfind, hbytes⟩ := h.file
  rw [FileJob.holdsText_eq_true_iff]
  refine ⟨FileTree.pathExists_eq_true_iff.mpr ⟨h.path, _, hfind⟩, ?_⟩
  cases hdue : r.due with
  | false =>
    -- the bytes are the old ones, which may have other line ends than the source
    rw [hdue] at hbytes hheld
    refine FileTree.readText_congr (fun found hfound => ?_) (FileJob.holdsText_eq_true_iff.mp hheld).2
    rw [hfind]
    exact hbytes.symm.trans hfound
  | true =>
    rw [hdue] at hbytes
    exact FileTree.readText_of_hasBytes ⟨bytes, hbytes, hfind⟩ hsource

/-- The report on a file that holds the source now. -/
theorem report_still {tree tree' : FileTree} {target : Target} {notes : List Text}
    {rs : List Resource} {r : Report} (h : report tree env config target notes rs = .ok r)
    (hheld : FileJob.holdsText tree' env.place r.target.output r.source = .ok true) :
    report tree' env config target notes rs = .ok r.still := by
  obtain ⟨hvalid, hsource, -, hrest⟩ := report_eq_ok_iff.mp h
  exact report_eq_ok_iff.mpr ⟨hvalid, hsource, hheld, hrest⟩

/-- The reports of a generation that goes through can be made again behind it, and are not due. -/
theorem reports_again {main : Report} {further : List Report} {initial after : FileTree}
    (hresolved : config.IsResolved) (hapart : Apart config) (hrooted : initial.IsRooted)
    (htype : Config.isTypeName config.typeName = true)
    (hname : CodePoint.char '\r' ∉ config.main.input.name)
    (hrun : GoesThrough env config false initial main further after) :
    reports after env config = .ok (main.still, further.map Report.still) := by
  obtain ⟨hreports, hfollows⟩ := follows_of_goesThrough hresolved hapart hrooted hrun
  have hheld : ∀ r ∈ main :: further,
      FileJob.holdsText after env.place r.target.output r.source = .ok true := fun r hr =>
    (hfollows.met r hr).holdsText (holdsText_of_reports hreports r hr)
      ((isSound_of_goesThrough hrun r hr).carriageReturn_notMem htype hname)
  have hreading : ∀ path ∈ inputs config, ∀ found,
      reading initial env config.options path = .ok found →
        reading after env config.options path = .ok found := by
    intro path hpath found hfound
    have hkept := input_notMem_replaced hresolved hapart hfollows.progress.reached hpath
    rw [← (isResolved_input hresolved hpath).place env.place] at hkept
    refine reading_congr (fun _ _ => FileTree.readCatalog_congr fun bytes => ?_) hfound
    exact hfollows.progress.frame.find?_eq_file hkept
  obtain ⟨found, hfound, hmain, hfurther⟩ := reports_eq_ok_iff.mp hreports
  refine reports_eq_ok_iff.mpr ⟨found, hreading _ List.mem_cons_self found hfound,
    report_still hmain (hheld main List.mem_cons_self), ?_⟩
  refine Sequence.mapM_eq_ok_iff.mpr (List.forall₂_map_right_iff.mpr
    (Sequence.forall₂_of_mapM_eq_ok hfurther fun target htarget r hr => ?_))
  have hmem : r ∈ further := (Sequence.mem_of_mapM_eq_ok hfurther r).mpr ⟨target, htarget, hr⟩
  obtain ⟨found', kept, hfound', hkept, hreport⟩ := diffReport_eq_ok_iff.mp hr
  have hinput : target.input ∈ inputs config := List.mem_cons_of_mem _ (List.mem_map_of_mem htarget)
  exact diffReport_eq_ok_iff.mpr ⟨found', kept, hreading _ hinput found' hfound', hkept,
    report_still hreport (hheld r (List.mem_cons_of_mem _ hmem))⟩

end StringCatalog.Project
