import StringCatalog.Proofs.Outcome
import StringCatalog.Proofs.Sequence
import StringCatalog.Proofs.Text.Encoding
import StringCatalog.Proofs.Text.Lines
import StringCatalog.Project.Session

/-! How sessions end. Some only look: however they end, the files are as they were. A session that
goes through has printed all of its lines, so each of them has a form in UTF-8. -/

namespace StringCatalog

/-- The world after some more lines. -/
def World.tell (w : World) (lines : List Text) : World :=
  { w with printed := w.printed ++ Text.unlines lines }

namespace World

@[simp]
theorem files_tell (w : World) (lines : List Text) : (w.tell lines).files = w.files := rfl

@[simp]
theorem tell_nil (w : World) : w.tell [] = w := by
  simp [tell, Text.unlines]

@[simp]
theorem tell_tell (w : World) (before after : List Text) :
    (w.tell before).tell after = w.tell (before ++ after) := by
  simp [tell, Text.unlines_append]

end World

namespace Session

variable {α β : Type} {w w' : World}

/-- All of the lines can be printed. -/
def ArePrintable (lines : List Text) : Prop := ∀ line ∈ lines, line.isEncodable = true

section

variable {line : Text} {lines more : List Text}

@[simp]
theorem arePrintable_nil : ArePrintable [] := nofun

@[simp]
theorem arePrintable_cons :
    ArePrintable (line :: lines) ↔ line.isEncodable = true ∧ ArePrintable lines :=
  List.forall_mem_cons

@[simp]
theorem arePrintable_append :
    ArePrintable (lines ++ more) ↔ ArePrintable lines ∧ ArePrintable more :=
  List.forall_mem_append

theorem arePrintable_map {f : α → Text} {xs : List α} :
    ArePrintable (xs.map f) ↔ ∀ x ∈ xs, (f x).isEncodable = true :=
  List.forall_mem_map

theorem arePrintable_flatMap {f : α → List Text} {xs : List α} :
    ArePrintable (xs.flatMap f) ↔ ∀ x ∈ xs, ArePrintable (f x) :=
  List.forall_mem_flatMap

end

/-! ### How sessions end -/

section

variable {claim : Except Failure α → World → Prop}

theorem ends_files_bind {f : FileTree → Session α} (h : Ends (f w.files) w claim) :
    Ends (files >>= f) w claim := h

/-- A line is printed, or it has no form in UTF-8 and nothing is. -/
theorem ends_say {claim : Except Failure Unit → World → Prop} {line : Text}
    (hsaid : ∀ printed, claim (.ok ()) ⟨w.files, printed⟩)
    (hnot : line.isEncodable = false → claim (.error (.unprintable line)) w) :
    Ends (say line) w claim := by
  unfold say
  split
  case isTrue => exact hsaid _
  case isFalse h => exact .throw (hnot (Bool.eq_false_iff.mpr h))

/-- Some of the lines are printed, and all of them if each has a form in UTF-8. -/
theorem ends_forM_say {claim : Except Failure Unit → World → Prop} {line : α → Text} {xs : List α}
    (hsaid : ∀ printed, claim (.ok ()) ⟨w.files, printed⟩)
    (hnot : ∀ x ∈ xs, (line x).isEncodable = false →
      ∀ printed, claim (.error (.unprintable (line x))) ⟨w.files, printed⟩) :
    Ends (xs.forM fun x => say (line x)) w claim := by
  induction xs generalizing w with
  | nil => exact .pure (hsaid _)
  | cons x xs ih =>
    have hcons : (x :: xs).forM (fun x => say (line x)) =
        say (line x) >>= fun _ => xs.forM fun x => say (line x) := rfl
    rw [hcons]
    refine .bind (ends_say (fun printed => ?_) fun h => hnot x List.mem_cons_self h w.printed)
    exact ih hsaid fun y hy => hnot y (List.mem_cons_of_mem x hy)

/-- A session that works on the files ends as the job does. -/
theorem ends_onFiles {job : FileJob α}
    (h : Ends job w.files fun r tree => claim r ⟨tree, w.printed⟩) :
    Ends (onFiles job) w claim := by
  have hends : Ends (onFiles job) w claim ↔
      Ends (ofExcept (job.run.run w.files).1 : Session α)
        ⟨(job.run.run w.files).2, w.printed⟩ claim := Iff.rfl
  exact hends.mpr (.ofExcept h)

end

/-! ### Sessions that only look -/

/-- However the session ends, the files are as they were. -/
def Looks (s : Session α) : Prop := ∀ w, Ends s w fun _ after => after.files = w.files

namespace Looks

variable {s : Session α}

theorem pure (a : α) : Looks (pure a) := fun _ => .pure rfl

theorem throw (e : Failure) : Looks (throw e : Session α) := fun _ => .throw rfl

theorem say (line : Text) : Looks (say line) := fun _ => ends_say (fun _ => rfl) fun _ => rfl

theorem files : Looks files := fun _ => rfl

theorem ofExcept (r : Except Failure α) : Looks (ofExcept r) := fun _ => .ofExcept rfl

theorem onFiles {job : FileJob α} (h : ∀ tree, Ends job tree fun _ after => after = tree) :
    Looks (onFiles job) := fun w => ends_onFiles (h w.files)

theorem bind {f : α → Session β} (hs : Looks s) (hf : ∀ a, Looks (f a)) : Looks (s >>= f) := by
  intro w
  refine .bind ((hs w).mono fun r between h => ?_)
  cases r with
  | error e => exact h
  | ok a => exact (hf a between).mono fun _ _ hafter => hafter.trans h

theorem forM {f : α → Session Unit} (h : ∀ a, Looks (f a)) (xs : List α) : Looks (xs.forM f) := by
  induction xs with
  | nil => exact pure ()
  | cons x xs ih => exact (h x).bind fun _ => ih

theorem mapM {f : α → Session β} (h : ∀ a, Looks (f a)) (xs : List α) : Looks (xs.mapM f) := by
  induction xs with
  | nil => exact pure []
  | cons x xs ih =>
    rw [List.mapM_cons]
    exact (h x).bind fun _ => ih.bind fun _ => pure _

theorem tryCatch {handle : Failure → Session α} (hs : Looks s) (hhandle : ∀ e, Looks (handle e)) :
    Looks (tryCatch s handle) := by
  intro w
  refine .tryCatch ((hs w).mono fun r between h => ?_)
  cases r with
  | ok a => exact h
  | error e => exact (hhandle e between).mono fun _ _ hafter => hafter.trans h

end Looks

/-! ### Sessions that go through -/

variable {a : α} {b : β}

theorem completes_files_bind_iff {f : FileTree → Session β} :
    Completes (files >>= f) w b w' ↔ Completes (f w.files) w b w' := Iff.rfl

theorem completes_say_iff {line : Text} {u : Unit} :
    Completes (say line) w u w' ↔ line.isEncodable = true ∧ w' = w.tell [line] := by
  have htell : w.tell [line] = { w with printed := w.printed ++ line ++ "\n" } := by
    simp [World.tell, Text.unlines]
  unfold say
  split
  case isTrue h =>
    rw [htell]
    constructor
    · intro hsaid
      cases hsaid
      exact ⟨h, rfl⟩
    · rintro ⟨-, rfl⟩
      rfl
  case isFalse h =>
    constructor
    · intro hsaid
      cases hsaid
    · exact fun hline => absurd hline.1 h

theorem completes_say {line : Text} (h : line.isEncodable = true) (w : World) :
    Completes (say line) w () (w.tell [line]) :=
  completes_say_iff.mpr ⟨h, rfl⟩

theorem completes_forM_say_iff {line : α → Text} {xs : List α} {u : Unit} :
    Completes (xs.forM fun x => say (line x)) w u w' ↔
      ArePrintable (xs.map line) ∧ w' = w.tell (xs.map line) := by
  induction xs generalizing w with
  | nil => simp [List.forM, completes_pure_iff]
  | cons x xs ih =>
    have hcons : (x :: xs).forM (fun x => say (line x)) =
        say (line x) >>= fun _ => xs.forM fun x => say (line x) := rfl
    simp only [hcons, completes_bind_iff, completes_say_iff, ih]
    simp [and_assoc]

theorem completes_forM_say {line : α → Text} {xs : List α} (h : ArePrintable (xs.map line))
    (w : World) : Completes (xs.forM fun x => say (line x)) w () (w.tell (xs.map line)) :=
  completes_forM_say_iff.mpr ⟨h, rfl⟩

/-- A line that is printed only in some cases. -/
theorem completes_if_say_iff {c : Prop} [Decidable c] {line : Text} {s : Session α} :
    Completes (if c then say line >>= fun _ => s else s) w a w' ↔
      ArePrintable (if c then [line] else []) ∧
        Completes s (w.tell (if c then [line] else [])) a w' := by
  split
  · simp only [completes_bind_iff, completes_say_iff]
    simp
  · simp

theorem completes_onFiles_iff {job : FileJob α} : Completes (onFiles job) w a w' ↔
    ∃ tree, Completes job w.files a tree ∧ w' = { w with files := tree } := by
  have hrun : Completes (onFiles job) w a w' ↔
      Completes (ofExcept (job.run.run w.files).1 : Session α)
        { w with files := (job.run.run w.files).2 } a w' := Iff.rfl
  rw [hrun, completes_ofExcept_iff]
  constructor
  · rintro ⟨hresult, rfl⟩
    exact ⟨_, Prod.ext hresult rfl, rfl⟩
  · rintro ⟨tree, hjob, rfl⟩
    have hpair : job.run.run w.files = (.ok a, tree) := hjob
    rw [hpair]
    exact ⟨rfl, rfl⟩

end Session

end StringCatalog
