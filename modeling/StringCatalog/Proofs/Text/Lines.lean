import StringCatalog.Proofs.Text.Basic
import StringCatalog.Text.Blank
import StringCatalog.Text.Lines

/-! Texts of one line. Lines that are written one under another are found again. -/

namespace StringCatalog

/-- Printable ASCII characters end no line. -/
theorem isLineBreak_of_printable {c : CodePoint} (hlow : 0x20 ≤ c.toNat) (hhigh : c.toNat < 0x7F) :
    isLineBreak c = false := by
  simp only [isLineBreak, Bool.or_eq_false_iff, Bool.and_eq_false_iff, decide_eq_false_iff_not,
    beq_eq_false_iff_ne]
  omega

namespace Text

/-- The text holds no line break. -/
def IsLine (text : Text) : Prop := ∀ c ∈ text, isLineBreak c = false

instance : DecidablePred IsLine := fun text =>
  inferInstanceAs (Decidable (∀ c ∈ text, isLineBreak c = false))

namespace IsLine

variable {s t : Text}

@[simp] theorem nil : IsLine [] := by simp [IsLine]

theorem cons {c : CodePoint} (hs : s.IsLine) (hc : isLineBreak c = false) : IsLine (c :: s) :=
  fun d hd => by
    rcases List.mem_cons.mp hd with rfl | hrest
    · exact hc
    · exact hs d hrest

theorem append (hs : s.IsLine) (ht : t.IsLine) : (s ++ t).IsLine := by
  intro c hc
  rcases List.mem_append.mp hc with hleft | hright
  · exact hs c hleft
  · exact ht c hright

theorem of_subset (ht : t.IsLine) (h : s ⊆ t) : s.IsLine := fun c hc => ht c (h hc)

theorem copies (n : Nat) {c : CodePoint} (hc : isLineBreak c = false) : (copies n c).IsLine :=
  fun _ hd => List.eq_of_mem_replicate hd ▸ hc

theorem carriageReturn_notMem (h : s.IsLine) : CodePoint.char '\r' ∉ s := fun hmem =>
  absurd (h _ hmem) (by decide)

theorem flatMap {α : Type} {f : α → Text} {xs : List α} (h : ∀ x ∈ xs, (f x).IsLine) :
    IsLine (xs.flatMap f) := by
  intro c hc
  obtain ⟨x, hx, hc⟩ := List.mem_flatMap.mp hc
  exact h x hx c hc

theorem join {separator : Text} (hseparator : separator.IsLine) {parts : List Text}
    (h : ∀ part ∈ parts, part.IsLine) : (Text.join separator parts).IsLine := by
  intro c hc
  rcases mem_join hc with hc | ⟨part, hpart, hc⟩
  · exact hseparator c hc
  · exact h part hpart c hc

theorem trimEnd (h : s.IsLine) : s.trimEnd.IsLine := by
  refine h.of_subset fun c hc => ?_
  rw [Text.trimEnd, trimEndBy, List.mem_reverse] at hc
  exact List.mem_reverse.mp ((List.dropWhile_sublist _).subset hc)

end IsLine

/-! ### Lines of a text -/

/-- A character that is not the first of a pair of breaks ends a line, or is the first one of it. -/
theorem lines_cons {c : CodePoint} {s : Text}
    (h : ∀ s', c = .char '\r' → s = .char '\n' :: s' → False) :
    lines (c :: s) = if isLineBreak c then [] :: lines s
      else match lines s with
        | [] => [[c]]
        | line :: rest => (c :: line) :: rest :=
  lines.eq_3 c s h

theorem lines_lineFeed (s : Text) : lines (.char '\n' :: s) = [] :: lines s := by
  rw [lines_cons (by simp)]
  rfl

theorem lines_cons_of_not_break {c : CodePoint} (hc : isLineBreak c = false) (s : Text) :
    lines (c :: s) = match lines s with
      | [] => [[c]]
      | line :: rest => (c :: line) :: rest := by
  rw [lines_cons, hc]
  · rfl
  · rintro s' rfl
    contradiction

/-- A line, ended by a line feed, is the first line of the text that it begins. -/
theorem lines_line {line : Text} (h : line.IsLine) (s : Text) :
    lines (line ++ .char '\n' :: s) = line :: lines s := by
  induction line with
  | nil => exact lines_lineFeed s
  | cons c line ih =>
    have hrest : IsLine line := fun d hd => h d (List.mem_cons_of_mem c hd)
    rw [List.cons_append, lines_cons_of_not_break (h c List.mem_cons_self), ih hrest]

/-- Lines that are written one under another are found again. -/
theorem lines_unlines {ls : List Text} (h : ∀ line ∈ ls, line.IsLine) :
    lines (unlines ls) = ls := by
  induction ls with
  | nil => rfl
  | cons line ls ih =>
    have hrest := ih fun l hl => h l (List.mem_cons_of_mem line hl)
    have hunlines : unlines (line :: ls) = line ++ .char '\n' :: unlines ls := by
      simp [unlines, Text.ofString, Text.ofChars]
    rw [hunlines, lines_line (h line List.mem_cons_self), hrest]

/-- The lines of a text hold no line breaks. -/
theorem isLine_of_mem_lines {s line : Text} (h : line ∈ lines s) : line.IsLine := by
  induction s using lines.induct generalizing line with
  | case1 => simp [lines] at h
  | case2 s ih =>
    rw [lines] at h
    rcases List.mem_cons.mp h with rfl | hrest
    · exact IsLine.nil
    · exact ih hrest
  | case3 c s hpair hbreak ih =>
    rw [lines_cons hpair, if_pos hbreak] at h
    rcases List.mem_cons.mp h with rfl | hrest
    · exact IsLine.nil
    · exact ih hrest
  | case4 c s hpair hbreak hempty ih =>
    rw [lines_cons hpair, if_neg hbreak, hempty] at h
    rw [List.mem_singleton.mp h]
    exact IsLine.nil.cons (by simpa using hbreak)
  | case5 c s hpair hbreak first rest hlines ih =>
    rw [lines_cons hpair, if_neg hbreak, hlines] at h
    rw [hlines] at ih
    rcases List.mem_cons.mp h with rfl | hrest
    · exact (ih List.mem_cons_self).cons (by simpa using hbreak)
    · exact ih (List.mem_cons_of_mem first hrest)

theorem unlines_append (as bs : List Text) : unlines (as ++ bs) = unlines as ++ unlines bs :=
  List.flatMap_append

/-- Joined by line feeds, with an empty line at the end, lines are each ended by one. -/
theorem join_lineFeed (ls : List Text) : join "\n" (ls ++ [[]]) = unlines ls := by
  induction ls with
  | nil => rfl
  | cons line ls ih =>
    cases hls : ls ++ [[]] with
    | nil => simp at hls
    | cons next rest =>
      rw [List.cons_append, hls, join, ← hls, ih]
      · rfl
      · simp

/-! ### Line ends -/

theorem notMem_unlines {c : CodePoint} (hc : c ≠ '\n') {ls : List Text}
    (h : ∀ line ∈ ls, c ∉ line) : c ∉ unlines ls := by
  intro hmem
  obtain ⟨line, hline, hmem⟩ := List.mem_flatMap.mp hmem
  rcases List.mem_append.mp hmem with hleft | hright
  · exact h line hline hleft
  · exact hc (List.mem_singleton.mp hright)

/-- A text without carriage returns has its line ends already. -/
theorem unifyNewlines_of_notMem {s : Text} (h : CodePoint.char '\r' ∉ s) : s.unifyNewlines = s := by
  induction s using unifyNewlines.induct with
  | case1 => rfl
  | case2 s ih => simp at h
  | case3 c s hpair ih =>
    obtain ⟨hc, hs⟩ := not_or.mp (mt List.mem_cons.mpr h)
    rw [unifyNewlines, if_neg (Ne.symm hc), ih hs]
    exact hpair

end Text

end StringCatalog
