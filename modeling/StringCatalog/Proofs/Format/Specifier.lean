import StringCatalog.Format.Specifier
import StringCatalog.Proofs.Text.Basic

/-! What the reading of a format specifier takes from a text: exactly the specifier as written,
whose parts are of their classes, so that it holds one percent sign, at its beginning. -/

namespace StringCatalog

namespace Conversion

/-- The conversion has a modifier only in front of an integer letter, and one of the known ones. -/
def WellFormed (c : Conversion) : Prop :=
  c.modifier = [] ∨ (c.modifier ∈ modifiers ∧ isIntegerLetter c.letter = true)

theorem ofLetter?_eq_some {modifier : Text} {letter : CodePoint} {c : Conversion}
    (h : ofLetter? modifier letter = some c) : c.modifier = modifier ∧ c.letter = letter := by
  unfold ofLetter? at h
  split at h
  · cases h
    exact ⟨rfl, rfl⟩
  · contradiction

theorem readInteger?_eq_some {modifier s rest : Text} {c : Conversion}
    (h : readInteger? modifier s = some (c, rest)) :
    s = c.text ++ rest ∧ c.modifier = modifier ∧ isIntegerLetter c.letter = true := by
  unfold readInteger? at h
  split at h
  · rename_i hprefix
    obtain ⟨s', rfl⟩ := List.isPrefixOf_iff_prefix.mp hprefix
    rw [List.drop_left] at h
    split at h
    · split at h
      · rename_i letter tail hletter
        obtain ⟨found, hfound, hpair⟩ := Option.map_eq_some_iff.mp h
        cases hpair
        obtain ⟨hm, hl⟩ := ofLetter?_eq_some hfound
        exact ⟨by simp [text, hm, hl], hm, by rw [hl]; exact hletter⟩
      · contradiction
    · contradiction
  · contradiction

/-- What is read is the conversion as written, and it is well formed. -/
theorem read?_eq_some {s rest : Text} {c : Conversion} (h : read? s = some (c, rest)) :
    s = c.text ++ rest ∧ c.WellFormed := by
  unfold read? at h
  split at h
  · rename_i found hfound
    cases h
    obtain ⟨modifier, hmem, hread⟩ := List.exists_of_findSome?_eq_some hfound
    obtain ⟨hs, hm, hl⟩ := readInteger?_eq_some hread
    exact ⟨hs, Or.inr ⟨hm ▸ hmem, hl⟩⟩
  · split at h
    · obtain ⟨found, hfound, hpair⟩ := Option.map_eq_some_iff.mp h
      cases hpair
      obtain ⟨hm, hl⟩ := ofLetter?_eq_some hfound
      exact ⟨by simp [text, hm, hl], Or.inl hm⟩
    · contradiction

theorem letter_ne_percent (c : Conversion) : c.letter ≠ '%' := by
  intro h
  have := c.classified
  rw [h] at this
  contradiction

/-- A character that is in no modifier and stands for no kind is in no conversion. -/
theorem WellFormed.notMem_text {c : Conversion} (h : c.WellFormed) {d : CodePoint}
    (hmodifiers : ∀ m ∈ modifiers, d ∉ m) (hletter : ArgumentKind.ofLetter? d = none) :
    d ∉ c.text := by
  have hmodifier : d ∉ c.modifier := by
    rcases h with hnil | ⟨hmem, -⟩
    · simp [hnil]
    · exact hmodifiers _ hmem
  have hne : d ≠ c.letter := by
    rintro rfl
    have := c.classified
    simp [hletter] at this
  simp only [text, List.mem_append, List.mem_singleton, not_or]
  exact ⟨hmodifier, hne⟩

theorem WellFormed.percent_notMem {c : Conversion} (h : c.WellFormed) :
    CodePoint.char '%' ∉ c.text :=
  h.notMem_text (by decide) rfl

theorem WellFormed.hash_notMem {c : Conversion} (h : c.WellFormed) :
    CodePoint.char '#' ∉ c.text :=
  h.notMem_text (by decide) rfl

end Conversion

namespace Specifier

/-- The position as written, with its dollar sign. -/
def numeralText : Option Text → Text
  | some digits => digits ++ "$"
  | none => []

/-- The precision as written, with its point. -/
def precisionText : Option CodePoint → Text
  | some digit => ['.', digit]
  | none => []

/-- The specifier as written, behind its percent sign. -/
def body (s : Specifier) : Text :=
  numeralText s.numeral ++ s.flag.toList ++ s.width.toList ++ precisionText s.precision ++
    s.conversion.text

theorem text_eq_cons_body (s : Specifier) : s.text = .char '%' :: s.body := rfl

theorem body_ne_nil (s : Specifier) : s.body ≠ [] := by
  simp [body, Conversion.text]

/-- Every part of the specifier is of its class. -/
structure WellFormed (s : Specifier) : Prop where
  digits : ∀ digits ∈ s.numeral, ∀ c ∈ digits, isAsciiDigit c = true
  nonzero : ∀ digits ∈ s.numeral, ∃ c ∈ digits, c ≠ .char '0'
  flag : ∀ c ∈ s.flag, isFlag c = true
  width : ∀ c ∈ s.width, isAsciiDigit c = true
  precision : ∀ c ∈ s.precision, isAsciiDigit c = true
  conversion : s.conversion.WellFormed

theorem readPosition_append (s : Text) :
    s = numeralText (readPosition s).1 ++ (readPosition s).2 := by
  have hs := List.takeWhile_append_dropWhile (p := isAsciiDigit) (l := s)
  unfold readPosition
  dsimp only
  split
  · rename_i rest hdrop
    rw [hdrop] at hs
    split
    · simp only [numeralText, List.append_assoc]
      exact hs.symm
    · rfl
  · rfl

theorem readPosition_numeral {s digits : Text} (h : (readPosition s).1 = some digits) :
    (∀ c ∈ digits, isAsciiDigit c = true) ∧ ∃ c ∈ digits, c ≠ .char '0' := by
  unfold readPosition at h
  dsimp only at h
  split at h
  · split at h
    · rename_i hany
      cases h
      refine ⟨fun c hc => List.all_eq_true.mp List.all_takeWhile c hc, ?_⟩
      simpa using hany
    · contradiction
  · contradiction

theorem readOne_append (p : CodePoint → Bool) (s : Text) :
    s = (readOne p s).1.toList ++ (readOne p s).2 := by
  cases s with
  | nil => rfl
  | cons c rest =>
    simp only [readOne]
    split <;> rfl

theorem readOne_class {p : CodePoint → Bool} {s : Text} {c : CodePoint}
    (h : (readOne p s).1 = some c) : p c = true := by
  cases s with
  | nil => contradiction
  | cons d rest =>
    simp only [readOne] at h
    split at h
    · rename_i hd
      cases h
      exact hd
    · contradiction

theorem readPrecision_append (s : Text) :
    s = precisionText (readPrecision s).1 ++ (readPrecision s).2 := by
  unfold readPrecision
  split
  · split <;> rfl
  · rfl

theorem readPrecision_digit {s : Text} {c : CodePoint} (h : (readPrecision s).1 = some c) :
    isAsciiDigit c = true := by
  unfold readPrecision at h
  split at h
  · split at h
    · rename_i hd
      cases h
      exact hd
    · contradiction
  · contradiction

theorem read?_of_ne_percent {c : CodePoint} (hc : c ≠ .char '%') (s : Text) :
    read? (c :: s) = none := by
  unfold read?
  split
  · rename_i heq
    cases heq
    contradiction
  · rfl

/-- Behind the percent sign, the parts are read one after another. -/
theorem read?_percent (s : Text) :
    read? (.char '%' :: s) =
      (let flag := readOne isFlag (readPosition s).2
      let width := readOne isAsciiDigit flag.2
      let precision := readPrecision width.2
      (Conversion.read? precision.2).map fun found =>
        (⟨(readPosition s).1, flag.1, width.1, precision.1, found.1⟩, found.2)) := rfl

/-- What is read is the specifier as written, and it is well formed. -/
theorem read?_eq_some {s rest : Text} {found : Specifier} (h : read? s = some (found, rest)) :
    s = found.text ++ rest ∧ found.WellFormed := by
  cases s with
  | nil => contradiction
  | cons c s =>
    by_cases hc : c = .char '%'
    · subst hc
      rw [read?_percent] at h
      obtain ⟨⟨conversion, rest'⟩, hread, hpair⟩ := Option.map_eq_some_iff.mp h
      cases hpair
      obtain ⟨hs, hconversion⟩ := Conversion.read?_eq_some hread
      refine ⟨?_, fun _ hn => (readPosition_numeral hn).1, fun _ hn => (readPosition_numeral hn).2,
        fun _ hf => readOne_class hf, fun _ hw => readOne_class hw,
        fun _ hp => readPrecision_digit hp, hconversion⟩
      simp only [text_eq_cons_body, body, List.cons_append, List.append_assoc]
      rw [← hs, ← readPrecision_append, ← readOne_append, ← readOne_append, ← readPosition_append]
    · rw [read?_of_ne_percent hc] at h
      contradiction

theorem eq_percent_of_read?_some {c : CodePoint} {s : Text} {found : Specifier × Text}
    (h : read? (c :: s) = some found) : c = .char '%' := by
  by_cases hc : c = .char '%'
  · exact hc
  · rw [read?_of_ne_percent hc] at h
    contradiction

/-- A character that is none of the signs or digits of a specifier, nor its flag, nor in its
conversion, does not occur beyond its beginning. -/
theorem WellFormed.notMem_body {s : Specifier} (h : s.WellFormed) {d : CodePoint}
    (hdigit : isAsciiDigit d = false) (hsigns : d ∉ [CodePoint.char '$', .char '.'])
    (hflag : s.flag ≠ some d) (hconversion : d ∉ s.conversion.text) : d ∉ s.body := by
  simp only [List.mem_cons, List.not_mem_nil, or_false, not_or] at hsigns
  have hnumeral : d ∉ numeralText s.numeral := by
    cases hn : s.numeral with
    | none => simp [numeralText]
    | some digits =>
      have hdigits : d ∉ digits := fun hmem => by
        simp [h.digits digits (by simp [hn]) _ hmem] at hdigit
      have hdollar : d ∉ (("$" : String) : Text) := by
        simpa [Text.ofString, Text.ofChars] using hsigns.1
      simp [numeralText, hdigits, hdollar]
  have hwidth : d ∉ s.width.toList := fun hmem => by
    simp [h.width _ (Option.mem_toList.mp hmem)] at hdigit
  have hprecision : d ∉ precisionText s.precision := by
    cases hp : s.precision with
    | none => simp [precisionText]
    | some digit =>
      have hne : d ≠ digit := by
        rintro rfl
        simp [h.precision _ hp] at hdigit
      simp [precisionText, hne, hsigns.2]
  simp only [body, List.mem_append, not_or, Option.mem_toList]
  exact ⟨⟨⟨⟨hnumeral, hflag⟩, by simpa using hwidth⟩, hprecision⟩, hconversion⟩

/-- Beyond its beginning, a specifier holds no percent sign. -/
theorem WellFormed.percent_notMem {s : Specifier} (h : s.WellFormed) :
    CodePoint.char '%' ∉ s.body := by
  refine h.notMem_body (by decide) (by decide) (fun hflag => ?_) h.conversion.percent_notMem
  exact absurd (h.flag _ hflag) (by decide)

/-- A specifier without the flag `#` holds no such character. -/
theorem WellFormed.hash_notMem {s : Specifier} (h : s.WellFormed) (hflag : s.flag ≠ some '#') :
    CodePoint.char '#' ∉ s.text := by
  have hbody := h.notMem_body (by decide) (by decide) hflag h.conversion.hash_notMem
  rw [text_eq_cons_body, List.mem_cons, not_or]
  exact ⟨by decide, hbody⟩

/-- No specifier begins with two percent signs. -/
theorem read?_percent_percent (s : Text) : read? (.char '%' :: .char '%' :: s) = none := by
  cases hread : read? (.char '%' :: .char '%' :: s) with
  | none => rfl
  | some pair =>
    obtain ⟨found, rest⟩ := pair
    obtain ⟨hs, hwf⟩ := read?_eq_some hread
    obtain ⟨c, tail, hbody⟩ := List.exists_cons_of_ne_nil found.body_ne_nil
    have hmem : c ∈ found.body := by simp [hbody]
    rw [text_eq_cons_body, hbody] at hs
    simp only [List.cons_append, List.cons.injEq, true_and] at hs
    exact absurd (hs.1 ▸ hmem) hwf.percent_notMem

/-- A position is a positive number. -/
theorem WellFormed.position_pos {s : Specifier} (h : s.WellFormed) {n : Nat}
    (hn : s.position = some n) : 0 < n := by
  obtain ⟨digits, hdigits, rfl⟩ := Option.map_eq_some_iff.mp hn
  exact Text.toNat_pos (h.digits digits hdigits) (h.nonzero digits hdigits)

end Specifier

end StringCatalog
