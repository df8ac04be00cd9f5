import StringCatalog.Proofs.Format.Extension

/-! The grammar of format specifiers, as the set of texts that it derives. The same text can be
derived in several ways, but no text of the grammar begins another one, and the reading of a
specifier takes exactly the text of the grammar that stands at its place. -/

namespace StringCatalog

namespace Text

/-- A decimal numeral that is not all zeros. -/
structure IsNumeral (numeral : Text) : Prop where
  digits : ∀ c ∈ numeral, isAsciiDigit c = true
  nonzero : ∃ c ∈ numeral, c ≠ .char '0'

/-- The text of a conversion: the letter of an object, that of an integer with a modifier if one is
wanted, or that of another kind. -/
inductive IsConversion : Text → Prop
  | object : IsConversion "@"
  | integer {modifier : Text} {letter : CodePoint}
      (hmodifier : modifier ∈ ([[], "hh", "h", "ll", "l", "q", "z", "t", "j"] : List Text))
      (hletter : letter ∈ (("dioux" : String) : Text)) : IsConversion (modifier ++ [letter])
  | float {letter : CodePoint} (hletter : letter ∈ (("aefg" : String) : Text)) :
      IsConversion [letter]
  | character {letter : CodePoint} (hletter : letter ∈ (("csp" : String) : Text)) :
      IsConversion [letter]

/-- The text of a specifier: a percent sign, then as they are wanted a numeral with a dollar sign, a
flag, a digit as the width and a point with a digit as the precision, and then a conversion. -/
inductive IsSpecifier : Text → Prop
  | mk {position flag width precision conversion : Text}
      (hposition : position = [] ∨ ∃ digits, IsNumeral digits ∧ position = digits ++ "$")
      (hflag : flag = [] ∨ ∃ c ∈ (("-+# 0" : String) : Text), flag = [c])
      (hwidth : width = [] ∨ ∃ c, isAsciiDigit c = true ∧ width = [c])
      (hprecision : precision = [] ∨ ∃ c, isAsciiDigit c = true ∧ precision = [.char '.', c])
      (hconversion : IsConversion conversion) :
      IsSpecifier (.char '%' :: (position ++ flag ++ width ++ precision ++ conversion))

/-- What stands between the percent sign of a specifier and the dollar sign behind its position, if
there is one. -/
def numeral? (specifier : Text) : Option Text :=
  if .char '$' ∈ specifier then some ((specifier.drop 1).takeWhile (· != .char '$')) else none

end Text

namespace Conversion

theorem WellFormed.isConversion {c : Conversion} (h : c.WellFormed) : c.text.IsConversion := by
  rcases h with hnil | ⟨hmodifier, hinteger⟩
  · have hcases : ∀ d ∈ (("@dioxuaefgcsp" : String) : Text), d = .char '@' ∨
        d ∈ (("dioux" : String) : Text) ∨ d ∈ (("aefg" : String) : Text) ∨
        d ∈ (("csp" : String) : Text) := by decide
    rw [text, hnil, List.nil_append]
    rcases hcases c.letter (IsLetter.eq c.classified) with hat | hinteger | hfloat | hcharacter
    · rw [hat]
      exact .object
    · exact .integer List.mem_cons_self hinteger
    · exact .float hfloat
    · exact .character hcharacter
  · have hmodifiers : ∀ m ∈ modifiers,
        m ∈ ([[], "hh", "h", "ll", "l", "q", "z", "t", "j"] : List Text) := by decide
    refine .integer (hmodifiers c.modifier hmodifier) ?_
    simp only [isIntegerLetter, Bool.or_eq_true, beq_iff_eq] at hinteger
    rcases hinteger with (((hd | hd) | hd) | hd) | hd <;> rw [hd] <;> decide

/-- The characters of a conversion are neither digits nor flags nor signs of a specifier. -/
theorem WellFormed.of_mem_text {c : Conversion} (h : c.WellFormed) {d : CodePoint}
    (hd : d ∈ c.text) : isAsciiDigit d = false ∧ Specifier.isFlag d = false ∧
      d ∉ [CodePoint.char '$', .char '.'] := by
  have hmodifiers : ∀ m ∈ modifiers, ∀ d ∈ m, isAsciiDigit d = false ∧
      Specifier.isFlag d = false ∧ d ∉ [CodePoint.char '$', .char '.'] := by decide
  have hletters : ∀ d ∈ (("@dioxuaefgcsp" : String) : Text), isAsciiDigit d = false ∧
      Specifier.isFlag d = false ∧ d ∉ [CodePoint.char '$', .char '.'] := by decide
  rcases List.mem_append.mp hd with hmodifier | hletter
  · rcases h with hnil | ⟨hmem, -⟩
    · simp [hnil] at hmodifier
    · exact hmodifiers c.modifier hmem d hmodifier
  · rw [List.mem_singleton.mp hletter]
    exact hletters c.letter (IsLetter.eq c.classified)

theorem text_ne_nil (c : Conversion) : c.text ≠ [] := by simp [text]

end Conversion

namespace Text

theorem IsConversion.exists_wellFormed {t : Text} (h : t.IsConversion) :
    ∃ c : Conversion, c.WellFormed ∧ c.text = t := by
  have alone : ∀ d, (ArgumentKind.ofLetter? d).isSome →
      ∃ c : Conversion, c.WellFormed ∧ c.text = [d] := fun d hd => ⟨⟨[], d, hd⟩, Or.inl rfl, rfl⟩
  cases h with
  | object => exact alone (.char '@') (by decide)
  | @integer modifier letter hmodifier hletter =>
    have hmodifiers : ∀ m ∈ ([[], "hh", "h", "ll", "l", "q", "z", "t", "j"] : List Text),
        m ∈ Conversion.modifiers := by decide
    have hletters : ∀ d ∈ (("dioux" : String) : Text), Conversion.isIntegerLetter d = true ∧
        (ArgumentKind.ofLetter? d).isSome := by decide
    obtain ⟨hinteger, hclassified⟩ := hletters letter hletter
    exact ⟨⟨modifier, letter, hclassified⟩, Or.inr ⟨hmodifiers modifier hmodifier, hinteger⟩, rfl⟩
  | @float letter hletter =>
    have hsome : ∀ d ∈ (("aefg" : String) : Text), (ArgumentKind.ofLetter? d).isSome := by decide
    exact alone letter (hsome letter hletter)
  | @character letter hletter =>
    have hsome : ∀ d ∈ (("csp" : String) : Text), (ArgumentKind.ofLetter? d).isSome := by decide
    exact alone letter (hsome letter hletter)

end Text

namespace Specifier

/-- The specifier as written, behind its position. -/
def afterPosition (s : Specifier) : Text :=
  s.flag.toList ++ s.width.toList ++ precisionText s.precision ++ s.conversion.text

theorem body_eq (s : Specifier) : s.body = numeralText s.numeral ++ s.afterPosition := by
  simp only [body, afterPosition, List.append_assoc]

namespace WellFormed

variable {s : Specifier}

theorem dollar_notMem_afterPosition (h : s.WellFormed) : CodePoint.char '$' ∉ s.afterPosition := by
  have hflag : s.flag ≠ some (.char '$') := fun hf => absurd (h.flag _ hf) (by decide)
  have hwidth : s.width ≠ some (.char '$') := fun hw => absurd (h.width _ hw) (by decide)
  have hprecision : CodePoint.char '$' ∉ precisionText s.precision := by
    cases hp : s.precision with
    | none => simp [precisionText]
    | some digit =>
      have hne : CodePoint.char '$' ≠ digit := by
        rintro rfl
        exact absurd (h.precision _ hp) (by decide)
      simp [precisionText, hne]
  have hconversion : CodePoint.char '$' ∉ s.conversion.text := fun hmem =>
    (h.conversion.of_mem_text hmem).2.2 List.mem_cons_self
  simp only [afterPosition, List.mem_append, not_or, Option.mem_toList]
  exact ⟨⟨⟨hflag, hwidth⟩, hprecision⟩, hconversion⟩

theorem readPosition_body (h : s.WellFormed) (rest : Text) :
    readPosition (s.body ++ rest) = (s.numeral, s.afterPosition ++ rest) := by
  rw [body_eq]
  cases hn : s.numeral with
  | some digits =>
    have hread := readPosition_dollar (h.digits digits hn) (h.nonzero digits hn)
      (s.afterPosition ++ rest)
    simpa [numeralText, Text.ofString, Text.ofChars] using hread
  | none =>
    -- the letter at the end is no digit, and no dollar sign follows the digits before it
    have hletter : ∃ c ∈ s.afterPosition, isAsciiDigit c = false :=
      ⟨s.conversion.letter, by simp [afterPosition, Conversion.text],
        Conversion.IsLetter.not_isAsciiDigit s.conversion.classified⟩
    have hnone : readPosition s.afterPosition = (none, s.afterPosition) := by
      unfold readPosition
      dsimp only
      split
      · rename_i tail hdrop
        have hmem : CodePoint.char '$' ∈ s.afterPosition.dropWhile isAsciiDigit := by simp [hdrop]
        exact absurd ((List.dropWhile_sublist _).mem hmem) h.dollar_notMem_afterPosition
      · rfl
    rw [numeralText, List.nil_append, readPosition_extend hletter, hnone]

end WellFormed

/-- A flag and a width are read together, though a zero may be either of them. -/
theorem readOne_readOne {flag width : Option CodePoint} {c : CodePoint} (rest : Text)
    (hflag : ∀ d ∈ flag, isFlag d = true) (hwidth : ∀ d ∈ width, isAsciiDigit d = true)
    (hc : isFlag c = false) (hdigit : isAsciiDigit c = false) :
    (readOne isAsciiDigit (readOne isFlag (flag.toList ++ width.toList ++ c :: rest)).2).2 =
      c :: rest := by
  cases flag with
  | some f =>
    have hf := hflag f rfl
    cases width with
    | some w => simp [readOne, hf, hwidth w rfl]
    | none => simp [readOne, hf, hdigit]
  | none =>
    cases width with
    | some w =>
      cases hw : isFlag w with
      | true => simp [readOne, hw, hdigit]
      | false => simp [readOne, hw, hwidth w rfl]
    | none => simp [readOne, hc, hdigit]

theorem readPrecision_precisionText {precision : Option CodePoint} {c : CodePoint} (rest : Text)
    (hprecision : ∀ d ∈ precision, isAsciiDigit d = true) (hc : c ≠ .char '.') :
    readPrecision (precisionText precision ++ c :: rest) = (precision, c :: rest) := by
  cases precision with
  | some digit => simp [precisionText, readPrecision, hprecision digit rfl]
  | none => exact readPrecision_of_ne_point hc rest

/-- A specifier is read, whatever stands behind it. Its parts may be others than those that it was
written from: a zero in front of a conversion is read as a flag. -/
theorem WellFormed.exists_read? {s : Specifier} (h : s.WellFormed) (rest : Text) :
    ∃ found, read? (s.text ++ rest) = some (found, rest) := by
  obtain ⟨c, tail, hconversion⟩ := List.exists_cons_of_ne_nil s.conversion.text_ne_nil
  obtain ⟨hdigit, hflag, hsigns⟩ := h.conversion.of_mem_text (d := c) (by simp [hconversion])
  have hread := h.conversion.read?_append rest
  rw [hconversion, List.cons_append] at hread
  have hpoint : c ≠ .char '.' := fun heq => hsigns (by simp [heq])
  have hprecision := readPrecision_precisionText (tail ++ rest) h.precision hpoint
  -- what stands behind the width begins with a point or with the conversion
  obtain ⟨d, ahead, hahead, hd⟩ : ∃ d ahead,
      precisionText s.precision ++ c :: (tail ++ rest) = d :: ahead ∧ isFlag d = false ∧
        isAsciiDigit d = false := by
    cases s.precision with
    | some digit => exact ⟨.char '.', _, rfl, by decide, by decide⟩
    | none => exact ⟨c, _, rfl, hflag, hdigit⟩
  have hwidth := readOne_readOne ahead h.flag h.width hd.1 hd.2
  have hafter : s.afterPosition ++ rest = s.flag.toList ++ s.width.toList ++ d :: ahead := by
    rw [← hahead, afterPosition, hconversion]
    simp only [List.append_assoc, List.cons_append]
  rw [← hafter, ← hahead] at hwidth
  rw [text_eq_cons_body, List.cons_append, read?_percent, h.readPosition_body rest]
  simp only [hwidth, hprecision, hread, Option.map_some]
  exact ⟨_, rfl⟩

theorem isFlag_iff {c : CodePoint} : isFlag c = true ↔ c ∈ (("-+# 0" : String) : Text) := by
  simp [isFlag, Text.ofString, Text.ofChars, or_assoc]

end Specifier

namespace Text

/-- A part that may be missing, however it is written. -/
theorem exists_option_iff {α : Type} {p : α → Prop} (write : Option α → Text) {part : Text} :
    (∃ o : Option α, (∀ a ∈ o, p a) ∧ write o = part) ↔
      part = write none ∨ ∃ a, p a ∧ part = write (some a) := by
  constructor
  · rintro ⟨o, ho, rfl⟩
    cases o with
    | none => exact Or.inl rfl
    | some a => exact Or.inr ⟨a, ho a rfl, rfl⟩
  · rintro (rfl | ⟨a, ha, rfl⟩)
    · exact ⟨none, by simp, rfl⟩
    · exact ⟨some a, by simpa using ha, rfl⟩

/-- The texts of the grammar are those of the specifiers whose parts are of their classes. -/
theorem isSpecifier_iff {t : Text} :
    t.IsSpecifier ↔ ∃ s : Specifier, s.WellFormed ∧ s.text = t := by
  constructor
  · rintro @⟨_, _, _, _, _, hposition, hflag, hwidth, hprecision, hconversion⟩
    obtain ⟨numeral, hnumerals, rfl⟩ := (exists_option_iff Specifier.numeralText).mpr hposition
    obtain ⟨flag, hflags, rfl⟩ := (exists_option_iff Option.toList).mpr hflag
    obtain ⟨width, hwidths, rfl⟩ := (exists_option_iff Option.toList).mpr hwidth
    obtain ⟨precision, hprecisions, rfl⟩ :=
      (exists_option_iff Specifier.precisionText).mpr hprecision
    obtain ⟨conversion, hwf, rfl⟩ := hconversion.exists_wellFormed
    exact ⟨⟨numeral, flag, width, precision, conversion⟩,
      ⟨fun d hd => (hnumerals d hd).digits, fun d hd => (hnumerals d hd).nonzero,
        fun c hc => Specifier.isFlag_iff.mpr (hflags c hc), hwidths, hprecisions, hwf⟩, rfl⟩
  · rintro ⟨s, h, rfl⟩
    have hnumeral : ∀ digits ∈ s.numeral, IsNumeral digits := fun d hd =>
      ⟨h.digits d hd, h.nonzero d hd⟩
    have hflag : ∀ c ∈ s.flag, c ∈ (("-+# 0" : String) : Text) := fun c hc =>
      Specifier.isFlag_iff.mp (h.flag c hc)
    exact .mk ((exists_option_iff Specifier.numeralText).mp ⟨s.numeral, hnumeral, rfl⟩)
      ((exists_option_iff Option.toList).mp ⟨s.flag, hflag, rfl⟩)
      ((exists_option_iff Option.toList).mp ⟨s.width, h.width, rfl⟩)
      ((exists_option_iff Specifier.precisionText).mp ⟨s.precision, h.precision, rfl⟩)
      h.conversion.isConversion

/-- A text is one of the grammar if and only if it is read in front of any other text. -/
theorem isSpecifier_iff_read? {t : Text} (rest : Text) :
    t.IsSpecifier ↔ ∃ s : Specifier, s.text = t ∧ Specifier.read? (t ++ rest) = some (s, rest) := by
  rw [isSpecifier_iff]
  constructor
  · rintro ⟨s, h, rfl⟩
    obtain ⟨found, hread⟩ := h.exists_read? rest
    have hsame := List.append_cancel_right (Specifier.read?_eq_some hread).1
    exact ⟨found, hsame.symm, hread⟩
  · rintro ⟨s, htext, hread⟩
    exact ⟨s, (Specifier.read?_eq_some hread).2, htext⟩

/-- No text of the grammar begins another one. -/
theorem IsSpecifier.eq_of_prefix {s t text : Text} (hs : s.IsSpecifier) (ht : t.IsSpecifier)
    (hsbegins : s <+: text) (htbegins : t <+: text) : s = t := by
  obtain ⟨srest, rfl⟩ := hsbegins
  obtain ⟨trest, htext⟩ := htbegins
  obtain ⟨a, rfl, hreads⟩ := (isSpecifier_iff_read? srest).mp hs
  obtain ⟨b, rfl, hreadt⟩ := (isSpecifier_iff_read? trest).mp ht
  rw [htext, hreads] at hreadt
  cases hreadt
  rfl

end Text

namespace Specifier.WellFormed

variable {s : Specifier}

/-- What stands before the dollar sign of a specifier is its numeral. -/
theorem numeral?_text (h : s.WellFormed) : s.text.numeral? = s.numeral := by
  rw [text_eq_cons_body, body_eq]
  cases hn : s.numeral with
  | some digits =>
    have hdollar : ∀ c ∈ digits, (c != .char '$') = true := by
      intro c hc
      have hdigit := h.digits digits hn c hc
      rw [bne_iff_ne]
      rintro rfl
      exact absurd hdigit (by decide)
    have hmem : CodePoint.char '$' ∈
        CodePoint.char '%' :: (numeralText (some digits) ++ s.afterPosition) := by
      simp [numeralText, Text.ofString, Text.ofChars]
    rw [Text.numeral?, if_pos hmem, List.drop_one, List.tail_cons, numeralText, List.append_assoc,
      List.takeWhile_append_of_pos hdollar]
    simp [Text.ofString, Text.ofChars]
  | none =>
    have hnone : CodePoint.char '$' ∉ CodePoint.char '%' :: s.afterPosition := by
      simpa using h.dollar_notMem_afterPosition
    rw [numeralText, List.nil_append, Text.numeral?, if_neg hnone]

end Specifier.WellFormed

/-- The last character of a specifier decides its kind. -/
theorem Specifier.ofConversion?_text (s : Specifier) :
    ArgumentKind.ofConversion? s.text = some s.kind := by
  have hlast : s.text.getLast? = some s.conversion.letter := by
    rw [text_eq_cons_body, body, Conversion.text, ← List.append_assoc, ← List.cons_append]
    exact List.getLast?_concat
  rw [ArgumentKind.ofConversion?, hlast, Option.bind_some, kind, Conversion.kind, Option.some_get]

end StringCatalog
