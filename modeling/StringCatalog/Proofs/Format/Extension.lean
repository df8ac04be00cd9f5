import Mathlib.Data.List.TakeWhile
import StringCatalog.Proofs.Format.Specifier

/-! The reading of a specifier does not look beyond it: with more text behind it, the same specifier
is read, and only the rest is longer. -/

namespace StringCatalog

namespace Conversion

/-- The character stands for a kind, so a conversion may end with it. -/
def IsLetter (c : CodePoint) : Prop := (ArgumentKind.ofLetter? c).isSome

theorem IsLetter.eq {c : CodePoint} (h : IsLetter c) :
    c ∈ (("@dioxuaefgcsp" : String) : Text) := by
  unfold IsLetter ArgumentKind.ofLetter? at h
  split at h <;> first | decide | contradiction

theorem IsLetter.not_isAsciiDigit {c : CodePoint} (h : IsLetter c) : isAsciiDigit c = false := by
  have hall : ∀ d ∈ (("@dioxuaefgcsp" : String) : Text), isAsciiDigit d = false := by decide
  exact hall c h.eq

theorem IsLetter.ne_point {c : CodePoint} (h : IsLetter c) : c ≠ '.' := by
  have hall : ∀ d ∈ (("@dioxuaefgcsp" : String) : Text), d ≠ '.' := by decide
  exact hall c h.eq

/-- An integer conversion is read whatever stands behind it. -/
theorem read?_integer {c : Conversion} (hmodifier : c.modifier ∈ modifiers)
    (hletter : isIntegerLetter c.letter = true) (rest : Text) :
    read? (c.text ++ rest) = some (c, rest) := by
  have hletters : c.letter = 'd' ∨ c.letter = 'i' ∨ c.letter = 'o' ∨ c.letter = 'u' ∨
      c.letter = 'x' := by simpa [isIntegerLetter, or_assoc] using hletter
  obtain ⟨modifier, letter, classified⟩ := c
  simp only [modifiers, List.mem_cons, List.not_mem_nil, or_false] at hmodifier
  dsimp only at hletters
  rcases hmodifier with rfl | rfl | rfl | rfl | rfl | rfl | rfl | rfl | rfl <;>
    rcases hletters with rfl | rfl | rfl | rfl | rfl <;> rfl

/-- A letter that is no integer letter is a conversion of its own. -/
theorem read?_letter {c : Conversion} (hmodifier : c.modifier = [])
    (hletter : isIntegerLetter c.letter = false) (rest : Text) :
    read? (c.text ++ rest) = some (c, rest) := by
  obtain ⟨modifier, letter, classified⟩ := c
  dsimp only at hmodifier hletter
  subst hmodifier
  have hmem := classified
  unfold ArgumentKind.ofLetter? at hmem
  split at hmem <;> first | rfl | contradiction

/-- A well-formed conversion is read whatever stands behind it. -/
theorem WellFormed.read?_append {c : Conversion} (h : c.WellFormed) (rest : Text) :
    read? (c.text ++ rest) = some (c, rest) := by
  cases hletter : isIntegerLetter c.letter with
  | true =>
    rcases h with hnil | ⟨hmem, -⟩
    · exact read?_integer (by rw [hnil]; decide) hletter rest
    · exact read?_integer hmem hletter rest
  | false =>
    rcases h with hnil | ⟨-, hinteger⟩
    · exact read?_letter hnil hletter rest
    · rw [hletter] at hinteger
      contradiction

end Conversion

namespace Specifier

/-- A position, if there is one, is read up to the first character that is no digit. -/
theorem readPosition_extend {s : Text} (h : ∃ c ∈ s, isAsciiDigit c = false) (more : Text) :
    readPosition (s ++ more) = ((readPosition s).1, (readPosition s).2 ++ more) := by
  have hdrop : s.dropWhile isAsciiDigit ≠ [] := by
    simpa [List.dropWhile_eq_nil_iff] using h
  have htake : (s ++ more).takeWhile isAsciiDigit = s.takeWhile isAsciiDigit := by
    have hlength : (s.takeWhile isAsciiDigit).length ≠ s.length := by
      intro hall
      have hs := congrArg List.length (List.takeWhile_append_dropWhile (p := isAsciiDigit) (l := s))
      rw [List.length_append, hall] at hs
      exact hdrop (List.length_eq_zero_iff.mp (by omega))
    rw [List.takeWhile_append, if_neg hlength]
  have hrest : (s ++ more).dropWhile isAsciiDigit = s.dropWhile isAsciiDigit ++ more := by
    rw [List.dropWhile_append, if_neg (by simpa using hdrop)]
  obtain ⟨d, rest, hd⟩ := List.exists_cons_of_ne_nil hdrop
  unfold readPosition
  dsimp only
  rw [htake, hrest, hd, List.cons_append]
  by_cases hdollar : d = .char '$'
  · subst hdollar
    simp only
    split <;> rfl
  · split
    · rename_i heq
      exact absurd (List.cons.inj heq).1 hdollar
    · split
      · rename_i heq
        exact absurd (List.cons.inj heq).1 hdollar
      · rfl

/-- Digits in front of a dollar sign are a position. -/
theorem readPosition_dollar {digits : Text} (hdigits : ∀ c ∈ digits, isAsciiDigit c = true)
    (hnonzero : ∃ c ∈ digits, c ≠ .char '0') (rest : Text) :
    readPosition (digits ++ .char '$' :: rest) = (some digits, rest) := by
  have hdollar : isAsciiDigit (.char '$') = false := by decide
  have htake : (digits ++ .char '$' :: rest).takeWhile isAsciiDigit = digits := by
    rw [List.takeWhile_append_of_pos hdigits]
    simp [hdollar]
  have hdrop : (digits ++ .char '$' :: rest).dropWhile isAsciiDigit = .char '$' :: rest := by
    rw [List.dropWhile_append_of_pos hdigits]
    simp [hdollar]
  unfold readPosition
  dsimp only
  rw [htake, hdrop]
  exact if_pos (by simpa using hnonzero)

/-- Digits in front of another character are none. -/
theorem readPosition_of_ne_dollar {digits : Text} (hdigits : ∀ c ∈ digits, isAsciiDigit c = true)
    {c : CodePoint} (hc : isAsciiDigit c = false) (hne : c ≠ .char '$') (rest : Text) :
    readPosition (digits ++ c :: rest) = (none, digits ++ c :: rest) := by
  have hdrop : (digits ++ c :: rest).dropWhile isAsciiDigit = c :: rest := by
    rw [List.dropWhile_append_of_pos hdigits]
    simp [hc]
  unfold readPosition
  dsimp only
  rw [hdrop]
  split
  · rename_i heq
    exact absurd (List.cons.inj heq).1 hne
  · rfl

theorem readOne_extend (p : CodePoint → Bool) {s : Text} (h : s ≠ []) (more : Text) :
    readOne p (s ++ more) = ((readOne p s).1, (readOne p s).2 ++ more) := by
  obtain ⟨c, rest, rfl⟩ := List.exists_cons_of_ne_nil h
  simp only [List.cons_append, readOne]
  split <;> rfl

theorem readPrecision_of_ne_point {c : CodePoint} (hc : c ≠ .char '.') (s : Text) :
    readPrecision (c :: s) = (none, c :: s) := by
  unfold readPrecision
  split
  · rename_i heq
    exact absurd (List.cons.inj heq).1 hc
  · rfl

theorem readPrecision_extend {s : Text} (h : ∃ c ∈ s, c ≠ .char '.') (more : Text) :
    readPrecision (s ++ more) = ((readPrecision s).1, (readPrecision s).2 ++ more) := by
  match s with
  | [] => simp at h
  | [c] =>
    have hc : c ≠ .char '.' := by simpa using h
    rw [readPrecision_of_ne_point hc]
    exact readPrecision_of_ne_point hc more
  | c :: d :: rest =>
    by_cases hc : c = .char '.'
    · subst hc
      simp only [List.cons_append, readPrecision]
      split <;> rfl
    · rw [readPrecision_of_ne_point hc]
      exact readPrecision_of_ne_point hc (d :: rest ++ more)

/-- With more text behind it, the same specifier is read. -/
theorem read?_extend {s rest : Text} {found : Specifier} (h : read? s = some (found, rest))
    (more : Text) : read? (s ++ more) = some (found, rest ++ more) := by
  cases s with
  | nil => contradiction
  | cons c s =>
    obtain rfl := eq_percent_of_read?_some h
    obtain ⟨s₁, hs₁⟩ : ∃ s₁, s₁ = (readPosition s).2 := ⟨_, rfl⟩
    obtain ⟨s₂, hs₂⟩ : ∃ s₂, s₂ = (readOne isFlag s₁).2 := ⟨_, rfl⟩
    obtain ⟨s₃, hs₃⟩ : ∃ s₃, s₃ = (readOne isAsciiDigit s₂).2 := ⟨_, rfl⟩
    have hparts := read?_percent s
    simp only [← hs₁, ← hs₂, ← hs₃] at hparts
    rw [hparts] at h
    obtain ⟨⟨conversion, rest'⟩, hread, hpair⟩ := Option.map_eq_some_iff.mp h
    obtain ⟨hconversion, hwf⟩ := Conversion.read?_eq_some hread
    cases hpair
    -- the letter of the conversion is still ahead wherever a part is read
    have hletter : Conversion.IsLetter conversion.letter := conversion.classified
    have ahead₃ : conversion.letter ∈ s₃ := by
      rw [readPrecision_append s₃, hconversion]
      simp [Conversion.text]
    have ahead₂ : conversion.letter ∈ s₂ := by
      rw [readOne_append isAsciiDigit s₂, ← hs₃]
      exact List.mem_append_right _ ahead₃
    have ahead₁ : conversion.letter ∈ s₁ := by
      rw [readOne_append isFlag s₁, ← hs₂]
      exact List.mem_append_right _ ahead₂
    have ahead : conversion.letter ∈ s := by
      rw [readPosition_append s, ← hs₁]
      exact List.mem_append_right _ ahead₁
    rw [List.cons_append, read?_percent]
    simp only [readPosition_extend ⟨_, ahead, hletter.not_isAsciiDigit⟩, ← hs₁,
      readOne_extend isFlag (List.ne_nil_of_mem ahead₁), ← hs₂,
      readOne_extend isAsciiDigit (List.ne_nil_of_mem ahead₂), ← hs₃,
      readPrecision_extend ⟨_, ahead₃, hletter.ne_point⟩, hconversion, List.append_assoc,
      hwf.read?_append, Option.map_some]

end Specifier

end StringCatalog
