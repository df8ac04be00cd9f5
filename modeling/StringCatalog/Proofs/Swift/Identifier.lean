import StringCatalog.Proofs.Text.LetterCase
import StringCatalog.Proofs.Text.Lines
import StringCatalog.Swift.Identifier

/-! The characters of identifiers. An identifier made from any component is made of letters, digits
and their forms in the other case, underscores and backticks, so that it can be told from the
punctuation and the line breaks around it. -/

namespace StringCatalog

/-- The numbers of characters that stand between names, or that end lines: all those below the
digits, the colon, and the breaks beyond ASCII. -/
def isSeparatorNumber (n : Nat) : Bool :=
  Nat.blt n 0x30 || n == 0x3A || n == 0x85 || n == 0x2028 || n == 0x2029

/-- No character of the text separates it from others. -/
def Text.IsUnbroken (text : Text) : Prop := ∀ c ∈ text, isSeparatorNumber c.toNat = false

instance : DecidablePred Text.IsUnbroken := fun text =>
  inferInstanceAs (Decidable (∀ c ∈ text, isSeparatorNumber c.toNat = false))

namespace Text.IsUnbroken

variable {s t : Text}

theorem append (hs : s.IsUnbroken) (ht : t.IsUnbroken) : (s ++ t).IsUnbroken := by
  intro c hc
  rcases List.mem_append.mp hc with hleft | hright
  · exact hs c hleft
  · exact ht c hright

theorem isLine (h : s.IsUnbroken) : s.IsLine := by
  intro c hc
  have hnumber := h c hc
  simp only [isSeparatorNumber, Bool.or_eq_false_iff, beq_eq_false_iff_ne] at hnumber
  have hlow : 0x30 ≤ c.toNat := by
    have := hnumber.1.1.1.1
    rw [Bool.eq_false_iff, ne_eq, Nat.blt_eq] at this
    omega
  simp only [isLineBreak, Bool.or_eq_false_iff, Bool.and_eq_false_iff, decide_eq_false_iff_not,
    beq_eq_false_iff_ne]
  omega

theorem notMem (h : s.IsUnbroken) {c : CodePoint} (hc : isSeparatorNumber c.toNat = true) :
    c ∉ s := fun hmem => by simp [h c hmem] at hc

end Text.IsUnbroken

/-! ### Case mappings -/

/-- The separators that are not below the digits. -/
def highSeparators : List Nat := [0x3A, 0x85, 0x2028, 0x2029]

/-- The numbers from one to another, with both, are those of characters of names. -/
def isNameRange (first last : Int) : Bool :=
  decide (0x30 ≤ first) && decide (last ≤ 0x10FFFF) &&
    highSeparators.all fun m => !(decide (first ≤ m) && decide ((m : Int) ≤ last))

theorem isSeparatorNumber_of_isNameRange {first last : Int} (h : isNameRange first last = true)
    {n : Nat} (hfirst : first ≤ n) (hlast : n ≤ last) : isSeparatorNumber n = false := by
  simp only [isNameRange, highSeparators, Bool.and_eq_true, decide_eq_true_eq, List.all_cons,
    List.all_nil, Bool.not_eq_true', Bool.and_eq_false_iff, decide_eq_false_iff_not] at h
  simp only [isSeparatorNumber, Bool.or_eq_false_iff, beq_eq_false_iff_ne]
  rw [Bool.eq_false_iff, ne_eq, Nat.blt_eq]
  omega

theorem isNameRange_alphanumerics :
    ∀ range ∈ alphanumerics.ranges, isNameRange range.1 range.2 = true := by
  decide +kernel

theorem isNameRange_runs : ∀ run ∈ lowerRuns ++ upperRuns,
    isNameRange (run.first + run.shift) (run.last + run.shift) = true := by
  decide +kernel

theorem isNameRange_upperSequences :
    ∀ pair ∈ upperSequences, ∀ code ∈ pair.2, isNameRange code code = true := by
  decide +kernel

theorem isSeparatorNumber_of_isAlphanumeric {c : CodePoint} (h : isAlphanumeric c = true) :
    isSeparatorNumber c.toNat = false := by
  obtain ⟨range, hmem, hrange⟩ := List.any_eq_true.mp h
  simp only [Bool.and_eq_true, Nat.ble_eq] at hrange
  exact isSeparatorNumber_of_isNameRange (isNameRange_alphanumerics range hmem)
    (by omega) (by omega)

theorem isUnbroken_lowerChar {c : CodePoint} (hc : isSeparatorNumber c.toNat = false) :
    (lowerChar c).IsUnbroken :=
  prop_lowerChar (fun run hrun _ => isSeparatorNumber_of_isNameRange
    (isNameRange_runs run (List.mem_append_left _ hrun))) (by decide) hc

theorem isUnbroken_upperChar {c : CodePoint} (hc : isSeparatorNumber c.toNat = false) :
    (upperChar c).IsUnbroken := by
  refine prop_upperChar (fun run hrun _ => isSeparatorNumber_of_isNameRange
    (isNameRange_runs run (List.mem_append_right _ hrun))) (fun pair hpair code hcode => ?_) hc
  exact isSeparatorNumber_of_isNameRange (isNameRange_upperSequences pair hpair code hcode)
    (by omega) (by omega)

/-! ### Identifiers -/

namespace Swift

/-- A word is made of letters and numerals. -/
theorem isAlphanumeric_of_mem_words {component word : Text} (h : word ∈ words component)
    {c : CodePoint} (hc : c ∈ word) : isAlphanumeric c = true := by
  have hsplit := (Text.mem_of_mem_splitWhere (List.mem_filter.mp h).1 hc).2
  simpa using hsplit

section Joined

/- What holds of letters and numerals and of their forms in the other case. -/
variable {p : CodePoint → Prop}
  (hp : ∀ c, isAlphanumeric c = true →
    p c ∧ (∀ d ∈ lowerChar c, p d) ∧ ∀ d ∈ upperChar c, p d)

include hp

theorem forall_mem_lowerFirst {word : Text} (h : ∀ c ∈ word, isAlphanumeric c = true) :
    ∀ d ∈ word.lowerFirst, p d := by
  cases word with
  | nil => simp [Text.lowerFirst]
  | cons c rest =>
    intro d hd
    rcases List.mem_append.mp hd with hfirst | hrest
    · exact (hp c (h c List.mem_cons_self)).2.1 d hfirst
    · exact (hp d (h d (List.mem_cons_of_mem c hrest))).1

theorem forall_mem_upperFirst {word : Text} (h : ∀ c ∈ word, isAlphanumeric c = true) :
    ∀ d ∈ word.upperFirst, p d := by
  cases word with
  | nil => simp [Text.upperFirst]
  | cons c rest =>
    intro d hd
    rcases List.mem_append.mp hd with hfirst | hrest
    · exact (hp c (h c List.mem_cons_self)).2.2 d hfirst
    · exact (hp d (h d (List.mem_cons_of_mem c hrest))).1

/-- The words of a component that an identifier is made of, joined. -/
theorem exists_joined (component : Text) :
    (∃ joined, variableIdentifier component = quoteIfNeeded joined ∧ ∀ c ∈ joined, p c) ∧
    ∃ joined, typeIdentifier component = quoteIfNeeded joined ∧ ∀ c ∈ joined, p c := by
  have hwords : ∀ word ∈ words component, ∀ c ∈ word, isAlphanumeric c = true :=
    fun _ hword _ hc => isAlphanumeric_of_mem_words hword hc
  unfold variableIdentifier typeIdentifier
  cases hparts : words component with
  | nil => exact ⟨⟨[], rfl, by simp⟩, [], rfl, by simp⟩
  | cons first rest =>
    rw [hparts, List.forall_mem_cons] at hwords
    have hrest : ∀ c ∈ rest.flatMap Text.upperFirst, p c := by
      intro c hc
      obtain ⟨word, hword, hc⟩ := List.mem_flatMap.mp hc
      exact forall_mem_upperFirst hp (hwords.2 word hword) c hc
    refine ⟨⟨_, rfl, fun c hc => ?_⟩, _, rfl, fun c hc => ?_⟩
    · rcases List.mem_append.mp hc with hfirst | hlater
      · exact forall_mem_lowerFirst hp hwords.1 c hfirst
      · exact hrest c hlater
    · rcases List.mem_append.mp hc with hfirst | hlater
      · exact (hp c (hwords.1 c hfirst)).1
      · exact hrest c hlater

end Joined

theorem isUnbroken_quoteIfNeeded {joined : Text} (h : joined.IsUnbroken) :
    (quoteIfNeeded joined).IsUnbroken := by
  have hunderscore : Text.IsUnbroken [.char '_'] := by decide
  have hbacktick : Text.IsUnbroken [backtick] := by decide
  unfold quoteIfNeeded
  split
  · exact hunderscore
  · rename_i c rest
    split
    · exact hunderscore.append h
    · split
      · exact (hbacktick.append h).append hbacktick
      · exact h

theorem isUnbroken_of_isAlphanumeric (c : CodePoint) (h : isAlphanumeric c = true) :
    isSeparatorNumber c.toNat = false ∧ (lowerChar c).IsUnbroken ∧ (upperChar c).IsUnbroken :=
  have hc := isSeparatorNumber_of_isAlphanumeric h
  ⟨hc, isUnbroken_lowerChar hc, isUnbroken_upperChar hc⟩

theorem isUnbroken_variableIdentifier (component : Text) :
    (variableIdentifier component).IsUnbroken := by
  obtain ⟨joined, hjoined, h⟩ := (exists_joined isUnbroken_of_isAlphanumeric component).1
  rw [hjoined]
  exact isUnbroken_quoteIfNeeded h

theorem isUnbroken_typeIdentifier (component : Text) : (typeIdentifier component).IsUnbroken := by
  obtain ⟨joined, hjoined, h⟩ := (exists_joined isUnbroken_of_isAlphanumeric component).2
  rw [hjoined]
  exact isUnbroken_quoteIfNeeded h

end Swift

end StringCatalog
