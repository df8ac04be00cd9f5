import StringCatalog.Proofs.Swift.Identifier

/-! Identifiers and their bare names. An identifier made from any component is a name that a digit
does not begin and that holds nothing of ASCII but letters, digits and underscores. It is in
backticks exactly if this name is a keyword, so that bare names tell identifiers apart. -/

namespace StringCatalog

/-- A letter or digit of ASCII, or any character beyond it. -/
def isWordNumber (n : Nat) : Bool :=
  Nat.ble 0x80 n || (Nat.ble 0x30 n && Nat.ble n 0x39) || (Nat.ble 0x41 n && Nat.ble n 0x5A) ||
    (Nat.ble 0x61 n && Nat.ble n 0x7A)

/-- The numbers from one to another, with both, are beyond ASCII or in one of its ranges of letters
and digits. -/
def isWordRange (first last : Int) : Bool :=
  decide (0x80 ≤ first) || (decide (0x30 ≤ first) && decide (last ≤ 0x39)) ||
    (decide (0x41 ≤ first) && decide (last ≤ 0x5A)) ||
    (decide (0x61 ≤ first) && decide (last ≤ 0x7A))

theorem isWordNumber_of_isWordRange {first last : Int} (h : isWordRange first last = true) {n : Nat}
    (hfirst : first ≤ n) (hlast : n ≤ last) : isWordNumber n = true := by
  simp only [isWordRange, Bool.or_eq_true, Bool.and_eq_true, decide_eq_true_eq] at h
  simp only [isWordNumber, Bool.or_eq_true, Bool.and_eq_true, Nat.ble_eq]
  omega

/-! ### What is asked of the tables -/

theorem isWordRange_alphanumerics :
    ∀ range ∈ alphanumerics.ranges, isWordRange range.1 range.2 = true := by
  decide +kernel

theorem isWordRange_runs : ∀ run ∈ lowerRuns ++ upperRuns,
    isWordRange (run.first + run.shift) (run.last + run.shift) = true := by
  decide +kernel

theorem isWordNumber_upperSequences :
    ∀ pair ∈ upperSequences, ∀ code ∈ pair.2, isWordNumber code = true := by
  decide +kernel

/-- Of ASCII, the letters and numerals and their forms in the other case are letters and digits. -/
theorem isWordNumber_of_isAlphanumeric (c : CodePoint) (h : isAlphanumeric c = true) :
    isWordNumber c.toNat = true ∧ (∀ d ∈ lowerChar c, isWordNumber d.toNat = true) ∧
      ∀ d ∈ upperChar c, isWordNumber d.toNat = true := by
  have hc : isWordNumber c.toNat = true := by
    obtain ⟨range, hmem, hrange⟩ := List.any_eq_true.mp h
    simp only [Bool.and_eq_true, Nat.ble_eq] at hrange
    exact isWordNumber_of_isWordRange (isWordRange_alphanumerics range hmem)
      (by omega) (by omega)
  refine ⟨hc, ?_, ?_⟩
  · exact prop_lowerChar (p := fun n => isWordNumber n = true) (fun run hrun _ =>
      isWordNumber_of_isWordRange (isWordRange_runs run (List.mem_append_left _ hrun)))
      (by decide) hc
  · exact prop_upperChar (p := fun n => isWordNumber n = true) (fun run hrun _ =>
      isWordNumber_of_isWordRange (isWordRange_runs run (List.mem_append_right _ hrun)))
      isWordNumber_upperSequences hc

/-! ### Names in backticks -/

namespace Text

variable {p : CodePoint → Bool} {text : Text}

/-- One character of the class at either end of a text without any is what trimming takes away. -/
theorem trimBy_between {c : CodePoint} (hc : p c = true) (h : ∀ d ∈ text, p d = false)
    (hne : text ≠ []) : trimBy p (c :: (text ++ [c])) = text := by
  obtain ⟨d, rest, rfl⟩ := List.exists_cons_of_ne_nil hne
  have hstart : (c :: (d :: rest ++ [c])).dropWhile p = d :: rest ++ [c] := by
    rw [List.dropWhile_cons_of_pos hc, List.cons_append,
      List.dropWhile_cons_of_neg (by simp [h d List.mem_cons_self])]
  have hend := trimBy_self h
  have hkept : (d :: rest).dropWhile p = d :: rest :=
    List.dropWhile_cons_of_neg (by simp [h d List.mem_cons_self])
  rw [trimBy, hkept] at hend
  rw [trimBy, hstart, trimEndBy, List.reverse_append, List.reverse_singleton,
    List.singleton_append, List.dropWhile_cons_of_pos hc]
  exact hend

end Text

namespace Swift

/-- A letter, a digit or an underscore of ASCII. -/
def isAsciiWord (c : CodePoint) : Bool :=
  isAsciiDigit c || (Nat.ble 0x41 c.toNat && Nat.ble c.toNat 0x5A) ||
    (Nat.ble 0x61 c.toNat && Nat.ble c.toNat 0x7A) || c == '_'

/-- What an identifier is without backticks around it. -/
structure IsBareName (name : Text) : Prop where
  nonempty : name ≠ []
  first : ∀ c ∈ name.head?, isAnyDigit c = false
  ascii : ∀ c ∈ name, c.toNat < 0x80 → isAsciiWord c = true

theorem IsBareName.notMem {name : Text} (h : IsBareName name) : backtick ∉ name :=
  fun hmem => absurd (h.ascii backtick hmem (by decide)) (by decide)

/-- A name as an identifier: a keyword is put in backticks. -/
def enclosed (name : Text) : Text :=
  if name ∈ keywords then backtick :: (name ++ [backtick]) else name

theorem enclosed_eq_quoted_iff {name : Text} :
    enclosed name = backtick :: (name ++ [backtick]) ↔ name ∈ keywords := by
  by_cases hkeyword : name ∈ keywords
  · simp [enclosed, hkeyword]
  · have hlonger : name ≠ backtick :: (name ++ [backtick]) := by
      intro heq
      have hlength := congrArg List.length heq
      simp only [List.length_cons, List.length_append, List.length_nil] at hlength
      omega
    simp [enclosed, hkeyword, hlonger]

theorem enclosed_eq_self_iff {name : Text} : enclosed name = name ↔ name ∉ keywords := by
  by_cases hkeyword : name ∈ keywords
  · have hquoted := enclosed_eq_quoted_iff.mpr hkeyword
    have hlonger : enclosed name ≠ name := by
      intro heq
      have hlength := congrArg List.length (heq.symm.trans hquoted)
      simp only [List.length_cons, List.length_append, List.length_nil] at hlength
      omega
    simp [hkeyword, hlonger]
  · simp [enclosed, hkeyword]

theorem bare_enclosed {name : Text} (h : IsBareName name) : bare (enclosed name) = name := by
  have hplain : ∀ c ∈ name, (c == backtick) = false := by
    intro c hc
    have hne : c ≠ backtick := fun heq => h.notMem (heq ▸ hc)
    simp [hne]
  unfold enclosed bare
  split
  · exact Text.trimBy_between (by simp) hplain h.nonempty
  · exact Text.trimBy_self hplain

theorem isAsciiWord_of_isWordNumber {c : CodePoint} (h : isWordNumber c.toNat = true)
    (hc : c.toNat < 0x80) : isAsciiWord c = true := by
  simp only [isWordNumber, Bool.or_eq_true, Bool.and_eq_true, Nat.ble_eq] at h
  simp only [isAsciiWord, isAsciiDigit, Bool.or_eq_true, Bool.and_eq_true, Nat.ble_eq]
  omega

/-- Quoting makes a bare name of joined words, and puts it in backticks if it is a keyword. -/
theorem exists_enclosed {joined : Text} (h : ∀ c ∈ joined, isWordNumber c.toNat = true) :
    ∃ name, IsBareName name ∧ quoteIfNeeded joined = enclosed name := by
  have hunderscore : ∀ rest : Text, CodePoint.char '_' :: rest ∉ keywords := by
    have hnone : ∀ k ∈ keywords, k.head? ≠ some (.char '_') := by decide
    exact fun rest hmem => hnone _ hmem rfl
  have hascii : ∀ c ∈ joined, c.toNat < 0x80 → isAsciiWord c = true :=
    fun c hc => isAsciiWord_of_isWordNumber (h c hc)
  unfold quoteIfNeeded
  split
  · refine ⟨"_", ⟨by decide, by decide, by decide⟩, ?_⟩
    exact (if_neg (hunderscore [])).symm
  · rename_i c rest
    split
    · -- the underscore comes before the digit, so no keyword can begin here
      refine ⟨.char '_' :: c :: rest, ⟨by simp, by simp; decide, ?_⟩, ?_⟩
      · rw [List.forall_mem_cons]
        exact ⟨fun _ => by decide, hascii⟩
      · exact (if_neg (hunderscore _)).symm
    · rename_i hdigit
      refine ⟨c :: rest, ⟨by simp, by simpa using hdigit, hascii⟩, ?_⟩
      simp only [enclosed, List.contains_iff_mem, List.cons_append]

/-- An identifier of a component, as a member or as a nested type. -/
def IsIdentifier (x : Text) : Prop :=
  ∃ component, x = variableIdentifier component ∨ x = typeIdentifier component

theorem IsIdentifier.exists_enclosed {x : Text} (hx : IsIdentifier x) :
    ∃ name, IsBareName name ∧ x = enclosed name := by
  obtain ⟨component, hx⟩ := hx
  obtain ⟨⟨v, hv, hvword⟩, t, ht, htword⟩ := exists_joined isWordNumber_of_isAlphanumeric component
  rcases hx with rfl | rfl
  · rw [hv]
    exact Swift.exists_enclosed hvword
  · rw [ht]
    exact Swift.exists_enclosed htword

/-- An identifier is a bare name, or a bare name between two backticks if that is a keyword. So two
identifiers are the same if their bare names are. -/
theorem bareName_of_identifier {x : Text} (hx : IsIdentifier x) :
    x ≠ [] ∧ IsBareName (bare x) ∧ backtick ∉ bare x ∧
      (x = backtick :: (bare x ++ [backtick]) ↔ bare x ∈ keywords) ∧
      (x = bare x ↔ bare x ∉ keywords) ∧
      ∀ y, IsIdentifier y → (bare x = bare y ↔ x = y) := by
  obtain ⟨name, hname, rfl⟩ := hx.exists_enclosed
  have hbare := bare_enclosed hname
  rw [hbare]
  refine ⟨fun hnil => ?_, hname, hname.notMem, enclosed_eq_quoted_iff, enclosed_eq_self_iff,
    fun y hy => ?_⟩
  · rw [hnil] at hbare
    exact hname.nonempty hbare.symm
  · obtain ⟨other, hother, rfl⟩ := hy.exists_enclosed
    rw [bare_enclosed hother]
    refine ⟨congrArg enclosed, fun heq => ?_⟩
    rw [← hbare, heq, bare_enclosed hother]

theorem bareName_of_identifier_class :
    let x := variableIdentifier "Class"
    let y := typeIdentifier "2nd class"
    IsIdentifier x ∧ IsIdentifier y ∧ x = "\x60class\x60" ∧ bare x = "class" ∧ y = "_2ndClass" ∧
      IsBareName "class" ∧ ((("class" : Text) = bare y) ↔ x = y) := by
  intro x y
  have hx : IsIdentifier x := ⟨_, Or.inl rfl⟩
  have hy : IsIdentifier y := ⟨_, Or.inr rfl⟩
  have hquoted : x = "\x60class\x60" := by decide +kernel
  have hbare : bare x = "class" := by rw [hquoted]; decide
  obtain ⟨-, hname, -, -, -, hiff⟩ := bareName_of_identifier hx
  rw [hbare] at hname hiff
  exact ⟨hx, hy, hquoted, hbare, by decide +kernel, hname, hiff y hy⟩

end Swift

end StringCatalog
