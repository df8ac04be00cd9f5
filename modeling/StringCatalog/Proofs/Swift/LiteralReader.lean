import StringCatalog.Proofs.Swift.Delimiter

/-! A reader of Swift literals of one line. Behind the opening number signs and a quotation mark it
goes from left to right: a backslash with the same signs begins an escape or an interpolation, a
quotation mark with them ends the literal, and all else stands for itself. A literal that is written
part by part, with a delimiter that its characters do not break, is read back as its parts. -/

namespace StringCatalog.Swift

/-- What a literal stands for at one place: a character, or the value of a name. -/
inductive LiteralPart where
  | char (c : CodePoint)
  | reference (name : Text)
  deriving DecidableEq

/-- The name that the part refers to. -/
def LiteralPart.name? : LiteralPart → Option Text
  | char _ => none
  | reference name => some name

/-! ### The reader -/

/-- One of the small ASCII letters. -/
def isSmallLetter (c : CodePoint) : Bool := Nat.ble 97 c.toNat && Nat.ble c.toNat 122

/-- A name: a small letter, with letters and digits behind it. -/
def isName : Text → Bool
  | [] => false
  | c :: rest => isSmallLetter c && rest.all fun c => isSmallLetter c || isAsciiDigit c

/-- Reads up to a closing character, which is read too. -/
def readUpTo (close : CodePoint) (s : Text) : Option (Text × Text) :=
  match s.dropWhile (· != close) with
  | [] => none
  | _ :: rest => some (s.takeWhile (· != close), rest)

/-- The character whose number is given by one to eight hexadecimal digits. -/
def scalar? (digits : Text) : Option CodePoint :=
  if 1 ≤ digits.length ∧ digits.length ≤ 8 then
    (Text.hexNat? digits).bind fun n => if n.isValidChar then some (.char (Char.ofNat n)) else none
  else none

/-- The character that an escape of one letter stands for. Without a delimiter there are escapes of
the backslash and the quotation mark too. -/
def shortEscape? (delimiter : Text) : CodePoint → Option CodePoint
  | .char 'n' => some '\n'
  | .char 'r' => some '\r'
  | .char 't' => some '\t'
  | .char '0' => some '\x00'
  | c => if delimiter.isEmpty && (c == .char '\\' || c == .char '"') then some c else none

/-- Reads what follows the backslash and the delimiter of an escape or an interpolation. -/
def readEscape (delimiter : Text) : Text → Option (LiteralPart × Text)
  | .char 'u' :: .char '\x7b' :: s =>
    (readUpTo '\x7d' s).bind fun (digits, rest) => (scalar? digits).map fun c => (.char c, rest)
  | .char '(' :: s =>
    (readUpTo ')' s).bind fun (name, rest) =>
      if isName name then some (.reference name, rest) else none
  | c :: s => (shortEscape? delimiter c).map fun c => (.char c, s)
  | [] => none

theorem length_of_readUpTo {close : CodePoint} {s part rest : Text}
    (h : readUpTo close s = some (part, rest)) : rest.length < s.length := by
  unfold readUpTo at h
  split at h
  · contradiction
  · rename_i hdrop
    cases h
    have := (List.dropWhile_suffix (l := s) (· != close)).length_le
    rw [hdrop, List.length_cons] at this
    omega

theorem length_of_readEscape {delimiter s rest : Text} {part : LiteralPart}
    (h : readEscape delimiter s = some (part, rest)) : rest.length < s.length := by
  unfold readEscape at h
  split at h
  · obtain ⟨⟨digits, rest'⟩, hread, h⟩ := Option.bind_eq_some_iff.mp h
    obtain ⟨c, -, h⟩ := Option.map_eq_some_iff.mp h
    cases h
    have := length_of_readUpTo hread
    simp only [List.length_cons]
    omega
  · obtain ⟨⟨name, rest'⟩, hread, h⟩ := Option.bind_eq_some_iff.mp h
    have := length_of_readUpTo hread
    dsimp only at h
    split at h
    · cases h
      simp only [List.length_cons]
      omega
    · contradiction
  · obtain ⟨c, -, h⟩ := Option.map_eq_some_iff.mp h
    cases h
    simp
  · contradiction

/-- Reads the inside of a literal and its end. A literal of one line holds no line breaks. -/
def readBody (delimiter : Text) : Text → Option (List LiteralPart × Text)
  | [] => none
  | c :: s =>
    if c = .char '"' ∧ delimiter <+: s then some ([], s.drop delimiter.length)
    else if c = .char '\\' ∧ delimiter <+: s then
      match _ : readEscape delimiter (s.drop delimiter.length) with
      | some (part, rest) =>
        (readBody delimiter rest).map fun (parts, behind) => (part :: parts, behind)
      | none => none
    else if isLiteralBreak c then none
    else (readBody delimiter s).map fun (parts, behind) => (.char c :: parts, behind)
termination_by s => s.length
decreasing_by
  · rename_i hread
    have := length_of_readEscape hread
    simp only [List.length_drop, List.length_cons] at this ⊢
    omega
  · simp

/-- Reads a literal: its parts, and what follows it. -/
def readLiteral (s : Text) : Option (List LiteralPart × Text) :=
  let delimiter := s.takeWhile (· == .char '#')
  match s.drop delimiter.length with
  | .char '"' :: rest => readBody delimiter rest
  | _ => none

/-! ### Parts as written -/

namespace LiteralPart

/-- The part inside a literal with a delimiter. -/
def written (delimiter : Text) : LiteralPart → Text
  | char c => escapeChar delimiter false c
  | reference name => .char '\\' :: (delimiter ++ .char '(' :: (name ++ [.char ')']))

/-- The characters of the part that a delimiter must not meet. -/
def verbatim : LiteralPart → Text
  | char c => [c]
  | reference _ => []

/-- A reference is to a name. -/
def IsLegal : LiteralPart → Prop
  | char _ => True
  | reference name => isName name = true

end LiteralPart

theorem readUpTo_append {close : CodePoint} {part : Text} (h : close ∉ part) (rest : Text) :
    readUpTo close (part ++ close :: rest) = some (part, rest) := by
  have hpart : ∀ c ∈ part, (c != close) = true := fun c hc => by
    simp only [bne_iff_ne, ne_eq]
    rintro rfl
    exact h hc
  unfold readUpTo
  rw [List.dropWhile_append_of_pos hpart, List.takeWhile_append_of_pos hpart]
  simp

theorem closingBrace_notMem_toDigits (n : Nat) :
    CodePoint.char '\x7d' ∉ Text.ofChars (Nat.toDigits 16 n) := by
  have hdigit : ∀ d < 16, CodePoint.char '\x7d' ≠ .char (Nat.digitChar d) := by decide
  intro hmem
  obtain ⟨d, hd, heq⟩ := Text.exists_digitChar_of_mem hmem
  exact hdigit d hd heq

theorem scalar?_toDigits (c : Char) :
    scalar? (Text.ofChars (Nat.toDigits 16 c.toNat)) = some (.char c) := by
  have hpos : 0 < (Nat.toDigits 16 c.toNat).length := Nat.length_toDigits_pos
  have hvalid : c.toNat.isValidChar := c.valid
  have hshort : (Nat.toDigits 16 c.toNat).length ≤ 8 := by
    rw [Nat.length_toDigits_le_iff (by decide) (by decide)]
    rcases hvalid with hlow | hhigh <;> omega
  rw [scalar?, if_pos (by simp only [Text.ofChars, List.length_map]; omega), Text.hexNat?_toDigits]
  simp [hvalid]

/-- The escape of a character is read back as the character. -/
theorem readEscape_escapeCode (delimiter : Text) (c : Char) (rest : Text) :
    readEscape delimiter (escapeCode (.char c) ++ rest) = some (.char (.char c), rest) := by
  unfold escapeCode
  split_ifs with hreturn hfeed htab hnull
  · rw [hreturn]
    rfl
  · rw [hfeed]
    rfl
  · rw [htab]
    rfl
  · rw [hnull]
    rfl
  · have hread := readUpTo_append (closingBrace_notMem_toDigits c.toNat) rest
    rw [Text.hexOfNat_one]
    simp only [CodePoint.toNat, Text.ofString, List.append_assoc]
    change (readUpTo _ (Text.ofChars (Nat.toDigits 16 c.toNat) ++ .char '\x7d' :: rest)).bind _ = _
    rw [hread]
    simp [scalar?_toDigits]

theorem notMem_of_isName {name : Text} (h : isName name = true) : CodePoint.char ')' ∉ name := by
  cases name with
  | nil => simp
  | cons c rest =>
    simp only [isName, Bool.and_eq_true, List.all_eq_true, Bool.or_eq_true] at h
    intro hmem
    rcases List.mem_cons.mp hmem with rfl | hrest
    · exact absurd h.1 (by decide)
    · exact absurd (h.2 _ hrest) (by decide)

/-- The interpolation of a name is read back as a reference. -/
theorem readEscape_reference (delimiter : Text) {name : Text} (h : isName name = true)
    (rest : Text) :
    readEscape delimiter (.char '(' :: (name ++ .char ')' :: rest)) =
      some (.reference name, rest) := by
  change (readUpTo ')' (name ++ .char ')' :: rest)).bind _ = _
  rw [readUpTo_append (notMem_of_isName h)]
  simp [h]

/-! ### The inside of a literal -/

theorem readBody_end (delimiter s : Text) :
    readBody delimiter (.char '"' :: (delimiter ++ s)) = some ([], s) := by
  rw [readBody, if_pos ⟨rfl, List.prefix_append delimiter s⟩, List.drop_left]

theorem readBody_escape {delimiter s rest : Text} {part : LiteralPart}
    (h : readEscape delimiter s = some (part, rest)) :
    readBody delimiter (.char '\\' :: (delimiter ++ s)) =
      (readBody delimiter rest).map fun (parts, behind) => (part :: parts, behind) := by
  rw [readBody, if_neg (by simp), if_pos ⟨rfl, List.prefix_append delimiter s⟩]
  split
  · rename_i hread
    rw [List.drop_left, h] at hread
    cases hread
    rfl
  · rename_i hread
    rw [List.drop_left, h] at hread
    contradiction

theorem readBody_char {delimiter s : Text} {c : CodePoint}
    (hquote : c = .char '"' → ¬delimiter <+: s) (hbackslash : c = .char '\\' → ¬delimiter <+: s)
    (hbreak : isLiteralBreak c = false) :
    readBody delimiter (c :: s) =
      (readBody delimiter s).map fun (parts, behind) => (.char c :: parts, behind) := by
  rw [readBody, if_neg fun h => hquote h.1 h.2, if_neg fun h => hbackslash h.1 h.2, hbreak]
  rfl

theorem isLiteralBreak_of_not_needsEscaping {c : CodePoint} (h : needsEscaping c false = false) :
    isLiteralBreak c = false := by
  rw [needsEscaping, Bool.or_eq_false_iff] at h
  exact h.1

theorem toNat_le_of_isLiteralBreak {c : CodePoint} (h : isLiteralBreak c = true) :
    c.toNat ≤ 0x2029 := by
  simp only [isLiteralBreak, Bool.or_eq_true, Bool.and_eq_true, decide_eq_true_eq,
    beq_iff_eq] at h
  omega

/-- A code point that is escaped is a character. -/
theorem exists_char_of_needsEscaping {c : CodePoint} (h : needsEscaping c false = true) :
    ∃ d, c = .char d := by
  cases c with
  | char d => exact ⟨d, rfl⟩
  | half i =>
    rw [needsEscaping, if_neg (by simp only [CodePoint.toNat]; omega), Bool.or_false] at h
    have := toNat_le_of_isLiteralBreak h
    simp only [CodePoint.toNat] at this
    omega

namespace LiteralPart

variable {delimiter : Text} {c : CodePoint}

theorem written_of_needsEscaping (h : needsEscaping c false = true) :
    (char c).written delimiter = .char '\\' :: (delimiter ++ escapeCode c) :=
  if_pos h

theorem written_of_not_needsEscaping (h : needsEscaping c false = false) :
    (char c).written delimiter = [c] :=
  if_neg (by simp [h])

theorem written_reference (name : Text) : (reference name).written delimiter =
    .char '\\' :: (delimiter ++ .char '(' :: (name ++ [.char ')'])) := rfl

end LiteralPart

/-- Number signs at the beginning of written parts are characters of the parts. -/
theorem signs_prefix_verbatim {delimiter : Text} {n : Nat} {parts : List LiteralPart} {s : Text}
    (h : signs n <+: parts.flatMap (·.written delimiter) ++ .char '"' :: s) :
    signs n <+: parts.flatMap LiteralPart.verbatim := by
  induction n generalizing parts with
  | zero => exact List.nil_prefix
  | succ n ih =>
    rw [signs_succ] at h ⊢
    cases parts with
    | nil => simp at h
    | cons part parts =>
      rw [List.flatMap_cons] at h ⊢
      cases part with
      | reference name => simp [LiteralPart.written_reference] at h
      | char c =>
        cases hescape : needsEscaping c false with
        | true => simp [LiteralPart.written_of_needsEscaping hescape] at h
        | false =>
          rw [LiteralPart.written_of_not_needsEscaping hescape, List.append_assoc,
            List.singleton_append, List.cons_prefix_cons] at h
          rw [LiteralPart.verbatim, List.singleton_append, List.cons_prefix_cons]
          exact ⟨h.1, ih h.2⟩

/-- The inside of a literal is read back as the parts that it is written from, if their characters
do not break its delimiter. -/
theorem readBody_written {n : Nat} {parts : List LiteralPart}
    (hlegal : ∀ part ∈ parts, part.IsLegal)
    (h : breaksDelimiter (parts.flatMap LiteralPart.verbatim) (signs n) = false) (s : Text) :
    readBody (signs n) (parts.flatMap (·.written (signs n)) ++ .char '"' :: (signs n ++ s)) =
      some (parts, s) := by
  induction parts with
  | nil => exact readBody_end _ s
  | cons part parts ih =>
    rw [List.flatMap_cons] at h ⊢
    have hrest : breaksDelimiter (parts.flatMap LiteralPart.verbatim) (signs n) = false := by
      rw [Bool.eq_false_iff] at h ⊢
      exact fun hbreaks => h (breaksDelimiter_append hbreaks _)
    have ih := ih (fun p hp => hlegal p (List.mem_cons_of_mem part hp)) hrest
    rw [List.append_assoc]
    cases part with
    | reference name =>
      have hread := readEscape_reference (signs n) (hlegal (.reference name) List.mem_cons_self)
      rw [LiteralPart.written_reference]
      simp only [List.cons_append, List.append_assoc, List.nil_append]
      rw [readBody_escape (hread _), ih]
      rfl
    | char c =>
      cases hescape : needsEscaping c false with
      | true =>
        obtain ⟨d, rfl⟩ := exists_char_of_needsEscaping hescape
        have hread := readEscape_escapeCode (signs n) d
        rw [LiteralPart.written_of_needsEscaping hescape, List.cons_append, List.append_assoc,
          readBody_escape (hread _), ih]
        rfl
      | false =>
        -- a delimiter behind this character would be there in the characters of the parts too
        have hverbatim : c = .char '"' ∨ c = .char '\\' →
            ¬signs n <+: parts.flatMap (·.written (signs n)) ++ .char '"' :: (signs n ++ s) := by
          intro hc hprefix
          rw [Bool.eq_false_iff] at h
          exact h (breaksDelimiter_cons hc (signs_prefix_verbatim hprefix))
        rw [LiteralPart.written_of_not_needsEscaping hescape, List.singleton_append,
          readBody_char (fun hc => hverbatim (Or.inl hc)) (fun hc => hverbatim (Or.inr hc))
            (isLiteralBreak_of_not_needsEscaping hescape), ih]
        rfl

/-- The number signs in front of a quotation mark are those that a literal opens with. -/
theorem takeWhile_signs (n : Nat) (s : Text) :
    (signs n ++ .char '"' :: s).takeWhile (· == .char '#') = signs n := by
  have hsigns : ∀ c ∈ signs n, (c == .char '#') = true := fun c hc => by
    rw [List.eq_of_mem_replicate hc]
    rfl
  rw [List.takeWhile_append_of_pos hsigns, List.takeWhile_cons_of_neg (by decide), List.append_nil]

/-- A literal with number signs as its delimiter is read back as its parts. -/
theorem readLiteral_written {n : Nat} {parts : List LiteralPart}
    (hlegal : ∀ part ∈ parts, part.IsLegal)
    (h : breaksDelimiter (parts.flatMap LiteralPart.verbatim) (signs n) = false) (s : Text) :
    readLiteral (signs n ++ .char '"' :: (parts.flatMap (·.written (signs n)) ++
      .char '"' :: (signs n ++ s))) = some (parts, s) := by
  simp only [readLiteral, takeWhile_signs, List.drop_left]
  exact readBody_written hlegal h s

end StringCatalog.Swift
